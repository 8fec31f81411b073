import FormDesign.Proofs.Image.Cache

/-!
# Calls to an image cache

A cache is used by calls, one after the other, while files come and go between them. An asset that
was taken in stays the same for as long as the cache lives, its bytes and their time aside, and a
call that fails or finds nothing changes nothing.

* `Cache.run_of_isVain`: the calls that leave a cache as it is
* `Cache.KeptBy.after`: what the operations keep is kept by any calls
* `Cache.sound_after`: what holds of a cache after any calls
-/

namespace FormDesign

/-- The other asset is the same one, with the same bytes or read again since. -/
def Asset.SameAs (a b : Asset) : Prop :=
  b = { a with payload := b.payload, sourceTime := b.sourceTime }

namespace Cache

/-! ## Calls -/

/-- A call to a cache. Assets that were answered before are told by their identity. -/
inductive Call
  | resolve (d : ImageDescription)
  | resolveText (text : String)
  | get (filename : String)
  | isStale (id : Nat)
  | reread (id : Nat)

/-- What a call answers. -/
inductive Answer
  | resolved (r : Except Fault (Option Asset))
  | found (a : Option Asset)
  | stale (b : Bool)
  | reread (r : Except Fault Unit)

/-- Whether the answer is a fault, or that there is no asset. -/
def Answer.isVain : Answer → Bool
  | .resolved (.error _) | .resolved (.ok none) | .found none | .reread (.error _) => true
  | .resolved (.ok (some _)) | .found (some _) | .stale _ | .reread (.ok ()) => false

namespace Call

/-- Makes a call with the files as they are now. -/
def run (source : FileSource) (c : Cache) : Call → Answer × Cache
  | .resolve d =>
    let (r, c) := c.resolve source d
    (.resolved r, c)
  | .resolveText text =>
    let (r, c) := c.resolveText source text
    (.resolved r, c)
  | .get filename => (.found (c.get? filename), c)
  | .isStale id => (.stale ((c.asset? id).any (Cache.isStale source)), c)
  | .reread id =>
    let (r, c) := c.reread source id
    (.reread r, c)

/-- What a call resolves, if it does. -/
def description? : Call → Option ImageDescription
  | .resolve d => some d
  | .resolveText text => ImageDescription.parse? text
  | .get _ | .isStale _ | .reread _ => none

end Call

/-- The cache after calls, each of them with the files as they are when it is made. -/
def after (calls : List (FileSource × Call)) (c : Cache) : Cache :=
  calls.foldl (fun c (source, call) => (call.run source c).2) c

variable {source : FileSource} {c : Cache} {a b : Asset} {d : ImageDescription}

/-! ## What a call does -/

/-- Resolving leaves a cache as it is, or answers with the asset that it takes in. -/
theorem resolve_cases (source : FileSource) (d : ImageDescription) (c : Cache) :
    (c.resolve source d).2 = c ∨ ∃ a, (c.resolve source d).1 = .ok (some a) := by
  unfold resolve
  split
  · exact Or.inl rfl
  · split
    · exact Or.inl rfl
    · split
      · exact Or.inl rfl
      · split
        · exact Or.inl rfl
        · dsimp only
          split
          · exact Or.inl rfl
          · exact Or.inr ⟨_, rfl⟩

/-- Reading again leaves a cache as it is, or it succeeds. -/
theorem reread_cases (source : FileSource) (id : Nat) (c : Cache) :
    (c.reread source id).2 = c ∨ (c.reread source id).1 = .ok () := by
  unfold reread
  split
  · exact Or.inl rfl
  · split
    · exact Or.inl rfl
    · exact Or.inr rfl

/-- Resolving a text fails, or it is resolving what the text describes. -/
theorem resolveText_cases (source : FileSource) (text : String) (c : Cache) :
    (ImageDescription.parse? text = none ∧ ∃ fault, c.resolveText source text = (.error fault, c)) ∨
      ∃ d, ImageDescription.parse? text = some d ∧
        c.resolveText source text = c.resolve source d := by
  unfold resolveText ImageDescription.parse?
  cases ImageDescription.parse text with
  | error reason => exact Or.inl ⟨rfl, _, rfl⟩
  | ok d => exact Or.inr ⟨d, rfl, rfl⟩

/-- A call that resolves a description is as good as another one. -/
theorem Call.run_eq_resolve {call : Call} (h : call.description? = some d) :
    call.run source c = (Call.resolve d).run source c := by
  cases call with
  | resolve e => rw [Option.some.inj h]
  | resolveText text =>
    rcases resolveText_cases source text c with ⟨hnone, -⟩ | ⟨e, he, heq⟩
    · cases hnone.symm.trans h
    · obtain rfl := Option.some.inj (he.symm.trans h)
      simp only [run, heq]
  | get | isStale | reread => cases h

theorem resolve_of_not_embedded (h : d.kind.isEmbedded = false) :
    c.resolve source d = (.ok none, c) := by
  simp [resolve, h]

theorem resolve_of_get? (h : d.kind.isEmbedded = true) (hget : c.get? d.path = some a) :
    c.resolve source d = (.ok (some a), c) := by
  simp [resolve, h, hget]

/-- **A call that fails or finds nothing leaves the cache as it is.** -/
theorem run_of_isVain {call : Call} (h : (call.run source c).1.isVain = true) :
    (call.run source c).2 = c := by
  have resolved (d : ImageDescription)
      (h : (Answer.resolved (c.resolve source d).1).isVain = true) :
      (c.resolve source d).2 = c := by
    rcases resolve_cases source d c with heq | ⟨a, ha⟩
    · exact heq
    · rw [ha] at h
      cases h
  cases call with
  | resolve d => exact resolved d h
  | resolveText text =>
    rcases resolveText_cases source text c with ⟨-, fault, heq⟩ | ⟨d, -, heq⟩
    · simp only [Call.run, heq]
    · simp only [Call.run, heq] at h ⊢
      exact resolved d h
  | get filename => rfl
  | isStale id => rfl
  | reread id =>
    have h : (Answer.reread (c.reread source id).1).isVain = true := h
    rcases reread_cases source id c with heq | hok
    · exact heq
    · rw [hok] at h
      cases h

/-! ## What calls keep -/

theorem KeptBy.call {P : Cache → Prop} (h : KeptBy P source) (call : Call) (hc : P c) :
    P (call.run source c).2 := by
  cases call with
  | resolve d => exact h.resolve d c hc
  | resolveText text =>
    rcases resolveText_cases source text c with ⟨-, fault, heq⟩ | ⟨d, -, heq⟩
    · simpa only [Call.run, heq] using hc
    · simpa only [Call.run, heq] using h.resolve d c hc
  | get filename => exact hc
  | isStale id => exact hc
  | reread id => exact h.reread id c hc

/-- What the operations keep with any files is kept by calls. -/
theorem KeptBy.after {P : Cache → Prop} (h : ∀ source, KeptBy P source) (hc : P c)
    (calls : List (FileSource × Call)) : P (c.after calls) := by
  induction calls generalizing c with
  | nil => exact hc
  | cons first rest ih => exact ih ((h first.1).call first.2 hc)

/-- An asset is never dropped, and never replaced by another one. -/
theorem keptBy_same (source : FileSource) (a : Asset) :
    KeptBy (fun c => ∃ b ∈ c.assets, a.SameAs b) source where
  resolve d c h := by
    obtain ⟨b, hb, same⟩ := h
    rcases resolve_cache source d c with heq | ⟨payload, time, -, -, -, heq⟩
    · rw [heq]
      exact ⟨b, hb, same⟩
    · rw [heq]
      exact ⟨b, mem_push.2 (Or.inl hb), same⟩
  reread id c h := by
    obtain ⟨b, hb, same⟩ := h
    rcases reread_cache source id c with heq | ⟨x, payload, -, -, heq⟩
    · rw [heq]
      exact ⟨b, hb, same⟩
    · rw [heq]
      refine ⟨_, mem_withBytes.2 ⟨b, hb, rfl⟩, ?_⟩
      rw [Asset.SameAs] at same ⊢
      split
      · rw [same]
      · exact same

/-! ## Caches after calls -/

/-- An asset is found by its file, by its identity and by its array name, and its array name is that
of its file. -/
structure Consistent (c : Cache) : Prop where
  get?_eq_some : ∀ filename a, c.get? filename = some a ↔ a ∈ c.assets ∧ a.filename = filename
  names_eq : ∀ a ∈ c.assets, a.arrayName = FormDesign.arrayName a.filename
  filenames_nodup : (c.assets.map Asset.filename).Nodup
  names_nodup : (c.assets.map Asset.arrayName).Nodup
  ids_nodup : (c.assets.map Asset.id).Nodup

theorem WellFormed.consistent (h : c.WellFormed) : c.Consistent where
  get?_eq_some _ _ := h.get?_eq_some
  names_eq := h.names_eq
  filenames_nodup := h.filenames_nodup
  names_nodup := h.names_nodup
  ids_nodup := h.ids_nodup

/-- Whoever resolves the file of the asset gets the asset, if anything. Nothing is read then. -/
def Settled (c : Cache) (a : Asset) : Prop :=
  ∀ source (call : Call) d, call.description? = some d → d.path = a.filename →
    (d.kind.isEmbedded = true → call.run source c = (.resolved (.ok (some a)), c)) ∧
      ∀ b, (call.run source c).1 = .resolved (.ok (some b)) → b = a

theorem WellFormed.settled (h : c.WellFormed) (ha : a ∈ c.assets) : c.Settled a := by
  intro source call d hd hpath
  have hget : c.get? d.path = some a := h.get?_eq_some.2 ⟨ha, hpath.symm⟩
  rw [Call.run_eq_resolve hd, Call.run]
  cases hkind : d.kind.isEmbedded with
  | true =>
    rw [resolve_of_get? hkind hget]
    refine ⟨fun _ => rfl, fun b hb => ?_⟩
    cases hb
    rfl
  | false =>
    rw [resolve_of_not_embedded hkind]
    refine ⟨fun h => absurd h Bool.false_ne_true, fun b hb => ?_⟩
    cases hb

/-- **A cache is consistent after any calls, with files that change as they like between them.** An
asset that it has then is there after all later calls, and is the answer whenever its file is
resolved. And a call that fails or finds nothing leaves the assets as they are. -/
theorem sound_after (calls : List (FileSource × Call)) :
    let c := empty.after calls
    c.Consistent ∧
      (∀ a ∈ c.assets, ∀ later, ∃ b ∈ (c.after later).assets,
        a.SameAs b ∧ (c.after later).Settled b) ∧
      ∀ source (call : Call), (call.run source c).1.isVain = true →
        (call.run source c).2.assets = c.assets := by
  have formed : (empty.after calls).WellFormed :=
    KeptBy.after keptBy_wellFormed wellFormed_empty calls
  refine ⟨formed.consistent, fun a ha later => ?_, fun source call h => ?_⟩
  · have known : ∃ b ∈ (empty.after calls).assets, a.SameAs b := ⟨a, ha, rfl⟩
    obtain ⟨b, hb, same⟩ := KeptBy.after (fun source => keptBy_same source a) known later
    have formedLater := KeptBy.after keptBy_wellFormed formed later
    exact ⟨b, hb, same, formedLater.settled hb⟩
  · rw [run_of_isVain h]

end Cache

end FormDesign
