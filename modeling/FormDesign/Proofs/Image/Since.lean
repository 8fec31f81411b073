import FormDesign.Proofs.Image.Embed

/-!
# Repeated requests

As long as the files do not change, a request for an image that was answered once is answered the
same at every later time, whatever else was asked in between, and the cache is left alone. The
reasons differ: an asset that was read is current from then on, a file that could not be read or
whose array name was taken still cannot be taken in.

* `Cache.Since`: the caches that come after another one while the files stay the same
* `Embeds.repeated`: the answer at a later cache, case by case
* `Steady`: what can be repeated with the same answer. It is closed under one thing after the other.
* `collectImages_steady`: the image pass over a list of texts is steady
-/

namespace FormDesign

variable {source : FileSource} {c c' c'' : Cache} {a : Asset}

/-! ## Later caches -/

namespace Cache

/-- The asset as it is once its file was read again, if it changed and can be read. -/
def refreshed (source : FileSource) (a : Asset) : Asset :=
  if isStale source a then
    match source.load a.filename with
    | .ok payload => { a with payload, sourceTime := source.modified a.filename }
    | .error _ => a
  else a

theorem refreshed_of_fresh (h : isStale source a = false) : refreshed source a = a := by
  simp [refreshed, h]

theorem refreshed_of_error {reason : String} (h : source.load a.filename = .error reason) :
    refreshed source a = a := by
  simp [refreshed, h]

theorem refreshed_of_ok {payload : List UInt8} (hstale : isStale source a = true)
    (h : source.load a.filename = .ok payload) :
    refreshed source a = { a with payload, sourceTime := source.modified a.filename } := by
  simp [refreshed, hstale, h]

/-- An asset is read again once at most. -/
theorem refreshed_refreshed (source : FileSource) (a : Asset) :
    refreshed source (refreshed source a) = refreshed source a := by
  cases hstale : isStale source a with
  | false => rw [refreshed_of_fresh hstale, refreshed_of_fresh hstale]
  | true =>
    cases hload : source.load a.filename with
    | error reason => rw [refreshed_of_error hload, refreshed_of_error hload]
    | ok payload =>
      -- its time is now that of the file
      rw [refreshed_of_ok hstale hload]
      exact refreshed_of_fresh (isStale_withTime source a payload)

/-- Bytes and time are all that can change. -/
theorem refreshed_same (source : FileSource) (a : Asset) :
    (refreshed source a).id = a.id ∧ (refreshed source a).filename = a.filename ∧
      (refreshed source a).arrayName = a.arrayName := by
  unfold refreshed
  split
  · split <;> exact ⟨rfl, rfl, rfl⟩
  · exact ⟨rfl, rfl, rfl⟩

/-- A cache that comes after another one: what is known stays known, read again or not, and only
files that can be read were added. -/
structure Since (source : FileSource) (c later : Cache) : Prop where
  kept : ∀ a ∈ c.assets, a ∈ later.assets ∨ refreshed source a ∈ later.assets
  readable : ∀ a ∈ later.assets, (∃ b ∈ c.assets, b.filename = a.filename) ∨
    ((∃ time, source.modified a.filename = some time) ∧
      ∃ payload, source.load a.filename = .ok payload)

namespace Since

theorem refl (source : FileSource) (c : Cache) : Since source c c where
  kept _ ha := Or.inl ha
  readable a ha := Or.inl ⟨a, ha, rfl⟩

theorem trans (h : Since source c c') (h' : Since source c' c'') : Since source c c'' where
  kept a ha := by
    rcases h.kept a ha with hmid | hmid
    · exact h'.kept a hmid
    · have hlater := h'.kept _ hmid
      rw [refreshed_refreshed, or_self] at hlater
      exact Or.inr hlater
  readable a ha := by
    rcases h'.readable a ha with ⟨b, hb, hfile⟩ | hnew
    · rw [← hfile]
      exact h.readable b hb
    · exact Or.inr hnew

/-- An asset that does not change by being read again is still there. -/
theorem mem_of_refreshed_eq (h : Since source c c') (ha : a ∈ c.assets)
    (heq : refreshed source a = a) : a ∈ c'.assets := by
  have hkept := h.kept a ha
  rwa [heq, or_self] at hkept

/-- A known asset keeps its identity, its file and its array name. -/
theorem exists_same (h : Since source c c') (ha : a ∈ c.assets) :
    ∃ b ∈ c'.assets, b.id = a.id ∧ b.filename = a.filename ∧ b.arrayName = a.arrayName := by
  rcases h.kept a ha with hkept | hkept
  · exact ⟨a, hkept, rfl, rfl, rfl⟩
  · exact ⟨_, hkept, refreshed_same source a⟩

/-- A file that cannot be read was not taken in. -/
theorem unknown_of_error (h : Since source c c') {path reason : String}
    (unknown : ∀ a ∈ c.assets, a.filename ≠ path) (load : source.load path = .error reason) :
    ∀ a ∈ c'.assets, a.filename ≠ path := by
  rintro a ha rfl
  rcases h.readable a ha with ⟨b, hb, hfile⟩ | ⟨-, payload, hload⟩
  · exact unknown b hb hfile
  · cases load.symm.trans hload

/-- A file that does not exist was not taken in. -/
theorem unknown_of_absent (h : Since source c c') {path : String}
    (unknown : ∀ a ∈ c.assets, a.filename ≠ path) (absent : source.modified path = none) :
    ∀ a ∈ c'.assets, a.filename ≠ path := by
  rintro a ha rfl
  rcases h.readable a ha with ⟨b, hb, hfile⟩ | ⟨⟨time, htime⟩, -⟩
  · exact unknown b hb hfile
  · cases absent.symm.trans htime

/-- A file whose array name was taken was not taken in. -/
theorem unknown_of_clash (h : Since source c c') (hc' : c'.WellFormed) {path : String}
    (unknown : ∀ a ∈ c.assets, a.filename ≠ path) {other : Asset} (hother : other ∈ c.assets)
    (taken : other.arrayName = FormDesign.arrayName path) : ∀ a ∈ c'.assets, a.filename ≠ path := by
  rintro a ha rfl
  -- the asset with the array name is still there, and there is no second one
  obtain ⟨b, hb, -, hfile, hname⟩ := h.exists_same hother
  have heq : a = b := by
    refine hc'.eq_of_arrayName_eq ha hb ?_
    rw [hc'.names_eq a ha, hname, taken]
  exact unknown other hother (by rw [heq, hfile])

/-- Taking in a file that can be read. -/
theorem push (source : FileSource) {d : ImageDescription} {time : Int} {payload : List UInt8}
    (present : source.modified d.path = some time) (load : source.load d.path = .ok payload) :
    Since source c (c.push (c.newAsset d payload time)) where
  kept a ha := Or.inl (mem_push.2 (Or.inl ha))
  readable a ha := by
    rcases mem_push.1 ha with ha | rfl
    · exact Or.inl ⟨a, ha, rfl⟩
    · exact Or.inr ⟨⟨time, present⟩, payload, load⟩

/-- Reading a stale asset again. -/
theorem withBytes (hc : c.WellFormed) (ha : a ∈ c.assets) (stale : isStale source a = true)
    {payload : List UInt8} (load : source.load a.filename = .ok payload) :
    Since source c (c.withBytes a.id payload (source.modified a.filename)) where
  kept b hb := by
    by_cases hid : b.id = a.id
    · rw [hc.eq_of_id_eq hb ha hid, refreshed_of_ok stale load]
      exact Or.inr (mem_withBytes_self ha payload _)
    · exact Or.inl (mem_withBytes.2 ⟨b, hb, if_neg hid⟩)
  readable b hb := by
    obtain ⟨b', hb', rfl⟩ := mem_withBytes.1 hb
    refine Or.inl ⟨b', hb', ?_⟩
    split <;> rfl

end Since

end Cache

open Cache (Since)

/-! ## Requests -/

variable {d : ImageDescription} {t t' : ImageTable}

theorem Embeds.since {r : Except Fault ImageTable} (h : Embeds source d t c r c')
    (hc : c.WellFormed) : Since source c c' := by
  cases h with
  | again | current | spoilt | missing | unreadable | clash => exact Since.refl source c
  | reread ha hfile _ hstale hload =>
    rw [← hfile] at hload ⊢
    exact Since.withBytes hc ha hstale hload
  | new _ hpresent hload => exact Since.push source hpresent hload

/-- A request has the same answer at every later cache, and nothing is left to do for it. -/
theorem Embeds.repeated {r : Except Fault ImageTable} (h : Embeds source d t c r c')
    (hs : Since source c' c'') (hc'' : c''.WellFormed) : Embeds source d t c'' r c'' := by
  cases h with
  | again ha hfile hknown =>
    obtain ⟨b, hb, hid, hfile', -⟩ := hs.exists_same ha
    exact .again hb (hfile'.trans hfile) (hid ▸ hknown)
  | current ha hfile hfirst hfresh =>
    have hlater := hs.mem_of_refreshed_eq ha (Cache.refreshed_of_fresh hfresh)
    exact .current hlater hfile hfirst hfresh
  | @reread a payload ha hfile hfirst hstale hload =>
    rw [← hfile] at hs
    -- the asset with its new bytes, which is current by now
    have hread := Cache.mem_withBytes_self ha payload (source.modified a.filename)
    have hfresh := Cache.isStale_withTime source a payload
    have hlater := hs.mem_of_refreshed_eq hread (Cache.refreshed_of_fresh hfresh)
    exact .current (a := { a with payload, sourceTime := source.modified a.filename }) hlater hfile
      hfirst hfresh
  | spoilt ha hfile hfirst hstale hload =>
    rw [← hfile] at hload ⊢
    have hlater := hs.mem_of_refreshed_eq ha (Cache.refreshed_of_error hload)
    rw [hfile] at hload ⊢
    exact .spoilt hlater hfile hfirst hstale hload
  | missing hunknown habsent => exact .missing (hs.unknown_of_absent hunknown habsent) habsent
  | unreadable hunknown hpresent hload =>
    exact .unreadable (hs.unknown_of_error hunknown hload) hpresent hload
  | clash hunknown hpresent hload hother htaken =>
    obtain ⟨b, hb, -, hfile, hname⟩ := hs.exists_same hother
    have hunknown' := hs.unknown_of_clash hc'' hunknown hother htaken
    rw [← hfile]
    exact .clash hunknown' hpresent hload hb (hname.trans htaken)
  | @new time payload hunknown hpresent hload hfree hfirst =>
    -- by now the file is one that the cache knows
    have hread := c.mem_push_self (c.newAsset d payload time)
    have hfresh := c.isStale_newAsset payload hpresent
    have hlater := hs.mem_of_refreshed_eq hread (Cache.refreshed_of_fresh hfresh)
    exact .current hlater rfl hfirst hfresh

/-- Images that are current are the same assets later. -/
theorem Embedded.Current.filterMap_asset?_eq {images : Embedded} (h : images.Current source c)
    (hc : c.WellFormed) (hc' : c'.WellFormed) (hs : Since source c c') :
    images.filterMap c'.asset? = images.filterMap c.asset? := by
  refine List.filterMap_congr fun id hid => ?_
  obtain ⟨a, ha, heq, hfresh⟩ := h id hid
  have hlater := hs.mem_of_refreshed_eq ha (Cache.refreshed_of_fresh hfresh)
  rw [hc.asset?_eq_some.2 ⟨ha, heq⟩, hc'.asset?_eq_some.2 ⟨hlater, heq⟩]

/-! ## What can be repeated -/

/-- Run at a cache, the action keeps it well-formed, and run again at any later cache it gives the
same result and changes nothing. -/
structure Steady (source : FileSource) {α : Type} (act : Cache → α × Cache) (c : Cache) : Prop where
  wellFormed : (act c).2.WellFormed
  since : Since source c (act c).2
  repeated : ∀ later : Cache, later.WellFormed → Since source (act c).2 later →
    act later = ((act c).1, later)

namespace Steady

variable {α β : Type} {act : Cache → α × Cache}

theorem of_eq {act' : Cache → α × Cache} (h : Steady source act c)
    (heq : ∀ c, act' c = act c) : Steady source act' c := by
  rwa [funext heq]

/-- What does not look at the cache is steady. -/
theorem pure (source : FileSource) (x : α) (hc : c.WellFormed) :
    Steady source (fun c => (x, c)) c where
  wellFormed := hc
  since := Since.refl source c
  repeated _ _ _ := rfl

/-- One thing after the other is steady. Repeated, the second meets a cache later than the one that
it left. -/
theorem bind (h : Steady source act c) (next : α → Cache → β × Cache)
    (hnext : Steady source (next (act c).1) (act c).2) :
    Steady source (fun c => next (act c).1 (act c).2) c where
  wellFormed := hnext.wellFormed
  since := h.since.trans hnext.since
  repeated later hlater hs := by
    have hact := h.repeated later hlater (hnext.since.trans hs)
    rw [hact]
    exact hnext.repeated later hlater hs

/-- What follows only a success is steady if it is so after each success. -/
theorem bindOk {act : Cache → Except Fault α × Cache} (h : Steady source act c)
    (next : α → Cache → Except Fault β × Cache) (wrap : Fault → Fault)
    (hnext : ∀ x, (act c).1 = .ok x → Steady source (next x) (act c).2) :
    Steady source (fun c =>
      match act c with
      | (.ok x, c) => next x c
      | (.error fault, c) => (.error (wrap fault), c)) c := by
  let follow (r : Except Fault α) (c : Cache) : Except Fault β × Cache :=
    match r with
    | .ok x => next x c
    | .error fault => (.error (wrap fault), c)
  have hfollow : Steady source (follow (act c).1) (act c).2 := by
    -- after a failure nothing else is done
    cases hr : (act c).1 with
    | ok x => exact hnext x hr
    | error fault => exact Steady.pure source _ h.wellFormed
  refine (h.bind follow hfollow).of_eq fun c => ?_
  rcases act c with ⟨_ | _, _⟩ <;> rfl

/-- Run a second time, the action gives the same result and leaves the cache as it is. -/
theorem twice (h : Steady source act c) : act (act c).2 = act c :=
  h.repeated _ h.wellFormed (Since.refl source _)

end Steady

/-! ## The image pass -/

theorem embedImage_steady (hd : d.kind.isEmbedded = true) (hc : c.WellFormed)
    (ht : t.embedded.Current source c) : Steady source (embedImage source d t) c := by
  have h := embedImage_embeds hd hc ht
  exact
    { wellFormed := h.wellFormed hc
      since := h.since hc
      repeated := fun later hlater hs => (h.repeated hs hlater).eq hd hlater }

theorem collectImage_steady (artDirectory text : String) (hc : c.WellFormed)
    (ht : t.embedded.Current source c) :
    Steady source (collectImage source artDirectory text t) c := by
  rcases collectImage_cases source artDirectory text t with
    ⟨d, -, hd, heq⟩ | ⟨includes, warnings, heq⟩
  · exact (embedImage_steady hd hc ht).of_eq (heq t.embedded)
  · exact (Steady.pure source _ hc).of_eq (heq t.embedded)

/-- The images of the form are current after each text that does not fail. -/
theorem collectImage_current (artDirectory text : String) (hc : c.WellFormed)
    (ht : t.embedded.Current source c)
    (hok : (collectImage source artDirectory text t c).1 = .ok t') :
    t'.embedded.Current source (collectImage source artDirectory text t c).2 := by
  rcases collectImage_cases source artDirectory text t with
    ⟨d, -, hd, heq⟩ | ⟨includes, warnings, heq⟩
  · have h := embedImage_embeds hd hc ht
    have heq := heq t.embedded c
    rw [← heq, hok] at h
    exact h.current_of_ok ht
  · have heq := heq t.embedded c
    rw [heq] at hok ⊢
    cases hok
    exact ht

/-- The pass over some texts is steady, and the images that it found are current. -/
theorem collectImages_steady (source : FileSource) (artDirectory : String) (texts : List String)
    (t : ImageTable) (c : Cache) (hc : c.WellFormed) (ht : t.embedded.Current source c) :
    Steady source (collectImages source artDirectory texts t) c ∧
      ∀ t', (collectImages source artDirectory texts t c).1 = .ok t' →
        t'.embedded.Current source (collectImages source artDirectory texts t c).2 := by
  induction texts generalizing t c with
  | nil =>
    refine ⟨Steady.pure source _ hc, fun t' hok => ?_⟩
    cases hok
    exact ht
  | cons text rest ih =>
    have hfirst := collectImage_steady artDirectory text hc ht
    have hrest := fun t₁ hok => ih t₁ _ hfirst.wellFormed
      (collectImage_current artDirectory text hc ht hok)
    refine ⟨(hfirst.bindOk _ id fun t₁ hok => (hrest t₁ hok).1).of_eq fun c => ?_,
      fun t' hok => ?_⟩
    · rw [collectImages]
      rcases collectImage source artDirectory text t c with ⟨_ | _, _⟩ <;> rfl
    · rw [collectImages] at hok ⊢
      rcases hresult : collectImage source artDirectory text t c with ⟨fault | t₁, c₁⟩
      · rw [hresult] at hok
        cases hok
      · rw [hresult] at hok hrest
        exact (hrest t₁ rfl).2 t' hok

end FormDesign
