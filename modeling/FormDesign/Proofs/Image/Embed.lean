import FormDesign.Code.Images
import FormDesign.Proofs.Image.Cache

/-!
# Requests for embedded images

What the image pass does when a property names a file whose bytes are to be embedded. There are
eight cases, and `Embeds` lists them with all that each needs to know of the table, the cache and
the file. Whoever reasons about the pass goes through the cases and does not open the pass again.

* `embedImage_embeds`: every request is one of the eight
* `Embeds.eq`: a case leaves nothing open
* `Embeds.wellFormed`, `Embeds.current`: what a request keeps
* `collectImage_cases`: all other images leave the cache alone
-/

namespace FormDesign

variable {source : FileSource} {d : ImageDescription} {t t' : ImageTable} {c c' : Cache}

namespace Embedded

/-- Every image is in the cache, and its file did not change since it was read. -/
def Current (source : FileSource) (images : Embedded) (c : Cache) : Prop :=
  ∀ id ∈ images, ∃ a ∈ c.assets, a.id = id ∧ Cache.isStale source a = false

variable {images : Embedded}

theorem current_nil : Current source [] c :=
  List.forall_mem_nil _

theorem Current.append {id : Nat} (h : images.Current source c)
    (hid : ∃ a ∈ c.assets, a.id = id ∧ Cache.isStale source a = false) :
    Current source (images ++ [id]) c := by
  intro i hi
  rcases List.mem_append.1 hi with hi | hi
  · exact h i hi
  · rw [List.mem_singleton.1 hi]
    exact hid

/-- Current images were taken in before, so the next identity is not one of them. -/
theorem Current.size_notMem (h : images.Current source c) (hc : c.WellFormed) :
    c.size ∉ images := by
  intro hi
  obtain ⟨a, ha, hid, -⟩ := h _ hi
  have hlt := hc.id_lt ha
  omega

end Embedded

/-- The table with one more image of the form. -/
def ImageTable.embed (t : ImageTable) (id : Nat) : ImageTable :=
  { t with embedded := t.embedded ++ [id] }

/-- The warning for a file that cannot be found. -/
def missingWarning (path : String) : String :=
  "Unable to locate image file: " ++ path

/-- The warning for a file whose array name belongs to another one. -/
def clashWarning (first path : String) : String :=
  (Fault.arrayNameConflict first path (arrayName path)).message

/-! ## The cases of a request -/

/-- A request for the bytes of a file, with its answer and the cache after it. -/
inductive Embeds (source : FileSource) (d : ImageDescription) (t : ImageTable) (c : Cache) :
    Except Fault ImageTable → Cache → Prop
  /-- The form has the image already. -/
  | again {a : Asset} (cached : a ∈ c.assets) (file : a.filename = d.path)
      (known : a.id ∈ t.embedded) : Embeds source d t c (.ok t) c
  /-- The cache has the bytes of the file as it is. -/
  | current {a : Asset} (cached : a ∈ c.assets) (file : a.filename = d.path)
      (first : a.id ∉ t.embedded) (fresh : Cache.isStale source a = false) :
      Embeds source d t c (.ok (t.embed a.id)) c
  /-- The file changed, and its bytes are read again. -/
  | reread {a : Asset} {payload : List UInt8} (cached : a ∈ c.assets)
      (file : a.filename = d.path) (first : a.id ∉ t.embedded)
      (stale : Cache.isStale source a = true) (load : source.load d.path = .ok payload) :
      Embeds source d t c (.ok (t.embed a.id)) (c.withBytes a.id payload (source.modified d.path))
  /-- The file changed, but it cannot be read any more. -/
  | spoilt {a : Asset} {reason : String} (cached : a ∈ c.assets) (file : a.filename = d.path)
      (first : a.id ∉ t.embedded) (stale : Cache.isStale source a = true)
      (load : source.load d.path = .error reason) :
      Embeds source d t c (.error (.unreadable d.path reason)) c
  /-- There is no such file. -/
  | missing (unknown : ∀ a ∈ c.assets, a.filename ≠ d.path)
      (absent : source.modified d.path = none) :
      Embeds source d t c (.ok (t.warn (missingWarning d.path))) c
  /-- The file is there and cannot be read. -/
  | unreadable {time : Int} {reason : String} (unknown : ∀ a ∈ c.assets, a.filename ≠ d.path)
      (present : source.modified d.path = some time) (load : source.load d.path = .error reason) :
      Embeds source d t c (.error (.unreadable d.path reason)) c
  /-- The array name of the file is taken. -/
  | clash {time : Int} {payload : List UInt8} {other : Asset}
      (unknown : ∀ a ∈ c.assets, a.filename ≠ d.path)
      (present : source.modified d.path = some time) (load : source.load d.path = .ok payload)
      (cached : other ∈ c.assets) (taken : other.arrayName = arrayName d.path) :
      Embeds source d t c (.ok (t.warn (clashWarning other.filename d.path))) c
  /-- The file is read for the first time. -/
  | new {time : Int} {payload : List UInt8} (unknown : ∀ a ∈ c.assets, a.filename ≠ d.path)
      (present : source.modified d.path = some time) (load : source.load d.path = .ok payload)
      (free : ∀ a ∈ c.assets, a.arrayName ≠ arrayName d.path) (first : c.size ∉ t.embedded) :
      Embeds source d t c (.ok (t.embed c.size)) (c.push (c.newAsset d payload time))

/-- An asset is fresh as long as there is no file with another time. -/
theorem Cache.isStale_eq_false {a : Asset} : Cache.isStale source a = false ↔
    ∀ time, source.modified a.filename = some time → a.sourceTime = some time := by
  unfold isStale
  cases source.modified a.filename <;> simp

/-- Bytes that were just read are those of the file. -/
theorem Cache.isStale_withTime (source : FileSource) (a : Asset) (payload : List UInt8) :
    Cache.isStale source { a with payload, sourceTime := source.modified a.filename } = false :=
  isStale_eq_false.2 fun _ h => h

theorem Cache.isStale_newAsset (c : Cache) (payload : List UInt8) {time : Int}
    (present : source.modified d.path = some time) :
    Cache.isStale source (c.newAsset d payload time) = false := by
  refine isStale_eq_false.2 fun time' htime => ?_
  have heq : some time = some time' := present.symm.trans htime
  exact heq

/-- One of the cases always applies. -/
theorem exists_embeds (hc : c.WellFormed) (ht : t.embedded.Current source c) :
    ∃ r c', Embeds source d t c r c' := by
  cases hget : c.get? d.path with
  | some a =>
    obtain ⟨ha, hfile⟩ := hc.get?_eq_some.1 hget
    by_cases hknown : a.id ∈ t.embedded
    · exact ⟨_, _, .again ha hfile hknown⟩
    · cases hstale : Cache.isStale source a with
      | false => exact ⟨_, _, .current ha hfile hknown hstale⟩
      | true =>
        cases hload : source.load d.path with
        | error reason => exact ⟨_, _, .spoilt ha hfile hknown hstale hload⟩
        | ok payload => exact ⟨_, _, .reread ha hfile hknown hstale hload⟩
  | none =>
    have hunknown := Cache.get?_eq_none.1 hget
    cases hmodified : source.modified d.path with
    | none => exact ⟨_, _, .missing hunknown hmodified⟩
    | some time =>
      cases hload : source.load d.path with
      | error reason => exact ⟨_, _, .unreadable hunknown hmodified hload⟩
      | ok payload =>
        by_cases hfree : ∀ a ∈ c.assets, a.arrayName ≠ arrayName d.path
        · exact ⟨_, _, .new hunknown hmodified hload hfree (ht.size_notMem hc)⟩
        · push Not at hfree
          obtain ⟨other, hother, htaken⟩ := hfree
          exact ⟨_, _, .clash hunknown hmodified hload hother htaken⟩

/-- A case determines what the pass does. -/
theorem Embeds.eq {r : Except Fault ImageTable} (h : Embeds source d t c r c')
    (hd : d.kind.isEmbedded = true) (hc : c.WellFormed) : embedImage source d t c = (r, c') := by
  have resolve_cached {a : Asset} (ha : a ∈ c.assets) (hfile : a.filename = d.path) :
      c.resolve source d = (.ok (some a), c) := by
    simp [Cache.resolve, hd, hc.get?_eq_some.2 ⟨ha, hfile⟩]
  cases h with
  | again ha hfile hknown =>
    simp [embedImage, resolve_cached ha hfile, Embedded.add, hknown]
  | current ha hfile hfirst hfresh =>
    simp [embedImage, resolve_cached ha hfile, Embedded.add, hfirst, hfresh, ImageTable.embed]
  | @reread a payload ha hfile hfirst hstale hload =>
    have hreread : c.reread source a.id
        = (.ok (), c.withBytes a.id payload (source.modified d.path)) := by
      simp only [Cache.reread, hc.asset?_eq_some.2 ⟨ha, rfl⟩, hfile, hload]
      rfl
    simp [embedImage, resolve_cached ha hfile, Embedded.add, hfirst, hstale, hreread,
      ImageTable.embed]
  | @spoilt a reason ha hfile hfirst hstale hload =>
    have hreread : c.reread source a.id = (.error (.unreadable d.path reason), c) := by
      simp only [Cache.reread, hc.asset?_eq_some.2 ⟨ha, rfl⟩, hfile, hload]
    simp [embedImage, resolve_cached ha hfile, Embedded.add, hfirst, hstale, hreread]
  | missing hunknown habsent =>
    have hresolve : c.resolve source d = (.ok none, c) := by
      simp [Cache.resolve, hd, Cache.get?_eq_none.2 hunknown, habsent]
    unfold embedImage
    rw [hresolve]
    rfl
  | unreadable hunknown hpresent hload =>
    simp [embedImage, Cache.resolve, hd, Cache.get?_eq_none.2 hunknown, hpresent, hload]
  | clash hunknown hpresent hload hother htaken =>
    have hfind : (c.assets.find? fun a => a.arrayName == arrayName d.path) = some _ :=
      (find?_eq_some_of_nodup hc.names_nodup).2 ⟨hother, htaken⟩
    simp [embedImage, Cache.resolve, hd, Cache.get?_eq_none.2 hunknown, hpresent, hload, hfind,
      clashWarning]
  | @new time payload hunknown hpresent hload hfree hfirst =>
    have hfind : (c.assets.find? fun a => a.arrayName == arrayName d.path) = none := by
      simpa [List.find?_eq_none] using hfree
    have hfresh := c.isStale_newAsset payload hpresent
    have hresolve : c.resolve source d = (.ok (some (c.newAsset d payload time)),
        c.push (c.newAsset d payload time)) := by
      simp [Cache.resolve, hd, Cache.get?_eq_none.2 hunknown, hpresent, hload, hfind,
        Cache.newAsset, Cache.push]
    have hid : (c.newAsset d payload time).id ∉ t.embedded := hfirst
    simp [embedImage, hresolve, Embedded.add, hid, hfresh, ImageTable.embed]
    rfl

/-- Every request is one of the cases. -/
theorem embedImage_embeds (hd : d.kind.isEmbedded = true) (hc : c.WellFormed)
    (ht : t.embedded.Current source c) :
    Embeds source d t c (embedImage source d t c).1 (embedImage source d t c).2 := by
  obtain ⟨r, c', h⟩ := exists_embeds hc ht
  rw [h.eq hd hc]
  exact h

/-! ## What a request keeps -/

theorem Embeds.wellFormed {r : Except Fault ImageTable} (h : Embeds source d t c r c')
    (hc : c.WellFormed) : c'.WellFormed := by
  cases h with
  | again | current | spoilt | missing | unreadable | clash => exact hc
  | reread => exact hc.withBytes _ _ _
  | new _ _ _ hfree _ => exact hc.push hfree

/-- The images of the form stay current. -/
theorem Embeds.current_of_ok (h : Embeds source d t c (.ok t') c')
    (ht : t.embedded.Current source c) : t'.embedded.Current source c' := by
  cases h with
  | again => exact ht
  | current ha hfile hfirst hfresh => exact ht.append ⟨_, ha, rfl, hfresh⟩
  | @reread a payload ha hfile hfirst hstale hload =>
    rw [← hfile]
    have hread := Cache.mem_withBytes_self ha payload (source.modified a.filename)
    refine Embedded.Current.append (fun id hid => ?_)
      ⟨_, hread, rfl, Cache.isStale_withTime source a payload⟩
    obtain ⟨b, hb, rfl, hfresh⟩ := ht id hid
    -- an image of the form is not the one that is read now
    have hne : b.id ≠ a.id := fun heq => hfirst (heq ▸ hid)
    exact ⟨b, Cache.mem_withBytes.2 ⟨b, hb, if_neg hne⟩, rfl, hfresh⟩
  | missing | clash => exact ht
  | @new time payload hunknown hpresent hload hfree hfirst =>
    refine Embedded.Current.append (fun id hid => ?_)
      ⟨_, c.mem_push_self (c.newAsset d payload time), rfl, ?_⟩
    · obtain ⟨b, hb, hrest⟩ := ht id hid
      exact ⟨b, Cache.mem_push.2 (Or.inl hb), hrest⟩
    · exact c.isStale_newAsset payload hpresent

/-! ## The other images -/

/-- An image is embedded, or its file is not opened and the cache has no part in it. -/
theorem collectImage_cases (source : FileSource) (artDirectory text : String) (t : ImageTable) :
    (∃ d, ImageDescription.parse? text = some d ∧ d.kind.isEmbedded = true ∧
        ∀ images c, collectImage source artDirectory text { t with embedded := images } c
          = embedImage source d { t with embedded := images } c) ∨
      ∃ includes warnings, ∀ images c,
        collectImage source artDirectory text { t with embedded := images } c
          = (.ok { embedded := images, includes, warnings }, c) := by
  cases hparse : ImageDescription.parse text with
  | error reason =>
    refine Or.inr ⟨t.includes, t.warnings ++ [(Fault.badDescription text reason).message],
      fun images c => ?_⟩
    rw [collectImage, hparse]
    rfl
  | ok d =>
    have hparse? : ImageDescription.parse? text = some d := by
      rw [ImageDescription.parse?, hparse]
      rfl
    cases hkind : d.kind with
    | embed | svg =>
      refine Or.inl ⟨d, hparse?, by rw [hkind]; rfl, fun images c => ?_⟩
      simp only [collectImage, hparse, hkind]
    | header | xpm =>
      refine Or.inr ⟨Sorted.insert (includePath d.path artDirectory) t.includes, t.warnings,
        fun images c => ?_⟩
      simp only [collectImage, hparse, hkind]
    | art =>
      refine Or.inr ⟨t.includes, t.warnings, fun images c => ?_⟩
      simp only [collectImage, hparse, hkind]

end FormDesign
