import FormDesign.Image.Cache
import Mathlib.Data.List.Nodup

/-!
# Well-formed image caches

A cache knows an asset by its file, by its identity and by its array name. In a cache that grew by
its own operations each of the three leads to one asset at most, since a file is only taken in when
its array name is free.

* `Cache.resolve_cache`, `Cache.reread_cache`: what the operations do to the assets
* `Cache.KeptBy`: properties that the operations keep for some files
* `Cache.keptBy_wellFormed`: well-formedness is one of them
-/

namespace FormDesign

/-- Where keys are not repeated, an item is found by its key. -/
theorem find?_eq_some_of_nodup {α κ : Type} [BEq κ] [LawfulBEq κ] {key : α → κ} {items : List α}
    (h : (items.map key).Nodup) {k : κ} {a : α} :
    (items.find? fun b => key b == k) = some a ↔ a ∈ items ∧ key a = k := by
  constructor
  · intro hf
    have hk := List.find?_some hf
    exact ⟨List.mem_of_find?_eq_some hf, beq_iff_eq.1 hk⟩
  · rintro ⟨ha, rfl⟩
    cases hf : items.find? fun b => key b == key a with
    | none =>
      have hn := List.find?_eq_none.1 hf a ha
      exact absurd (beq_self_eq_true _) hn
    | some b =>
      have hb := List.mem_of_find?_eq_some hf
      have hk := List.find?_some hf
      rw [List.inj_on_of_nodup_map h hb ha (beq_iff_eq.1 hk)]

namespace Cache

variable {source : FileSource} {c : Cache} {a b : Asset}

/-! ## Lookups -/

/-- Assets are numbered in their order, and their array names are those of their files and not
repeated. -/
structure WellFormed (c : Cache) : Prop where
  ids_eq : c.assets.map Asset.id = List.range c.size
  names_eq : ∀ a ∈ c.assets, a.arrayName = FormDesign.arrayName a.filename
  names_nodup : (c.assets.map Asset.arrayName).Nodup

theorem wellFormed_empty : empty.WellFormed :=
  ⟨rfl, List.forall_mem_nil _, List.nodup_nil⟩

namespace WellFormed

theorem ids_nodup (h : c.WellFormed) : (c.assets.map Asset.id).Nodup := by
  rw [h.ids_eq]
  exact List.nodup_range

theorem filenames_nodup (h : c.WellFormed) : (c.assets.map Asset.filename).Nodup := by
  -- one file twice would be one array name twice
  refine List.Nodup.of_map FormDesign.arrayName ?_
  rw [List.map_map, show c.assets.map (FormDesign.arrayName ∘ Asset.filename)
    = c.assets.map Asset.arrayName from List.map_congr_left fun a ha => (h.names_eq a ha).symm]
  exact h.names_nodup

theorem id_lt (h : c.WellFormed) (ha : a ∈ c.assets) : a.id < c.size := by
  have hm : a.id ∈ c.assets.map Asset.id := List.mem_map_of_mem ha
  rw [h.ids_eq] at hm
  exact List.mem_range.1 hm

theorem get?_eq_some (h : c.WellFormed) {path : String} :
    c.get? path = some a ↔ a ∈ c.assets ∧ a.filename = path :=
  find?_eq_some_of_nodup h.filenames_nodup

theorem asset?_eq_some (h : c.WellFormed) {id : Nat} :
    c.asset? id = some a ↔ a ∈ c.assets ∧ a.id = id :=
  find?_eq_some_of_nodup h.ids_nodup

theorem eq_of_id_eq (h : c.WellFormed) (ha : a ∈ c.assets) (hb : b ∈ c.assets)
    (heq : a.id = b.id) : a = b :=
  List.inj_on_of_nodup_map h.ids_nodup ha hb heq

theorem eq_of_arrayName_eq (h : c.WellFormed) (ha : a ∈ c.assets) (hb : b ∈ c.assets)
    (heq : a.arrayName = b.arrayName) : a = b :=
  List.inj_on_of_nodup_map h.names_nodup ha hb heq

end WellFormed

theorem get?_eq_none {path : String} :
    c.get? path = none ↔ ∀ a ∈ c.assets, a.filename ≠ path := by
  simp [get?, List.find?_eq_none]

/-! ## What the operations do -/

/-- The asset for a file that is read for the first time. -/
def newAsset (c : Cache) (d : ImageDescription) (payload : List UInt8) (time : Int) : Asset :=
  { id := c.size, filename := d.path, arrayName := FormDesign.arrayName d.path, kind := d.kind,
    payload, sourceTime := some time }

/-- The cache with one more asset. -/
def push (c : Cache) (a : Asset) : Cache :=
  { assets := c.assets ++ [a] }

/-- The cache with other bytes for one of its assets, read at a time. -/
def withBytes (c : Cache) (id : Nat) (payload : List UInt8) (time : Option Int) : Cache :=
  { assets := c.assets.map fun b =>
      if b.id = id then { b with payload, sourceTime := time } else b }

/-- Resolving leaves a cache as it is, or takes in a file whose array name is free. -/
theorem resolve_cache (source : FileSource) (d : ImageDescription) (c : Cache) :
    (c.resolve source d).2 = c ∨
      ∃ payload time, source.modified d.path = some time ∧ source.load d.path = .ok payload ∧
        (∀ a ∈ c.assets, a.arrayName ≠ FormDesign.arrayName d.path) ∧
          (c.resolve source d).2 = c.push (c.newAsset d payload time) := by
  unfold resolve
  split
  · exact Or.inl rfl
  · split
    · exact Or.inl rfl
    · split
      · exact Or.inl rfl
      · next time hmodified =>
        split
        · exact Or.inl rfl
        · next payload hload =>
          dsimp only
          split
          · exact Or.inl rfl
          · next hfree =>
            refine Or.inr ⟨payload, time, hmodified, hload, fun a ha => ?_, rfl⟩
            simpa using List.find?_eq_none.1 hfree a ha

/-- Reading again leaves a cache as it is, or changes the bytes of one asset. -/
theorem reread_cache (source : FileSource) (id : Nat) (c : Cache) :
    (c.reread source id).2 = c ∨
      ∃ a payload, c.asset? id = some a ∧ source.load a.filename = .ok payload ∧
        (c.reread source id).2 = c.withBytes id payload (source.modified a.filename) := by
  unfold reread
  split
  · exact Or.inl rfl
  · next a ha =>
    split
    · exact Or.inl rfl
    · next payload hload => exact Or.inr ⟨a, payload, ha, hload, rfl⟩

theorem mem_push : b ∈ (c.push a).assets ↔ b ∈ c.assets ∨ b = a := by
  simp [push]

theorem mem_push_self (c : Cache) (a : Asset) : a ∈ (c.push a).assets :=
  mem_push.2 (Or.inr rfl)

theorem mem_withBytes {id : Nat} {payload : List UInt8} {time : Option Int} :
    b ∈ (c.withBytes id payload time).assets ↔
      ∃ a ∈ c.assets, (if a.id = id then { a with payload, sourceTime := time } else a) = b :=
  List.mem_map

theorem mem_withBytes_self (ha : a ∈ c.assets) (payload : List UInt8) (time : Option Int) :
    { a with payload, sourceTime := time } ∈ (c.withBytes a.id payload time).assets :=
  mem_withBytes.2 ⟨a, ha, if_pos rfl⟩

theorem WellFormed.push (h : c.WellFormed) {d : ImageDescription} {payload : List UInt8}
    {time : Int} (free : ∀ a ∈ c.assets, a.arrayName ≠ FormDesign.arrayName d.path) :
    (c.push (c.newAsset d payload time)).WellFormed where
  ids_eq := by
    simp only [Cache.push, size, List.map_append, h.ids_eq, List.length_append]
    exact List.range_succ.symm
  names_eq b hb := by
    rcases mem_push.1 hb with hb | rfl
    · exact h.names_eq b hb
    · rfl
  names_nodup := by
    simp only [Cache.push, List.map_append, List.map_cons, List.map_nil]
    refine List.nodup_append.2
      ⟨h.names_nodup, List.nodup_singleton _, fun name hname other ho => ?_⟩
    obtain ⟨a, ha, rfl⟩ := List.mem_map.1 hname
    rw [List.mem_singleton.1 ho]
    exact free a ha

theorem WellFormed.withBytes (h : c.WellFormed) (id : Nat) (payload : List UInt8)
    (time : Option Int) : (c.withBytes id payload time).WellFormed := by
  -- the keys of every asset are as before
  let update (b : Asset) : Asset := if b.id = id then { b with payload, sourceTime := time } else b
  have same (b : Asset) : (update b).id = b.id ∧ (update b).filename = b.filename ∧
      (update b).arrayName = b.arrayName := by
    simp only [update]
    split <;> exact ⟨rfl, rfl, rfl⟩
  have ids : (c.assets.map update).map Asset.id = c.assets.map Asset.id := by
    rw [List.map_map]
    exact List.map_congr_left fun b _ => (same b).1
  have names : (c.assets.map update).map Asset.arrayName = c.assets.map Asset.arrayName := by
    rw [List.map_map]
    exact List.map_congr_left fun b _ => (same b).2.2
  refine ⟨?_, fun b hb => ?_, ?_⟩
  · show (c.assets.map update).map Asset.id = List.range (c.assets.map update).length
    rw [ids, List.length_map]
    exact h.ids_eq
  · obtain ⟨a, ha, rfl⟩ := mem_withBytes.1 hb
    show (update a).arrayName = FormDesign.arrayName (update a).filename
    rw [(same a).2.2, (same a).2.1]
    exact h.names_eq a ha
  · show ((c.assets.map update).map Asset.arrayName).Nodup
    rw [names]
    exact h.names_nodup

/-! ## Properties that the operations keep -/

/-- The operations of a cache keep the property, as long as the files are those of the source. -/
structure KeptBy (P : Cache → Prop) (source : FileSource) : Prop where
  resolve : ∀ d c, P c → P (c.resolve source d).2
  reread : ∀ id c, P c → P (c.reread source id).2

theorem keptBy_wellFormed (source : FileSource) : KeptBy WellFormed source where
  resolve d c h := by
    rcases resolve_cache source d c with heq | ⟨payload, time, -, -, free, heq⟩
    · rwa [heq]
    · rw [heq]
      exact h.push free
  reread id c h := by
    rcases reread_cache source id c with heq | ⟨a, payload, -, -, heq⟩
    · rwa [heq]
    · rw [heq]
      exact h.withBytes id payload _

end Cache

end FormDesign
