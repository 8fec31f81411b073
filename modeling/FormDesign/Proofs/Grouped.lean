import FormDesign.Grouped

/-!
# What a collection by platform holds

The part for a destination changes with items that go there, and with no others. For this the
selectors must be listed in order, which every operation keeps.

* `Sorted.ofList_congr`: a sorted list is known by its members
* `Grouped.part_alter`: a changed collection, part by part
* `Grouped.mem_part_insert`: what is in a part after a text was added
* `Grouped.entries_add`: an added item is one more entry
* `Grouped.ext_part`: a collection is known by its parts
-/

namespace FormDesign

/-! ## Sorted lists -/

namespace Sorted

variable {α β : Type}

theorem lt_of_not_lt {a b : String} (hlt : ¬a < b) (hne : a ≠ b) : b < a := by
  rw [← String.not_le]
  intro hle
  exact hne (String.le_antisymm hle (String.not_lt.1 hlt))

theorem mem_insert {s t : String} {texts : List String} :
    t ∈ insert s texts ↔ t = s ∨ t ∈ texts := by
  induction texts with
  | nil => simp [insert]
  | cons u rest ih =>
    unfold insert
    split
    · exact List.mem_cons
    · split
      · next hu => simp [hu]
      · rw [List.mem_cons, ih, List.mem_cons]
        exact or_left_comm

theorem pairwise_insert {s : String} {texts : List String} (h : texts.Pairwise (· < ·)) :
    (insert s texts).Pairwise (· < ·) := by
  induction texts with
  | nil => exact List.pairwise_singleton _ _
  | cons t rest ih =>
    obtain ⟨ht, hrest⟩ := List.pairwise_cons.1 h
    unfold insert
    split
    · next hlt =>
      refine List.pairwise_cons.2 ⟨fun u hu => ?_, h⟩
      rcases List.mem_cons.1 hu with rfl | hu
      · exact hlt
      · exact String.lt_trans hlt (ht u hu)
    · split
      · exact h
      · next hlt hne =>
        refine List.pairwise_cons.2 ⟨fun u hu => ?_, ih hrest⟩
        rcases mem_insert.1 hu with rfl | hu
        · exact lt_of_not_lt hlt hne
        · exact ht u hu

/-- A list of texts in order, each once, has the members of the texts it was made from. -/
theorem ofList_spec (texts : List String) :
    (ofList texts).Pairwise (· < ·) ∧ ∀ t, t ∈ ofList texts ↔ t ∈ texts := by
  have go (sorted : List String) (h : sorted.Pairwise (· < ·)) :
      (texts.foldl (fun sorted s => insert s sorted) sorted).Pairwise (· < ·) ∧
        ∀ t, t ∈ texts.foldl (fun sorted s => insert s sorted) sorted ↔ t ∈ sorted ∨ t ∈ texts := by
    induction texts generalizing sorted with
    | nil => exact ⟨h, fun t => by simp⟩
    | cons s rest ih =>
      obtain ⟨hpairwise, hmem⟩ := ih _ (pairwise_insert h)
      refine ⟨hpairwise, fun t => (hmem t).trans ?_⟩
      rw [mem_insert, List.mem_cons, or_assoc]
      exact or_left_comm
  obtain ⟨hpairwise, hmem⟩ := go [] List.Pairwise.nil
  exact ⟨hpairwise, fun t => (hmem t).trans (or_iff_right List.not_mem_nil)⟩

/-- The order in which texts are put in does not matter. -/
theorem ofList_congr {texts texts' : List String} (h : ∀ t, t ∈ texts ↔ t ∈ texts') :
    ofList texts = ofList texts' := by
  obtain ⟨hpairwise, hmem⟩ := ofList_spec texts
  obtain ⟨hpairwise', hmem'⟩ := ofList_spec texts'
  have distinct {sorted : List String} (hs : sorted.Pairwise (· < ·)) : sorted.Nodup :=
    List.Pairwise.imp (fun hlt => String.ne_of_lt hlt) hs
  have hperm : (ofList texts).Perm (ofList texts') :=
    (List.perm_ext_iff_of_nodup (distinct hpairwise) (distinct hpairwise')).2 fun t => by
      rw [hmem, hmem', h]
  exact hperm.eq_of_pairwise (fun _ _ _ _ hlt hgt => absurd hgt (String.lt_asymm hlt)) hpairwise
    hpairwise'

/-- The keys are in order, each once. -/
def Increasing (pairs : List (String × α)) : Prop :=
  pairs.Pairwise fun a b => a.1 < b.1

theorem key_mem_alter {key : String} {f : Option α → α} {pairs : List (String × α)}
    {entry : String × α} (h : entry ∈ alter key f pairs) :
    entry.1 = key ∨ ∃ old ∈ pairs, old.1 = entry.1 := by
  induction pairs with
  | nil =>
    obtain rfl := List.mem_singleton.1 h
    exact Or.inl rfl
  | cons pair rest ih =>
    obtain ⟨k, a⟩ := pair
    unfold alter at h
    split at h
    · rcases List.mem_cons.1 h with rfl | h
      · exact Or.inl rfl
      · exact Or.inr ⟨entry, h, rfl⟩
    · split at h
      · next hk =>
        rcases List.mem_cons.1 h with rfl | h
        · exact Or.inl hk.symm
        · exact Or.inr ⟨entry, List.mem_cons_of_mem _ h, rfl⟩
      · rcases List.mem_cons.1 h with rfl | h
        · exact Or.inr ⟨_, List.mem_cons_self, rfl⟩
        · rcases ih h with hk | ⟨old, ho, hk⟩
          · exact Or.inl hk
          · exact Or.inr ⟨old, List.mem_cons_of_mem _ ho, hk⟩

theorem Increasing.alter {key : String} {f : Option α → α} {pairs : List (String × α)}
    (h : Increasing pairs) : Increasing (alter key f pairs) := by
  induction pairs with
  | nil => exact List.pairwise_singleton _ _
  | cons pair rest ih =>
    obtain ⟨k, a⟩ := pair
    obtain ⟨hk, hr⟩ := List.pairwise_cons.1 h
    unfold Sorted.alter
    split
    · next hlt =>
      refine List.pairwise_cons.2 ⟨fun entry he => ?_, h⟩
      rcases List.mem_cons.1 he with rfl | he
      · exact hlt
      · exact String.lt_trans hlt (hk entry he)
    · split
      · next heq =>
        exact List.pairwise_cons.2 ⟨hk, hr⟩
      · next hlt heq =>
        refine List.pairwise_cons.2 ⟨fun entry he => ?_, ih hr⟩
        rcases key_mem_alter he with he | ⟨old, ho, he⟩
        · exact he ▸ lt_of_not_lt hlt heq
        · exact he ▸ hk old ho

theorem get?_cons (key k : String) (a : α) (rest : List (String × α)) :
    get? key ((k, a) :: rest) = if k = key then some a else get? key rest := by
  by_cases h : k = key <;> simp [get?, h]

/-- A key below all others has no entry. -/
theorem get?_eq_none {key : String} {pairs : List (String × α)}
    (h : ∀ entry ∈ pairs, key < entry.1) : get? key pairs = none := by
  simp only [get?, Option.map_eq_none_iff, List.find?_eq_none, beq_iff_eq]
  intro entry he hk
  exact String.lt_irrefl _ (hk ▸ h entry he)

theorem get?_eq_some {key : String} {a : α} {pairs : List (String × α)} (h : Increasing pairs)
    (ha : (key, a) ∈ pairs) : get? key pairs = some a := by
  induction pairs with
  | nil => cases ha
  | cons pair rest ih =>
    obtain ⟨k, b⟩ := pair
    obtain ⟨hk, hrest⟩ := List.pairwise_cons.1 h
    rw [get?_cons]
    rcases List.mem_cons.1 ha with heq | ha
    · obtain ⟨rfl, rfl⟩ := Prod.mk.inj heq
      rw [if_pos rfl]
    · have hlt : k < key := hk _ ha
      rw [if_neg fun heq => String.lt_irrefl _ (heq ▸ hlt)]
      exact ih hrest ha

theorem get?_alter (key k : String) (f : Option α → α) {pairs : List (String × α)}
    (h : Increasing pairs) :
    get? k (alter key f pairs) = if key = k then some (f (get? key pairs)) else get? k pairs := by
  induction pairs with
  | nil => simp [alter, get?]
  | cons pair rest ih =>
    obtain ⟨l, a⟩ := pair
    obtain ⟨hl, hr⟩ := List.pairwise_cons.1 h
    unfold alter
    split
    · next hlt =>
      have none : get? key ((l, a) :: rest) = none := by
        refine get?_eq_none fun entry he => ?_
        rcases List.mem_cons.1 he with rfl | he
        · exact hlt
        · exact String.lt_trans hlt (hl entry he)
      rw [get?_cons k key, none]
    · split
      · next heq =>
        subst heq
        simp only [get?_cons]
        split <;> simp
      · next hlt heq =>
        rw [get?_cons, get?_cons, get?_cons, ih hr, if_neg (Ne.symm heq)]
        by_cases hlk : l = k
        · have hk : key ≠ k := fun h => heq (h.trans hlk.symm)
          rw [if_pos hlk, if_neg hk, if_pos hlk]
        · rw [if_neg hlk, if_neg hlk]

theorem mem_alter {key : String} {f : Option α → α} {pairs : List (String × α)}
    {entry : String × α} (h : entry ∈ alter key f pairs) :
    entry ∈ pairs ∨ ∃ old, entry.2 = f old := by
  induction pairs with
  | nil =>
    obtain rfl := List.mem_singleton.1 h
    exact Or.inr ⟨none, rfl⟩
  | cons pair rest ih =>
    obtain ⟨k, a⟩ := pair
    unfold alter at h
    split at h
    · rcases List.mem_cons.1 h with rfl | h
      · exact Or.inr ⟨none, rfl⟩
      · exact Or.inl h
    · split at h
      · rcases List.mem_cons.1 h with rfl | h
        · exact Or.inr ⟨some a, rfl⟩
        · exact Or.inl (List.mem_cons_of_mem _ h)
      · rcases List.mem_cons.1 h with rfl | h
        · exact Or.inl List.mem_cons_self
        · exact (ih h).imp_left (List.mem_cons_of_mem _)

/-- Pairs in the order of their keys are known by their entries. -/
theorem Increasing.ext {pairs pairs' : List (String × α)} (h : Increasing pairs)
    (h' : Increasing pairs') (same : ∀ key, get? key pairs = get? key pairs') :
    pairs = pairs' := by
  have get?_self (k : String) (a : α) (rest : List (String × α)) :
      get? k ((k, a) :: rest) = some a := by rw [get?_cons, if_pos rfl]
  -- a key that is not below the first one of a list has no entry in it
  have not_lt {k l : String} {a b : α} {rest rest' : List (String × α)}
      (hs : Increasing ((l, b) :: rest'))
      (heq : get? k ((k, a) :: rest) = get? k ((l, b) :: rest')) : ¬k < l := by
    intro hlt
    have hnone : get? k ((l, b) :: rest') = none := by
      refine get?_eq_none fun entry he => ?_
      rcases List.mem_cons.1 he with rfl | he
      · exact hlt
      · exact String.lt_trans hlt ((List.pairwise_cons.1 hs).1 entry he)
    rw [get?_self, hnone] at heq
    cases heq
  induction pairs generalizing pairs' with
  | nil =>
    cases pairs' with
    | nil => rfl
    | cons pair rest =>
      have hsome := same pair.1
      rw [get?_self] at hsome
      cases hsome
  | cons pair rest ih =>
    obtain ⟨k, a⟩ := pair
    obtain ⟨hk, hrest⟩ := List.pairwise_cons.1 h
    cases pairs' with
    | nil =>
      have hsome := same k
      rw [get?_self] at hsome
      cases hsome
    | cons pair' rest' =>
      obtain ⟨l, b⟩ := pair'
      obtain ⟨hl, hrest'⟩ := List.pairwise_cons.1 h'
      obtain rfl : k = l := by
        by_cases heq : k = l
        · exact heq
        · exact absurd (lt_of_not_lt (not_lt h' (same k)) heq) (not_lt h (same l).symm)
      have hhead := same k
      rw [get?_self, get?_self] at hhead
      obtain rfl := Option.some.inj hhead
      congr 1
      refine ih hrest hrest' fun key => ?_
      by_cases heq : k = key
      · subst heq
        rw [get?_eq_none hk, get?_eq_none hl]
      · have htail := same key
        rwa [get?_cons, get?_cons, if_neg heq, if_neg heq] at htail

/-- Changing an entry goes along with changing what the entries hold. -/
theorem alter_map {m : α → β} {f : Option α → α} {f' : Option β → β}
    (hf : ∀ entry, f' (entry.map m) = m (f entry)) (key : String) (pairs : List (String × α)) :
    alter key f' (pairs.map fun (k, a) => (k, m a))
      = (alter key f pairs).map fun (k, a) => (k, m a) := by
  have hnone : f' none = m (f none) := hf none
  induction pairs with
  | nil => simp only [List.map_nil, alter, List.map_cons, hnone]
  | cons pair rest ih =>
    obtain ⟨k, a⟩ := pair
    have hsome : f' (some (m a)) = m (f (some a)) := hf (some a)
    rw [List.map_cons, alter, alter]
    split
    · rw [List.map_cons, List.map_cons, hnone]
    · split
      · rw [List.map_cons, hsome]
      · rw [List.map_cons, ih]

theorem Increasing.map {pairs : List (String × α)} (h : Increasing pairs) (f : α → β) :
    Increasing (pairs.map fun (key, a) => (key, f a)) :=
  List.pairwise_map.2 h

end Sorted

theorem mem_firsts {s : String} {texts : List String} : s ∈ firsts texts ↔ s ∈ texts := by
  have go (seen : List String) : s ∈ firsts.go seen texts ↔ s ∈ texts ∧ s ∉ seen := by
    induction texts generalizing seen with
    | nil => simp [firsts.go]
    | cons t rest ih =>
      unfold firsts.go
      split
      · next ht =>
        have ht := List.contains_iff_mem.1 ht
        rw [ih, List.mem_cons]
        refine and_congr_left fun hs => ?_
        constructor
        · exact Or.inr
        · rintro (rfl | h)
          · exact absurd ht hs
          · exact h
      · next ht =>
        have ht : t ∉ seen := fun h => ht (List.contains_iff_mem.2 h)
        rw [List.mem_cons, ih, List.mem_cons, List.mem_cons]
        by_cases hs : s = t
        · subst hs
          simp [ht]
        · simp [hs]
  exact (go []).trans (and_iff_left List.not_mem_nil)

/-! ## Groups -/

namespace Grouped

variable {α β : Type}

/-- The selectors are in order, each once. -/
def Ordered (g : Grouped α) : Prop :=
  Sorted.Increasing g.bySelector

theorem ordered_empty : (empty : Grouped α).Ordered :=
  List.Pairwise.nil

theorem Ordered.alter {g : Grouped α} (h : g.Ordered) (destination : Option String)
    (f : List α → List α) : (g.alter destination f).Ordered := by
  cases destination with
  | none => exact h
  | some selector => exact Sorted.Increasing.alter h

/-- An item of an ordered collection is in the part for some destination. -/
theorem mem_part_of_mem_toList {g : Grouped α} (h : g.Ordered) {a : α} (ha : a ∈ g.toList) :
    ∃ destination, a ∈ g.part destination := by
  rcases List.mem_append.1 ha with ha | ha
  · exact ⟨none, ha⟩
  · obtain ⟨⟨selector, items⟩, hentry, ha⟩ := List.mem_flatMap.1 ha
    refine ⟨some selector, ?_⟩
    rw [part, part?, Sorted.get?_eq_some h hentry]
    exact ha

/-- A changed collection, part by part. -/
theorem part_alter {g : Grouped α} (h : g.Ordered) (destination other : Option String)
    (f : List α → List α) :
    (g.alter destination f).part other
      = if destination = other then f (g.part destination) else g.part other := by
  cases destination with
  | none => cases other <;> rfl
  | some selector =>
    cases other with
    | none => rfl
    | some key =>
      simp only [part, part?, Grouped.alter, Sorted.get?_alter _ _ _ h, Option.some.injEq]
      split <;> rfl

theorem mem_part_insert {g : Grouped String} (h : g.Ordered) {destination other : Option String}
    {s line : String} :
    line ∈ (g.insert destination s).part other ↔
      destination = other ∧ line = s ∨ line ∈ g.part other := by
  rw [insert, part_alter h]
  split
  · next heq =>
    subst heq
    simp [Sorted.mem_insert]
  · next hne => simp [hne]

/-! ### Entries -/

/-- The items with their destinations, those of the common part first. -/
def entries (g : Grouped α) : List (Option String × α) :=
  g.common.map (none, ·)
    ++ g.bySelector.flatMap fun (selector, items) => items.map (some selector, ·)

theorem map_snd_entries (g : Grouped α) : g.entries.map Prod.snd = g.toList := by
  simp [entries, toList, List.map_flatMap, Function.comp_def]

theorem entries_add (g : Grouped α) (destination : Option String) (a : α) :
    (g.add destination a).entries.Perm ((destination, a) :: g.entries) := by
  cases destination with
  | none =>
    simp only [entries, add, Grouped.alter, List.map_append, List.map_cons, List.map_nil,
      List.append_assoc, List.singleton_append]
    exact List.perm_middle
  | some key =>
    obtain ⟨common, pairs⟩ := g
    have parts : ((Sorted.alter key (fun part => part.getD [] ++ [a]) pairs).flatMap
          fun (selector, items) => items.map (some selector, ·)).Perm
        ((some key, a) :: pairs.flatMap fun (selector, items) => items.map (some selector, ·)) := by
      induction pairs with
      | nil => exact List.Perm.refl _
      | cons pair rest ih =>
        obtain ⟨k, items⟩ := pair
        unfold Sorted.alter
        split
        · exact List.Perm.refl _
        · split
          · next heq =>
            subst heq
            simp only [Option.getD_some, List.flatMap_cons, List.map_append, List.map_cons,
              List.map_nil, List.append_assoc, List.singleton_append]
            exact List.perm_middle
          · rw [List.flatMap_cons, List.flatMap_cons]
            exact (ih.append_left _).trans List.perm_middle
    exact (parts.append_left _).trans List.perm_middle

/-- Adding an item goes along with changing the items. -/
theorem add_mapParts (g : Grouped α) (destination : Option String) (m : α → β) (a : α) :
    (g.mapParts (List.map m)).add destination (m a)
      = (g.add destination a).mapParts (List.map m) := by
  cases destination with
  | none => simp only [add, Grouped.alter, mapParts, List.map_append, List.map_cons, List.map_nil]
  | some selector =>
    have hentry (part : Option (List α)) :
        (part.map (List.map m)).getD [] ++ [m a] = (part.getD [] ++ [a]).map m := by
      cases part <;> simp
    simp only [add, Grouped.alter, mapParts]
    rw [Sorted.alter_map hentry]

theorem toList_mapParts (g : Grouped α) (m : α → β) :
    (g.mapParts (List.map m)).toList = g.toList.map m := by
  simp only [toList, mapParts, List.map_append, List.flatMap_map, List.map_flatMap]

/-- Reordering every part keeps the entries. -/
theorem entries_mapParts (g : Grouped α) (f : List α → List α)
    (hf : ∀ items, (f items).Perm items) : (g.mapParts f).entries.Perm g.entries := by
  simp only [entries, mapParts, List.flatMap_map]
  refine ((hf _).map _).append ?_
  induction g.bySelector with
  | nil => exact List.Perm.refl _
  | cons pair rest ih => exact ((hf _).map _).append ih

/-! ### Parts -/

/-- No selector has an empty part. -/
def Inhabited (g : Grouped α) : Prop :=
  ∀ entry ∈ g.bySelector, entry.2 ≠ []

theorem Inhabited.alter {g : Grouped α} (h : g.Inhabited) (destination : Option String)
    {f : List α → List α} (hf : ∀ items, f items ≠ []) : (g.alter destination f).Inhabited := by
  cases destination with
  | none => exact h
  | some selector =>
    intro entry he
    rcases Sorted.mem_alter he with he | ⟨old, heq⟩
    · exact h entry he
    · exact heq ▸ hf _

theorem Inhabited.add {g : Grouped α} (h : g.Inhabited) (destination : Option String) (a : α) :
    (g.add destination a).Inhabited :=
  h.alter destination fun _ => List.append_ne_nil_of_right_ne_nil _ (List.cons_ne_nil a [])

theorem Inhabited.insert {g : Grouped String} (h : g.Inhabited) (destination : Option String)
    (s : String) : (g.insert destination s).Inhabited :=
  h.alter destination fun _ => List.ne_nil_of_mem (Sorted.mem_insert.2 (Or.inl rfl))

theorem part?_eq_none {g : Grouped α} (h : g.Inhabited) {selector : String}
    (empty : g.part (some selector) = []) : g.part? selector = none := by
  cases hpart : g.part? selector with
  | none => rfl
  | some items =>
    rw [part, hpart] at empty
    obtain ⟨pair, hpair, rfl⟩ := Option.map_eq_some_iff.1 hpart
    exact absurd empty (h pair (List.mem_of_find?_eq_some hpair))

/-- A collection without empty parts is known by its parts. -/
theorem ext_part {g g' : Grouped α} (ordered : g.Ordered) (ordered' : g'.Ordered)
    (inhabited : g.Inhabited) (inhabited' : g'.Inhabited)
    (same : ∀ destination, g.part destination = g'.part destination) : g = g' := by
  have hcommon : g.common = g'.common := same none
  have hselectors : g.bySelector = g'.bySelector := by
    refine ordered.ext ordered' fun selector => ?_
    show g.part? selector = g'.part? selector
    have hpart := same (some selector)
    cases hitems : g.part? selector with
    | none =>
      rw [part, hitems] at hpart
      exact (part?_eq_none inhabited' hpart.symm).symm
    | some items =>
      cases hitems' : g'.part? selector with
      | none =>
        rw [part, part, hitems'] at hpart
        cases hitems.symm.trans (part?_eq_none inhabited hpart)
      | some items' =>
        rw [part, part, hitems, hitems'] at hpart
        exact congrArg some hpart
  obtain ⟨common, bySelector⟩ := g
  obtain rfl : common = g'.common := hcommon
  obtain rfl : bySelector = g'.bySelector := hselectors
  rfl

theorem part_mapParts (g : Grouped α) {f : List α → List β} (hf : f [] = [])
    (destination : Option String) : (g.mapParts f).part destination = f (g.part destination) := by
  cases destination with
  | none => rfl
  | some selector =>
    have hget : (g.mapParts f).part? selector = (g.part? selector).map f := by
      simp only [part?, mapParts, Sorted.get?, List.find?_map, Option.map_map]
      rfl
    rw [part, part, hget]
    cases g.part? selector with
    | none => exact hf.symm
    | some items => rfl

end Grouped

end FormDesign
