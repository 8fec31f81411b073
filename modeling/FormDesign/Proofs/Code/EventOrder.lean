import FormDesign.Proofs.Code.Collect

/-!
# The order in which events are bound

Events are bound in the order of their keys, and events with equal keys in the order in which they
were collected. So what is bound is known by the events of each place and key, whatever else was
collected between them.

* `EventUse.filter_sort`: sorting keeps the events of one key in their order
* `EventUse.sort_congr`: sorted events are known by the events of each key
* `EventTables.sort_congr`: sorted tables are known by the events of each place and key
-/

namespace FormDesign

/-! ## The order of keys -/

/-- Texts in order, where those after them decide if they are equal. -/
def LexLe (a b : String) (rest : Prop) : Prop :=
  a < b ∨ a = b ∧ rest

namespace LexLe

variable {a b c : String} {p q r : Prop}

theorem trans (h : LexLe a b p) (h' : LexLe b c q) (rest : p → q → r) : LexLe a c r := by
  rcases h with hab | ⟨rfl, hp⟩
  · rcases h' with hbc | ⟨rfl, -⟩
    · exact Or.inl (String.lt_trans hab hbc)
    · exact Or.inl hab
  · exact h'.imp_right fun ⟨hac, hq⟩ => ⟨hac, rest hp hq⟩

theorem total (rest : p ∨ q) : LexLe a b p ∨ LexLe b a q := by
  by_cases heq : a = b
  · exact rest.imp (fun hp => Or.inr ⟨heq, hp⟩) fun hq => Or.inr ⟨heq.symm, hq⟩
  · by_cases hlt : a < b
    · exact Or.inl (Or.inl hlt)
    · exact Or.inr (Or.inl (Sorted.lt_of_not_lt hlt heq))

theorem antisymm (h : LexLe a b p) (h' : LexLe b a q) : a = b ∧ p ∧ q := by
  rcases h with hlt | ⟨heq, hp⟩
  · rcases h' with hgt | ⟨rfl, -⟩
    · exact absurd hgt (String.lt_asymm hlt)
    · exact absurd hlt (String.lt_irrefl _)
  · rcases h' with hgt | ⟨-, hq⟩
    · exact absurd hgt (heq ▸ String.lt_irrefl _)
    · exact ⟨heq, hp, hq⟩

end LexLe

namespace EventUse

variable {u v w : EventUse}

theorem le_iff :
    u.le v = true ↔ LexLe u.key.1 v.key.1 (LexLe u.key.2.1 v.key.2.1
      (LexLe u.key.2.2.1 v.key.2.2.1 (u.key.2.2.2 ≤ v.key.2.2.2))) := by
  have step {a b : String} {rest : Bool} :
      (if a ≠ b then decide (a < b) else rest) = true ↔ LexLe a b (rest = true) := by
    by_cases heq : a = b
    · subst heq
      rw [if_neg (not_not_intro rfl), LexLe, or_iff_right (String.lt_irrefl a), and_iff_right rfl]
    · simp [LexLe, heq]
  simp only [le, step, decide_eq_true_iff]

theorem le_trans (h : u.le v = true) (h' : v.le w = true) : u.le w = true :=
  le_iff.2 <| (le_iff.1 h).trans (le_iff.1 h') fun p q =>
    p.trans q fun p q => p.trans q fun p q => String.le_trans p q

theorem le_total (u v : EventUse) : (u.le v || v.le u) = true := by
  rw [Bool.or_eq_true, le_iff, le_iff]
  exact LexLe.total (LexLe.total (LexLe.total (String.le_total _ _)))

/-- Only events with one key come before each other. -/
theorem key_eq_of_le (h : u.le v = true) (h' : v.le u = true) : u.key = v.key := by
  obtain ⟨hname, hrest, hrest'⟩ := (le_iff.1 h).antisymm (le_iff.1 h')
  obtain ⟨hhandler, hrest, hrest'⟩ := hrest.antisymm hrest'
  obtain ⟨hid, hle, hge⟩ := hrest.antisymm hrest'
  exact Prod.ext hname (Prod.ext hhandler (Prod.ext hid (String.le_antisymm hle hge)))

theorem le_of_key_eq (h : u.key = v.key) : u.le v = true := by
  rcases Bool.or_eq_true_iff.1 (le_total u v) with hle | hge
  · exact hle
  · rw [le, ← h]
    rwa [le, ← h] at hge

/-! ## Sorting -/

/-- The events with a key. -/
def withKey (k : String × String × String × String) (uses : List EventUse) : List EventUse :=
  uses.filter fun u => u.key = k

theorem mem_withKey {k : String × String × String × String} {uses : List EventUse} :
    u ∈ withKey k uses ↔ u ∈ uses ∧ u.key = k := by
  rw [withKey, List.mem_filter, decide_eq_true_iff]

/-- **Sorting keeps the events of one key in their order.** -/
theorem withKey_sort (k : String × String × String × String) (uses : List EventUse) :
    withKey k (sort uses) = withKey k uses := by
  have hkept : (withKey k uses).Sublist (sort uses) := by
    have htrans (u v w : EventUse) : u.le v = true → v.le w = true → u.le w = true := le_trans
    refine List.sublist_mergeSort htrans le_total ?_ List.filter_sublist
    refine List.pairwise_iff_forall_sublist.2 fun {u v} hpair => ?_
    have hu := (mem_withKey.1 (hpair.subset List.mem_cons_self)).2
    have hv := (mem_withKey.1 (hpair.subset (List.mem_cons_of_mem _ List.mem_cons_self))).2
    exact le_of_key_eq (hu.trans hv.symm)
  -- they are all that has the key, since sorting adds nothing
  have hsub := hkept.filter fun u => u.key = k
  simp only [withKey, List.filter_filter, Bool.and_self] at hsub
  have hperm : (sort uses).Perm uses := List.mergeSort_perm uses le
  exact (hsub.eq_of_length (hperm.filter _).length_eq.symm).symm

/-- Events in order are known by the events of each key. -/
theorem eq_of_withKey_eq {us vs : List EventUse} (hus : us.Pairwise fun u v => u.le v = true)
    (hvs : vs.Pairwise fun u v => u.le v = true) (same : ∀ k, withKey k us = withKey k vs) :
    us = vs := by
  have subset {us vs : List EventUse} (same : ∀ k, withKey k us = withKey k vs) : us ⊆ vs := by
    intro u hu
    have hkey : u ∈ withKey u.key us := mem_withKey.2 ⟨hu, rfl⟩
    rw [same] at hkey
    exact (mem_withKey.1 hkey).1
  induction us generalizing vs with
  | nil => exact (List.subset_nil.1 (subset fun k => (same k).symm)).symm
  | cons u us ih =>
    cases vs with
    | nil => exact List.subset_nil.1 (subset same)
    | cons v vs =>
      obtain ⟨hu, hus⟩ := List.pairwise_cons.1 hus
      obtain ⟨hv, hvs'⟩ := List.pairwise_cons.1 hvs
      -- each of the two heads comes first in its list and is in the other one
      have hle : u = v ∨ u.le v = true :=
        (List.mem_cons.1 (subset (fun k => (same k).symm) List.mem_cons_self)).imp Eq.symm (hu v)
      have hge : v = u ∨ v.le u = true :=
        (List.mem_cons.1 (subset same List.mem_cons_self)).imp Eq.symm (hv u)
      have hkey : v.key = u.key := by
        rcases hle with rfl | hle
        · rfl
        · rcases hge with rfl | hge
          · rfl
          · exact key_eq_of_le hge hle
      have hheads := same u.key
      rw [withKey, withKey, List.filter_cons_of_pos (by simp),
        List.filter_cons_of_pos (by simp [hkey])]
        at hheads
      obtain ⟨rfl, -⟩ := List.cons.inj hheads
      congr 1
      refine ih hus hvs' fun k => ?_
      have htails := same k
      rw [withKey, withKey, List.filter_cons, List.filter_cons] at htails
      split at htails
      · exact (List.cons.inj htails).2
      · exact htails

/-- Sorted events are known by the events of each key. -/
theorem sort_congr {us vs : List EventUse} (same : ∀ k, withKey k us = withKey k vs) :
    sort us = sort vs := by
  have htrans (u v w : EventUse) : u.le v = true → v.le w = true → u.le w = true := le_trans
  have sorted (uses : List EventUse) : (sort uses).Pairwise fun u v => u.le v = true :=
    List.pairwise_mergeSort htrans le_total uses
  refine eq_of_withKey_eq (sorted us) (sorted vs) fun k => ?_
  rw [withKey_sort, withKey_sort, same]

end EventUse

/-! ## Tables -/

/-- The events of a place and key. -/
def usesAt (place : BindPlace) (k : String × String × String × String)
    (uses : List (BindPlace × EventUse)) : List (BindPlace × EventUse) :=
  uses.filter fun use => use.1 = place ∧ use.2.key = k

/-- For each place and key the events of both are the same, in the same order. -/
def SameByKey (us vs : List (BindPlace × EventUse)) : Prop :=
  ∀ place k, usesAt place k us = usesAt place k vs

namespace SameByKey

variable {us us' vs vs' : List (BindPlace × EventUse)}

theorem nil : SameByKey [] [] :=
  fun _ _ => rfl

theorem append (h : SameByKey us vs) (h' : SameByKey us' vs') :
    SameByKey (us ++ us') (vs ++ vs') := by
  intro place k
  have hfirst := h place k
  have hrest := h' place k
  rw [usesAt, usesAt] at hfirst hrest
  rw [usesAt, List.filter_append, usesAt, List.filter_append, hfirst, hrest]

end SameByKey

namespace EventTables

/-- The events for a place, in the order they were collected. -/
def usesFor (place : BindPlace) (uses : List (BindPlace × EventUse)) : List EventUse :=
  (uses.filter fun use => use.1 = place).map Prod.snd

theorem withKey_usesFor (place : BindPlace) (k : String × String × String × String)
    (uses : List (BindPlace × EventUse)) :
    EventUse.withKey k (usesFor place uses) = (usesAt place k uses).map Prod.snd := by
  rw [EventUse.withKey, usesFor, List.filter_map, List.filter_filter, usesAt]
  congr 1
  refine List.filter_congr fun use _ => ?_
  rw [Bool.decide_and]
  exact Bool.and_comm _ _

variable {t : EventTables}

theorem inMenus_foldl (uses : List (BindPlace × EventUse)) :
    (uses.foldl EventTables.add t).inMenus = t.inMenus ++ usesFor .contextMenu uses := by
  induction uses generalizing t with
  | nil => exact (List.append_nil _).symm
  | cons use rest ih =>
    obtain ⟨place, u⟩ := use
    rw [List.foldl_cons, ih]
    cases place with
    | constructor destination => simp [EventTables.add, usesFor]
    | contextMenu => simp [EventTables.add, usesFor]

theorem part_foldl (h : t.bound.Ordered) (uses : List (BindPlace × EventUse))
    (destination : Option String) :
    (uses.foldl EventTables.add t).bound.part destination
      = t.bound.part destination ++ usesFor (.constructor destination) uses := by
  induction uses generalizing t with
  | nil => exact (List.append_nil _).symm
  | cons use rest ih =>
    obtain ⟨place, u⟩ := use
    rw [List.foldl_cons, ih (Ordered.add h _)]
    cases place with
    | contextMenu => simp [EventTables.add, usesFor]
    | constructor other =>
      rw [EventTables.add, Grouped.add, Grouped.part_alter h]
      by_cases heq : other = destination
      · subst heq
        simp [usesFor]
      · simp [usesFor, heq]

theorem inhabited_foldl (h : t.bound.Inhabited) (uses : List (BindPlace × EventUse)) :
    (uses.foldl EventTables.add t).bound.Inhabited := by
  induction uses generalizing t with
  | nil => exact h
  | cons use rest ih =>
    obtain ⟨place, u⟩ := use
    refine ih ?_
    cases place with
    | constructor destination => exact h.add destination u
    | contextMenu => exact h

theorem inhabited_sort (h : t.bound.Inhabited) : t.sort.bound.Inhabited := by
  intro entry he
  obtain ⟨pair, hpair, rfl⟩ := List.mem_map.1 he
  intro hempty
  have hperm : (EventUse.sort pair.2).Perm pair.2 := List.mergeSort_perm pair.2 EventUse.le
  exact h pair hpair (List.nil_perm.1 (hempty ▸ hperm))

/-- **Sorted tables are known by the events of each place and key.** -/
theorem sort_congr {us vs : List (BindPlace × EventUse)} (same : SameByKey us vs) :
    (us.foldl EventTables.add .empty).sort = (vs.foldl EventTables.add .empty).sort := by
  have hplace (place : BindPlace) :
      EventUse.sort (usesFor place us) = EventUse.sort (usesFor place vs) :=
    EventUse.sort_congr fun k => by rw [withKey_usesFor, withKey_usesFor, same]
  have ordered (uses : List (BindPlace × EventUse)) :
      (uses.foldl EventTables.add .empty).sort.bound.Ordered :=
    Sorted.Increasing.map (ordered_foldl Grouped.ordered_empty uses) EventUse.sort
  have inhabited (uses : List (BindPlace × EventUse)) :
      (uses.foldl EventTables.add .empty).sort.bound.Inhabited :=
    inhabited_sort (inhabited_foldl (t := .empty) (fun _ he => nomatch he) uses)
  have part (uses : List (BindPlace × EventUse)) (destination : Option String) :
      (uses.foldl EventTables.add .empty).sort.bound.part destination
        = EventUse.sort (usesFor (.constructor destination) uses) := by
    rw [sort, Grouped.part_mapParts _ List.mergeSort_nil, part_foldl Grouped.ordered_empty]
    congr 1
    cases destination <;> rfl
  have hbound : (us.foldl EventTables.add .empty).sort.bound
      = (vs.foldl EventTables.add .empty).sort.bound :=
    Grouped.ext_part (ordered us) (ordered vs) (inhabited us) (inhabited vs) fun destination => by
      rw [part, part, hplace]
  have hmenus : (us.foldl EventTables.add .empty).sort.inMenus
      = (vs.foldl EventTables.add .empty).sort.inMenus := by
    rw [sort, sort, inMenus_foldl, inMenus_foldl]
    exact hplace .contextMenu
  generalize (us.foldl EventTables.add .empty).sort = t at hbound hmenus ⊢
  obtain ⟨bound, inMenus⟩ := t
  obtain rfl : bound = _ := hbound
  obtain rfl : inMenus = _ := hmenus
  rfl

end EventTables

end FormDesign
