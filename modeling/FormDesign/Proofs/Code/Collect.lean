import FormDesign.Proofs.Code.Trace
import FormDesign.Proofs.Grouped

/-!
# The tables of events

The events of a form are collected along its tree, each with the place it is bound in, and put into
tables by their places. The tables hold every event in its place and nothing else.

* `EventTables.entries_foldl`: filling the tables adds the events as entries
* `Form.entries_sort_events`: the tables of a form hold what was collected
-/

namespace FormDesign

/-! ## Filling the tables -/

namespace EventTables

variable {t : EventTables}

/-- The events with the places of their tables. -/
def entries (t : EventTables) : List (BindPlace × EventUse) :=
  t.bound.entries.map (fun (destination, u) => (.constructor destination, u))
    ++ t.inMenus.map (.contextMenu, ·)

theorem entries_add (t : EventTables) (use : BindPlace × EventUse) :
    (t.add use).entries.Perm (use :: t.entries) := by
  obtain ⟨place, u⟩ := use
  cases place with
  | constructor destination =>
    exact ((t.bound.entries_add destination u).map _).append_right _
  | contextMenu =>
    simp only [entries, EventTables.add, List.map_append, List.map_cons, List.map_nil,
      ← List.append_assoc]
    exact List.perm_append_comm

/-- Filling the tables adds the events as entries. -/
theorem entries_foldl (uses : List (BindPlace × EventUse)) :
    (uses.foldl EventTables.add t).entries.Perm (t.entries ++ uses) := by
  induction uses generalizing t with
  | nil => rw [List.append_nil, List.foldl_nil]
  | cons use uses ih =>
    calc
      List.Perm (uses.foldl EventTables.add (t.add use)).entries ((t.add use).entries ++ uses) := ih
      List.Perm _ (use :: t.entries ++ uses) := (t.entries_add use).append_right uses
      List.Perm _ (t.entries ++ use :: uses) := List.perm_middle.symm

theorem Ordered.add (h : t.bound.Ordered) (use : BindPlace × EventUse) :
    (t.add use).bound.Ordered := by
  obtain ⟨place, u⟩ := use
  cases place with
  | constructor destination => exact h.alter destination _
  | contextMenu => exact h

theorem ordered_foldl (h : t.bound.Ordered) (uses : List (BindPlace × EventUse)) :
    (uses.foldl EventTables.add t).bound.Ordered := by
  induction uses generalizing t with
  | nil => exact h
  | cons use uses ih => exact ih (Ordered.add h use)

theorem entries_sort (t : EventTables) : t.sort.entries.Perm t.entries :=
  ((t.bound.entries_mapParts EventUse.sort fun uses => List.mergeSort_perm uses _).map _).append
    ((List.mergeSort_perm t.inMenus _).map _)

end EventTables

/-! ## What is collected -/

/-- The events of a spot that have a handler, as the node lists them. -/
def Spot.handled (sp : Spot) : List EventUse :=
  sp.item.element.handled.map fun event => { spot := sp, event }

theorem map_snd_spotEvents (inMenu : Bool) (sp : Spot) :
    (spotEvents inMenu sp).map Prod.snd = sp.handled := by
  simp [spotEvents, Spot.handled, Function.comp_def]

mutual

/-- What is collected comes in the order of the spots. -/
theorem sublist_nodeEvents (inMenu : Bool) (above : List Item) (b : Branch Item) :
    ((nodeEvents inMenu above b).map Prod.snd).Sublist
      ((spotsOf above b).flatMap Spot.handled) := by
  cases b with
  | mk i cs =>
    unfold nodeEvents spotsOf
    rw [List.flatMap_cons]
    split
    · -- the events of a node that opens a menu are left out
      exact (sublist_entryEventsAll (i :: above) cs).trans (List.sublist_append_right _ _)
    · rw [List.map_append, map_snd_spotEvents]
      exact (List.Sublist.refl _).append (sublist_nodeEventsAll inMenu (i :: above) cs)

theorem sublist_nodeEventsAll (inMenu : Bool) (above : List Item) (bs : List (Branch Item)) :
    ((nodeEventsAll inMenu above bs).map Prod.snd).Sublist
      ((spotsOfAll above bs).flatMap Spot.handled) := by
  cases bs with
  | nil => exact List.Sublist.refl _
  | cons b bs =>
    unfold nodeEventsAll spotsOfAll
    rw [List.map_append, List.flatMap_append]
    exact (sublist_nodeEvents inMenu above b).append (sublist_nodeEventsAll inMenu above bs)

theorem sublist_entryEvents (above : List Item) (b : Branch Item) :
    ((entryEvents above b).map Prod.snd).Sublist ((spotsOf above b).flatMap Spot.handled) := by
  cases b with
  | mk i cs =>
    unfold entryEvents spotsOf
    rw [List.flatMap_cons, List.map_append, map_snd_spotEvents]
    exact (List.Sublist.refl _).append (sublist_nodeEventsAll true (i :: above) cs)

theorem sublist_entryEventsAll (above : List Item) (bs : List (Branch Item)) :
    ((entryEventsAll above bs).map Prod.snd).Sublist
      ((spotsOfAll above bs).flatMap Spot.handled) := by
  cases bs with
  | nil => exact List.Sublist.refl _
  | cons b bs =>
    unfold entryEventsAll spotsOfAll
    rw [List.map_append, List.flatMap_append]
    exact (sublist_entryEvents above b).append (sublist_entryEventsAll above bs)

end

theorem Spot.mem_handled {sp : Spot} {u : EventUse} :
    u ∈ sp.handled ↔ u.spot = sp ∧ u.event ∈ sp.item.element.handled := by
  rw [Spot.handled, List.mem_map]
  constructor
  · rintro ⟨event, hevent, rfl⟩
    exact ⟨rfl, hevent⟩
  · rintro ⟨rfl, hevent⟩
    exact ⟨u.event, hevent, rfl⟩

theorem mem_flatMap_handled {spots : List Spot} {u : EventUse} :
    u ∈ spots.flatMap Spot.handled ↔ u.spot ∈ spots ∧ u.event ∈ u.item.element.handled := by
  rw [List.mem_flatMap]
  constructor
  · rintro ⟨sp, hsp, hu⟩
    obtain ⟨rfl, hevent⟩ := Spot.mem_handled.1 hu
    exact ⟨hsp, hevent⟩
  · rintro ⟨hsp, hevent⟩
    exact ⟨u.spot, hsp, Spot.mem_handled.2 ⟨rfl, hevent⟩⟩

theorem spot_mem_of_mem_entryEventsAll {above : List Item} {bs : List (Branch Item)}
    {use : BindPlace × EventUse} (h : use ∈ entryEventsAll above bs) :
    use.2.spot ∈ spotsOfAll above bs :=
  (mem_flatMap_handled.1 ((sublist_entryEventsAll above bs).subset (List.mem_map_of_mem h))).1

namespace Form

/-- The events of a form with their places, in the order of the tree. -/
def placedUses (f : Form) : List (BindPlace × EventUse) :=
  nodeEvents false f.above f.branch

theorem ordered_sort_events (f : Form) : f.events.sort.bound.Ordered :=
  Sorted.Increasing.map (EventTables.ordered_foldl Grouped.ordered_empty f.placedUses) EventUse.sort

/-- **The tables of a form hold what was collected.** -/
theorem entries_sort_events (f : Form) : f.events.sort.entries.Perm f.placedUses :=
  f.events.entries_sort.trans (EventTables.entries_foldl (t := .empty) f.placedUses)

/-- The constructor binds under a destination the events that are placed there. -/
theorem mem_entries_bound {f : Form} {destination : Option String} {u : EventUse} :
    (destination, u) ∈ f.events.sort.bound.entries ↔
      (BindPlace.constructor destination, u) ∈ f.placedUses := by
  rw [← f.entries_sort_events.mem_iff]
  simp [EventTables.entries]

/-- What is collected are events of the form that have a handler, in the order of the tree. -/
theorem sublist_placedUses (f : Form) :
    (f.placedUses.map Prod.snd).Sublist (f.spots.flatMap Spot.handled) :=
  sublist_nodeEvents false f.above f.branch

theorem mem_spots_of_mem_placedUses {f : Form} {use : BindPlace × EventUse}
    (h : use ∈ f.placedUses) : use.2.spot ∈ f.spots :=
  (mem_flatMap_handled.1 (f.sublist_placedUses.subset (List.mem_map_of_mem h))).1

/-- The constructor binds the entries of its table, and then it opens the menus. -/
theorem traceBindings_eq (f : Form) (events : EventTables) :
    f.traceBindings events
      = (events.bound.entries.map fun (destination, u) => f.traceEvent destination.toList u)
        ++ f.traceMenus := by
  simp only [traceBindings, Grouped.entries, List.map_append, List.map_map, List.map_flatMap]
  rfl

end Form

end FormDesign
