import FormDesign.Proofs.Code.Visit
import FormDesign.Proofs.Tree.Places

/-!
# The spots of a form

A form that is taken out of a tree has a spot for every node below it, and nothing stands above it
that stands below as well.

* `Form.sound_of_ofTree`: what holds of the spots of a form that comes from a tree
* `Form.menuBuilders_eq`: the nodes that open context menus, as spots
-/

namespace FormDesign

/-! ## The nodes of the spots -/

mutual

theorem spotsOf_eq (above : List Item) (b : Branch Item) :
    spotsOf above b
      = (Branch.places above b).map fun q => { item := q.label, above := q.above } := by
  cases b with
  | mk i cs =>
    unfold spotsOf Branch.places
    rw [List.map_cons, spotsOfAll_eq (i :: above) cs]
    rfl

/-- Spots are the labels of places. -/
theorem spotsOfAll_eq (above : List Item) (bs : List (Branch Item)) :
    spotsOfAll above bs
      = (Branch.placesAll above bs).map fun q => { item := q.label, above := q.above } := by
  cases bs with
  | nil => rfl
  | cons b bs =>
    unfold spotsOfAll Branch.placesAll
    rw [List.map_append, spotsOf_eq above b, spotsOfAll_eq above bs]

end

theorem map_item_spotsOf (above : List Item) (b : Branch Item) :
    (spotsOf above b).map Spot.item = b.toList := by
  rw [spotsOf_eq, List.map_map, ← Branch.map_label_places above]
  rfl

theorem map_item_spotsOfAll (above : List Item) (bs : List (Branch Item)) :
    (spotsOfAll above bs).map Spot.item = Branch.toListAll bs := by
  rw [spotsOfAll_eq, List.map_map, ← Branch.map_label_placesAll above]
  rfl

mutual

theorem map_nameBranch (counts : NameCounts) (b : Branch Node) :
    (nameBranch counts b).1.map Item.node = b := by
  cases b with
  | mk n cs =>
    unfold nameBranch
    simp only [Branch.map, mapAll_nameBranches]

/-- Giving names to nodes leaves the nodes as they are. -/
theorem mapAll_nameBranches (counts : NameCounts) (bs : List (Branch Node)) :
    Branch.mapAll Item.node (nameBranches counts bs).1 = bs := by
  cases bs with
  | nil => rfl
  | cons b bs =>
    unfold nameBranches
    simp only [Branch.mapAll, map_nameBranch, mapAll_nameBranches]

end

mutual

theorem menuBuilders_spotsOf (above : List Item) (b : Branch Item) :
    (menuBranchesIn above b).map (fun (above, b) => ({ item := b.label, above } : Spot))
      = (spotsOf above b).filter (·.item.isMenuBuilder) := by
  cases b with
  | mk i cs =>
    have rest := menuBuilders_spotsOfAll (i :: above) cs
    unfold menuBranchesIn spotsOf
    dsimp only
    split
    · next hm =>
      rw [List.map_cons, rest]
      simp [hm, Branch.label]
    · next hm => simp [rest, hm]

theorem menuBuilders_spotsOfAll (above : List Item) (bs : List (Branch Item)) :
    (menuBranchesInAll above bs).map (fun (above, b) => ({ item := b.label, above } : Spot))
      = (spotsOfAll above bs).filter (·.item.isMenuBuilder) := by
  cases bs with
  | nil => rfl
  | cons b bs =>
    unfold menuBranchesInAll spotsOfAll
    rw [List.map_append, List.filter_append, menuBuilders_spotsOf above b,
      menuBuilders_spotsOfAll above bs]

end

/-! ## Spots of a form -/

namespace Form

/-- What holds of the spots of a form that comes from a tree: each node has one spot, what stands
above the form came before it, and the events of a node have names of their own. -/
structure Sound (f : Form) : Prop where
  isForm : f.node.kind.isForm = true
  nodup_ids : (f.spots.map fun sp => sp.item.node.id).Nodup
  above_lt : ∀ i ∈ f.above, ∀ sp ∈ f.spots, i.node.id < sp.item.node.id
  eventsOnce : ∀ sp ∈ f.spots, sp.item.element.EventsOnce

variable {f : Form}

/-- The nodes of a form are those of the branch that it was taken from. -/
theorem map_node_branch {t : Tree} {id : Nat} {hid : id < t.nodes.size} {cs : List (Branch Node)}
    (hb : t.branchAt id hid = .mk f.node cs) (hc : f.children = (nameBranches [] cs).1) :
    f.branch.map Item.node = t.branchAt id hid := by
  rw [hb, branch, Branch.map, hc, mapAll_nameBranches]
  rfl

theorem map_node_spots {t : Tree} {id : Nat} {hid : id < t.nodes.size} {cs : List (Branch Node)}
    (hb : t.branchAt id hid = .mk f.node cs) (hc : f.children = (nameBranches [] cs).1) :
    f.spots.map (fun sp => sp.item.node) = (t.branchAt id hid).toList := by
  have items : f.spots.map Spot.item = f.branch.toList := map_item_spotsOf f.above f.branch
  rw [← map_node_branch hb hc, Branch.toList_map, ← items, List.map_map]
  rfl

theorem sound_of_ofTree {t : Tree} (reachable : t.Reachable) {id : Nat} (h : ofTree t id = .ok f) :
    f.Sound := by
  have wf := reachable.wellFormed
  obtain ⟨hid, cs, hbranch, hform, hchildren, habove⟩ := of_ofTree h
  have hspots := map_node_spots hbranch hchildren
  have node {sp : Spot} (hsp : sp ∈ f.spots) : sp.item.node ∈ (t.branchAt id hid).toList :=
    hspots ▸ List.mem_map_of_mem hsp
  refine ⟨hform, ?_, fun i hi sp hsp => ?_, fun sp hsp => ?_⟩
  · have nodup := wf.nodup_branchAt hid
    rwa [← hspots, List.map_map] at nodup
  · rw [habove] at hi
    obtain ⟨n, hn, rfl⟩ := List.mem_map.1 hi
    have under := (wf.under_of_mem_branchAt hid (node hsp)).2
    exact Nat.lt_of_lt_of_le (Tree.lt_of_mem_ancestors hn) under.le
  · exact wf.events_once _ (wf.under_of_mem_branchAt hid (node hsp)).1

/-! ## Context menus -/

/-- The nodes that open context menus, as spots. -/
theorem menuBuilders_eq (f : Form) : f.menuBuilders = f.spots.filter (·.item.isMenuBuilder) :=
  menuBuilders_spotsOf f.above f.branch

/-- The node inside the form whose context menu a spot belongs to. -/
def menuOf? (f : Form) (sp : Spot) : Option Item :=
  (f.inside sp.above).find? (·.isMenuBuilder)

/-- No node that opens a context menu lies inside another such node. -/
def MenusApart (f : Form) : Prop :=
  ∀ sp ∈ f.spots, sp.item.isMenuBuilder = true → f.menuOf? sp = none

instance (f : Form) : Decidable f.MenusApart := by
  unfold MenusApart; infer_instance

@[simp] theorem inside_above (f : Form) : f.inside f.above = [] := by
  simp [inside, path]

/-- Going up from a spot to the form, one node at a time. -/
theorem upward {motive : Spot → Prop} (top : ∀ sp, f.inside sp.above = [] → motive sp)
    (below : ∀ sp parent, parent ∈ f.innerSpots →
      f.inside sp.above = parent.item :: f.inside parent.above → motive parent → motive sp)
    {sp : Spot} (h : sp ∈ f.spots) : motive sp := by
  rcases mem_spots.1 h with rfl | h
  · exact top _ f.inside_above
  · have habove := above_of_mem_innerSpots h
    generalize hinner : f.inside sp.above = inner at habove
    induction inner generalizing sp with
    | nil => exact top sp hinner
    | cons i inner ih =>
      have parent : { item := i, above := inner ++ f.path } ∈ f.innerSpots := by
        rcases parent_mem_spotsOfAll h habove with heq | hm
        · have := congrArg List.length heq
          simp at this
          omega
        · exact hm
      refine below sp _ parent ?_ (ih (mem_spots.2 (Or.inr parent)) parent ?_ rfl)
      · rw [hinner, inside_append]
      · exact inside_append inner

/-- What stands between a node and its form is itself below the form. -/
theorem exists_spot_of_mem_inside {sp : Spot} (h : sp ∈ f.spots) {i : Item}
    (hi : i ∈ f.inside sp.above) : ∃ spot ∈ f.innerSpots, spot.item = i := by
  revert hi
  refine upward (motive := fun sp => i ∈ f.inside sp.above → ∃ spot ∈ f.innerSpots, spot.item = i)
    (fun sp top hi => ?_) (fun sp parent hp heq ih hi => ?_) h
  · rw [top] at hi
    cases hi
  · rw [heq] at hi
    rcases List.mem_cons.1 hi with rfl | hi
    · exact ⟨parent, hp, rfl⟩
    · exact ih hi

/-- **Where menus lie apart, at most one node above a spot opens a context menu.** -/
theorem MenusApart.filter_inside (apart : f.MenusApart) {sp : Spot} (h : sp ∈ f.spots) :
    (f.inside sp.above).filter (·.isMenuBuilder) = (f.menuOf? sp).toList := by
  refine upward
    (motive := fun sp => (f.inside sp.above).filter (·.isMenuBuilder) = (f.menuOf? sp).toList)
    (fun sp top => ?_) (fun sp parent hp heq ih => ?_) h
  · rw [menuOf?, top]
    rfl
  · rw [menuOf?, heq]
    by_cases hm : parent.item.isMenuBuilder = true
    · have none := apart parent (mem_spots.2 (Or.inr hp)) hm
      rw [none] at ih
      rw [List.filter_cons_of_pos hm, List.find?_cons_of_pos hm, ih]
      rfl
    · rw [List.filter_cons_of_neg hm, List.find?_cons_of_neg hm, ih]
      rfl

theorem MenusApart.menuOf?_eq_some (apart : f.MenusApart) {sp : Spot} (h : sp ∈ f.spots)
    {i : Item} : f.menuOf? sp = some i ↔ i ∈ f.inside sp.above ∧ i.isMenuBuilder = true := by
  rw [← Option.mem_toList, ← apart.filter_inside h, List.mem_filter]

theorem Sound.eq_of_id_eq (h : f.Sound) {sp sp' : Spot} (hsp : sp ∈ f.spots) (hsp' : sp' ∈ f.spots)
    (heq : sp.item.node.id = sp'.item.node.id) : sp = sp' :=
  List.inj_on_of_nodup_map h.nodup_ids hsp hsp' heq

/-- An item above a spot that has the node of a spot below the form is that spot's item. -/
theorem Sound.mem_inside_of_id_eq (h : f.Sound) {sp inner : Spot} (hsp : sp ∈ f.spots)
    (hinner : inner ∈ f.innerSpots) {i : Item} (hi : i ∈ sp.above)
    (hid : i.node.id = inner.item.node.id) : inner.item ∈ f.inside sp.above := by
  have hspot := mem_spots.2 (Or.inr hinner)
  have outside (hi : i ∈ f.above) : False :=
    Nat.ne_of_lt (h.above_lt i hi inner hspot) hid
  rcases mem_spots.1 hsp with rfl | hsp'
  · exact (outside hi).elim
  · rw [above_of_mem_innerSpots hsp', List.mem_append] at hi
    rcases hi with hi | hi
    · obtain ⟨spot, hs, rfl⟩ := exists_spot_of_mem_inside hsp hi
      obtain rfl := h.eq_of_id_eq (mem_spots.2 (Or.inr hs)) hspot hid
      exact hi
    · rcases List.mem_cons.1 hi with rfl | hi
      · have nodup := h.nodup_ids
        rw [spots, branch, spotsOf, List.map_cons, List.nodup_cons] at nodup
        exact absurd (List.mem_map.2 ⟨inner, hinner, hid.symm⟩) nodup.1
      · exact (outside hi).elim

/-- The handler of a menu is given the events of the spots that belong to the menu. -/
theorem Sound.any_id_eq (h : f.Sound) (apart : f.MenusApart) {sp builder : Spot}
    (hsp : sp ∈ f.spots) (hb : builder ∈ f.menuBuilders) :
    sp.above.any (fun i => i.node.id == builder.item.node.id)
      = decide (f.menuOf? sp = some builder.item) := by
  obtain ⟨-, hbuilder⟩ := mem_spots_of_mem_menuBuilders hb
  have hinner := mem_innerSpots_of_mem_menuBuilders h.isForm hb
  rw [Bool.eq_iff_iff, decide_eq_true_iff, apart.menuOf?_eq_some hsp, List.any_eq_true]
  constructor
  · rintro ⟨i, hi, hid⟩
    exact ⟨h.mem_inside_of_id_eq hsp hinner hi (beq_iff_eq.1 hid), hbuilder⟩
  · rintro ⟨hi, -⟩
    exact ⟨builder.item, List.mem_of_mem_take hi, beq_self_eq_true _⟩

theorem Sound.nodup_menuBuilders (h : f.Sound) : (f.menuBuilders.map Spot.item).Nodup := by
  have nodup : (f.spots.map Spot.item).Nodup :=
    List.Nodup.of_map (fun i => i.node.id) (by rw [List.map_map]; exact h.nodup_ids)
  rw [menuBuilders_eq]
  exact nodup.sublist (List.filter_sublist.map _)

/-- A menu that a spot belongs to is among those of the form. -/
theorem mem_menuBuilders_of_menuOf? {sp : Spot} (h : sp ∈ f.spots) {i : Item}
    (hi : f.menuOf? sp = some i) : i ∈ f.menuBuilders.map Spot.item := by
  obtain ⟨spot, hs, rfl⟩ := exists_spot_of_mem_inside h (List.mem_of_find?_eq_some hi)
  rw [menuBuilders_eq]
  exact List.mem_map_of_mem (List.mem_filter.2 ⟨mem_spots.2 (Or.inr hs), List.find?_some hi⟩)

end Form

end FormDesign
