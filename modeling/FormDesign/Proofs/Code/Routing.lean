import FormDesign.Proofs.Code.Binding
import FormDesign.Proofs.Code.EventOrder

/-!
# Where events are routed

The tables of a form have a list for the events of its context menus, one for those that are bound
on every platform, and one for each selector. Every event of the form is in the list that its node
tells: an ancestor inside the form opens a context menu, or else the nearest selector counts.

* `Form.lineage_spots`: the spots of a form are the nodes of its subtree with their ancestors
* `Form.events_at`: the lists of a form
* `Form.mem_map_pair_events_at`: the list that an event is in
* `eventsRouted_of_ofTree`: each event is in one list, and nothing else is in any
-/

namespace FormDesign

/-! ## Spots and the tree -/

/-- The node of a spot, and the nodes above it. -/
def Spot.lineage (sp : Spot) : Node × List Node :=
  (sp.item.node, sp.above.map Item.node)

theorem map_lineage_spotsOf (above : List Item) (b : Branch Item) :
    (spotsOf above b).map Spot.lineage
      = (Branch.places (above.map Item.node) (b.map Item.node)).map fun q =>
          (q.label, q.above) := by
  rw [spotsOf_eq, Branch.places_map, List.map_map, List.map_map]
  refine List.map_congr_left fun q _ => Prod.ext ?_ rfl
  exact (Branch.label_map Item.node q.branch).symm

namespace Tree

/-- The selector of the platforms that a node is confined to: its own, or else that of its platform
container. -/
def destination (t : Tree) (n : Node) : Option String :=
  n.selector? <|> (t.platformContainer? n.id).bind fun container => container.selector?

/-- A node of a form belongs to a context menu if one of its ancestors inside the form opens one. -/
def InMenu (t : Tree) (form : Nat) (n : Node) : Prop :=
  ∃ a ∈ t.ancestors n.id, a ∈ t.descendants form ∧ a.kind = .contextMenuEvent

instance (t : Tree) (form : Nat) (n : Node) : Decidable (t.InMenu form n) := by
  unfold InMenu; infer_instance

/-- The place where the events of a node of a form are bound. -/
def placeFor (t : Tree) (form : Nat) (n : Node) : BindPlace :=
  if t.InMenu form n then .contextMenu else .constructor (t.destination n)

end Tree

namespace Form

variable {f : Form} {t : Tree} {id : Nat}

/-- **The spots of a form are the nodes of its subtree**, each with its ancestors. -/
theorem lineage_spots (reachable : t.Reachable) (hf : ofTree t id = .ok f) :
    f.spots.map Spot.lineage = (t.descendants id).map fun n => (n, t.ancestors n.id) := by
  obtain ⟨hid, cs, hbranch, -, hchildren, habove⟩ := of_ofTree hf
  have above : f.above.map Item.node = t.ancestors id := by
    rw [habove, List.map_map]
    exact List.map_id _
  rw [spots, map_lineage_spotsOf, map_node_branch hbranch hchildren, above, Tree.descendants_eq hid,
    ← Branch.map_label_places (t.ancestors id), List.map_map]
  refine List.map_congr_left fun q hq => ?_
  rw [(reachable.wellFormed.of_mem_places hq).2]
  rfl

theorem nodes_spots (reachable : t.Reachable) (hf : ofTree t id = .ok f) :
    f.spots.map (fun sp => sp.item.node) = t.descendants id := by
  have nodes := congrArg (List.map Prod.fst) (lineage_spots reachable hf)
  rw [List.map_map, List.map_map] at nodes
  exact nodes.trans (List.map_id _)

theorem node_mem_descendants (reachable : t.Reachable) (hf : ofTree t id = .ok f) {sp : Spot}
    (hsp : sp ∈ f.spots) : sp.item.node ∈ t.descendants id :=
  nodes_spots reachable hf ▸ List.mem_map_of_mem hsp

theorem above_eq_ancestors (reachable : t.Reachable) (hf : ofTree t id = .ok f) {sp : Spot}
    (hsp : sp ∈ f.spots) : sp.above.map Item.node = t.ancestors sp.item.node.id := by
  have hmem : sp.lineage ∈ f.spots.map Spot.lineage := List.mem_map_of_mem hsp
  rw [lineage_spots reachable hf] at hmem
  obtain ⟨n, -, heq⟩ := List.mem_map.1 hmem
  obtain ⟨rfl, habove⟩ := Prod.mk.inj heq
  exact habove.symm

theorem destination_eq (reachable : t.Reachable) (hf : ofTree t id = .ok f) {sp : Spot}
    (hsp : sp ∈ f.spots) : sp.destination = t.destination sp.item.node := by
  rw [Spot.destination, Tree.destination, t.selector?_platformContainer?,
    ← above_eq_ancestors reachable hf hsp, List.findSome?_map, List.findSome?_cons]
  cases hown : sp.item.element.selector? with
  | none =>
    have hown : sp.item.node.selector? = none := hown
    rw [hown]
    rfl
  | some selector =>
    have hown : sp.item.node.selector? = some selector := hown
    rw [hown]
    rfl

theorem isSome_menuOf?_iff (reachable : t.Reachable) (hf : ofTree t id = .ok f) {sp : Spot}
    (hsp : sp ∈ f.spots) : (f.menuOf? sp).isSome = true ↔ t.InMenu id sp.item.node := by
  have sound := sound_of_ofTree reachable hf
  have ancestors := above_eq_ancestors reachable hf hsp
  -- what stands above the form is not inside of it
  have outside {i : Item} (hi : i ∈ f.above) : i.node ∉ t.descendants id := by
    rw [← nodes_spots reachable hf]
    intro hn
    obtain ⟨inner, hinner, heq⟩ := List.mem_map.1 hn
    exact absurd (congrArg Node.id heq) (Nat.ne_of_gt (sound.above_lt i hi inner hinner))
  rw [menuOf?, List.find?_isSome, Tree.InMenu, ← ancestors]
  constructor
  · rintro ⟨i, hi, hm⟩
    obtain ⟨inner, hinner, rfl⟩ := exists_spot_of_mem_inside hsp hi
    exact ⟨_, List.mem_map_of_mem (List.mem_of_mem_take hi),
      node_mem_descendants reachable hf (mem_spots.2 (Or.inr hinner)), beq_iff_eq.1 hm⟩
  · rintro ⟨a, ha, hin, hm⟩
    obtain ⟨i, hi, rfl⟩ := List.mem_map.1 ha
    refine ⟨i, ?_, beq_iff_eq.2 hm⟩
    rcases mem_spots.1 hsp with rfl | hinner
    · exact absurd hin (outside hi)
    · rw [above_of_mem_innerSpots hinner, List.mem_append] at hi
      rcases hi with hi | hi
      · exact hi
      · rcases List.mem_cons.1 hi with rfl | hi
        · have := not_isMenuBuilder_item sound.isForm
          exact absurd (beq_iff_eq.2 hm) (Bool.eq_false_iff.1 this)
        · exact absurd hin (outside hi)

/-- The events of a node are collected for the place that the tree tells. -/
theorem placeOf_eq (reachable : t.Reachable) (hf : ofTree t id = .ok f) {sp : Spot}
    (hsp : sp ∈ f.spots) : f.placeOf sp = t.placeFor id sp.item.node := by
  simp only [placeOf, Tree.placeFor, isSome_menuOf?_iff reachable hf hsp,
    destination_eq reachable hf hsp]

end Form

/-! ## The lists of the tables -/

/-- The list of events for a place. -/
def EventTables.at (tables : EventTables) : BindPlace → List EventUse
  | .constructor destination => tables.bound.part destination
  | .contextMenu => tables.inMenus

/-- The node of an event, and the event. -/
def EventUse.pair (u : EventUse) : Node × Event :=
  (u.item.node, u.event)

namespace Form

variable {f : Form} {t : Tree} {id : Nat}

/-- The list for a place holds the events that are collected for it, in their order. -/
theorem events_at (f : Form) (place : BindPlace) :
    f.events.at place = EventTables.usesFor place f.placedUses := by
  cases place with
  | constructor destination =>
    refine (EventTables.part_foldl Grouped.ordered_empty _ destination).trans ?_
    cases destination <;> rfl
  | contextMenu => exact EventTables.inMenus_foldl _

theorem sublist_events_at (f : Form) (place : BindPlace) :
    (f.events.at place).Sublist (f.spots.flatMap Spot.handled) := by
  rw [events_at]
  exact (List.filter_sublist.map _).trans f.sublist_placedUses

/-- The handled events of a form, node by node. -/
theorem map_pair_handled (reachable : t.Reachable) (hf : ofTree t id = .ok f) :
    (f.spots.flatMap Spot.handled).map EventUse.pair
      = (t.descendants id).flatMap fun n => n.handled.map (n, ·) := by
  rw [← nodes_spots reachable hf, List.flatMap_map, List.map_flatMap]
  refine List.flatMap_congr fun sp _ => ?_
  rw [Spot.handled, List.map_map]
  rfl

/-- An event that counts is collected for the place of its node only. -/
theorem mem_events_at {u : EventUse} (hf : f.node.kind.isForm = true) (hu : u.counts = true)
    {place : BindPlace} :
    u ∈ f.events.at place ↔ u ∈ f.handledUses ∧ place = f.placeOf u.spot := by
  have collected : (place, u) ∈ f.placedUses
      ↔ (place, u) ∈ f.placedUses.filter fun use => use.2.counts :=
    ⟨fun h => List.mem_filter.2 ⟨h, hu⟩, List.mem_of_mem_filter⟩
  have routed : u ∈ EventTables.usesFor place f.placedUses ↔ (place, u) ∈ f.placedUses := by
    simp [EventTables.usesFor]
  rw [events_at, routed, collected, filter_placedUses hf]
  simp [and_comm, eq_comm]

/-- **An event of a node that opens no menu is in the list that the tree tells**, and in no
other. -/
theorem mem_map_pair_events_at (reachable : t.Reachable) (hf : ofTree t id = .ok f) {n : Node}
    (hn : n ∈ t.descendants id) (hm : n.kind ≠ .contextMenuEvent) {event : Event}
    (he : event ∈ n.handled) (place : BindPlace) :
    (n, event) ∈ (f.events.at place).map EventUse.pair ↔ place = t.placeFor id n := by
  have isForm := isForm_of_ofTree hf
  have counts {u : EventUse} (hu : u.item.node = n) : u.counts = true := by
    simp [EventUse.counts, Item.isMenuBuilder, Item.kind, hu, hm]
  rw [List.mem_map]
  constructor
  · rintro ⟨u, hu, heq⟩
    obtain ⟨rfl, -⟩ := Prod.mk.inj heq
    obtain ⟨hu, hplace⟩ := (mem_events_at isForm (counts rfl)).1 hu
    rw [hplace, placeOf_eq reachable hf (mem_handledUses.1 hu).1]
    rfl
  · intro hplace
    rw [← nodes_spots reachable hf] at hn
    obtain ⟨sp, hsp, rfl⟩ := List.mem_map.1 hn
    refine ⟨{ spot := sp, event }, (mem_events_at isForm (counts rfl)).2 ⟨?_, ?_⟩, rfl⟩
    · refine mem_handledUses.2 ⟨hsp, ?_, he⟩
      simpa [EventUse.counts] using counts (u := { spot := sp, event }) rfl
    · rw [hplace, placeOf_eq reachable hf hsp]

end Form

/-! ## Routing -/

/-- **The tables of the form at a node hold each of its events in one list**, and nothing else. -/
structure EventsRouted (t : Tree) (id : Nat) (tables : EventTables) : Prop where
  /-- An event of a node that opens no menu is in the list for the place of the node once, and not
  in the others. -/
  once : ∀ n ∈ t.descendants id, n.kind ≠ .contextMenuEvent → ∀ event ∈ n.handled, ∀ place,
    ((tables.at place).map EventUse.pair).count (n, event)
      = if place = t.placeFor id n then 1 else 0
  /-- What is in a list is an event with a handler, of a node of the form. -/
  only : ∀ place, ∀ u ∈ tables.at place,
    u.item.node ∈ t.descendants id ∧ u.event ∈ u.item.node.events ∧ u.event.handler ≠ ""
  /-- The events of a list come in the order of the tree, and those of a node in their own. -/
  inOrder : ∀ place, ((tables.at place).map EventUse.pair).Sublist
    ((t.descendants id).flatMap fun n => n.handled.map (n, ·))
  /-- Each selector has one list. -/
  ordered : tables.bound.Ordered
  /-- No selector has an empty list. -/
  inhabited : tables.bound.Inhabited

/-- **The events of a form are routed**, each to the list that the tree tells. -/
theorem eventsRouted_of_ofTree {t : Tree} (reachable : t.Reachable) {id : Nat} {f : Form}
    (hf : Form.ofTree t id = .ok f) : EventsRouted t id f.events where
  once n hn hm event he place := by
    have apart := (Form.sound_of_ofTree reachable hf).nodup_ident_handled
    have nodup : ((f.events.at place).map EventUse.ident).Nodup :=
      apart.sublist ((f.sublist_events_at place).map _)
    have pairs : ((f.events.at place).map EventUse.pair).Nodup := by
      refine List.Nodup.of_map (fun pair => (pair.1.id, pair.2.name)) ?_
      rw [List.map_map]
      exact nodup
    rw [pairs.count]
    exact ite_congr (propext (Form.mem_map_pair_events_at reachable hf hn hm he place))
      (fun _ => rfl) fun _ => rfl
  only place u hu := by
    obtain ⟨hsp, he⟩ := mem_flatMap_handled.1 ((f.sublist_events_at place).subset hu)
    obtain ⟨he, hhandler⟩ := List.mem_filter.1 he
    exact ⟨Form.node_mem_descendants reachable hf hsp, he, of_decide_eq_true hhandler⟩
  inOrder place := by
    rw [← Form.map_pair_handled reachable hf]
    exact (f.sublist_events_at place).map _
  ordered := EventTables.ordered_foldl Grouped.ordered_empty _
  inhabited := EventTables.inhabited_foldl (t := .empty) (fun _ he => nomatch he) _

/-- The event of the panel is bound on Windows, those of the entry in the menu. -/
theorem menuDialog_eventsRouted :
    EventsRouted (.ofDesign menuDesign) 0 menuDialog.events ∧
      (menuDialog.events.at (.constructor (some "Windows"))).map EventUse.ident
        = [(1, "wxEVT_PAINT")] ∧
      (menuDialog.events.at .contextMenu).map EventUse.ident
        = [(3, "wxEVT_MENU"), (3, "wxEVT_UPDATE_UI")] := by
  have hf : Form.ofTree (.ofDesign menuDesign) 0 = .ok menuDialog := by with_unfolding_all rfl
  have once : menuDesign.EventsOnce := by
    unfold Design.EventsOnce Element.EventsOnce
    decide
  exact ⟨eventsRouted_of_ofTree (.ofDesign once) hf, by decide, by decide⟩

end FormDesign
