import FormDesign.Proofs.Code.EventOrder
import FormDesign.Proofs.Code.RecastOutput

/-!
# Events in another order

The events of a node can be added to it in any order. They are sorted before they are bound, and
where the keys of two events are equal, the events are of different nodes and come in the order of
the tree. So the order in which events were added has no influence on what is generated.

* `Tree.Reordered`: a tree with the events of each node in another order
* `Form.Reordered.sameByKey`: what is collected for each place and key
* `generateSource_eq_of_reordered`: any node in any dialect
-/

namespace FormDesign

/-! ## Forms -/

/-- The node `n'` is the node `n` with its events in some order. -/
def Node.Reordered (n n' : Node) : Prop :=
  ∃ events : List Event, events.Perm n.events ∧ n' = { n with events }

/-- The form `g` is the form `f` with the events of each node in some order. -/
structure Form.Reordered (f g : Form) (r : Item → Item) : Prop where
  node : ∀ i : Item, i.node.Reordered (r i).node
  name : ∀ i, (r i).name = i.name
  isForm : f.item.kind.isForm = true
  item : g.item = r f.item
  children : g.children = Branch.mapAll r f.children
  above : g.above = f.above.map r

namespace Form.Reordered

variable {f g : Form} {r : Item → Item} (h : f.Reordered g r)

include h

theorem items : Item.Recast r where
  element i := by
    obtain ⟨events, -, heq⟩ := h.node i
    exact ⟨events, by rw [Item.element, heq, Item.element]⟩
  name := h.name

theorem recast : f.Recast g r where
  items := h.items
  isForm := h.isForm
  item := h.item
  children := h.children
  selector := by
    rw [h.above, List.findSome?_map]
    exact congrArg (f.above.findSome? ·) (funext h.items.selector?)
  book := by
    rw [h.above, List.find?_map]
    congr 2
    exact funext fun i => congrArg Kind.isBook (h.items.kind i)

theorem id_eq (i : Item) : (r i).node.id = i.node.id := by
  obtain ⟨events, -, heq⟩ := h.node i
  rw [heq]

theorem events_perm (i : Item) : (r i).element.events.Perm i.element.events := by
  obtain ⟨events, hperm, heq⟩ := h.node i
  rw [Item.element, heq]
  exact hperm

theorem sound (hf : f.Sound) : g.Sound where
  isForm := h.recast.node_kind ▸ hf.isForm
  nodup_ids := by
    have hids : (g.spots.map fun s => s.item.node.id) = f.spots.map fun s => s.item.node.id := by
      rw [h.recast.spots, List.map_map]
      exact List.map_congr_left fun s _ => h.id_eq s.item
    exact hids ▸ hf.nodup_ids
  above_lt i' hi s' hs := by
    rw [h.above] at hi
    rw [h.recast.spots] at hs
    obtain ⟨i, habove, rfl⟩ := List.mem_map.1 hi
    obtain ⟨s, hspot, rfl⟩ := List.mem_map.1 hs
    have hlt := hf.above_lt i habove s hspot
    rw [h.id_eq]
    exact Nat.lt_of_lt_of_eq hlt (h.id_eq s.item).symm
  eventsOnce s' hs := by
    rw [h.recast.spots] at hs
    obtain ⟨s, hspot, rfl⟩ := List.mem_map.1 hs
    have hperm := (h.events_perm s.item).map Event.name
    exact hperm.nodup_iff.2 (hf.eventsOnce s hspot)

/-! ### What is collected -/

/-- The events of a node with distinct names have distinct keys, and so their order does not
matter. -/
theorem spotEvents (inMenu : Bool) {i : Item} (once : i.element.EventsOnce) (inner : List Item) :
    SameByKey (spotEvents inMenu { item := r i, above := inner.map r ++ g.above })
      ((spotEvents inMenu { item := i, above := inner ++ f.above }).map (carryUse f g r)) := by
  have hdestination := h.recast.destination (s := { item := i, above := inner ++ f.above })
    (List.suffix_append _ _)
  have hspot : Spot.carry f g r { item := i, above := inner ++ f.above }
      = { item := r i, above := inner.map r ++ g.above } := by
    rw [Spot.carry, f.carry_append]
  rw [hspot] at hdestination
  -- both are the events of the node with the same place and spot
  let use (event : Event) : BindPlace × EventUse :=
    (if inMenu then .contextMenu
      else .constructor (Spot.destination { item := i, above := inner ++ f.above }),
      { spot := { item := r i, above := inner.map r ++ g.above }, event })
  have hg : FormDesign.spotEvents inMenu { item := r i, above := inner.map r ++ g.above }
      = (r i).element.handled.map use := by
    rw [FormDesign.spotEvents, hdestination]
  have hf : (FormDesign.spotEvents inMenu { item := i, above := inner ++ f.above }).map
        (carryUse f g r) = i.element.handled.map use := by
    rw [FormDesign.spotEvents, List.map_map]
    refine List.map_congr_left fun event _ => ?_
    simp only [Function.comp, carryUse, EventUse.carry, hspot, use]
  rw [hg, hf]
  intro place k
  have hperm : (usesAt place k ((r i).element.handled.map use)).Perm
      (usesAt place k (i.element.handled.map use)) :=
    (((h.events_perm i).filter _).map use).filter _
  have hname {u : BindPlace × EventUse} (hu : u ∈ usesAt place k (i.element.handled.map use)) :
      ∃ event ∈ i.element.events, use event = u ∧ event.name = k.1 := by
    obtain ⟨hu, hkey⟩ := List.mem_filter.1 hu
    obtain ⟨event, hevent, rfl⟩ := List.mem_map.1 hu
    exact ⟨event, (List.mem_filter.1 hevent).1, rfl,
      congrArg Prod.fst (of_decide_eq_true hkey).2⟩
  -- at most one event of a node has the name that the key asks for
  have all {uses : List (BindPlace × EventUse)} : uses.Pairwise fun _ _ => True :=
    List.pairwise_of_forall fun _ _ => trivial
  refine hperm.eq_of_pairwise (fun u v hu hv _ _ => ?_) all all
  obtain ⟨event, hevent, rfl, heq⟩ := hname (hperm.mem_iff.1 hu)
  obtain ⟨event', hevent', rfl, heq'⟩ := hname hv
  rw [List.inj_on_of_nodup_map once hevent hevent' (heq.trans heq'.symm)]

end Form.Reordered

mutual

theorem nodeEvents_reordered {f g : Form} {r : Item → Item} (h : f.Reordered g r) (inMenu : Bool)
    (inner : List Item) (b : Branch Item) (once : ∀ i ∈ b.toList, i.element.EventsOnce) :
    SameByKey (nodeEvents inMenu (inner.map r ++ g.above) (b.map r))
      ((nodeEvents inMenu (inner ++ f.above) b).map (carryUse f g r)) := by
  cases b with
  | mk i cs =>
    obtain ⟨hself, hinner⟩ := List.forall_mem_cons.1 once
    have hentries := entryEventsAll_reordered h (i :: inner) cs hinner
    have hbelow := nodeEventsAll_reordered h inMenu (i :: inner) cs hinner
    rw [List.map_cons, List.cons_append, List.cons_append] at hentries hbelow
    rw [Branch.map, nodeEvents, nodeEvents, h.items.isMenuBuilder]
    split
    · exact hentries
    · rw [List.map_append]
      exact (h.spotEvents inMenu hself inner).append hbelow

/-- For each place and key the same events are collected from several branches. -/
theorem nodeEventsAll_reordered {f g : Form} {r : Item → Item} (h : f.Reordered g r)
    (inMenu : Bool) (inner : List Item) (bs : List (Branch Item))
    (once : ∀ i ∈ Branch.toListAll bs, i.element.EventsOnce) :
    SameByKey (nodeEventsAll inMenu (inner.map r ++ g.above) (Branch.mapAll r bs))
      ((nodeEventsAll inMenu (inner ++ f.above) bs).map (carryUse f g r)) := by
  cases bs with
  | nil => exact .nil
  | cons b bs =>
    obtain ⟨hfirst, hrest⟩ := List.forall_mem_append.1 once
    rw [Branch.mapAll, nodeEventsAll, nodeEventsAll, List.map_append]
    exact (nodeEvents_reordered h inMenu inner b hfirst).append
      (nodeEventsAll_reordered h inMenu inner bs hrest)

theorem entryEvents_reordered {f g : Form} {r : Item → Item} (h : f.Reordered g r)
    (inner : List Item) (b : Branch Item) (once : ∀ i ∈ b.toList, i.element.EventsOnce) :
    SameByKey (entryEvents (inner.map r ++ g.above) (b.map r))
      ((entryEvents (inner ++ f.above) b).map (carryUse f g r)) := by
  cases b with
  | mk i cs =>
    obtain ⟨hself, hinner⟩ := List.forall_mem_cons.1 once
    have hbelow := nodeEventsAll_reordered h true (i :: inner) cs hinner
    rw [List.map_cons, List.cons_append, List.cons_append] at hbelow
    rw [Branch.map, entryEvents, entryEvents, List.map_append]
    exact (h.spotEvents true hself inner).append hbelow

theorem entryEventsAll_reordered {f g : Form} {r : Item → Item} (h : f.Reordered g r)
    (inner : List Item) (bs : List (Branch Item))
    (once : ∀ i ∈ Branch.toListAll bs, i.element.EventsOnce) :
    SameByKey (entryEventsAll (inner.map r ++ g.above) (Branch.mapAll r bs))
      ((entryEventsAll (inner ++ f.above) bs).map (carryUse f g r)) := by
  cases bs with
  | nil => exact .nil
  | cons b bs =>
    obtain ⟨hfirst, hrest⟩ := List.forall_mem_append.1 once
    rw [Branch.mapAll, entryEventsAll, entryEventsAll, List.map_append]
    exact (entryEvents_reordered h inner b hfirst).append
      (entryEventsAll_reordered h inner bs hrest)

end

namespace Form.Reordered

variable {f g : Form} {r : Item → Item} (h : f.Reordered g r)

include h

/-- For each place and key the same events are collected. -/
theorem sameByKey (hf : f.Sound) :
    SameByKey g.placedUses (f.placedUses.map (carryUse f g r)) := by
  have once : ∀ i ∈ f.branch.toList, i.element.EventsOnce := by
    intro i hi
    rw [← map_item_spotsOf f.above] at hi
    obtain ⟨s, hs, rfl⟩ := List.mem_map.1 hi
    exact hf.eventsOnce s hs
  have huses := nodeEvents_reordered h false [] f.branch once
  rwa [List.map_nil, List.nil_append, List.nil_append, ← h.recast.branch] at huses

/-- The tables hold the same events in the same order. -/
theorem events (hf : f.Sound) :
    g.events.sort = f.events.sort.map (EventUse.carry f g r) := by
  calc
    g.events.sort
        = ((f.placedUses.map (carryUse f g r)).foldl EventTables.add .empty).sort :=
          EventTables.sort_congr (h.sameByKey hf)
    _ = (f.events.map (EventUse.carry f g r)).sort :=
          congrArg EventTables.sort (EventTables.foldl_add_map f.placedUses .empty _)
    _ = f.events.sort.map (EventUse.carry f g r) := EventTables.sort_map h.recast.key_carry _

/-- The libraries of the events are the same. -/
theorem libraries (library : Library) :
    library ∈ g.eventLibraries ↔ library ∈ f.eventLibraries := by
  have hitems (form : Form) : form.eventLibraries = (form.innerSpots.map Spot.item).flatMap fun i =>
      i.element.events.map fun u => eventLibrary u.name := by
    rw [eventLibraries, Form.innerElements, List.flatMap_map, List.flatMap_map]
  have hevents (i : Item) :
      library ∈ ((r i).element.events.map fun u => eventLibrary u.name)
        ↔ library ∈ i.element.events.map fun u => eventLibrary u.name := by
    have hperm := (h.events_perm i).map fun u => eventLibrary u.name
    exact hperm.mem_iff
  rw [hitems, hitems, h.recast.innerItems, List.flatMap_map, List.mem_flatMap, List.mem_flatMap]
  simp only [hevents]

/-- The same events are bound in the same order. -/
theorem counterpart (hf : f.Sound) : f.Counterpart g r where
  toRecast := h.recast
  events := h.events hf
  libraries := h.libraries

end Form.Reordered

/-! ## Trees -/

namespace Tree

variable {t t' : Tree} {id : Nat}

/-- The tree `t'` is the tree `t` with the events of each node in some order. -/
def Reordered (t t' : Tree) : Prop :=
  List.Forall₂ Node.Reordered t.nodes.toList t'.nodes.toList

/-- The nodes of the second tree, as a function of those of the first. -/
structure Reorders (t t' : Tree) (ρ : Node → Node) : Prop where
  node : ∀ n : Node, n.Reordered (ρ n)
  get? : ∀ id, t'.get? id = (t.get? id).map ρ

theorem Reordered.exists_reorders (h : t.Reordered t') : ∃ ρ, t.Reorders t' ρ := by
  have hsize : t.nodes.size = t'.nodes.size := h.length_eq
  have hnode (n : Node) :
      ∃ n' : Node, n.Reordered n' ∧ (n ∈ t.nodes → t'.get? n.id = some n') := by
    by_cases hn : n ∈ t.nodes
    · obtain ⟨i, hi, rfl⟩ := Array.mem_iff_getElem.1 hn
      have hi' : i < t'.nodes.size := hsize ▸ hi
      refine ⟨t'.nodes[i], h.get hi hi', fun _ => ?_⟩
      rw [t.id_eq i hi]
      exact Array.getElem?_eq_getElem hi'
    · exact ⟨n, ⟨n.events, List.Perm.refl _, rfl⟩, fun h => absurd h hn⟩
  obtain ⟨ρ, hρ⟩ := Classical.skolem.1 hnode
  refine ⟨ρ, fun n => (hρ n).1, fun id => ?_⟩
  by_cases hid : id < t.nodes.size
  · have hget : t.get? id = some t.nodes[id] := Array.getElem?_eq_getElem hid
    have hget' := (hρ t.nodes[id]).2 (Array.getElem_mem hid)
    rw [t.id_eq id hid] at hget'
    rw [hget, hget', Option.map_some]
  · have hnone : t.get? id = none := Array.getElem?_eq_none (Nat.le_of_not_lt hid)
    have hnone' : t'.get? id = none :=
      Array.getElem?_eq_none (hsize ▸ Nat.le_of_not_lt hid)
    rw [hnone, hnone', Option.map_none]

namespace Reorders

variable {ρ : Node → Node} (h : t.Reorders t' ρ)

include h

theorem same (n : Node) : (ρ n).parent = n.parent ∧ (ρ n).children = n.children := by
  obtain ⟨events, -, heq⟩ := h.node n
  rw [heq]
  exact ⟨rfl, rfl⟩

theorem size_eq : t'.nodes.size = t.nodes.size := by
  refine Nat.le_antisymm (Nat.le_of_not_lt fun hlt => ?_) (Nat.le_of_not_lt fun hlt => ?_)
  · have hget := h.get? t.nodes.size
    rw [Tree.get?, Tree.get?, Array.getElem?_eq_getElem hlt,
      Array.getElem?_eq_none (Nat.le_refl _)] at hget
    cases hget
  · have hget := h.get? t'.nodes.size
    rw [Tree.get?, Tree.get?, Array.getElem?_eq_getElem hlt,
      Array.getElem?_eq_none (Nat.le_refl _)] at hget
    cases hget

theorem getElem_eq (hid : id < t.nodes.size) (hid' : id < t'.nodes.size) :
    t'.nodes[id] = ρ t.nodes[id] := by
  have hget := h.get? id
  rw [Tree.get?, Tree.get?, Array.getElem?_eq_getElem hid, Array.getElem?_eq_getElem hid'] at hget
  exact Option.some.inj hget

theorem branchAt (hid : id < t.nodes.size) (hid' : id < t'.nodes.size) :
    t'.branchAt id hid' = (t.branchAt id hid).map ρ := by
  induction id, hid using Tree.branchAt.induct t with
  | case1 id hid ih =>
    rw [branchAt_eq, branchAt_eq, h.getElem_eq hid hid', (h.same _).2, Branch.map, Branch.mapAll_eq,
      List.map_filterMap]
    congr 1
    refine List.filterMap_congr fun c hc => ?_
    have hlt := ((t.linked _ (Array.getElem_mem hid)).children_lt c hc).2
    have hlt' : c < t'.nodes.size := h.size_eq ▸ hlt
    rw [Tree.branch?, Tree.branch?, dif_pos hlt, dif_pos hlt', ih c hc hlt', Option.map_some]

theorem parent? (id : Nat) : t'.parent? id = t.parent? id := by
  rw [Tree.parent?, Tree.parent?, h.get?, Option.bind_map]
  exact congrArg _ (funext fun n => (h.same n).1)

theorem ancestors (id : Nat) : t'.ancestors id = (t.ancestors id).map ρ := by
  induction id using Nat.strongRecOn with
  | ind id ih =>
    cases hp : t.parent? id with
    | none =>
      rw [ancestors_of_parent?_eq_none hp,
        ancestors_of_parent?_eq_none ((h.parent? id).trans hp), List.map_nil]
    | some p =>
      have hlt := parent_lt hp
      have hsize := lt_size_of_parent? hp
      have hsize' : p < t'.nodes.size := h.size_eq ▸ hsize
      rw [ancestors_of_parent? hsize hp, ancestors_of_parent? hsize' ((h.parent? id).trans hp),
        h.getElem_eq hsize, ih p hlt, List.map_cons]

/-- The names of variables are given by kinds and properties. -/
theorem nextName (counts : NameCounts) (n : Node) :
    nextName counts (ρ n).toElement = nextName counts n.toElement := by
  obtain ⟨events, -, heq⟩ := h.node n
  rw [heq]
  rfl

end Reorders

end Tree

/-- An item with its node changed. -/
def Item.mapNode (ρ : Node → Node) (i : Item) : Item :=
  { i with node := ρ i.node }

mutual

theorem nameBranch_map {t t' : Tree} {ρ : Node → Node} (h : t.Reorders t' ρ)
    (counts : NameCounts) (b : Branch Node) :
    nameBranch counts (b.map ρ)
      = ((nameBranch counts b).1.map (Item.mapNode ρ), (nameBranch counts b).2) := by
  cases b with
  | mk n cs =>
    rw [Branch.map, nameBranch, nameBranch, h.nextName]
    simp only [nameBranches_map h, Branch.map, Item.mapNode]

theorem nameBranches_map {t t' : Tree} {ρ : Node → Node} (h : t.Reorders t' ρ)
    (counts : NameCounts) (bs : List (Branch Node)) :
    nameBranches counts (Branch.mapAll ρ bs)
      = (Branch.mapAll (Item.mapNode ρ) (nameBranches counts bs).1,
          (nameBranches counts bs).2) := by
  cases bs with
  | nil => rfl
  | cons b bs =>
    rw [Branch.mapAll, nameBranches, nameBranches]
    simp only [nameBranch_map h, nameBranches_map h, Branch.mapAll]

end

/-- The form at a node of a tree, taken from the tree with its events reordered. -/
theorem Form.reordered_of_ofTree {t t' : Tree} {ρ : Node → Node} (h : t.Reorders t' ρ) {id : Nat}
    {f g : Form} (hf : ofTree t id = .ok f) (hg : ofTree t' id = .ok g) :
    f.Reordered g (Item.mapNode ρ) := by
  obtain ⟨hid, cs, hbranch, hform, hchildren, habove⟩ := of_ofTree hf
  obtain ⟨hid', cs', hbranch', -, hchildren', habove'⟩ := of_ofTree hg
  rw [h.branchAt hid, hbranch, Branch.map] at hbranch'
  obtain ⟨hnode, hbelow⟩ := Branch.mk.inj hbranch'
  refine ⟨fun i => h.node i.node, fun i => rfl, hform, ?_, ?_, ?_⟩
  · rw [item, ← hnode]
    rfl
  · rw [hchildren', ← hbelow, nameBranches_map h, hchildren]
  · rw [habove', habove, h.ancestors, List.map_map, List.map_map]
    rfl

/-- **The order in which events were added does not matter.** If the events of each node of a tree
come in another order, every node is generated with the same files and the same warnings. -/
theorem generateSource_eq_of_reordered {t t' : Tree} (reachable : t.Reachable)
    (h : t.Reordered t') (id : Nat) (d : Dialect) (o : Options) (source : FileSource) (c : Cache) :
    generateSource t' id (.source d) o source c = generateSource t id (.source d) o source c := by
  obtain ⟨ρ, hρ⟩ := h.exists_reorders
  cases hn : t.get? id with
  | none =>
    have hn' : t'.get? id = none := by rw [hρ.get?, hn, Option.map_none]
    rw [generateSource, generateSource, hn, hn']
  | some n =>
    have hn' : t'.get? id = some (ρ n) := by rw [hρ.get?, hn, Option.map_some]
    obtain ⟨events, -, heq⟩ := hρ.node n
    refine generateSource_congr hn hn' (by rw [heq]) (by rw [heq]; rfl) fun f g hf hg => ?_
    have reordered := Form.reordered_of_ofTree hρ hf hg
    have sound := Form.sound_of_ofTree reachable hf
    exact (reordered.counterpart sound).generate sound (reordered.sound sound) d o source c

/-! ## A button with two events -/

/-- A dialog with a button that handles some events. -/
def eventsDesign (events : List Event) : Design :=
  .mk (.ofKind .dialog) [.mk { kind := .button, props := [], events } []]

/-- The events of a button that is clicked and updated. -/
def buttonEvents : List Event :=
  [{ name := "wxEVT_UPDATE_UI", handler := "OnUpdate" },
    { name := "wxEVT_BUTTON", handler := "OnClick" }]

/-- It does not matter which event of the button was added first. -/
theorem buttonEvents_reordered :
    generateSource (.ofDesign (eventsDesign buttonEvents.reverse)) 0 (.source .cpp) .default noFiles
        .empty
      = generateSource (.ofDesign (eventsDesign buttonEvents)) 0 (.source .cpp) .default noFiles
        .empty := by
  have reachable : (Tree.ofDesign (eventsDesign buttonEvents)).Reachable := .ofDesign (by
    unfold Design.EventsOnce Element.EventsOnce
    decide)
  have reordered : (Tree.ofDesign (eventsDesign buttonEvents)).Reordered
      (.ofDesign (eventsDesign buttonEvents.reverse)) :=
    .cons ⟨[], List.Perm.refl _, rfl⟩
      (.cons ⟨buttonEvents.reverse, List.reverse_perm _, rfl⟩ .nil)
  exact generateSource_eq_of_reordered reachable reordered 0 .cpp .default noFiles .empty

end FormDesign
