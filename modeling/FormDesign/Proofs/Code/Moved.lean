import FormDesign.Proofs.Code.RecastOutput

/-!
# A form in another place

A form that is taken from one project to another, or to another place in its project, keeps its
elements with their events. So the same events are collected on the way through it, and the form is
generated the same.

* `Form.Moved`: a form and the same form in another place
* `Form.Moved.counterpart`: the events are bound the same
-/

namespace FormDesign

/-- The form `g` is the form `f` in another place: its items have new labels, and other items stand
above it. No book is among those, and the nearest selector there is the same. -/
structure Form.Moved (f g : Form) (r : Item → Item) : Prop where
  relabelling : Item.Relabelling r
  isForm : f.item.kind.isForm = true
  item : g.item = r f.item
  children : g.children = Branch.mapAll r f.children
  selector : (g.above.findSome? fun i => i.element.selector?)
    = f.above.findSome? fun i => i.element.selector?
  noBook : ∀ i ∈ f.above, i.kind.isBook = false
  noBook' : ∀ i ∈ g.above, i.kind.isBook = false

theorem Form.Moved.recast {f g : Form} {r : Item → Item} (h : f.Moved g r) : f.Recast g r where
  items := h.relabelling.recast
  isForm := h.isForm
  item := h.item
  children := h.children
  selector := h.selector
  book := by
    have hf : (f.above.find? fun i => i.kind.isBook) = none := by
      rw [List.find?_eq_none]
      simpa using h.noBook
    have hg : (g.above.find? fun i => i.kind.isBook) = none := by
      rw [List.find?_eq_none]
      simpa using h.noBook'
    rw [hf, hg, Option.map_none]

/-! ## The events -/

theorem Form.Moved.spotEvents {f g : Form} {r : Item → Item} (h : f.Moved g r) (inMenu : Bool)
    (i : Item) (inner : List Item) :
    spotEvents inMenu { item := r i, above := inner.map r ++ g.above }
      = (spotEvents inMenu { item := i, above := inner ++ f.above }).map (carryUse f g r) := by
  have hcarry : ({ item := r i, above := inner.map r ++ g.above } : Spot)
      = Spot.carry f g r { item := i, above := inner ++ f.above } := by
    rw [Spot.carry, f.carry_append]
  have hdestination := h.recast.destination (s := { item := i, above := inner ++ f.above })
    (List.suffix_append _ _)
  rw [FormDesign.spotEvents, FormDesign.spotEvents, h.relabelling.element, List.map_map, hcarry,
    hdestination]
  rfl

mutual

theorem nodeEvents_carry {f g : Form} {r : Item → Item} (h : f.Moved g r) (inMenu : Bool)
    (inner : List Item) (b : Branch Item) :
    nodeEvents inMenu (inner.map r ++ g.above) (b.map r)
      = (nodeEvents inMenu (inner ++ f.above) b).map (carryUse f g r) := by
  cases b with
  | mk i cs =>
    have hentries := entryEventsAll_carry h (i :: inner) cs
    have hbelow := nodeEventsAll_carry h inMenu (i :: inner) cs
    rw [List.map_cons, List.cons_append, List.cons_append] at hentries hbelow
    rw [Branch.map, nodeEvents, nodeEvents, h.recast.items.isMenuBuilder]
    split
    · exact hentries
    · rw [List.map_append, h.spotEvents, hbelow]

theorem nodeEventsAll_carry {f g : Form} {r : Item → Item} (h : f.Moved g r) (inMenu : Bool)
    (inner : List Item) (bs : List (Branch Item)) :
    nodeEventsAll inMenu (inner.map r ++ g.above) (Branch.mapAll r bs)
      = (nodeEventsAll inMenu (inner ++ f.above) bs).map (carryUse f g r) := by
  cases bs with
  | nil => rfl
  | cons b bs =>
    rw [Branch.mapAll, nodeEventsAll, nodeEventsAll, List.map_append,
      nodeEvents_carry h inMenu inner b, nodeEventsAll_carry h inMenu inner bs]

theorem entryEvents_carry {f g : Form} {r : Item → Item} (h : f.Moved g r) (inner : List Item)
    (b : Branch Item) :
    entryEvents (inner.map r ++ g.above) (b.map r)
      = (entryEvents (inner ++ f.above) b).map (carryUse f g r) := by
  cases b with
  | mk i cs =>
    have hbelow := nodeEventsAll_carry h true (i :: inner) cs
    rw [List.map_cons, List.cons_append, List.cons_append] at hbelow
    rw [Branch.map, entryEvents, entryEvents, List.map_append, h.spotEvents, hbelow]

theorem entryEventsAll_carry {f g : Form} {r : Item → Item} (h : f.Moved g r) (inner : List Item)
    (bs : List (Branch Item)) :
    entryEventsAll (inner.map r ++ g.above) (Branch.mapAll r bs)
      = (entryEventsAll (inner ++ f.above) bs).map (carryUse f g r) := by
  cases bs with
  | nil => rfl
  | cons b bs =>
    rw [Branch.mapAll, entryEventsAll, entryEventsAll, List.map_append,
      entryEvents_carry h inner b, entryEventsAll_carry h inner bs]

end

namespace Form.Moved

variable {f g : Form} {r : Item → Item} (h : f.Moved g r)

include h

/-- The tables hold the same events. -/
theorem events : g.events.sort = f.events.sort.map (EventUse.carry f g r) := by
  have huses := nodeEvents_carry h false [] f.branch
  rw [List.map_nil, List.nil_append, List.nil_append, ← h.recast.branch] at huses
  have htables : g.events = f.events.map (EventUse.carry f g r) := by
    rw [Form.events, Form.events, huses]
    exact EventTables.foldl_add_map _ .empty _
  rw [htables, EventTables.sort_map h.recast.key_carry]

theorem innerElements : g.innerElements = f.innerElements := by
  have helements := congrArg (List.map Item.element) h.recast.innerItems
  simp only [List.map_map] at helements
  rw [Form.innerElements, Form.innerElements]
  refine helements.trans (List.map_congr_left fun s _ => ?_)
  exact h.relabelling.element s.item

/-- In another place the form binds the same events. -/
theorem counterpart : f.Counterpart g r where
  toRecast := h.recast
  events := h.events
  libraries library := by rw [eventLibraries, eventLibraries, h.innerElements]

/-- The form is generated the same in both places. -/
theorem generate (hf : f.Sound) (hg : g.Sound) (d : Dialect) (o : Options) (source : FileSource)
    (c : Cache) : g.generate d o source c = f.generate d o source c :=
  h.counterpart.generate hf hg d o source c

end Form.Moved

end FormDesign
