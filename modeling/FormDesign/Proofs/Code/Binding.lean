import FormDesign.Proofs.Code.Collect
import FormDesign.Proofs.Code.Spots

/-!
# Every event is bound once

An event with a handler belongs to one method of the generated class: to the handler of the context
menu that its node is part of, or else to the constructor. Collecting, sorting and grouping the
events neither loses nor doubles any of them. What the methods bind is read off their traces, which
say for each binding which event it is for.

* `Form.placedUses_eq`: what is collected, if no context menu lies inside another
* `Form.written_perm`: what the methods bind
* `boundOnce_of_generateSource`: generation binds every event once, at its home
-/

namespace FormDesign

/-! ## What is to be bound -/

/-- The events of a spot that have a handler. Those of a node that opens a context menu do not
count. -/
def Spot.uses (sp : Spot) : List EventUse :=
  if sp.item.isMenuBuilder then []
  else sp.item.element.handled.map fun event => { spot := sp, event }

/-- Whether the event is not one of a node that opens a context menu. -/
def EventUse.counts (u : EventUse) : Bool :=
  !u.item.isMenuBuilder

/-- The node and the name of the event, which tell the events of a form apart. -/
def EventUse.ident (u : EventUse) : Nat × String :=
  (u.item.node.id, u.event.name)

/-- A method of the generated class that binds events. -/
inductive Method where
  | constructor
  /-- The handler of the context menu that the node opens. -/
  | menu (builder : Item)
  deriving DecidableEq

/-- Where an event is bound: the method, and the selectors of the blocks around the binding,
outermost first. -/
structure Home where
  method : Method
  blocks : List String
  deriving DecidableEq

namespace Form

/-- The events with a handler, except those of nodes that open context menus. -/
def handledUses (f : Form) : List EventUse :=
  f.spots.flatMap Spot.uses

/-- Where the events of a spot belong: into the handler of the menu around it, or else into the
constructor, under the selector of its destination. -/
def home (f : Form) (sp : Spot) : Home :=
  match f.menuOf? sp with
  | some builder => { method := .menu builder, blocks := [] }
  | none => { method := .constructor, blocks := sp.destination.toList }

/-- Whether the dialect can express the binding of an event. -/
def accepts (f : Form) (d : Dialect) (u : EventUse) : Bool :=
  (d.binding (f.binding u)).isSome

end Form

/-! ## What is bound -/

/-- The event that a step binds, if the dialect can express the binding. -/
def Traced.written? (d : Dialect) (x : Traced) : Option EventUse :=
  match x.origin, x.step with
  | .event u, .bind b => if (d.binding b).isSome then some u else none
  | _, _ => none

/-- The events that a method binds, each with the place of its binding. -/
def writtenIn (d : Dialect) (m : Method) (trace : List Traced) : List (Home × EventUse) :=
  trace.filterMap fun x => (x.written? d).map fun u => ({ method := m, blocks := x.blocks }, u)

/-- The events that the methods of the generated class bind. -/
def Form.written (f : Form) (d : Dialect) (c : Collected) : List (Home × EventUse) :=
  writtenIn d .constructor (f.traceConstructor d c)
    ++ f.menuBranches.flatMap fun (above, b) =>
      writtenIn d (.menu b.label) (f.traceMenu d c above b)

/-- The selector of a step that opens a block. -/
def Step.selector? : Step → Option String
  | .within selector _ => some selector
  | .stmt _ | .bind _ | .validate .. | .gap | .warn _ => none

/-! ## Collecting -/

theorem Spot.uses_eq (sp : Spot) : sp.uses = sp.handled.filter EventUse.counts := by
  have same : ∀ u ∈ sp.handled, u.counts = !sp.item.isMenuBuilder := by
    intro u hu
    rw [EventUse.counts, EventUse.item, (Spot.mem_handled.1 hu).1]
  rw [List.filter_congr same, uses, Spot.handled]
  cases sp.item.isMenuBuilder <;> simp

namespace Form

variable {f : Form}

/-- The place that the events of a spot are collected for. -/
def placeOf (f : Form) (sp : Spot) : BindPlace :=
  if (f.menuOf? sp).isSome then .contextMenu else .constructor sp.destination

/-- The events of a spot as they are collected. -/
def placed (f : Form) (sp : Spot) : List (BindPlace × EventUse) :=
  sp.uses.map fun u => (f.placeOf u.spot, u)

theorem handledUses_eq (f : Form) :
    f.handledUses = (f.spots.flatMap Spot.handled).filter EventUse.counts := by
  rw [handledUses, List.filter_flatMap]
  exact List.flatMap_congr fun sp _ => sp.uses_eq

theorem mem_handledUses {u : EventUse} :
    u ∈ f.handledUses ↔
      u.spot ∈ f.spots ∧ u.item.isMenuBuilder = false ∧ u.event ∈ u.item.element.handled := by
  rw [handledUses_eq, List.mem_filter, mem_flatMap_handled, EventUse.counts, Bool.not_eq_true',
    and_assoc, and_comm (a := u.event ∈ _)]

/-- A spot belongs to a menu if the path to it leads through one. -/
theorem isSome_menuOf? (f : Form) (i : Item) (inner : List Item) :
    (f.menuOf? { item := i, above := inner ++ f.path }).isSome = inner.any (·.isMenuBuilder) := by
  rw [menuOf?, inside_append, List.isSome_find?]

/-- The events of a spot that count are collected for its place. -/
theorem filter_spotEvents (f : Form) (sp : Spot) :
    (spotEvents (f.menuOf? sp).isSome sp).filter (fun use => use.2.counts) = f.placed sp := by
  simp only [spotEvents, placed, Spot.uses, List.filter_map, Function.comp_def, EventUse.counts,
    EventUse.item]
  cases sp.item.isMenuBuilder with
  | true => simp
  | false => simp [placeOf]

mutual

theorem filter_nodeEvents (inner : List Item) (b : Branch Item) :
    (nodeEvents (inner.any (·.isMenuBuilder)) (inner ++ f.path) b).filter
        (fun use => use.2.counts)
      = (spotsOf (inner ++ f.path) b).flatMap f.placed := by
  cases b with
  | mk i cs =>
    unfold nodeEvents spotsOf
    rw [List.flatMap_cons]
    by_cases hm : i.isMenuBuilder = true
    · have own : f.placed { item := i, above := inner ++ f.path } = [] := by
        simp [placed, Spot.uses, hm]
      have entered : (i :: inner).any (·.isMenuBuilder) = true := by simp [hm]
      rw [if_pos hm, own, List.nil_append]
      exact filter_entryEventsAll entered cs
    · have same : (i :: inner).any (·.isMenuBuilder) = inner.any (·.isMenuBuilder) := by simp [hm]
      have below := filter_nodeEventsAll (i :: inner) cs
      rw [same] at below
      have own := f.filter_spotEvents { item := i, above := inner ++ f.path }
      rw [isSome_menuOf?] at own
      rw [if_neg hm, List.filter_append, own]
      exact congrArg _ below

/-- The events that count are collected from their spots, each for its place. -/
theorem filter_nodeEventsAll (inner : List Item) (bs : List (Branch Item)) :
    (nodeEventsAll (inner.any (·.isMenuBuilder)) (inner ++ f.path) bs).filter
        (fun use => use.2.counts)
      = (spotsOfAll (inner ++ f.path) bs).flatMap f.placed := by
  cases bs with
  | nil => rfl
  | cons b bs =>
    unfold nodeEventsAll spotsOfAll
    rw [List.filter_append, List.flatMap_append, filter_nodeEvents inner b,
      filter_nodeEventsAll inner bs]

theorem filter_entryEvents {inner : List Item} (entered : inner.any (·.isMenuBuilder) = true)
    (b : Branch Item) :
    (entryEvents (inner ++ f.path) b).filter (fun use => use.2.counts)
      = (spotsOf (inner ++ f.path) b).flatMap f.placed := by
  cases b with
  | mk i cs =>
    have still : (i :: inner).any (·.isMenuBuilder) = true := by
      rw [List.any_cons, entered, Bool.or_true]
    have own := f.filter_spotEvents { item := i, above := inner ++ f.path }
    have below := filter_nodeEventsAll (i :: inner) cs
    rw [isSome_menuOf?, entered] at own
    rw [still] at below
    unfold entryEvents spotsOf
    rw [List.flatMap_cons, List.filter_append, own]
    exact congrArg _ below

theorem filter_entryEventsAll {inner : List Item} (entered : inner.any (·.isMenuBuilder) = true)
    (bs : List (Branch Item)) :
    (entryEventsAll (inner ++ f.path) bs).filter (fun use => use.2.counts)
      = (spotsOfAll (inner ++ f.path) bs).flatMap f.placed := by
  cases bs with
  | nil => rfl
  | cons b bs =>
    unfold entryEventsAll spotsOfAll
    rw [List.filter_append, List.flatMap_append, filter_entryEvents entered b,
      filter_entryEventsAll entered bs]

end

theorem not_isMenuBuilder_item (hf : f.node.kind.isForm = true) :
    f.item.isMenuBuilder = false := by
  by_contra hm
  have menu : f.node.kind = .contextMenuEvent := by
    simpa [Item.isMenuBuilder, Item.kind, item, Item.nameless] using hm
  rw [menu] at hf
  cases hf

/-- **The events that count are collected from the form, each for its place.** -/
theorem filter_placedUses (hf : f.node.kind.isForm = true) :
    f.placedUses.filter (fun use => use.2.counts)
      = f.handledUses.map fun u => (f.placeOf u.spot, u) := by
  have hm := not_isMenuBuilder_item hf
  have own := f.filter_spotEvents { item := f.item, above := f.above }
  have top : (f.menuOf? { item := f.item, above := f.above }).isSome = false := by
    rw [menuOf?, inside_above]
    rfl
  rw [top] at own
  have below := f.filter_nodeEventsAll [] f.children
  rw [handledUses, List.map_flatMap, placedUses, branch, nodeEvents, if_neg (by simp [hm]),
    List.filter_append, own]
  exact congrArg _ below

/-! ### The events that do not count -/

mutual

theorem parent_of_mem_nodeEvents {inMenu : Bool} {above : List Item} {b : Branch Item}
    {use : BindPlace × EventUse} (h : use ∈ nodeEvents inMenu above b)
    (hm : use.2.item.isMenuBuilder = true) :
    use.2.spot.above.head?.any (·.isMenuBuilder) = true := by
  cases b with
  | mk i cs =>
    unfold nodeEvents at h
    split at h
    · next hi => exact parent_of_mem_entryEventsAll hi h hm
    · next hi =>
      rcases List.mem_append.1 h with h | h
      · obtain ⟨event, -, rfl⟩ := List.mem_map.1 h
        exact absurd hm hi
      · exact parent_of_mem_nodeEventsAll h hm

/-- An event of a node that opens a menu is collected only if the node stands directly in another
such node. -/
theorem parent_of_mem_nodeEventsAll {inMenu : Bool} {above : List Item} {bs : List (Branch Item)}
    {use : BindPlace × EventUse} (h : use ∈ nodeEventsAll inMenu above bs)
    (hm : use.2.item.isMenuBuilder = true) :
    use.2.spot.above.head?.any (·.isMenuBuilder) = true := by
  cases bs with
  | nil => cases h
  | cons b bs =>
    unfold nodeEventsAll at h
    rcases List.mem_append.1 h with h | h
    · exact parent_of_mem_nodeEvents h hm
    · exact parent_of_mem_nodeEventsAll h hm

theorem parent_of_mem_entryEvents {i : Item} {above : List Item} (hi : i.isMenuBuilder = true)
    {b : Branch Item} {use : BindPlace × EventUse} (h : use ∈ entryEvents (i :: above) b)
    (hm : use.2.item.isMenuBuilder = true) :
    use.2.spot.above.head?.any (·.isMenuBuilder) = true := by
  cases b with
  | mk j cs =>
    unfold entryEvents at h
    rcases List.mem_append.1 h with h | h
    · obtain ⟨event, -, rfl⟩ := List.mem_map.1 h
      exact hi
    · exact parent_of_mem_nodeEventsAll h hm

theorem parent_of_mem_entryEventsAll {i : Item} {above : List Item} (hi : i.isMenuBuilder = true)
    {bs : List (Branch Item)} {use : BindPlace × EventUse}
    (h : use ∈ entryEventsAll (i :: above) bs) (hm : use.2.item.isMenuBuilder = true) :
    use.2.spot.above.head?.any (·.isMenuBuilder) = true := by
  cases bs with
  | nil => cases h
  | cons b bs =>
    unfold entryEventsAll at h
    rcases List.mem_append.1 h with h | h
    · exact parent_of_mem_entryEvents hi h hm
    · exact parent_of_mem_entryEventsAll hi h hm

end

/-- Where menus lie apart, every event that is collected counts. -/
theorem counts_of_mem_placedUses (hf : f.node.kind.isForm = true) (apart : f.MenusApart)
    {use : BindPlace × EventUse} (h : use ∈ f.placedUses) : use.2.counts = true := by
  by_contra hcounts
  have hm : use.2.item.isMenuBuilder = true := by simpa [EventUse.counts] using hcounts
  have parent := parent_of_mem_nodeEvents h hm
  have hspot := mem_spots_of_mem_placedUses h
  have none := apart _ hspot hm
  rcases mem_spots.1 hspot with heq | hinner
  · rw [EventUse.item, heq] at hm
    exact Bool.noConfusion (hm.symm.trans (not_isMenuBuilder_item hf))
  · rw [above_of_mem_innerSpots hinner] at parent
    rw [menuOf?] at none
    cases hinside : f.inside use.2.spot.above with
    | nil =>
      rw [hinside] at parent
      exact Bool.noConfusion (parent.symm.trans (not_isMenuBuilder_item hf))
    | cons i inner =>
      rw [hinside] at parent none
      exact List.find?_eq_none.1 none i List.mem_cons_self parent

/-- **Where menus lie apart, what is collected are the handled events, each for its place.** -/
theorem placedUses_eq (hf : f.node.kind.isForm = true) (apart : f.MenusApart) :
    f.placedUses = f.handledUses.map fun u => (f.placeOf u.spot, u) := by
  rw [← filter_placedUses hf,
    List.filter_eq_self.2 fun use hu => counts_of_mem_placedUses hf apart hu]

theorem mem_entries_sort_events (hf : f.node.kind.isForm = true) (apart : f.MenusApart)
    {place : BindPlace} {u : EventUse} :
    (place, u) ∈ f.events.sort.entries ↔ u ∈ f.handledUses ∧ f.placeOf u.spot = place := by
  rw [f.entries_sort_events.mem_iff, placedUses_eq hf apart]
  simp [and_comm]

/-! ## The events of a context menu -/

/-- Parts of a list by a key give the list back. -/
theorem flatMap_filter_perm {α β : Type} [DecidableEq α] (key : β → Option α) {keys : List α}
    (nodup : keys.Nodup) {xs : List β} (h : ∀ x ∈ xs, ∃ k ∈ keys, key x = some k) :
    (keys.flatMap fun k => xs.filter fun x => key x = some k).Perm xs := by
  induction keys generalizing xs with
  | nil =>
    cases xs with
    | nil => exact List.Perm.refl _
    | cons x xs => exact absurd (h x List.mem_cons_self) (by simp)
  | cons k keys ih =>
    -- the other parts are parts of what the first one leaves
    obtain ⟨hk, hkeys⟩ := List.nodup_cons.1 nodup
    have others : keys.flatMap (fun l => xs.filter fun x => key x = some l)
        = keys.flatMap fun l => (xs.filter fun x => !decide (key x = some k)).filter
            fun x => key x = some l := by
      refine List.flatMap_congr fun l hl => ?_
      rw [List.filter_filter]
      refine List.filter_congr fun x _ => ?_
      by_cases hx : key x = some l
      · have hne : l ≠ k := fun heq => hk (heq ▸ hl)
        simp [hx, hne]
      · simp [hx]
    rw [List.flatMap_cons, others]
    refine ((ih hkeys ?_).append_left _).trans (List.filter_append_perm _ xs)
    intro x hx
    obtain ⟨hx, hne⟩ := List.mem_filter.1 hx
    obtain ⟨l, hl, heq⟩ := h x hx
    rcases List.mem_cons.1 hl with rfl | hl
    · simp [heq] at hne
    · exact ⟨l, hl, heq⟩

theorem Sound.menuOf?_of_mem_inMenus (h : f.Sound) (apart : f.MenusApart) {u : EventUse}
    (hu : u ∈ f.events.sort.inMenus) : u.spot ∈ f.spots ∧ (f.menuOf? u.spot).isSome = true := by
  have hu : (BindPlace.contextMenu, u) ∈ f.events.sort.entries :=
    List.mem_append_right _ (List.mem_map_of_mem hu)
  obtain ⟨hu, hplace⟩ := (mem_entries_sort_events h.isForm apart).1 hu
  refine ⟨(mem_handledUses.1 hu).1, ?_⟩
  by_contra hnone
  rw [placeOf, if_neg hnone] at hplace
  cases hplace

/-- The events that the methods of a form bind. -/
def boundUses (f : Form) (events : EventTables) : List EventUse :=
  events.bound.toList ++ f.menuBuilders.flatMap fun builder => menuEvents events builder.item

/-- **Where menus lie apart, the methods bind each handled event once.** -/
theorem Sound.boundUses_perm (h : f.Sound) (apart : f.MenusApart) :
    (f.boundUses f.events.sort).Perm f.handledUses := by
  have placed := f.entries_sort_events
  rw [placedUses_eq h.isForm apart] at placed
  have all : (f.events.sort.bound.toList ++ f.events.sort.inMenus).Perm f.handledUses := by
    have := placed.map Prod.snd
    simpa [EventTables.entries, ← Grouped.map_snd_entries, Function.comp_def] using this
  have menus : (f.menuBuilders.flatMap fun builder => menuEvents f.events.sort builder.item)
      = (f.menuBuilders.map Spot.item).flatMap fun i =>
          f.events.sort.inMenus.filter fun u => f.menuOf? u.spot = some i := by
    rw [List.flatMap_map]
    refine List.flatMap_congr fun builder hb => List.filter_congr fun u hu => ?_
    exact h.any_id_eq apart (h.menuOf?_of_mem_inMenus apart hu).1 hb
  -- every event of the menus belongs to one of them, so they share it out
  refine List.Perm.trans (List.Perm.append_left _ ?_) all
  rw [menus]
  refine flatMap_filter_perm (fun u : EventUse => f.menuOf? u.spot) h.nodup_menuBuilders ?_
  intro u hu
  obtain ⟨hspot, hsome⟩ := h.menuOf?_of_mem_inMenus apart hu
  obtain ⟨i, hi⟩ := Option.isSome_iff_exists.1 hsome
  exact ⟨i, mem_menuBuilders_of_menuOf? hspot hi, hi⟩

/-! ## The bindings in the methods -/

variable {d : Dialect} {m : Method} {c : Collected}

theorem writtenIn_append (xs ys : List Traced) :
    writtenIn d m (xs ++ ys) = writtenIn d m xs ++ writtenIn d m ys :=
  List.filterMap_append

theorem isPlain_of_mem_singleton {p : Place} {st : Step} (h : st.isPlain = true) {x : Traced}
    (hx : x ∈ Traced.mark [] (.node p) [st]) : x.step.isPlain = true := by
  have plain : Step.Each (fun s => s.isPlain = true) [st] := by simpa using h
  rw [List.mem_singleton.1 ((Traced.mem_mark_of_plain plain).1 hx).2.2]
  exact h

/-- Construction binds nothing. -/
theorem writtenIn_of_plain {trace : List Traced} (h : ∀ x ∈ trace, x.step.isPlain = true) :
    writtenIn d m trace = [] := by
  refine List.filterMap_eq_nil_iff.2 fun x hx => ?_
  have plain := h x hx
  obtain ⟨blocks, origin, step⟩ := x
  cases origin with
  | node p => rfl
  | menu builder => rfl
  | event u =>
    cases step with
    | bind b => exact Bool.noConfusion plain
    | _ => rfl

/-- The bindings that open the menus bind no events of nodes. -/
theorem writtenIn_traceMenus : writtenIn d m f.traceMenus = [] := by
  refine List.filterMap_eq_nil_iff.2 fun x hx => ?_
  obtain ⟨builder, -, hx⟩ := List.mem_filterMap.1 hx
  obtain ⟨b, -, rfl⟩ := Option.map_eq_some_iff.1 hx
  rfl

theorem writtenIn_map_traceEvent {α : Type} (xs : List α) (blocks : α → List String)
    (use : α → EventUse) :
    writtenIn d m (xs.map fun a => f.traceEvent (blocks a) (use a))
      = (xs.filter fun a => f.accepts d (use a)).map
          fun a => ({ method := m, blocks := blocks a }, use a) := by
  induction xs with
  | nil => rfl
  | cons a xs ih =>
    have step : (f.traceEvent (blocks a) (use a)).written? d
        = if f.accepts d (use a) then some (use a) else none := rfl
    rw [List.map_cons, writtenIn, List.filterMap_cons, step, ← writtenIn, ih, List.filter_cons]
    split <;> simp_all [traceEvent]

theorem writtenIn_traceConstructor :
    writtenIn d .constructor (f.traceConstructor d c)
      = (c.events.bound.entries.filter fun use => f.accepts d use.2).map
          fun use => ({ method := .constructor, blocks := use.1.toList }, use.2) := by
  rw [traceConstructor, traceBindings_eq, writtenIn_append, writtenIn_append, writtenIn_append,
    writtenIn_of_plain fun x hx => isPlain_of_mem_trace hx,
    writtenIn_of_plain fun x hx => isPlain_of_mem_singleton rfl hx,
    writtenIn_traceMenus, List.append_nil, List.append_nil, List.nil_append]
  exact writtenIn_map_traceEvent _ _ _

theorem writtenIn_traceMenu (above : List Item) (b : Branch Item) :
    writtenIn d (.menu b.label) (f.traceMenu d c above b)
      = ((menuEvents c.events b.label).filter (f.accepts d)).map
          fun u => ({ method := .menu b.label, blocks := [] }, u) := by
  obtain ⟨i, cs⟩ := b
  rw [traceMenu, writtenIn_append, writtenIn_append,
    writtenIn_of_plain fun x hx => isPlain_of_mem_singleton rfl hx,
    writtenIn_of_plain fun x hx => Site.isPlain_of_mem_traceAll hx]
  exact writtenIn_map_traceEvent _ _ _

/-! ### What each binding is there for -/

/-- The step binds the event that it is there for. -/
def BindsEvent (f : Form) (x : Traced) (b : Binding) : Prop :=
  ∃ u, x.origin = .event u ∧ b = f.binding u

/-- The step opens the context menu that it is there for, on all platforms. -/
def OpensMenu (f : Form) (x : Traced) (b : Binding) : Prop :=
  ∃ builder ∈ f.menuBuilders, x.origin = .menu builder ∧ x.blocks = [] ∧
    f.menuBinding? builder = some b

theorem binding_of_mem_traceConstructor {x : Traced} (hx : x ∈ f.traceConstructor d c)
    {b : Binding} (hb : x.step = .bind b) : f.BindsEvent x b ∨ f.OpensMenu x b := by
  rw [traceConstructor, traceBindings_eq] at hx
  rcases List.mem_append.1 hx with hx | hx
  · have plain : x.step.isPlain = true := by
      rcases List.mem_append.1 hx with hx | hx
      · exact isPlain_of_mem_trace hx
      · exact isPlain_of_mem_singleton rfl hx
    rw [hb] at plain
    cases plain
  rcases List.mem_append.1 hx with hx | hx
  · obtain ⟨use, -, rfl⟩ := List.mem_map.1 hx
    exact Or.inl ⟨use.2, rfl, (Step.bind.inj hb).symm⟩
  · obtain ⟨builder, hbuilder, hx⟩ := List.mem_filterMap.1 hx
    obtain ⟨menu, hmenu, rfl⟩ := Option.map_eq_some_iff.1 hx
    obtain rfl := Step.bind.inj hb
    exact Or.inr ⟨builder, hbuilder, rfl, rfl, hmenu⟩

theorem binding_of_mem_traceMenu {above : List Item} {builder : Branch Item} {x : Traced}
    (hx : x ∈ f.traceMenu d c above builder) {b : Binding} (hb : x.step = .bind b) :
    f.BindsEvent x b := by
  obtain ⟨i, cs⟩ := builder
  rw [traceMenu] at hx
  rcases List.mem_append.1 hx with hx | hx
  · have plain : x.step.isPlain = true := by
      rcases List.mem_append.1 hx with hx | hx
      · exact isPlain_of_mem_singleton rfl hx
      · exact Site.isPlain_of_mem_traceAll hx
    rw [hb] at plain
    cases plain
  · obtain ⟨u, -, rfl⟩ := List.mem_map.1 hx
    exact ⟨u, rfl, (Step.bind.inj hb).symm⟩

theorem home_of_menuOf? {sp : Spot} {i : Item} (h : f.menuOf? sp = some i) :
    f.home sp = { method := .menu i, blocks := [] } := by
  rw [home, h]

theorem home_of_placeOf {sp : Spot} {destination : Option String}
    (h : f.placeOf sp = .constructor destination) :
    f.home sp = { method := .constructor, blocks := destination.toList } := by
  unfold placeOf at h
  split at h
  · cases h
  · next hnone =>
    rw [home, Option.not_isSome_iff_eq_none.1 hnone, BindPlace.constructor.inj h]

/-- What is written are the events that the methods bind, each at its home, as far as the dialect
can express them. -/
theorem Sound.written_eq (h : f.Sound) (apart : f.MenusApart) (hc : c.events = f.events.sort) :
    f.written d c
      = ((f.boundUses f.events.sort).filter (f.accepts d)).map fun u => (f.home u.spot, u) := by
  have own : writtenIn d .constructor (f.traceConstructor d c)
      = (f.events.sort.bound.toList.filter (f.accepts d)).map fun u => (f.home u.spot, u) := by
    rw [writtenIn_traceConstructor, hc, ← Grouped.map_snd_entries, List.filter_map, List.map_map]
    refine List.map_congr_left fun use hu => ?_
    obtain ⟨destination, u⟩ := use
    have hu : (BindPlace.constructor destination, u) ∈ f.events.sort.entries :=
      List.mem_append_left _ (List.mem_map_of_mem (List.mem_of_mem_filter hu))
    obtain ⟨-, hplace⟩ := (mem_entries_sort_events h.isForm apart).1 hu
    exact congrArg (·, u) (home_of_placeOf hplace).symm
  have menus : (f.menuBranches.flatMap fun (above, b) =>
        writtenIn d (.menu b.label) (f.traceMenu d c above b))
      = ((f.menuBuilders.flatMap fun builder => menuEvents f.events.sort builder.item).filter
          (f.accepts d)).map fun u => (f.home u.spot, u) := by
    rw [List.filter_flatMap, List.map_flatMap, menuBuilders, List.flatMap_map]
    refine List.flatMap_congr fun menu hb => ?_
    obtain ⟨above, b⟩ := menu
    dsimp only
    rw [writtenIn_traceMenu, hc]
    refine List.map_congr_left fun u hu => congrArg (·, u) (home_of_menuOf? ?_).symm
    obtain ⟨hu, hid⟩ := List.mem_filter.1 (List.mem_of_mem_filter hu)
    have hbuilder : { item := b.label, above } ∈ f.menuBuilders := List.mem_map.2 ⟨_, hb, rfl⟩
    rw [h.any_id_eq apart (h.menuOf?_of_mem_inMenus apart hu).1 hbuilder] at hid
    exact of_decide_eq_true hid
  rw [written, own, menus, ← List.map_append, ← List.filter_append]
  rfl

/-- **Where menus lie apart, what is written are the handled events, each once and at its home.** -/
theorem Sound.written_perm (h : f.Sound) (apart : f.MenusApart) (hc : c.events = f.events.sort) :
    (f.written d c).Perm
      ((f.handledUses.filter (f.accepts d)).map fun u => (f.home u.spot, u)) := by
  rw [h.written_eq apart hc]
  exact ((h.boundUses_perm apart).filter _).map _

/-! ## Events that are told apart -/

/-- The node and the name tell the events of a form apart. -/
theorem Sound.nodup_ident_handled (h : f.Sound) :
    ((f.spots.flatMap Spot.handled).map EventUse.ident).Nodup := by
  rw [List.map_flatMap, List.nodup_flatMap]
  refine ⟨fun sp hsp => ?_, ?_⟩
  · have names : (sp.item.element.handled.map Event.name).Nodup :=
      (h.eventsOnce sp hsp).sublist (List.filter_sublist.map _)
    rw [Spot.handled, List.map_map]
    refine List.Nodup.of_map Prod.snd ?_
    rwa [List.map_map]
  · -- the events of two spots differ in their nodes
    refine (List.pairwise_map.1 h.nodup_ids).imp ?_
    intro sp sp' hne x hx hx'
    have ident {sp : Spot} (hx : x ∈ sp.handled.map EventUse.ident) : x.1 = sp.item.node.id := by
      obtain ⟨u, hu, rfl⟩ := List.mem_map.1 hx
      rw [← (Spot.mem_handled.1 hu).1]
      rfl
    exact hne ((ident hx).symm.trans (ident hx'))

theorem Sound.nodup_ident (h : f.Sound) : (f.handledUses.map EventUse.ident).Nodup := by
  rw [handledUses_eq]
  exact h.nodup_ident_handled.sublist (List.filter_sublist.map _)

/-! ## Events that cannot be bound -/

/-- What opens with a bracket has no blanks before it. -/
theorem isLambda_of_isInline {e : Event} (h : isInline e.handler = true) : e.isLambda = true := by
  unfold isInline Text.startsWhere at h
  unfold Event.isLambda Text.startsWhere Text.trimStart Text.Chars.trimStart
  cases hs : e.handler.toList with
  | nil => simp [hs] at h
  | cons first rest =>
    obtain rfl : first = '[' := by simpa [hs] using h
    have blank : Text.isBlank '[' = false := by decide
    simp [blank]

theorem accepts_eq (u : EventUse) :
    f.accepts d u = !(isInline u.event.handler && d != .cpp) := by
  unfold accepts Dialect.binding
  change (ite ((isInline u.event.handler && d != .cpp) = true) none (some _)).isSome = _
  cases isInline u.event.handler && d != .cpp <;> rfl

/-- A binding that the dialect cannot express is warned of. -/
theorem skipped?_of_declined {u : EventUse} (h : f.accepts d u = false) :
    (u.skipped? d).isSome = true := by
  rw [accepts_eq, Bool.not_eq_false'] at h
  have lambda := isLambda_of_isInline (Bool.and_eq_true_iff.1 h).1
  rw [EventUse.skipped?, h, lambda]
  rfl

/-! ## Generation -/

/-- **Every event with a handler is bound once and in its place**, or else warned of. -/
structure BoundOnce (f : Form) (d : Dialect) (c : Collected) (warnings : List String) : Prop where
  /-- The traces that the bindings are read from are those of the methods. -/
  constructor_leaves :
    Step.leavesAll [] (f.constructorSteps d c) = (f.traceConstructor d c).map Traced.erase
  menu_leaves : ∀ above b, (above, b) ∈ f.menuBranches →
    Step.leavesAll [] (f.menuSteps d c above b) = (f.traceMenu d c above b).map Traced.erase
  /-- What is written are the events that the dialect accepts, each at its home. -/
  mem_written : ∀ home u, (home, u) ∈ f.written d c ↔
    u ∈ f.handledUses ∧ f.accepts d u = true ∧ home = f.home u.spot
  /-- What is bound in the constructor besides events are the context menus. -/
  constructor_bindings : ∀ x ∈ f.traceConstructor d c, ∀ b, x.step = .bind b →
    f.BindsEvent x b ∨ f.OpensMenu x b
  /-- In the handler of a context menu only events are bound. -/
  menu_bindings : ∀ above builder, (above, builder) ∈ f.menuBranches →
    ∀ x ∈ f.traceMenu d c above builder, ∀ b, x.step = .bind b → f.BindsEvent x b
  /-- No event of a node is written twice. -/
  nodup_ident : ((f.written d c).map fun (_, u) => u.ident).Nodup
  /-- The events of one selector share their block. -/
  nodup_blocks : ((f.bindSteps c.events).filterMap Step.selector?).Nodup
  /-- An event that is not written is warned of. -/
  declined : ∀ u ∈ f.handledUses, f.accepts d u = false → ∃ w ∈ warnings, u.skipped? d = some w

theorem nodup_blocks_bindSteps : ((f.bindSteps f.events.sort).filterMap Step.selector?).Nodup := by
  have blocks : (f.bindSteps f.events.sort).filterMap Step.selector?
      = f.events.sort.bound.bySelector.map Prod.fst := by
    simp [bindSteps, List.filterMap_append, List.filterMap_map, Function.comp_def, Step.selector?]
  rw [blocks]
  exact List.pairwise_map.2 (f.ordered_sort_events.imp fun h => String.ne_of_lt h)

theorem Sound.boundOnce (h : f.Sound) (apart : f.MenusApart) {o : Options}
    (hc : c.events = f.events.sort) : f.BoundOnce d c (f.output d o c).warnings where
  constructor_leaves := f.leavesAll_constructorSteps d c
  menu_leaves above b _ := f.leavesAll_menuSteps d c above b
  mem_written home u := by
    rw [(h.written_perm apart hc).mem_iff, List.mem_map]
    constructor
    · rintro ⟨u, hu, heq⟩
      obtain ⟨rfl, rfl⟩ := Prod.mk.inj heq
      obtain ⟨hu, ha⟩ := List.mem_filter.1 hu
      exact ⟨hu, ha, rfl⟩
    · rintro ⟨hu, ha, rfl⟩
      exact ⟨u, List.mem_filter.2 ⟨hu, ha⟩, rfl⟩
  constructor_bindings _ hx _ hb := binding_of_mem_traceConstructor hx hb
  menu_bindings _ _ _ _ hx _ hb := binding_of_mem_traceMenu hx hb
  nodup_ident := by
    have perm := (h.written_perm (d := d) apart hc).map fun (_, u) => u.ident
    rw [List.map_map] at perm
    refine perm.nodup_iff.2 ?_
    exact h.nodup_ident.sublist (List.filter_sublist.map _)
  nodup_blocks := hc ▸ nodup_blocks_bindSteps
  declined u hu ha := by
    obtain ⟨w, hw⟩ := Option.isSome_iff_exists.1 (skipped?_of_declined ha)
    refine ⟨w, mem_firsts.2 (List.mem_append_left _ (List.mem_append_right _ ?_)), hw⟩
    rw [hc]
    exact List.mem_filterMap.2 ⟨u, (h.boundUses_perm apart).mem_iff.2 hu, hw⟩

theorem get?_of_ofTree {t : Tree} {id : Nat} (hf : ofTree t id = .ok f) :
    t.get? id = some f.node := by
  obtain ⟨hid, cs, hbranch, -⟩ := of_ofTree hf
  rw [Tree.branchAt] at hbranch
  obtain ⟨hn, -⟩ := Branch.mk.inj hbranch
  rw [← hn]
  exact Array.getElem?_eq_getElem hid

end Form

/-- Generation of a form that the dialect covers. -/
theorem generateSource_eq {t : Tree} {id : Nat} {f : Form} (hf : Form.ofTree t id = .ok f)
    {d : Dialect} (hd : d.supports f.node.kind = true) (o : Options) (source : FileSource)
    (cache : Cache) :
    generateSource t id (.source d) o source cache = f.generate d o source cache := by
  have isForm := Form.isForm_of_ofTree hf
  have outline : f.node.kind.isOutline = false := by
    simp only [Kind.isForm, beq_iff_eq] at isForm
    simp [Kind.isOutline, isForm]
  simp [generateSource, Form.get?_of_ofTree hf, outline, isForm, hd, hf]

/-- **Generation binds every event with a handler once and in its place.** -/
theorem boundOnce_of_generateSource {t : Tree} (reachable : t.Reachable) {id : Nat} {f : Form}
    (hf : Form.ofTree t id = .ok f) (apart : f.MenusApart) {d : Dialect}
    (hd : d.supports f.node.kind = true) {o : Options} {source : FileSource} {cache after : Cache}
    {table : ImageTable} (images : f.images source o.artDirectory cache = (.ok table, after)) :
    let c := f.collected d table after
    generateSource t id (.source d) o source cache = (.ok (f.output d o c), after) ∧
      f.BoundOnce d c (f.output d o c).warnings := by
  refine ⟨?_, (Form.sound_of_ofTree reachable hf).boundOnce apart rfl⟩
  rw [generateSource_eq hf hd, Form.generate, images]

/-! ## A panel with a menu, and forms that are not generated -/

/-- A panel on Windows with an event. -/
def paintedPanel : Element where
  kind := .panel
  props := [(.varName, "m_panel"), (.platforms, "Windows")]
  events := [{ name := "wxEVT_PAINT", handler := "OnPaint" }]

/-- An entry of a menu with two events, one of them with an inline handler. -/
def copyEntry : Element where
  kind := .menuItem
  props := [(.varName, "m_copy")]
  events :=
    [{ name := "wxEVT_MENU", handler := "OnCopy" },
      { name := "wxEVT_UPDATE_UI", handler := "[](wxEvent&) \x7b\x7d" }]

/-- A dialog with the panel, and with the entry in the panel's context menu. -/
def menuDesign : Design :=
  .mk (.ofKind .dialog)
    [.mk paintedPanel [.mk (.ofKind .contextMenuEvent) [.mk copyEntry []]]]

/-- The form of that dialog. -/
def menuDialog : Form where
  node := { Element.ofKind .dialog with id := 0, parent := none, children := [1] }
  children :=
    [.mk
      { node := { paintedPanel with id := 1, parent := some 0, children := [2] },
        name := "m_panel" }
      [.mk
        { node :=
            { Element.ofKind .contextMenuEvent with id := 2, parent := some 1, children := [3] },
          name := "context_menu_event" }
        [.mk
          { node := { copyEntry with id := 3, parent := some 2, children := [] },
            name := "m_copy" }
          []]]]
  above := []

/-- A source without any files. -/
def noFiles : FileSource where
  modified _ := none
  load _ := .error "no such file"

/-- In Python the panel's event is bound in the constructor, one event of the entry in the menu, and
the inline handler is warned of. -/
theorem menuDialog_boundOnce :
    let c := menuDialog.collected .python .empty .empty
    generateSource (.ofDesign menuDesign) 0 (.source .python) .default noFiles .empty
        = (.ok (menuDialog.output .python .default c), .empty) ∧
      menuDialog.BoundOnce .python c (menuDialog.output .python .default c).warnings := by
  have hf : Form.ofTree (.ofDesign menuDesign) 0 = .ok menuDialog := by with_unfolding_all rfl
  have once : menuDesign.EventsOnce := by
    unfold Design.EventsOnce Element.EventsOnce
    decide
  exact boundOnce_of_generateSource (.ofDesign once) hf (by decide) rfl rfl

/-- A ribbon bar with an event. -/
def sizedRibbon : Element where
  kind := .ribbonBarForm
  props := [(.className, "Bar")]
  events := [{ name := "wxEVT_SIZE", handler := "OnSize" }]

/-- The form of the ribbon bar. -/
def ribbonForm : Form where
  node := { sizedRibbon with id := 0, parent := none, children := [] }
  children := []
  above := []

/-- The event of the ribbon bar. -/
def ribbonUse : EventUse where
  spot := { item := ribbonForm.item, above := [] }
  event := { name := "wxEVT_SIZE", handler := "OnSize" }

/-- A dialog with an event and an icon. -/
def iconDialog : Element where
  kind := .dialog
  props := [(.className, "Dlg"), (.icon, "Embed;logo.png")]
  events := [{ name := "wxEVT_SIZE", handler := "OnSize" }]

/-- The form of that dialog. -/
def iconForm : Form where
  node := { iconDialog with id := 0, parent := none, children := [] }
  children := []
  above := []

/-- The event of that dialog. -/
def iconUse : EventUse where
  spot := { item := iconForm.item, above := [] }
  event := { name := "wxEVT_SIZE", handler := "OnSize" }

/-- A source whose files are there but cannot be read. -/
def lockedFiles : FileSource where
  modified _ := some 0
  load _ := .error "cannot be read"

/-- Nothing is generated for a form that the language does not cover, and nothing when the images of
the form fail. So the events of these forms are not bound. -/
theorem not_bound_of_not_generated :
    (Form.ofTree (.ofDesign (.mk sizedRibbon [])) 0 = .ok ribbonForm ∧ ribbonForm.MenusApart ∧
      ribbonUse ∈ ribbonForm.handledUses ∧ ribbonForm.accepts .perl ribbonUse = true ∧
      generateSource (.ofDesign (.mk sizedRibbon [])) 0 (.source .perl) .default noFiles .empty
        = (.ok (.ignored "Bar" (.source .perl)
            ["Bar (RibbonBar) cannot be generated for Perl"]), .empty)) ∧
    Form.ofTree (.ofDesign (.mk iconDialog [])) 0 = .ok iconForm ∧ iconForm.MenusApart ∧
      iconUse ∈ iconForm.handledUses ∧ iconForm.accepts .perl iconUse = true ∧
      generateSource (.ofDesign (.mk iconDialog [])) 0 (.source .perl) .default lockedFiles .empty
        = (.error (.imagePass (.unreadable "logo.png" "cannot be read")), .empty) := by
  refine ⟨⟨?_, by decide, List.mem_singleton_self _, by decide, ?_⟩,
    ?_, by decide, List.mem_singleton_self _, by decide, ?_⟩
  all_goals with_unfolding_all rfl

end FormDesign
