import FormDesign.Proofs.Code.Binding
import FormDesign.Proofs.Code.InitialState

/-!
# The handlers that bindings refer to

A binding names the handler of an event. The handlers of a class are listed from the same events,
and for each of them the class has a method: an empty one to be replaced, or in C++ a prototype. The
methods that show context menus are bound and written node by node.

* `mk_mem_namedHandlers`: a handler is listed with the first event that has it
* `mem_namedHandlers`, `nodup_namedHandlers`: the list has each named handler of the events once
* `Form.eventBindings_eq`: the events that the methods bind
* `Form.exists_builder_of_mem_inMenus`: an event of a context menu is bound in some menu
* `Form.HandlersProvided`: what is bound exists under the spelling of the binding
* `handlersProvided_iff`: when this is so, also where the binding names a class
-/

namespace FormDesign

/-! ## The list of handlers -/

theorem mk_mem_go_namedHandlers {seen : List String} {uses : List EventUse} {event h : String} :
    (event, h) ∈ namedHandlers.go seen uses ↔ h ∉ seen ∧ isInline h = false ∧
      ∃ u, uses.find? (·.event.handler == h) = some u ∧ u.event.name = event := by
  induction uses generalizing seen with
  | nil => simp [namedHandlers.go]
  | cons u rest ih =>
    rw [namedHandlers.go]
    by_cases skip : (isInline u.event.handler || seen.contains u.event.handler) = true
    · rw [if_pos skip, ih]
      refine and_congr_right fun unseen => and_congr_right fun named => ?_
      -- a handler that is skipped is none of those looked for
      have other : u.event.handler ≠ h := by
        rintro rfl
        simp [named, unseen] at skip
      rw [List.find?_cons_of_neg (by simpa using other)]
    · obtain ⟨named, unseen⟩ := Bool.or_eq_false_iff.1 (Bool.eq_false_iff.2 skip)
      rw [if_neg skip, List.mem_cons, ih]
      by_cases same : u.event.handler = h
      · subst same
        have found : (u :: rest).find? (·.event.handler == u.event.handler) = some u :=
          List.find?_cons_of_pos (beq_self_eq_true _)
        have unseen : u.event.handler ∉ seen := by simpa using unseen
        simp [found, named, unseen, eq_comm]
      · rw [List.find?_cons_of_neg (by simpa using same)]
        simp [Ne.symm same]

theorem mem_go_namedHandlers {seen : List String} {uses : List EventUse} {h : String} :
    h ∈ (namedHandlers.go seen uses).map Prod.snd ↔
      h ∉ seen ∧ isInline h = false ∧ ∃ u ∈ uses, u.event.handler = h := by
  have found : (∃ u, uses.find? (·.event.handler == h) = some u) ↔
      ∃ u ∈ uses, u.event.handler = h := by
    rw [← Option.isSome_iff_exists, List.find?_isSome]
    simp only [beq_iff_eq]
  rw [← found, List.mem_map]
  constructor
  · rintro ⟨⟨event, _⟩, hmem, rfl⟩
    obtain ⟨unseen, named, u, hu, -⟩ := mk_mem_go_namedHandlers.1 hmem
    exact ⟨unseen, named, u, hu⟩
  · rintro ⟨unseen, named, u, hu⟩
    exact ⟨(u.event.name, h), mk_mem_go_namedHandlers.2 ⟨unseen, named, u, hu, rfl⟩, rfl⟩

theorem nodup_go_namedHandlers (seen : List String) (uses : List EventUse) :
    ((namedHandlers.go seen uses).map Prod.snd).Nodup := by
  induction uses generalizing seen with
  | nil => exact List.nodup_nil
  | cons u rest ih =>
    rw [namedHandlers.go]
    split
    · exact ih seen
    · rw [List.map_cons, List.nodup_cons]
      exact ⟨fun h => (mem_go_namedHandlers.1 h).1 List.mem_cons_self, ih _⟩

/-- **A handler is listed with the first event that has it.** -/
theorem mk_mem_namedHandlers {uses : List EventUse} {event h : String} :
    (event, h) ∈ namedHandlers uses ↔ isInline h = false ∧
      ∃ u, uses.find? (·.event.handler == h) = some u ∧ u.event.name = event := by
  rw [namedHandlers, mk_mem_go_namedHandlers, and_iff_right List.not_mem_nil]

/-- The handlers that are listed are the named ones of the events. -/
theorem mem_namedHandlers {uses : List EventUse} {h : String} :
    h ∈ (namedHandlers uses).map Prod.snd ↔
      isInline h = false ∧ ∃ u ∈ uses, u.event.handler = h := by
  rw [namedHandlers, mem_go_namedHandlers, and_iff_right List.not_mem_nil]

/-- Each handler is listed once. -/
theorem nodup_namedHandlers (uses : List EventUse) : ((namedHandlers uses).map Prod.snd).Nodup :=
  nodup_go_namedHandlers [] uses

/-! ## The bindings in the methods -/

/-- The binding of an event of a node. -/
def Traced.eventBinding? (x : Traced) : Option Binding :=
  match x.origin, x.step with
  | .event _, .bind b => some b
  | _, _ => none

/-- The binding that opens the context menu of a node, with the node. -/
def Traced.menuBinding? (x : Traced) : Option (Spot × Binding) :=
  match x.origin, x.step with
  | .menu builder, .bind b => some (builder, b)
  | _, _ => none

namespace Form

variable {f : Form} {d : Dialect} {c : Collected}

/-- The bindings of events in the methods of the generated class. -/
def eventBindings (f : Form) (d : Dialect) (c : Collected) : List Binding :=
  (f.traces d c).flatMap (List.filterMap Traced.eventBinding?)

/-- The bindings that open context menus. -/
def menuBindings (f : Form) (d : Dialect) (c : Collected) : List (Spot × Binding) :=
  (f.traces d c).flatMap (List.filterMap Traced.menuBinding?)

/-- Construction binds nothing. -/
theorem filterMap_of_plain {α : Type} {g : Traced → Option α} {xs : List Traced}
    (h : ∀ x ∈ xs, x.step.isPlain = true) (hg : ∀ x, g x ≠ none → ∃ b, x.step = .bind b) :
    xs.filterMap g = [] := by
  refine List.filterMap_eq_nil_iff.2 fun x hx => ?_
  by_contra bound
  obtain ⟨b, hb⟩ := hg x bound
  have plain := h x hx
  rw [hb] at plain
  cases plain

theorem exists_bind_of_eventBinding? (x : Traced) (h : x.eventBinding? ≠ none) :
    ∃ b, x.step = .bind b := by
  unfold Traced.eventBinding? at h
  split at h
  · next hstep => exact ⟨_, hstep⟩
  · exact absurd rfl h

theorem exists_bind_of_menuBinding? (x : Traced) (h : x.menuBinding? ≠ none) :
    ∃ b, x.step = .bind b := by
  unfold Traced.menuBinding? at h
  split at h
  · next hstep => exact ⟨_, hstep⟩
  · exact absurd rfl h

theorem filterMap_traceEvent {α : Type} (blocks : α → List String) (use : α → EventUse)
    (xs : List α) :
    (xs.map fun a => f.traceEvent (blocks a) (use a)).filterMap Traced.eventBinding?
      = xs.map fun a => f.binding (use a) := by
  rw [List.filterMap_map, ← List.filterMap_eq_map]
  rfl

theorem filterMap_traceConstructor {α : Type} {g : Traced → Option α}
    (hg : ∀ x, g x ≠ none → ∃ b, x.step = .bind b) :
    (f.traceConstructor d c).filterMap g = (f.traceBindings c.events).filterMap g := by
  have gap : ∀ x ∈ Traced.mark [] (.node f.place) [.gap], x.step.isPlain = true := by
    intro x hx
    obtain rfl := List.mem_singleton.1 hx
    rfl
  rw [traceConstructor, List.filterMap_append, List.filterMap_append,
    filterMap_of_plain (fun x hx => isPlain_of_mem_trace hx) hg, filterMap_of_plain gap hg,
    List.nil_append, List.nil_append]

theorem filterMap_traceMenu {α : Type} {g : Traced → Option α}
    (hg : ∀ x, g x ≠ none → ∃ b, x.step = .bind b) (above : List Item) (b : Branch Item) :
    (f.traceMenu d c above b).filterMap g
      = ((menuEvents c.events b.label).map (f.traceEvent [])).filterMap g := by
  obtain ⟨i, cs⟩ := b
  have menu : ∀ p x, x ∈ Traced.mark [] (.node p)
      [.stmt (.create contextMenuVar (d.classToken "wxMenu" .core) [] none)] →
        x.step.isPlain = true := by
    intro p x hx
    obtain rfl := List.mem_singleton.1 hx
    rfl
  rw [traceMenu, List.filterMap_append, List.filterMap_append, filterMap_of_plain (menu _) hg,
    filterMap_of_plain (fun x hx => Site.isPlain_of_mem_traceAll hx) hg, List.nil_append,
    List.nil_append]
  rfl

/-- **The methods bind the events of their tables.** -/
theorem eventBindings_eq : f.eventBindings d c = (f.boundUses c.events).map f.binding := by
  have own : (f.traceConstructor d c).filterMap Traced.eventBinding?
      = c.events.bound.toList.map f.binding := by
    have menus : f.traceMenus.filterMap Traced.eventBinding? = [] := by
      refine List.filterMap_eq_nil_iff.2 fun x hx => ?_
      obtain ⟨builder, -, hx⟩ := List.mem_filterMap.1 hx
      obtain ⟨b, -, rfl⟩ := Option.map_eq_some_iff.1 hx
      rfl
    rw [filterMap_traceConstructor exists_bind_of_eventBinding?, traceBindings_eq,
      List.filterMap_append, menus, List.append_nil, ← Grouped.map_snd_entries, List.map_map]
    exact filterMap_traceEvent _ _ _
  have inMenu (menu : List Item × Branch Item) :
      (f.traceMenu d c menu.1 menu.2).filterMap Traced.eventBinding?
        = (menuEvents c.events menu.2.label).map f.binding := by
    rw [filterMap_traceMenu exists_bind_of_eventBinding?]
    exact filterMap_traceEvent _ _ _
  rw [eventBindings, traces, List.flatMap_cons, own, List.flatMap_map, boundUses, List.map_append,
    List.map_flatMap, menuBuilders, List.flatMap_map]
  exact congrArg _ (List.flatMap_congr fun menu _ => inMenu menu)

/-- **The constructor opens the context menus of their nodes.** -/
theorem menuBindings_eq : f.menuBindings d c
    = f.menuBuilders.filterMap fun builder => (f.menuBinding? builder).map (builder, ·) := by
  have own : (f.traceConstructor d c).filterMap Traced.menuBinding?
      = f.menuBuilders.filterMap fun builder => (f.menuBinding? builder).map (builder, ·) := by
    have events : (f.traceBindings c.events).filterMap Traced.menuBinding?
        = f.traceMenus.filterMap Traced.menuBinding? := by
      rw [traceBindings_eq, List.filterMap_append]
      refine (congrArg (· ++ _) (List.filterMap_eq_nil_iff.2 fun x hx => ?_)).trans
        (List.nil_append _)
      obtain ⟨use, -, rfl⟩ := List.mem_map.1 hx
      rfl
    rw [filterMap_traceConstructor exists_bind_of_menuBinding?, events, traceMenus,
      List.filterMap_filterMap]
    refine List.filterMap_congr fun builder _ => ?_
    cases f.menuBinding? builder <;> rfl
  have inMenu (menu : List Item × Branch Item) :
      (f.traceMenu d c menu.1 menu.2).filterMap Traced.menuBinding? = [] := by
    rw [filterMap_traceMenu exists_bind_of_menuBinding?]
    refine List.filterMap_eq_nil_iff.2 fun x hx => ?_
    obtain ⟨u, -, rfl⟩ := List.mem_map.1 hx
    rfl
  rw [menuBindings, traces, List.flatMap_cons, own, List.flatMap_map,
    List.flatMap_eq_nil_iff.2 fun menu _ => inMenu menu, List.append_nil]

end Form

/-! ## The events of context menus -/

mutual

/-- An event that is collected for a context menu stands below a node that opens one. -/
theorem exists_menu_of_mem_nodeEvents {inMenu : Bool} {above : List Item} {b : Branch Item}
    {u : EventUse} (h : (BindPlace.contextMenu, u) ∈ nodeEvents inMenu above b) :
    inMenu = true ∨ ∃ menu ∈ menuBranchesIn above b, menu.2.label ∈ u.spot.above := by
  cases b with
  | mk i cs =>
    unfold nodeEvents at h
    unfold menuBranchesIn
    by_cases builder : i.isMenuBuilder = true
    · rw [if_pos builder] at h
      rw [if_pos builder]
      have suffix := suffix_of_mem_spotsOfAll (spot_mem_of_mem_entryEventsAll h)
      exact Or.inr ⟨_, List.mem_cons_self, suffix.subset List.mem_cons_self⟩
    · rw [if_neg builder] at h
      rw [if_neg builder]
      rcases List.mem_append.1 h with own | below
      · obtain ⟨event, -, heq⟩ := List.mem_map.1 own
        cases inMenu with
        | true => exact Or.inl rfl
        | false => cases congrArg Prod.fst heq
      · exact exists_menu_of_mem_nodeEventsAll below

theorem exists_menu_of_mem_nodeEventsAll {inMenu : Bool} {above : List Item}
    {bs : List (Branch Item)} {u : EventUse}
    (h : (BindPlace.contextMenu, u) ∈ nodeEventsAll inMenu above bs) :
    inMenu = true ∨ ∃ menu ∈ menuBranchesInAll above bs, menu.2.label ∈ u.spot.above := by
  cases bs with
  | nil => cases h
  | cons b bs =>
    unfold nodeEventsAll at h
    unfold menuBranchesInAll
    rcases List.mem_append.1 h with h | h
    · refine (exists_menu_of_mem_nodeEvents h).imp_right fun ⟨menu, hmenu, habove⟩ => ?_
      exact ⟨menu, List.mem_append_left _ hmenu, habove⟩
    · refine (exists_menu_of_mem_nodeEventsAll h).imp_right fun ⟨menu, hmenu, habove⟩ => ?_
      exact ⟨menu, List.mem_append_right _ hmenu, habove⟩

end

namespace Form

variable {f : Form}

/-- An event of a context menu is bound in some menu. -/
theorem exists_builder_of_mem_inMenus {u : EventUse} (h : u ∈ f.events.sort.inMenus) :
    ∃ builder ∈ f.menuBuilders, u ∈ menuEvents f.events.sort builder.item := by
  have entry : (BindPlace.contextMenu, u) ∈ f.events.sort.entries :=
    List.mem_append_right _ (List.mem_map_of_mem h)
  rw [f.entries_sort_events.mem_iff] at entry
  rcases exists_menu_of_mem_nodeEvents entry with inside | ⟨menu, hmenu, habove⟩
  · cases inside
  · refine ⟨_, List.mem_map_of_mem hmenu, List.mem_filter.2 ⟨h, ?_⟩⟩
    exact List.any_eq_true.2 ⟨_, habove, beq_self_eq_true _⟩

/-- What the methods bind is what the tables hold. -/
theorem mem_boundUses {u : EventUse} :
    u ∈ f.boundUses f.events.sort ↔ u ∈ f.events.sort.toList := by
  rw [boundUses, EventTables.toList, List.mem_append, List.mem_append]
  refine or_congr_right ⟨fun h => ?_, fun h => ?_⟩
  · obtain ⟨builder, -, hu⟩ := List.mem_flatMap.1 h
    exact List.mem_of_mem_filter hu
  · obtain ⟨builder, hbuilder, hu⟩ := exists_builder_of_mem_inMenus h
    exact List.mem_flatMap.2 ⟨builder, hbuilder, hu⟩

end Form

/-! ## Methods by their spelling -/

namespace Dialect

/-- How a binding refers to a method. Only C++ names the class; elsewhere it is the one that the
binding stands in. -/
def reference (d : Dialect) (className method : String) : String :=
  match d with
  | .cpp => "&" ++ className ++ "::" ++ method ++ ", this"
  | .python => "self." ++ method
  | .ruby => ":" ++ method
  | .perl => "$self->can('" ++ method ++ "')"

/-- The line that provides a method for an event: the prototype in a C++ header, or else the first
line of the method. -/
def stubLine (d : Dialect) (event method : String) : String :=
  match d with
  | .cpp =>
    "virtual void " ++ method ++ "(" ++ eventClass event ++ "& event) \x7b event.Skip(); \x7d"
  | .python => "def " ++ method ++ "(self, event):"
  | .ruby => "def " ++ method ++ "(event)"
  | .perl => "sub " ++ method ++ " \x7b"

/-- The first line of a method that shows a context menu. -/
def menuLine (d : Dialect) (className method : String) : String :=
  match d with
  | .cpp => "void " ++ className ++ "::" ++ method ++ "(wxContextMenuEvent& WXUNUSED(event))"
  | .python => "def " ++ method ++ "(self, event):"
  | .ruby => "def " ++ method ++ "(event)"
  | .perl => "sub " ++ method ++ " \x7b"

/-- The prototype of a method that shows a context menu, in a C++ header. -/
def menuPrototype (method : String) : String :=
  "void " ++ method ++ "(wxContextMenuEvent& event);"

/-- Handlers are methods of the class that the binding has for them. -/
theorem handlerRef_eq (d : Dialect) (className : String) {handler : String}
    (named : isInline handler = false) :
    d.handlerRef className handler = d.reference className (d.methodName handler) := by
  unfold handlerRef reference
  cases d with
  | cpp => rw [named]; rfl
  | python | ruby | perl => rfl

/-- The reference stands in the text of the binding. -/
theorem exists_binding_eq (d : Dialect) {b : Binding} (named : isInline b.handler = false) :
    ∃ before after,
      d.binding b = some (before ++ d.handlerRef b.className b.handler ++ after) := by
  unfold binding
  rw [named, Bool.false_and, if_neg Bool.false_ne_true]
  cases b.source with
  | form | window =>
    cases d with
    | cpp | perl => exact ⟨_, ");", rfl⟩
    | python | ruby => exact ⟨_, ")", rfl⟩
  | item id =>
    cases d with
    | cpp =>
      exact ⟨"Bind(" ++ b.event ++ ", ", ", " ++ Dialect.expr .cpp id ++ ");", by
        simp only [String.append_assoc, eventName]⟩
    | python =>
      exact ⟨"self.Bind(" ++ eventName .python b.event ++ ", ",
        ", id=" ++ Dialect.expr .python id ++ ")", by simp only [String.append_assoc]⟩
    | ruby => exact ⟨_, ")", rfl⟩
    | perl => exact ⟨_, ");", rfl⟩

/-- Whatever is listed has a prototype. -/
theorem mem_headerHandlers {c : ClassInfo} {e : Edit}
    (h : e ∈ c.handlers.map (fun entry => .line (Dialect.stubLine .cpp entry.1 entry.2))
      ∨ e ∈ c.contextMenus.map fun handler => .line (menuPrototype handler)) :
    e ∈ headerHandlers c := by
  have inhabited : ¬(c.handlers.isEmpty && c.contextMenus.isEmpty) = true := by
    intro empty
    obtain ⟨handlers, menus⟩ := Bool.and_eq_true_iff.1 empty
    rw [List.isEmpty_iff.1 handlers, List.isEmpty_iff.1 menus] at h
    rcases h with h | h <;> cases h
  unfold headerHandlers
  rw [if_neg inhabited]
  refine List.mem_append_left _ ?_
  rcases h with h | h
  · exact List.mem_append_left _ (List.mem_append_right _ h)
  · exact List.mem_append_right _ h

theorem headerHandlers_subset_header (c : ClassInfo) (i : Imports) (ids : IdTable)
    (members : MemberTable) : headerHandlers c ⊆ header c i ids members := by
  intro e he
  unfold header
  refine List.mem_append_left _ (List.mem_append_left _ (List.mem_append_left _ ?_))
  exact List.mem_append_left _ (List.mem_append_right _ he)

end Dialect

/-- The binding refers to a method of a class under this name. -/
structure Binding.RefersTo (b : Binding) (d : Dialect) (className method : String) : Prop where
  reference_eq : d.handlerRef b.className b.handler = d.reference className method
  written : ∃ before after, d.binding b = some (before ++ d.reference className method ++ after)

theorem Binding.refersTo {b : Binding} (named : isInline b.handler = false) (d : Dialect) :
    b.RefersTo d b.className (d.methodName b.handler) where
  reference_eq := d.handlerRef_eq b.className named
  written := by
    rw [← d.handlerRef_eq b.className named]
    exact d.exists_binding_eq named

namespace Form

/-- Where a class provides the handlers of events: in the header in C++, or else in the class. -/
def handlerEdits (f : Form) (d : Dialect) (o : Options) (c : Collected) : List Edit :=
  match d with
  | .cpp =>
    Dialect.header (f.classInfo o c.events) (f.imports .cpp c.includes) c.ids c.members
  | .python | .ruby | .perl => f.classEdits d (f.classInfo o c.events) c

/-- The method that shows the context menu of a node is there under the name that the binding `b`
has for it, in C++ in the header as well. -/
def MenuProvided (f : Form) (d : Dialect) (o : Options) (c : Collected) (opening : Spot × Binding)
    (menu : List Item × Branch Item) : Prop :=
  opening.1 = { item := menu.2.label, above := menu.1 } ∧
    ∃ method, opening.2.RefersTo d f.className method ∧
      (∃ rest, f.menuMethod d (f.classInfo o c.events) c menu.1 menu.2
        = .line (d.menuLine f.className method) :: rest) ∧
      (d = .cpp → .line (Dialect.menuPrototype method) ∈ f.handlerEdits d o c)

/-- **Every handler that is bound exists**, under the spelling of the binding. Where the language
names the class in the binding of an event, the class is `className`. -/
structure HandlersProvided (f : Form) (d : Dialect) (o : Options) (c : Collected)
    (className : String) : Prop where
  /-- The traces that the bindings are read from are those of the methods. -/
  leaves : (f.methods d c).map (Step.leavesAll []) = (f.traces d c).map (List.map Traced.erase)
  /-- The named handlers that the methods bind are those that the class lists. -/
  mem_handlers : ∀ h, h ∈ (f.classInfo o c.events).handlers.map Prod.snd ↔
    ∃ b ∈ f.eventBindings d c, isInline b.handler = false ∧ b.handler = h
  nodup_handlers : ((f.classInfo o c.events).handlers.map Prod.snd).Nodup
  /-- The class provides each of them for an event that it is listed with. -/
  provided : ∀ b ∈ f.eventBindings d c, isInline b.handler = false →
    ∃ event method, (event, b.handler) ∈ (f.classInfo o c.events).handlers ∧
      b.RefersTo d className method ∧ .line (d.stubLine event method) ∈ f.handlerEdits d o c
  /-- The class has one method for each node that opens a context menu, and one binding. -/
  menus : List.Forall₂ (f.MenuProvided d o c) (f.menuBindings d c) f.menuBranches
  methods : (f.menuBranches.flatMap fun menu =>
      f.menuMethod d (f.classInfo o c.events) c menu.1 menu.2)
    <:+: f.classEdits d (f.classInfo o c.events) c

variable {f : Form} {d : Dialect} {o : Options} {c : Collected}

theorem methods_infix_classEdits : (f.menuBranches.flatMap fun menu =>
      f.menuMethod d (f.classInfo o c.events) c menu.1 menu.2)
    <:+: f.classEdits d (f.classInfo o c.events) c :=
  (List.infix_append _ _ _).trans (List.prefix_append _ _).isInfix

/-- A listed handler is provided. -/
theorem stubLine_mem_handlerEdits {event handler : String}
    (h : (event, handler) ∈ (f.classInfo o c.events).handlers) :
    .line (d.stubLine event (d.methodName handler)) ∈ f.handlerEdits d o c := by
  have stub (script : d ≠ .cpp) : .line (d.stubLine event (d.methodName handler))
      ∈ d.handlerStubs (f.classInfo o c.events) := by
    refine List.mem_flatMap.2 ⟨_, h, ?_⟩
    cases d with
    | cpp => exact absurd rfl script
    | python | ruby | perl => exact List.mem_cons_self
  unfold handlerEdits
  cases d with
  | cpp =>
    refine Dialect.headerHandlers_subset_header _ _ _ _ (Dialect.mem_headerHandlers (Or.inl ?_))
    exact List.mem_map.2 ⟨(event, handler), h, rfl⟩
  | python | ruby | perl => exact List.mem_append_left _ (List.mem_append_right _ (stub nofun))

/-- Every node that opens a context menu stands in another node of the form. -/
theorem exists_owner (form : f.node.kind.isForm = true) {menu : List Item × Branch Item}
    (h : menu ∈ f.menuBranches) : ∃ owner rest, menu.1 = owner :: rest := by
  have inner := mem_innerSpots_of_mem_menuBuilders form (List.mem_map_of_mem h)
  have above := above_of_mem_innerSpots inner
  cases habove : menu.1 with
  | nil =>
    dsimp only at above
    rw [habove] at above
    cases (List.append_eq_nil_iff.1 above.symm).2
  | cons owner rest => exact ⟨owner, rest, rfl⟩

/-- Methods that show context menus have names. -/
theorem isInline_menuHandler {builder : Spot} {owner : Item}
    (h : builder.above.head? = some owner) : isInline (menuHandler builder) = false := by
  unfold menuHandler
  rw [h]
  dsimp only
  split
  · rfl
  · unfold isInline Text.startsWhere
    rw [String.toList_append]
    rfl

/-- The method of a menu is there under the name that its binding has. -/
theorem menuProvided {menu : List Item × Branch Item} (h : menu ∈ f.menuBranches) {b : Binding}
    (hb : f.menuBinding? { item := menu.2.label, above := menu.1 } = some b) :
    f.MenuProvided d o c ({ item := menu.2.label, above := menu.1 }, b) menu := by
  obtain ⟨owner, howner, heq⟩ := Option.map_eq_some_iff.1 hb
  have handler : b.handler = menuHandler { item := menu.2.label, above := menu.1 } := by
    rw [← heq]
  have className : b.className = f.className := by rw [← heq]
  have named : isInline b.handler = false := handler ▸ isInline_menuHandler howner
  refine ⟨rfl, d.methodName b.handler, className ▸ Binding.refersTo named d, ?_, ?_⟩
  · rw [handler]
    cases d <;> exact ⟨_, rfl⟩
  · rintro rfl
    rw [handler]
    refine Dialect.headerHandlers_subset_header _ _ _ _ (Dialect.mem_headerHandlers (Or.inr ?_))
    exact List.mem_map.2 ⟨_, List.mem_map_of_mem (List.mem_map_of_mem h), rfl⟩

/-- Each node that opens a context menu has one binding and one method. -/
theorem forall₂_menuProvided (form : f.node.kind.isForm = true) :
    List.Forall₂ (f.MenuProvided d o c) (f.menuBindings d c) f.menuBranches := by
  have bound : ∀ menu ∈ f.menuBranches,
      ∃ b, f.menuBinding? { item := menu.2.label, above := menu.1 } = some b := by
    intro menu h
    obtain ⟨owner, rest, habove⟩ := exists_owner form h
    unfold menuBinding?
    rw [habove]
    exact ⟨_, rfl⟩
  have each (menus : List (List Item × Branch Item)) (sub : menus ⊆ f.menuBranches) :
      List.Forall₂ (f.MenuProvided d o c)
        ((menus.map fun menu => ({ item := menu.2.label, above := menu.1 } : Spot)).filterMap
          fun builder => (f.menuBinding? builder).map (builder, ·)) menus := by
    induction menus with
    | nil => exact .nil
    | cons menu menus ih =>
      obtain ⟨hmenu, hmenus⟩ := List.cons_subset.1 sub
      obtain ⟨b, hb⟩ := bound menu hmenu
      rw [List.map_cons, List.filterMap_cons, hb]
      exact .cons (menuProvided hmenu hb) (ih hmenus)
  rw [menuBindings_eq]
  exact each f.menuBranches (List.Subset.refl _)

/-- With the events of the form collected, what is bound exists. -/
theorem handlersProvided (form : f.node.kind.isForm = true) (hc : c.events = f.events.sort) :
    f.HandlersProvided d o c f.element.className where
  leaves := f.leavesAll_methods d c
  mem_handlers h := by
    rw [eventBindings_eq, classInfo, mem_namedHandlers, hc]
    constructor
    · rintro ⟨named, u, hu, rfl⟩
      exact ⟨_, List.mem_map_of_mem (mem_boundUses.2 hu), named, rfl⟩
    · rintro ⟨b, hb, named, rfl⟩
      obtain ⟨u, hu, rfl⟩ := List.mem_map.1 hb
      exact ⟨named, u, mem_boundUses.1 hu, rfl⟩
  nodup_handlers := nodup_namedHandlers _
  provided b hb named := by
    rw [eventBindings_eq, hc] at hb
    obtain ⟨u, hu, rfl⟩ := List.mem_map.1 hb
    have listed : (f.binding u).handler ∈ (f.classInfo o c.events).handlers.map Prod.snd := by
      rw [classInfo, mem_namedHandlers, hc]
      exact ⟨named, u, mem_boundUses.1 hu, rfl⟩
    obtain ⟨⟨event, handler⟩, hmem, rfl⟩ := List.mem_map.1 listed
    exact ⟨event, _, hmem, Binding.refersTo named d, stubLine_mem_handlerEdits hmem⟩
  menus := forall₂_menuProvided form
  methods := methods_infix_classEdits

end Form

namespace Element

variable {e : Element}

theorem generatedClass_of_named (h : e.className ≠ "") : e.generatedClass = e.className :=
  if_pos h

/-- The class of an unnamed form opens with something other than a colon. -/
theorem exists_head_generatedClass (form : e.kind.isForm = true) (h : e.className = "") :
    ∃ ch ∈ e.generatedClass.toList.head?, ch ≠ ':' := by
  unfold generatedClass
  rw [if_neg (not_not.2 h)]
  revert form
  generalize e.kind = k
  intro form
  cases k <;> first
    | exact absurd form Bool.false_ne_true
    | exact ⟨_, rfl, by decide⟩

/-- A reference without a class is none to a method of that class. -/
theorem reference_cpp_ne (form : e.kind.isForm = true) (h : e.className = "") (m m' : String) :
    Dialect.reference .cpp "" m ≠ Dialect.reference .cpp e.generatedClass m' := by
  intro heq
  obtain ⟨ch, hhead, other⟩ := exists_head_generatedClass form h
  obtain ⟨rest, hclass⟩ := List.head?_eq_some_iff.1 hhead
  have texts := congrArg String.toList heq
  simp only [Dialect.reference, String.toList_append, hclass] at texts
  exact other (List.cons.inj (List.cons.inj texts).2).1.symm

end Element

/-- Handlers of a C++ form without a name are not bound as methods of its class. -/
theorem Form.handlers_eq_nil {f : Form} {o : Options} {c : Collected}
    (form : f.node.kind.isForm = true) (own : f.HandlersProvided .cpp o c "")
    (h : f.HandlersProvided .cpp o c f.className) (unnamed : f.element.className = "") :
    (f.classInfo o c.events).handlers = [] := by
  refine List.eq_nil_iff_forall_not_mem.2 fun entry hentry => ?_
  obtain ⟨b, hb, named, -⟩ := (h.mem_handlers entry.2).1 (List.mem_map_of_mem hentry)
  obtain ⟨_, m, -, raw, -⟩ := own.provided b hb named
  obtain ⟨_, m', -, generated, -⟩ := h.provided b hb named
  exact Element.reference_cpp_ne form unnamed m m'
    (raw.reference_eq.symm.trans generated.reference_eq)

/-- **When every handler that is bound exists.** The handlers that events name are listed once and
provided as the bindings spell them, and so are the methods that show context menus. But where C++
names a class in the binding of an event, this is the generated one only if the form has a name. -/
theorem handlersProvided_iff {t : Tree} {id : Nat} {f : Form} (hf : Form.ofTree t id = .ok f)
    {d : Dialect} (hd : d.supports f.node.kind = true) {o : Options} {source : FileSource}
    {cache after : Cache} {table : ImageTable}
    (images : f.images source o.artDirectory cache = (.ok table, after)) :
    let c := f.collected d table after
    generateSource t id (.source d) o source cache = (.ok (f.output d o c), after) ∧
      f.HandlersProvided d o c f.element.className ∧
      (f.HandlersProvided d o c f.className ↔
        (d = .cpp → f.element.className = "" → (f.classInfo o c.events).handlers = [])) := by
  intro c
  have form := Form.isForm_of_ofTree hf
  have provided : f.HandlersProvided d o c f.element.className := Form.handlersProvided form rfl
  refine ⟨by rw [generateSource_eq hf hd, Form.generate, images], provided, ?_, fun h => ?_⟩
  · rintro h rfl unnamed
    exact Form.handlers_eq_nil form (unnamed ▸ provided) h unnamed
  · -- where no class is named, or the form has a name, the references are the same
    refine { provided with provided := fun b hb named => ?_ }
    obtain ⟨event, m, hmem, refers, stub⟩ := provided.provided b hb named
    suffices heq : d.reference f.element.className m = d.reference f.className m from
      ⟨event, m, hmem, ⟨heq ▸ refers.reference_eq, heq ▸ refers.written⟩, stub⟩
    cases d with
    | cpp =>
      by_cases unnamed : f.element.className = ""
      · rw [h rfl unnamed] at hmem
        cases hmem
      · rw [Form.className, Element.generatedClass_of_named unnamed]
    | python | ruby | perl => rfl

/-- In Python whatever the dialog with the panel binds exists. -/
theorem menuDialog_handlersProvided :
    let c := menuDialog.collected .python .empty .empty
    generateSource (.ofDesign menuDesign) 0 (.source .python) .default noFiles .empty
        = (.ok (menuDialog.output .python .default c), .empty) ∧
      menuDialog.HandlersProvided .python .default c menuDialog.className := by
  have hf : Form.ofTree (.ofDesign menuDesign) 0 = .ok menuDialog := by with_unfolding_all rfl
  have images : menuDialog.images noFiles Options.default.artDirectory .empty
      = (.ok .empty, .empty) := rfl
  obtain ⟨generated, -, provided⟩ := handlersProvided_iff hf (d := .python) (by decide) images
  exact ⟨generated, provided.2 nofun⟩

/-! ## A dialog without a name -/

/-- A dialog without a name, with an event. -/
def unnamedDialog : Element where
  kind := .dialog
  props := []
  events := [{ name := "wxEVT_INIT_DIALOG", handler := "OnInit" }]

/-- The form of that dialog. -/
def unnamedForm : Form where
  node := { unnamedDialog with id := 0, parent := none, children := [] }
  children := []
  above := []

/-- C++ binds a function `OnInit` that is none of the class. -/
theorem unnamedForm_not_handlersProvided :
    let c := unnamedForm.collected .cpp .empty .empty
    Form.ofTree (.ofDesign (.mk unnamedDialog [])) 0 = .ok unnamedForm ∧
      generateSource (.ofDesign (.mk unnamedDialog [])) 0 (.source .cpp) .default noFiles .empty
        = (.ok (unnamedForm.output .cpp .default c), .empty) ∧
      unnamedForm.className = "DialogBase" ∧
      (unnamedForm.eventBindings .cpp c).map (Dialect.binding .cpp)
        = [some "Bind(wxEVT_INIT_DIALOG, &::OnInit, this);"] ∧
      ¬unnamedForm.HandlersProvided .cpp .default c unnamedForm.className := by
  have hf : Form.ofTree (.ofDesign (.mk unnamedDialog [])) 0 = .ok unnamedForm := by
    with_unfolding_all rfl
  refine ⟨hf, ?_, by decide +kernel, ?_, fun h => ?_⟩
  · rw [generateSource_eq hf (by decide)]
    rfl
  · rw [Form.eventBindings_eq]
    decide +kernel
  · have own : unnamedForm.HandlersProvided .cpp .default
        (unnamedForm.collected .cpp .empty .empty) "" := Form.handlersProvided (by decide) rfl
    have listed := Form.handlers_eq_nil (by decide) own h (by decide)
    revert listed
    decide +kernel

end FormDesign
