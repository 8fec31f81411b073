import FormDesign.Code.Construct.Plan

/-!
# Construction does not see positions and events

A node has a position in its tree, and so have its parent and its children. Construction reads none
of them, and it does not read the events of a node either: if the nodes of a form are labelled anew,
with their kinds, their properties and the names of their variables kept, and the form stands
elsewhere, then the same steps are planned.

* `Item.Relabelling`: labels that differ in the positions at most
* `Item.Recast`: labels that may differ in the events as well
* `Site.Alike`: what a plan sees of a place
* `Site.Alike.createNode`, `Site.Alike.finish`: the steps at a place
-/

namespace FormDesign

/-! ## Elements without their events -/

section

variable (e : Element) (events : List Event)

namespace Element

theorem text_events (p : Property) : text { e with events } p = e.text p := rfl

theorem flag_events (p : Property) : flag { e with events } p = e.flag p := rfl

theorem int_events (p : Property) : int { e with events } p = e.int p := rfl

theorem genericVariant_events : genericVariant { e with events } = e.genericVariant := by
  simp only [genericVariant, text_events, flag_events, int_events]
  rfl

theorem validator?_events : validator? { e with events } = e.validator? := by
  simp only [validator?, initialValue, firstNumber, text_events, flag_events]
  rfl

end Element

theorem Access.of_events : Access.of { e with events } = Access.of e := rfl

theorem resolveClass_events (d : Dialect) :
    resolveClass d { e with events } = resolveClass d e := by
  simp only [resolveClass, Element.genericVariant_events, Element.ownClass?, Element.text_events]
  rfl

end

/-! ## Labels -/

/-- A change of items that keeps what generation reads of them. -/
structure Item.Relabelling (r : Item → Item) : Prop where
  element : ∀ i, (r i).element = i.element
  name : ∀ i, (r i).name = i.name

/-- A change of items that keeps what generation reads of them, their events aside. -/
structure Item.Recast (r : Item → Item) : Prop where
  element : ∀ i, ∃ events, (r i).element = { i.element with events }
  name : ∀ i, (r i).name = i.name

namespace Item

variable {r : Item → Item}

theorem Relabelling.recast (hr : Relabelling r) : Recast r where
  element i := ⟨i.element.events, hr.element i⟩
  name := hr.name

namespace Recast

variable (hr : Recast r)

include hr

/-- What is read off an element without its events is the same. -/
theorem read {β : Type} (view : Element → β)
    (blind : ∀ e events, view { e with events } = view e) (i : Item) :
    view (r i).element = view i.element := by
  obtain ⟨events, he⟩ := hr.element i
  rw [he, blind]

theorem kind (i : Item) : (r i).kind = i.kind :=
  hr.read Element.kind (fun _ _ => rfl) i

theorem isMenuBuilder (i : Item) : (r i).isMenuBuilder = i.isMenuBuilder := by
  rw [Item.isMenuBuilder, hr.kind, Item.isMenuBuilder]

theorem selector? (i : Item) : (r i).element.selector? = i.element.selector? :=
  hr.read Element.selector? (fun _ _ => rfl) i

theorem itemVar (i : Item) : (r i).var = i.var := by
  have haccess : Access.of (r i).element = Access.of i.element :=
    hr.read Access.of (fun _ _ => rfl) i
  simp only [Item.var, haccess, hr.kind, hr.name]

theorem siteVar (s : Site) (i : Item) : s.var (r i) = s.var i := by
  simp only [Site.var, hr.itemVar, hr.name]

theorem creates (s : Site) (i : Item) : s.creates (r i).kind = s.creates i.kind := by
  rw [hr.kind]

theorem confined (i : Item) (body : List Step) :
    Site.confined (r i) body = Site.confined i body := by
  rw [Site.confined, hr.selector?, Site.confined]

theorem unsupported (s : Site) (i : Item) : s.unsupported (r i) = s.unsupported i := by
  have hdescribe : (r i).element.describe = i.element.describe :=
    hr.read Element.describe (fun _ _ => rfl) i
  rw [Site.unsupported, hdescribe, Site.unsupported]

theorem dropdownVar (i : Item) : Site.dropdownVar (r i) = Site.dropdownVar i := by
  simp only [Site.dropdownVar, hr.name]

end Recast

end Item

/-! ## Places -/

/-- What a plan sees of a place is the same for another place, whose items have new labels. -/
structure Site.Alike (s : Site) (r : Item → Item) (p q : Place) : Prop where
  item : q.item = r p.item
  children : q.children = p.children.map r
  parent : q.parent? = p.parent?.map r
  window : s.window q = s.window p
  book : (q.above.find? fun i => i.kind.isBook) = (p.above.find? fun i => i.kind.isBook).map r
  above : q.above.isEmpty = p.above.isEmpty
  page : (q.before.find? fun i => i.kind == .wizardPage)
    = (p.before.find? fun i => i.kind == .wizardPage).map r

namespace Site.Alike

variable {s : Site} {r : Item → Item} {p q : Place}

theorem noChildren (h : s.Alike r p q) : q.children = [] ↔ p.children = [] := by
  rw [h.children, List.map_eq_nil_iff]

section

variable (hr : Item.Recast r) (h : s.Alike r p q)

include hr h

theorem element : ∃ events, q.element = { p.element with events } := by
  rw [Place.element, h.item]
  exact hr.element p.item

theorem kind : q.kind = p.kind := by
  rw [Place.kind, h.item, hr.kind, Place.kind]

theorem var : s.var q.item = s.var p.item := by
  rw [h.item, hr.siteVar]

theorem menuParent? : s.menuParent? q = s.menuParent? p := by
  rw [Site.menuParent?, Site.menuParent?, h.parent]
  cases p.parent? with
  | none => rfl
  | some i => simp only [Option.map_some, bind, Option.bind, hr.kind, hr.siteVar, hr.dropdownVar]

theorem toolParent? : s.toolParent? q = s.toolParent? p := by
  rw [Site.toolParent?, Site.toolParent?, h.parent]
  cases p.parent? with
  | none => rfl
  | some i => simp only [Option.map_some, bind, Option.bind, hr.kind, hr.siteVar]

theorem sizerParent? : s.sizerParent? q = s.sizerParent? p := by
  rw [Site.sizerParent?, Site.sizerParent?, h.parent]
  cases p.parent? with
  | none => rfl
  | some i =>
    cases hi : i.kind.isSizer <;> simp [Option.filter_some, hr.kind, hr.siteVar, hi]

theorem isChildOfForm : q.isChildOfForm = p.isChildOfForm := by
  rw [Place.isChildOfForm, Place.isChildOfForm, h.parent]
  cases p.parent? with
  | none => rfl
  | some i => simp only [Option.map_some, Option.any_some, hr.kind]

/-! ## Creating -/

theorem create (args : List Expr) (initMethod : Option String) :
    s.create q args initMethod = s.create p args initMethod := by
  obtain ⟨events, he⟩ := h.element hr
  simp only [Site.create, he, resolveClass_events, h.var hr]

theorem args : s.args q = s.args p := by
  obtain ⟨events, he⟩ := h.element hr
  simp only [Site.args, Site.windowArgs, h.kind hr, he, h.window]
  rfl

theorem sizerArgs : s.sizerArgs q = s.sizerArgs p := by
  obtain ⟨events, he⟩ := h.element hr
  simp only [Site.sizerArgs, h.kind hr, he, h.window]
  rfl

theorem windowSettings : s.windowSettings q = s.windowSettings p := by
  obtain ⟨events, he⟩ := h.element hr
  simp only [Site.windowSettings, he, Element.validator?_events, h.var hr]
  rfl

theorem chainPage : s.chainPage q = s.chainPage p := by
  simp only [Site.chainPage, h.var hr, h.above, h.page]
  cases p.before.find? fun i => i.kind == .wizardPage with
  | none => rfl
  | some i => simp only [Option.map_some, hr.siteVar]

theorem kindSettings : s.kindSettings q = s.kindSettings p := by
  obtain ⟨events, he⟩ := h.element hr
  simp only [Site.kindSettings, h.kind hr, he, h.var hr, h.chainPage hr]
  rfl

theorem addPage : s.addPage q = s.addPage p := by
  obtain ⟨events, he⟩ := h.element hr
  simp only [Site.addPage, h.kind hr, he, h.var hr, h.parent, h.book]
  cases p.parent? with
  | none => rfl
  | some i =>
    cases p.above.find? fun i => i.kind.isBook with
    | none =>
      simp only [Option.map_some, Option.map_none, hr.kind, hr.siteVar]
      rfl
    | some b =>
      simp only [Option.map_some, hr.kind, hr.siteVar]
      rfl

theorem createSizer : s.createSizer q = s.createSizer p := by
  obtain ⟨events, he⟩ := h.element hr
  simp only [Site.createSizer, h.kind hr, he, resolveClass_events, h.var hr, h.window,
    h.sizerArgs hr]
  rfl

theorem addSpacer : s.addSpacer q = s.addSpacer p := by
  obtain ⟨events, he⟩ := h.element hr
  simp only [Site.addSpacer, he, h.sizerParent? hr]
  rfl

theorem createMenuItem : s.createMenuItem q = s.createMenuItem p := by
  obtain ⟨events, he⟩ := h.element hr
  simp only [Site.createMenuItem, h.kind hr, he, h.var hr, h.menuParent? hr, h.create hr]
  rfl

theorem createTool : s.createTool q = s.createTool p := by
  obtain ⟨events, he⟩ := h.element hr
  simp only [Site.createTool, h.kind hr, he, h.toolParent? hr, h.noChildren]
  simp only [h.item, hr.dropdownVar]
  rfl

theorem createWindow : s.createWindow q = s.createWindow p := by
  simp only [Site.createWindow, h.kind hr, h.create hr, h.args hr, h.windowSettings hr,
    h.kindSettings hr, h.addPage hr]

theorem createNode : s.createNode q = s.createNode p := by
  simp only [Site.createNode, h.kind hr, h.createSizer hr, h.addSpacer hr, h.create hr,
    h.createMenuItem hr, h.createTool hr, h.createWindow hr]

/-! ## Attaching -/

theorem attach : s.attach q = s.attach p := by
  obtain ⟨events, he⟩ := h.element hr
  simp only [Site.attach, h.kind hr, he, h.var hr, h.parent, h.addPage hr]
  cases p.parent? with
  | none => rfl
  | some i =>
    simp only [Option.map_some, hr.kind, hr.siteVar]
    rfl

theorem panes : Site.panes q = (Site.panes p).map r := by
  rw [Site.panes, Site.panes, h.children, List.filter_map]
  congr 1
  refine List.filter_congr fun i _ => ?_
  simp only [Function.comp, hr.kind]

theorem split : s.split q = s.split p := by
  obtain ⟨events, he⟩ := h.element hr
  simp only [Site.split, he, h.var hr, h.panes hr]
  rcases Site.panes p with _ | ⟨first, _ | ⟨second, rest⟩⟩
  · rfl
  · simp only [List.map_cons, List.map_nil, hr.siteVar]
  · simp only [List.map_cons, hr.siteVar]
    rfl

theorem appendMenu : s.appendMenu q = s.appendMenu p := by
  obtain ⟨events, he⟩ := h.element hr
  simp only [Site.appendMenu, h.kind hr, he, h.var hr, h.menuParent? hr]
  rfl

theorem setDropdown : s.setDropdown q = s.setDropdown p := by
  obtain ⟨events, he⟩ := h.element hr
  simp only [Site.setDropdown, he, h.toolParent? hr, h.noChildren]
  simp only [h.item, hr.dropdownVar]
  rfl

theorem giveToFrame (method : String) : s.giveToFrame q method = s.giveToFrame p method := by
  simp only [Site.giveToFrame, h.var hr]

theorem finish : s.finish q = s.finish p := by
  simp only [Site.finish, h.kind hr, h.var hr, h.isChildOfForm hr, h.giveToFrame hr, h.attach hr,
    h.appendMenu hr, h.setDropdown hr, h.split hr]

end

end Site.Alike

end FormDesign
