import FormDesign.Proofs.Code.Binding
import FormDesign.Proofs.Code.Recast
import FormDesign.Proofs.Tree.Forms

/-!
# The output of a form with other items

The files of a form are put together from what the passes over it found. All of it is the same for
the form with other items, as long as the same events are bound in the same order. The items of the
events do not matter: they are told apart by their positions, and these are only compared with each
other.

* `Form.Recast.plan`, `Form.Recast.menuPlan`: the steps of the methods
* `Form.Counterpart`: a form with other items that binds the same events
* `Form.Counterpart.menuEvents`: the events of a context menu
* `Form.Counterpart.output`: the files
-/

namespace FormDesign

/-! ## Tables of events -/

namespace EventTables

/-- The tables with every event changed. -/
def map (t : EventTables) (m : EventUse → EventUse) : EventTables :=
  { bound := t.bound.mapParts (List.map m), inMenus := t.inMenus.map m }

theorem add_map (t : EventTables) (m : EventUse → EventUse) (place : BindPlace) (u : EventUse) :
    (t.map m).add (place, m u) = (t.add (place, u)).map m := by
  cases place with
  | constructor destination =>
    rw [EventTables.add, EventTables.add, map, map, Grouped.add_mapParts]
  | contextMenu =>
    rw [EventTables.add, EventTables.add, map, map, List.map_append]
    rfl

theorem foldl_add_map (uses : List (BindPlace × EventUse)) (t : EventTables)
    (m : EventUse → EventUse) :
    (uses.map fun use => (use.1, m use.2)).foldl EventTables.add (t.map m)
      = (uses.foldl EventTables.add t).map m := by
  induction uses generalizing t with
  | nil => rfl
  | cons use rest ih =>
    rw [List.map_cons, List.foldl_cons, List.foldl_cons, add_map, ih]

theorem toList_map (t : EventTables) (m : EventUse → EventUse) :
    (t.map m).toList = t.toList.map m := by
  rw [toList, toList, map, Grouped.toList_mapParts, List.map_append]

end EventTables

/-- Events with the same keys are sorted the same. -/
theorem EventUse.sort_map {m : EventUse → EventUse} (hm : ∀ u, (m u).key = u.key)
    (uses : List EventUse) : EventUse.sort (uses.map m) = (EventUse.sort uses).map m := by
  have hle (u v : EventUse) : (m u).le (m v) = u.le v := by
    rw [EventUse.le, hm, hm, EventUse.le]
  rw [sort, sort]
  exact (List.map_mergeSort fun u _ v _ => (hle u v).symm).symm

/-- The handlers that are named are read off the events. -/
theorem namedHandlers_map {m : EventUse → EventUse} (hm : ∀ u, (m u).event = u.event)
    (uses : List EventUse) : namedHandlers (uses.map m) = namedHandlers uses := by
  have hgo (seen : List String) :
      namedHandlers.go seen (uses.map m) = namedHandlers.go seen uses := by
    induction uses generalizing seen with
    | nil => rfl
    | cons u rest ih =>
      rw [List.map_cons, namedHandlers.go, namedHandlers.go, hm, ih, ih]
  exact hgo []

theorem EventTables.sort_map {m : EventUse → EventUse} (hm : ∀ u, (m u).key = u.key)
    (t : EventTables) : (t.map m).sort = t.sort.map m := by
  simp only [EventTables.sort, EventTables.map, Grouped.mapParts, List.map_map,
    EventUse.sort_map hm, Function.comp_def]

/-- An event of `f` with its place as an event of `g`. -/
def carryUse (f g : Form) (r : Item → Item) (use : BindPlace × EventUse) : BindPlace × EventUse :=
  (use.1, use.2.carry f g r)

/-- The parameters of the constructor are read off the properties of the form. -/
theorem Param.all_events (e : Element) (events : List Event) :
    all { e with events } = all e := by
  simp only [all, Param.id, title, Param.size, style, Element.text_events]
  rfl

/-! ## Imports -/

/-- Libraries are imported in the order of their modules, whatever order they are found in. -/
theorem Dialect.imports_congr (d : Dialect) {i : Imports} {libraries : List Library}
    (h : ∀ library, library ∈ libraries ↔ library ∈ i.libraries) (text : String) :
    d.imports { i with libraries } text = d.imports i text := by
  have hmodules (name : String) :
      name ∈ (libraries ++ d.mentionedLibraries text).filterMap d.libraryModule?
        ↔ name ∈ (i.libraries ++ d.mentionedLibraries text).filterMap d.libraryModule? := by
    simp only [List.mem_filterMap, List.mem_append, h]
  have hsorted (own : List String) :
      Sorted.ofList ((libraries ++ d.mentionedLibraries text).filterMap d.libraryModule? ++ own)
        = Sorted.ofList
            ((i.libraries ++ d.mentionedLibraries text).filterMap d.libraryModule? ++ own) :=
    Sorted.ofList_congr fun name => by rw [List.mem_append, List.mem_append, hmodules]
  have hplain := Sorted.ofList_congr hmodules
  cases d with
  | cpp => rfl
  | python => simp only [Dialect.imports, hsorted]
  | ruby => simp only [Dialect.imports, hplain]
  | perl => simp only [Dialect.imports, hplain]

namespace Form

variable {f g : Form} {r : Item → Item}

/-- No node of the form stands above it. -/
theorem Sound.any_above_eq_false (hf : f.Sound) {s : Spot} (hs : s ∈ f.spots) :
    (f.above.any fun i => i.node.id == s.item.node.id) = false := by
  refine List.any_eq_false.2 fun i hi heq => ?_
  have hlt := hf.above_lt i hi s hs
  rw [beq_iff_eq.1 heq] at hlt
  exact Nat.lt_irrefl _ hlt

/-- The root of a branch that opens a context menu is a spot that does. -/
theorem mem_menuBuilders_of_mem_menuBranches {menu : List Item × Branch Item}
    (hmenu : menu ∈ f.menuBranches) :
    ({ item := menu.2.label, above := menu.1 } : Spot) ∈ f.menuBuilders :=
  List.mem_map.2 ⟨menu, hmenu, rfl⟩

/-- An event that the handler of some menu binds is one of the form. -/
theorem spot_mem_of_mem_inMenus {u : EventUse} (hu : u ∈ f.events.sort.inMenus) :
    u.spot ∈ f.spots := by
  have hentry : (BindPlace.contextMenu, u) ∈ f.events.sort.entries :=
    List.mem_append_right _ (List.mem_map_of_mem hu)
  exact mem_spots_of_mem_placedUses (f.entries_sort_events.mem_iff.1 hentry)

namespace Recast

variable (h : f.Recast g r)

include h

/-! ## What is read off the elements -/

/-- What is read off the inner elements without their events is the same. -/
theorem innerElements_congr {β : Type} (view : List Element → β)
    (blind : ∀ es, view (es.map Element.eventless) = view es) :
    view g.innerElements = view f.innerElements := by
  rw [← blind, h.innerElements, blind]

/-- What is read off the elements without their events is the same. -/
theorem elements_congr {β : Type} (view : List Element → β)
    (blind : ∀ es, view (es.map Element.eventless) = view es) :
    view g.elements = view f.elements := by
  rw [← blind, h.elements, blind]

theorem node_kind : g.node.kind = f.node.kind :=
  h.read Element.kind fun _ _ => rfl

theorem className : g.className = f.className :=
  h.read Element.generatedClass fun _ _ => rfl

theorem ids : g.ids = f.ids := by
  refine congrArg IdTable.ofTexts (h.elements_congr (List.flatMap Element.idTexts) fun es => ?_)
  rw [List.flatMap_map]
  rfl

theorem needs : g.needs = f.needs := by
  have hicon : iconNeeds (g.element.text .icon) = iconNeeds (f.element.text .icon) :=
    h.read (fun e => iconNeeds (e.text .icon)) fun _ _ => rfl
  have hinner : g.innerElements.map Element.imageNeeds = f.innerElements.map Element.imageNeeds :=
    h.innerElements_congr (List.map Element.imageNeeds) fun es => by
      rw [List.map_map]
      rfl
  rw [Form.needs, hinner, hicon, Form.needs]

theorem images (source : FileSource) (artDirectory : String) (c : Cache) :
    g.images source artDirectory c = f.images source artDirectory c := by
  have htexts : g.elements.flatMap Element.imageTexts = f.elements.flatMap Element.imageTexts :=
    h.elements_congr (List.flatMap Element.imageTexts) fun es => by
      rw [List.flatMap_map]
      rfl
  rw [Form.images, htexts, Form.images]

theorem validatorInits (d : Dialect) : g.validatorInits d = f.validatorInits d := by
  have hvalidators : g.elements.filterMap Element.validator?
      = f.elements.filterMap Element.validator? :=
    h.elements_congr (List.filterMap Element.validator?) fun es => by
      simp only [List.filterMap_map, Function.comp_def, Element.eventless,
        Element.validator?_events]
  rw [Form.validatorInits, hvalidators, Form.validatorInits]

/-- The classes of the nodes below the form are the same. -/
theorem classes (d : Dialect) :
    (g.innerElements.filter fun e => e.kind.hasClass).map (resolveClass d)
      = (f.innerElements.filter fun e => e.kind.hasClass).map (resolveClass d) :=
  h.innerElements_congr (fun es => (es.filter fun e => e.kind.hasClass).map (resolveClass d))
    fun es => by
      rw [List.filter_map, List.map_map]
      exact List.map_congr_left fun e _ => resolveClass_events e [] d

/-- All but the libraries of the events is imported the same. -/
theorem imports (d : Dialect) (includes : List String) :
    g.imports d includes
      = { f.imports d includes with libraries := (g.imports d includes).libraries } := by
  have hheaders : (g.innerElements.filterMap fun e => e.kind.header?)
      = f.innerElements.filterMap fun e => e.kind.header? :=
    h.innerElements_congr (List.filterMap fun e => e.kind.header?) fun es => by
      rw [List.filterMap_map]
      rfl
  have hlocal : (g.innerElements.map fun e => e.text .subclassHeader)
      = f.innerElements.map fun e => e.text .subclassHeader :=
    h.innerElements_congr (List.map fun e => e.text .subclassHeader) fun es => by
      rw [List.map_map]
      rfl
  simp only [Form.imports, h.node_kind, h.needs, h.classes, hheaders, hlocal]

/-! ## Plans -/

theorem site (d : Dialect) (images : List Asset) : g.site d images = f.site d images := by
  rw [Form.site, Form.site, h.node_kind]

theorem plan (d : Dialect) (images : List Asset) : g.plan d images = f.plan d images := by
  have hsettings : (f.site d images).formSettings g.element
      = (f.site d images).formSettings f.element :=
    h.read (f.site d images).formSettings fun _ _ => rfl
  have hfinish : Site.formFinish g.element = Site.formFinish f.element :=
    h.read Site.formFinish fun _ _ => rfl
  have hplan := h.planAll (f.site d images) [] [] f.children
  rw [← h.children] at hplan
  simp only [Form.plan, h.site, hsettings, hfinish]
  exact congrArg (fun steps => _ ++ steps ++ _) hplan

theorem menuPlan (d : Dialect) (images : List Asset) {menu : List Item × Branch Item}
    (hmenu : menu ∈ f.menuBranches) :
    g.menuPlan d images (f.carry g r menu.1) (menu.2.map r)
      = f.menuPlan d images menu.1 menu.2 := by
  have hbuilder := mem_menuBuilders_of_mem_menuBranches hmenu
  have habove := above_of_mem_innerSpots (mem_innerSpots_of_mem_menuBuilders h.isForm hbuilder)
  obtain ⟨above, i, cs⟩ := menu
  generalize f.inside above = inner at habove
  obtain rfl : above = inner ++ f.path := habove
  have hplan := h.planAll { f.site d images with inMenu := true } (i :: inner) [] cs
  simp only [Branch.map, Form.menuPlan, h.site, h.carry_path]
  exact congrArg (List.cons _) hplan

/-! ## Events -/

theorem key_carry (u : EventUse) : (u.carry f g r).key = u.key := by
  obtain ⟨events, helement⟩ := h.items.element u.item
  have hitem : (u.carry f g r).item = r u.item := rfl
  rw [EventUse.key, hitem, helement]
  rfl

theorem bindSource (i : Item) : (r i).bindSource = i.bindSource := by
  have hid : (r i).element.text .id = i.element.text .id :=
    h.items.read (fun e => e.text .id) (fun _ _ => rfl) i
  simp only [Item.bindSource, h.items.kind, h.items.itemVar, hid]

theorem binding (u : EventUse) : g.binding (u.carry f g r) = f.binding u := by
  have hsource : (u.carry f g r).item.bindSource = u.item.bindSource := h.bindSource u.item
  have hclass : g.element.className = f.element.className :=
    h.read Element.className fun _ _ => rfl
  rw [Form.binding, hsource, hclass]
  rfl

theorem bind_comp_carry :
    (fun u => Step.bind (g.binding u)) ∘ EventUse.carry f g r
      = fun u => Step.bind (f.binding u) :=
  funext fun u => congrArg Step.bind (h.binding u)

theorem skipped? (d : Dialect) (u : EventUse) : (u.carry f g r).skipped? d = u.skipped? d := by
  have hdescribe : (u.carry f g r).item.element.describe = u.item.element.describe :=
    h.items.read Element.describe (fun _ _ => rfl) u.item
  rw [EventUse.skipped?, hdescribe]
  rfl

/-! ## Context menus -/

/-- Nodes of the form are told apart as before. -/
theorem id_eq_iff (hf : f.Sound) (hg : g.Sound) {s s' : Spot} (hs : s ∈ f.spots)
    (hs' : s' ∈ f.spots) :
    (r s.item).node.id = (r s'.item).node.id ↔ s.item.node.id = s'.item.node.id := by
  constructor
  · intro heq
    have distinct := hg.nodup_ids
    rw [h.spots, List.map_map] at distinct
    rw [List.inj_on_of_nodup_map distinct hs hs' heq]
  · intro heq
    rw [hf.eq_of_id_eq hs hs' heq]

theorem carry_mem_spots {s : Spot} (hs : s ∈ f.spots) : s.carry f g r ∈ g.spots := by
  rw [h.spots]
  exact List.mem_map_of_mem hs

/-- Above the form no node of the form is found. -/
theorem any_id_eq_above (hf : f.Sound) (hg : g.Sound) {builder : Spot} (hb : builder ∈ f.spots) :
    (g.above.any fun i => i.node.id == (r builder.item).node.id)
      = f.above.any fun i => i.node.id == builder.item.node.id := by
  rw [hf.any_above_eq_false hb, ← hg.any_above_eq_false (h.carry_mem_spots hb)]
  rfl

/-- Among the nodes of the form the same one is found. -/
theorem any_id_eq_inside (hf : f.Sound) (hg : g.Sound) {builder : Spot} (hb : builder ∈ f.spots)
    (inner : List Item) (hinner : ∀ i ∈ inner, ∃ spot ∈ f.spots, spot.item = i) :
    ((inner.map r).any fun i => i.node.id == (r builder.item).node.id)
      = inner.any fun i => i.node.id == builder.item.node.id := by
  induction inner with
  | nil => rfl
  | cons i inner ih =>
    obtain ⟨spot, hspot, rfl⟩ := hinner i List.mem_cons_self
    have hid := h.id_eq_iff hf hg hspot hb
    rw [List.map_cons, List.any_cons, List.any_cons,
      ih fun i hi => hinner i (List.mem_cons_of_mem _ hi), beq_eq_beq.2 hid]

/-- Whether a node of the form stands above a spot is the same. -/
theorem any_id_eq (hf : f.Sound) (hg : g.Sound) {s builder : Spot} (hs : s ∈ f.spots)
    (hb : builder ∈ f.spots) :
    ((s.carry f g r).above.any fun i => i.node.id == (r builder.item).node.id)
      = s.above.any fun i => i.node.id == builder.item.node.id := by
  have outer := h.any_id_eq_above hf hg hb
  rcases mem_spots.1 hs with rfl | hinner
  · rw [Spot.carry, carry_above]
    exact outer
  · -- what is above the spot in the form, the form included, and what is above the form
    have habove : s.above = (f.inside s.above ++ [f.item]) ++ f.above := by
      rw [List.append_assoc]
      exact above_of_mem_innerSpots hinner
    have hitems : ∀ i ∈ f.inside s.above ++ [f.item], ∃ spot ∈ f.spots, spot.item = i := by
      intro i hi
      rcases List.mem_append.1 hi with hi | hi
      · obtain ⟨spot, hspot, heq⟩ := exists_spot_of_mem_inside hs hi
        exact ⟨spot, mem_spots.2 (Or.inr hspot), heq⟩
      · rw [List.mem_singleton.1 hi]
        exact ⟨_, mem_spots.2 (Or.inl rfl), rfl⟩
    have inner := h.any_id_eq_inside hf hg hb _ hitems
    rw [Spot.carry, habove, carry_append, List.any_append, List.any_append, inner, outer]

/-- The owner of a menu is the same. -/
theorem head?_above {s : Spot} (hs : s ∈ f.innerSpots) :
    (s.carry f g r).above.head? = s.above.head?.map r := by
  rw [Spot.carry, above_of_mem_innerSpots hs, h.carry_path, h.path_eq, path]
  cases f.inside s.above <;> rfl

theorem menuHandler {s : Spot} (hs : s ∈ f.innerSpots) :
    menuHandler (s.carry f g r) = menuHandler s := by
  rw [FormDesign.menuHandler, FormDesign.menuHandler, h.head?_above hs]
  cases s.above.head? with
  | none => rfl
  | some owner =>
    simp only [Option.map_some, h.items.kind, h.items.name]

theorem menuBinding? {s : Spot} (hs : s ∈ f.innerSpots) :
    g.menuBinding? (s.carry f g r) = f.menuBinding? s := by
  rw [Form.menuBinding?, Form.menuBinding?, h.head?_above hs, h.menuHandler hs, h.className,
    Option.map_map]
  cases s.above.head? with
  | none => rfl
  | some owner => simp only [Option.map_some, Function.comp, h.bindSource]

/-- All but the events is collected the same. -/
theorem collected (d : Dialect) (t : ImageTable) (c : Cache) :
    (g.collected d t c).includes = (f.collected d t c).includes ∧
      (g.collected d t c).needs = (f.collected d t c).needs ∧
      (g.collected d t c).ids = (f.collected d t c).ids ∧
      (g.collected d t c).members = (f.collected d t c).members ∧
      (g.collected d t c).images = (f.collected d t c).images ∧
      (g.collected d t c).warnings = (f.collected d t c).warnings := by
  simp only [Form.collected, h.needs, h.ids, h.members, and_self]

end Recast

/-! ## Counterparts -/

/-- The libraries of the events below the form. -/
def eventLibraries (f : Form) : List Library :=
  f.innerElements.flatMap fun e => e.events.map fun u => eventLibrary u.name

/-- The form `g` is the form `f` with other items, and the same events are bound in the same
order. -/
structure Counterpart (f g : Form) (r : Item → Item) : Prop extends f.Recast g r where
  events : g.events.sort = f.events.sort.map (EventUse.carry f g r)
  libraries : ∀ library, library ∈ g.eventLibraries ↔ library ∈ f.eventLibraries

namespace Counterpart

variable (h : f.Counterpart g r)

include h

/-- The handler of a menu binds the same events. -/
theorem menuEvents (hf : f.Sound) (hg : g.Sound) {builder : Spot} (hb : builder ∈ f.menuBuilders) :
    menuEvents g.events.sort (r builder.item)
      = (menuEvents f.events.sort builder.item).map (EventUse.carry f g r) := by
  have hspot := (mem_spots_of_mem_menuBuilders hb).1
  -- the events of all menus are the same, and those below this builder stay below it
  rw [FormDesign.Form.menuEvents, FormDesign.Form.menuEvents, h.events]
  show List.filter _ (f.events.sort.inMenus.map (EventUse.carry f g r)) = _
  rw [List.filter_map]
  congr 1
  exact List.filter_congr fun u hu => h.any_id_eq hf hg (spot_mem_of_mem_inMenus hu) hspot

/-! ### The class -/

theorem classInfo (o : Options) :
    g.classInfo o g.events.sort = f.classInfo o f.events.sort := by
  have hmenus : g.menuBuilders.map FormDesign.menuHandler
      = f.menuBuilders.map FormDesign.menuHandler := by
    rw [h.menuBuilders, List.map_map]
    exact List.map_congr_left fun s hs =>
      h.menuHandler (mem_innerSpots_of_mem_menuBuilders h.isForm hs)
  have hhandlers : namedHandlers g.events.sort.toList
      = namedHandlers f.events.sort.toList := by
    rw [h.events, EventTables.toList_map]
    have hevent (u : EventUse) : (u.carry f g r).event = u.event := rfl
    exact namedHandlers_map hevent _
  have hname : g.className = f.className := h.className
  have hfile : g.baseFile = f.baseFile := h.read Element.generatedFile fun _ _ => rfl
  have hnamespace : g.element.text .namespace = f.element.text .namespace :=
    h.read (fun e => e.text .namespace) fun _ _ => rfl
  have hnamespaces : g.namespaces o = f.namespaces o := by
    rw [namespaces, hnamespace, namespaces]
  have hparams : Param.all g.element = Param.all f.element := h.read Param.all Param.all_events
  rw [Form.classInfo, h.node_kind, hname, hfile, hnamespaces, hparams, hmenus, hhandlers,
    Form.classInfo]

/-- The libraries that are imported are the same, in some order. -/
theorem mem_libraries_imports (d : Dialect) (includes : List String) (library : Library) :
    library ∈ (g.imports d includes).libraries ↔ library ∈ (f.imports d includes).libraries := by
  have hsplit (form : Form) : (form.imports d includes).libraries
      = form.node.kind.library :: form.eventLibraries
        ++ ((form.innerElements.filter fun e => e.kind.hasClass).map (resolveClass d)).map
          ResolvedClass.library := rfl
  rw [hsplit, hsplit, h.classes, h.node_kind, List.mem_append, List.mem_append, List.mem_cons,
    List.mem_cons, h.libraries]

/-- The lines that import the libraries are the same. -/
theorem importLines (d : Dialect) (includes : List String) (text : String) :
    d.imports (g.imports d includes) text = d.imports (f.imports d includes) text := by
  rw [h.imports d includes]
  exact d.imports_congr (h.mem_libraries_imports d includes) text

theorem bindSteps : g.bindSteps g.events.sort = f.bindSteps f.events.sort := by
  have hbind := h.bind_comp_carry
  have hmenus : g.menuBuilders.filterMap g.menuBinding?
      = f.menuBuilders.filterMap f.menuBinding? := by
    rw [h.menuBuilders, List.filterMap_map]
    exact List.filterMap_congr fun s hs =>
      h.menuBinding? (mem_innerSpots_of_mem_menuBuilders h.isForm hs)
  simp only [Form.bindSteps, h.events, EventTables.map, Grouped.mapParts, List.map_map, hmenus,
    hbind]
  congr 2
  refine List.map_congr_left fun group _ => ?_
  obtain ⟨selector, uses⟩ := group
  simp only [Function.comp, List.map_map, ← hbind]

/-! ## The files -/

section Files

variable (hf : f.Sound) (hg : g.Sound) (d : Dialect) (t : ImageTable) (c : Cache)

include hf hg

theorem menuSteps {menu : List Item × Branch Item} (hmenu : menu ∈ f.menuBranches) :
    g.menuSteps d (g.collected d t c) (f.carry g r menu.1) (menu.2.map r)
      = f.menuSteps d (f.collected d t c) menu.1 menu.2 := by
  have hbuilder := mem_menuBuilders_of_mem_menuBranches hmenu
  have hevents : FormDesign.Form.menuEvents (g.collected d t c).events (r menu.2.label)
      = (FormDesign.Form.menuEvents (f.collected d t c).events menu.2.label).map
          (EventUse.carry f g r) := h.menuEvents hf hg hbuilder
  obtain ⟨-, -, -, -, himages, -⟩ := h.collected d t c
  rw [Form.menuSteps, Form.menuSteps, Branch.label_map, himages, h.menuPlan d _ hmenu, hevents,
    List.map_map, h.bind_comp_carry]

theorem bindWarnings : g.bindWarnings d g.events.sort = f.bindWarnings d f.events.sort := by
  have hmenus : (g.menuBuilders.flatMap fun builder =>
        FormDesign.Form.menuEvents g.events.sort builder.item)
      = (f.menuBuilders.flatMap fun builder =>
          FormDesign.Form.menuEvents f.events.sort builder.item).map (EventUse.carry f g r) := by
    rw [h.menuBuilders, List.flatMap_map, List.map_flatMap]
    exact List.flatMap_congr fun builder hb => h.menuEvents hf hg hb
  have hbound : g.events.sort.bound.toList
      = f.events.sort.bound.toList.map (EventUse.carry f g r) := by
    rw [h.events, EventTables.map, Grouped.toList_mapParts]
  rw [Form.bindWarnings, Form.bindWarnings, hmenus, hbound, ← List.map_append, List.filterMap_map]
  exact List.filterMap_congr fun u _ => h.skipped? d u

omit hf hg in
theorem planWarnings :
    g.planWarnings d (g.collected d t c) = f.planWarnings d (f.collected d t c) := by
  obtain ⟨-, -, -, -, himages, -⟩ := h.collected d t c
  have hmenus (images : List Asset) :
      (g.menuBranches.flatMap fun menu => g.menuPlan d images menu.1 menu.2)
        = f.menuBranches.flatMap fun menu => f.menuPlan d images menu.1 menu.2 := by
    rw [h.menuBranches, List.flatMap_map]
    exact List.flatMap_congr fun menu hmenu => h.menuPlan d images hmenu
  rw [Form.planWarnings, Form.planWarnings, himages, h.plan]
  exact congrArg (fun menus => firsts (Step.warningsAll (f.plan d _ ++ menus))) (hmenus _)

theorem menuMethod (info : ClassInfo) {menu : List Item × Branch Item}
    (hmenu : menu ∈ f.menuBranches) :
    g.menuMethod d info (g.collected d t c) (f.carry g r menu.1) (menu.2.map r)
      = f.menuMethod d info (f.collected d t c) menu.1 menu.2 := by
  have hbuilder := mem_menuBuilders_of_mem_menuBranches hmenu
  have hhandler := h.menuHandler (mem_innerSpots_of_mem_menuBuilders h.isForm hbuilder)
  have hlabel : ({ item := (menu.2.map r).label, above := f.carry g r menu.1 } : Spot)
      = Spot.carry f g r { item := menu.2.label, above := menu.1 } := by
    rw [Branch.label_map, Spot.carry]
  rw [Form.menuMethod, Form.menuMethod, hlabel, hhandler, h.menuSteps hf hg d t c hmenu]

theorem classEdits (info : ClassInfo) :
    g.classEdits d info (g.collected d t c) = f.classEdits d info (f.collected d t c) := by
  obtain ⟨-, -, hids, hmembers, himages, -⟩ := h.collected d t c
  have hdeclarations : declarations d (g.collected d t c) = declarations d (f.collected d t c) := by
    rw [declarations, hids, hmembers, declarations]
  have hbindings : g.bindSteps (g.collected d t c).events
      = f.bindSteps (f.collected d t c).events := h.bindSteps
  have hconstructor : g.constructorSteps d (g.collected d t c)
      = f.constructorSteps d (f.collected d t c) := by
    rw [constructorSteps, constructorSteps, himages, h.plan, hbindings]
  have hmethods : (g.menuBranches.flatMap fun menu =>
        g.menuMethod d info (g.collected d t c) menu.1 menu.2)
      = f.menuBranches.flatMap fun menu =>
          f.menuMethod d info (f.collected d t c) menu.1 menu.2 := by
    rw [h.menuBranches, List.flatMap_map]
    exact List.flatMap_congr fun menu hmenu => h.menuMethod hf hg d t c info hmenu
  rw [Form.classEdits, Form.classEdits, hdeclarations, h.validatorInits, hconstructor]
  exact congrArg (fun methods => _ ++ methods ++ _ ++ _) hmethods

/-- The files of the form and the warnings are the same. -/
theorem output (o : Options) :
    g.output d o (g.collected d t c) = f.output d o (f.collected d t c) := by
  obtain ⟨hincludes, hneeds, hids, hmembers, himages, hwarnings⟩ := h.collected d t c
  have hinfo : g.classInfo o (g.collected d t c).events
      = f.classInfo o (f.collected d t c).events := h.classInfo o
  have hbind : g.bindWarnings d (g.collected d t c).events
      = f.bindWarnings d (f.collected d t c).events := h.bindWarnings hf hg d
  have hpictures : imageText d (g.collected d t c) = imageText d (f.collected d t c) := by
    rw [imageText, himages, hneeds, imageText]
  have hsource (info : ClassInfo) (body : String) :
      sourceEdits d info (g.imports d (f.collected d t c).includes) (g.collected d t c) body
        = sourceEdits d info (f.imports d (f.collected d t c).includes) (f.collected d t c)
            body := by
    rw [sourceEdits, hpictures, h.importLines, sourceEdits]
  have hheader (info : ClassInfo) (ids : IdTable) (members : MemberTable) :
      Dialect.header info (g.imports d (f.collected d t c).includes) ids members
        = Dialect.header info (f.imports d (f.collected d t c).includes) ids members := by
    rw [h.imports]
    rfl
  simp only [Form.output, hinfo, h.classEdits hf hg, hincludes, hsource, hheader, hids, hmembers,
    hwarnings, hbind, h.planWarnings]

end Files

/-- The form is generated the same with its other items. -/
theorem generate (hf : f.Sound) (hg : g.Sound) (d : Dialect) (o : Options) (source : FileSource)
    (c : Cache) : g.generate d o source c = f.generate d o source c := by
  -- the image pass reads elements only, and so it leaves the same cache
  rw [Form.generate, Form.generate, h.images]
  rcases f.images source o.artDirectory c with ⟨fault | t, c'⟩
  · rfl
  · simp only [h.output hf hg d t c' o]

end Counterpart

end Form

/-! ## Generation of a node -/

/-- A form as a tree has it can be taken out. -/
theorem Form.exists_ofTree {t : Tree} {id : Nat} {n : Node} (hn : t.get? id = some n)
    (isForm : n.kind.isForm = true) :
    ∃ f, ofTree t id = .ok f ∧ f.node = n := by
  obtain ⟨hid, rfl⟩ := Array.getElem?_eq_some_iff.1 hn
  have hlabel := Tree.label_branchAt hid
  cases hbranch : t.branchAt id hid with
  | mk m cs =>
    rw [hbranch] at hlabel
    obtain rfl : m = t.nodes[id] := hlabel
    rw [ofTree, Tree.branch?, dif_pos hid, hbranch]
    exact ⟨_, if_pos isForm, rfl⟩

/-- Nodes of one kind and class are generated the same, if their forms are. -/
theorem generateSource_congr {t t' : Tree} {id id' : Nat} {n n' : Node}
    (hn : t.get? id = some n) (hn' : t'.get? id' = some n') (kind : n'.kind = n.kind)
    (className : n'.className = n.className) {d : Dialect} {o : Options} {source : FileSource}
    {c : Cache}
    (forms : ∀ f g, Form.ofTree t id = .ok f → Form.ofTree t' id' = .ok g →
      g.generate d o source c = f.generate d o source c) :
    generateSource t' id' (.source d) o source c = generateSource t id (.source d) o source c := by
  by_cases covered : n.kind.isForm = true ∧ d.supports n.kind = true
  · obtain ⟨isForm, supported⟩ := covered
    obtain ⟨f, hf, rfl⟩ := Form.exists_ofTree hn isForm
    obtain ⟨g, hg, rfl⟩ := Form.exists_ofTree hn' (kind ▸ isForm)
    rw [generateSource_eq hf supported, generateSource_eq hg (kind ▸ supported), forms f g hf hg]
  · -- the node is passed over or refused for what it is
    have hrefused : n.kind.isForm = true → d.supports n.kind = false := fun isForm => by
      simpa using fun supported => covered ⟨isForm, supported⟩
    cases isForm : n.kind.isForm with
    | false => simp [generateSource, hn, hn', kind, className, isForm]
    | true => simp [generateSource, hn, hn', kind, className, hrefused isForm]

end FormDesign
