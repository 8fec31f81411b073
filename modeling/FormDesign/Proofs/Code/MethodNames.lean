import FormDesign.Proofs.Code.Handlers
import FormDesign.Proofs.Code.VariableNames

/-!
# The names of methods

The generated class has a method for each handler of its events, and one for each node that opens a
context menu. Handlers are listed once each, as the design writes them. The methods of menus are
called after the windows that own the menus, whatever the handlers are called, and Ruby respells all
of them.

* `Form.methodNames`: the names of these methods, as the language spells them
* `Form.WritesMethods`: the class has its methods under these names
* `eq_of_name_eq`: nodes of one name, of which one is named by the design and the other is not
* `nodup_methodNames_iff`: when the names are apart
-/

namespace FormDesign

/-! ## Nodes of one name -/

section

variable {before : List Element} {items : List Item}

/-- The nodes that the design names have the names given. -/
theorem map_name_filter_named
    (h : items.map Item.name = assignedFrom before (items.map Item.element)) :
    (items.filter fun i => decide (i.element.varName ≠ "")).map Item.name
      = givenNames (items.map Item.element) := by
  induction items generalizing before with
  | nil => rfl
  | cons i items ih =>
    rw [List.map_cons, List.map_cons, assignedFrom] at h
    obtain ⟨name, rest⟩ := List.cons.inj h
    rw [variableName] at name
    by_cases named : i.element.varName = ""
    · rw [List.filter_cons_of_neg (by simpa using named), ih rest]
      simp [givenNames, named]
    · rw [if_pos named] at name
      rw [List.filter_cons_of_pos (by simpa using named), List.map_cons, ih rest, name]
      simp [givenNames, named]

/-- The other nodes have the names that are made up, in order. -/
theorem map_name_filter_unnamed
    (h : items.map Item.name = assignedFrom before (items.map Item.element)) :
    (items.filter fun i => decide (i.element.varName = "")).map Item.name
      = numberedFrom (nameBases before) (nameBases (items.map Item.element)) := by
  induction items generalizing before with
  | nil => rfl
  | cons i items ih =>
    rw [List.map_cons, List.map_cons, assignedFrom] at h
    obtain ⟨name, rest⟩ := List.cons.inj h
    have others := ih rest
    rw [nameBases_append] at others
    rw [variableName] at name
    by_cases named : i.element.varName = ""
    · have base : nameBases ((i :: items).map Item.element)
          = i.element.defaultVarName :: nameBases (items.map Item.element) := by
        simp [nameBases, named]
      have single : nameBases [i.element] = [i.element.defaultVarName] := by
        simp [nameBases, named]
      rw [if_neg (not_not.2 named)] at name
      rw [single] at others
      rw [List.filter_cons_of_pos (by simpa using named), List.map_cons, others, name, base,
        numberedFrom]
    · have base : nameBases ((i :: items).map Item.element)
          = nameBases (items.map Item.element) := by
        simp [nameBases, named]
      have single : nameBases [i.element] = [] := by simp [nameBases, named]
      rw [single, List.append_nil] at others
      rw [List.filter_cons_of_neg (by simpa using named), others, base]

end

namespace Form

variable {f : Form} {d : Dialect} {o : Options} {c : Collected}

/-- **Of two nodes with one name, the design names one and not the other**, as long as the names
that it gives are apart. -/
theorem eq_of_name_eq {t : Tree} {id : Nat} (hf : ofTree t id = .ok f)
    (given : (givenNames f.innerElements).Nodup) {i j : Item}
    (hi : i ∈ f.innerSpots.map Spot.item) (hj : j ∈ f.innerSpots.map Spot.item)
    (name : i.name = j.name) (same : i.element.varName = "" ↔ j.element.varName = "") : i = j := by
  have names : (f.innerSpots.map Spot.item).map Item.name
      = assignedFrom [] ((f.innerSpots.map Spot.item).map Item.element) := by
    rw [List.map_map, List.map_map]
    exact names_eq hf
  have elements : (f.innerSpots.map Spot.item).map Item.element = f.innerElements :=
    List.map_map
  by_cases unnamed : i.element.varName = ""
  · have apart : ((f.innerSpots.map Spot.item).filter
        fun i => decide (i.element.varName = "")).map Item.name |>.Nodup := by
      rw [map_name_filter_unnamed names]
      refine nodup_numberedFrom fun base hbase => ?_
      obtain ⟨e, -, rfl⟩ := List.mem_map.1 hbase
      exact endsPlain_defaultVarName e
    exact List.inj_on_of_nodup_map apart (List.mem_filter.2 ⟨hi, by simpa using unnamed⟩)
      (List.mem_filter.2 ⟨hj, by simpa using same.1 unnamed⟩) name
  · have apart : ((f.innerSpots.map Spot.item).filter
        fun i => decide (i.element.varName ≠ "")).map Item.name |>.Nodup := by
      rw [map_name_filter_named names, elements]
      exact given
    exact List.inj_on_of_nodup_map apart (List.mem_filter.2 ⟨hi, by simpa using unnamed⟩)
      (List.mem_filter.2 ⟨hj, by simpa using mt same.2 unnamed⟩) name

end Form

/-! ## The methods of a class -/

/-- The name of the method that shows the context menu of a window. -/
def Item.menuMethod (owner : Item) : String :=
  if owner.kind.isForm then "OnContextMenu" else "OnContextMenu_" ++ owner.name

namespace Form

variable {f : Form} {d : Dialect} {o : Options} {c : Collected}

/-- The windows that own context menus, once for each node that opens one. -/
def menuOwners (f : Form) : List Item :=
  f.menuBuilders.filterMap fun builder => builder.above.head?

/-- The names of the methods for handlers and context menus, before they are spelled. -/
def methodTexts (f : Form) (o : Options) (c : Collected) : List String :=
  (f.classInfo o c.events).handlers.map Prod.snd ++ (f.classInfo o c.events).contextMenus

/-- The names of the methods for handlers and context menus. -/
def methodNames (f : Form) (d : Dialect) (o : Options) (c : Collected) : List String :=
  (f.methodTexts o c).map d.methodName

/-- **The class has its methods under their names.** -/
structure WritesMethods (f : Form) (d : Dialect) (o : Options) (c : Collected) : Prop where
  /-- A stub for each handler, or in C++ its prototype in the header. -/
  handlers : ∀ entry ∈ (f.classInfo o c.events).handlers,
    .line (d.stubLine entry.1 (d.methodName entry.2)) ∈ f.handlerEdits d o c
  /-- The methods of the context menus, in the order of the names. -/
  menus : List.Forall₂
    (fun menu name => ∃ rest, f.menuMethod d (f.classInfo o c.events) c menu.1 menu.2
      = .line (d.menuLine f.className (d.methodName name)) :: rest)
    f.menuBranches (f.classInfo o c.events).contextMenus
  /-- In C++ each of them has a prototype in the header as well. -/
  prototypes : d = .cpp → ∀ name ∈ (f.classInfo o c.events).contextMenus,
    .line (Dialect.menuPrototype (d.methodName name)) ∈ f.handlerEdits d o c

theorem writesMethods : f.WritesMethods d o c where
  handlers _ h := stubLine_mem_handlerEdits h
  menus := by
    rw [classInfo, menuBuilders, List.map_map, List.forall₂_map_right_iff]
    refine List.forall₂_same.2 fun menu _ => ?_
    cases d <;> exact ⟨_, rfl⟩
  prototypes := by
    rintro rfl name hname
    refine Dialect.headerHandlers_subset_header _ _ _ _ (Dialect.mem_headerHandlers (Or.inr ?_))
    exact List.mem_map_of_mem hname

/-- Why two methods may have the same name. -/
inductive MethodClash (f : Form) (d : Dialect) (o : Options) (c : Collected) : Prop
  /-- A handler is called as the method for a context menu is. -/
  | handler {owner : Item} (owns : owner ∈ f.menuOwners)
    (listed : owner.menuMethod ∈ (f.classInfo o c.events).handlers.map Prod.snd) :
    MethodClash f d o c
  /-- Two forms own context menus. -/
  | forms {owner owner' : Item} (owns : owner ∈ f.menuOwners) (owns' : owner' ∈ f.menuOwners)
    (other : owner ≠ owner') (form : owner.kind.isForm = true)
    (form' : owner'.kind.isForm = true) : MethodClash f d o c
  /-- The name that is made up for a window is the one that the design gives to another. -/
  | windows {owner owner' : Item} (owns : owner ∈ f.menuOwners) (owns' : owner' ∈ f.menuOwners)
    (window : owner.kind.isForm = false) (window' : owner'.kind.isForm = false)
    (unnamed : owner.element.varName = "") (named : owner'.element.varName ≠ "")
    (name : owner.name = owner'.name) : MethodClash f d o c
  /-- Ruby spells two names alike. -/
  | spelling {text text' : String} (mem : text ∈ f.methodTexts o c)
    (mem' : text' ∈ f.methodTexts o c) (other : text ≠ text') (ruby : d = .ruby)
    (spelled : Text.snakeCase text = Text.snakeCase text') : MethodClash f d o c

theorem contextMenus_eq (form : f.node.kind.isForm = true) :
    (f.classInfo o c.events).contextMenus = f.menuOwners.map Item.menuMethod := by
  rw [classInfo, menuOwners, List.map_filterMap, ← List.filterMap_eq_map]
  refine List.filterMap_congr fun builder hbuilder => ?_
  obtain ⟨menu, hmenu, rfl⟩ := List.mem_map.1 hbuilder
  obtain ⟨owner, rest, habove⟩ := exists_owner form hmenu
  dsimp only [Function.comp_apply]
  rw [menuHandler]
  dsimp only
  rw [habove]
  rfl

/-- A window that owns a menu is a node below the form, unless it is a form itself. -/
theorem mem_innerSpots_of_mem_menuOwners (form : f.node.kind.isForm = true) {owner : Item}
    (h : owner ∈ f.menuOwners) (window : owner.kind.isForm = false) :
    owner ∈ f.innerSpots.map Spot.item := by
  obtain ⟨builder, hbuilder, howner⟩ := List.mem_filterMap.1 h
  obtain ⟨rest, habove⟩ := List.head?_eq_some_iff.1 howner
  have spot := parent_mem_spots (mem_innerSpots_of_mem_menuBuilders form hbuilder) habove
  exact List.mem_map.2 ⟨_, mem_innerSpots_of_not_isForm spot form window, rfl⟩

theorem menuMethod_eq_iff {owner owner' : Item} : owner.menuMethod = owner'.menuMethod ↔
    owner.kind.isForm = true ∧ owner'.kind.isForm = true ∨
      owner.kind.isForm = false ∧ owner'.kind.isForm = false ∧ owner.name = owner'.name := by
  have longer (name : String) : "OnContextMenu" ≠ "OnContextMenu_" ++ name := by
    intro h
    have lengths := congrArg String.length h
    rw [String.length_append] at lengths
    have first : "OnContextMenu".length = 13 := rfl
    have second : "OnContextMenu_".length = 14 := rfl
    omega
  unfold Item.menuMethod
  cases owner.kind.isForm <;> cases owner'.kind.isForm
  · simp [String.append_right_inj]
  · simpa using (longer owner.name).symm
  · simpa using longer owner'.name
  · simp

/-- Two menus have methods of one name only if they are those of forms, or if one of their windows
has a name that is made up and the other is given the same. -/
theorem clash_of_menuMethod_eq {t : Tree} {id : Nat} (hf : ofTree t id = .ok f)
    (given : (givenNames f.innerElements).Nodup) {owner owner' : Item} (owns : owner ∈ f.menuOwners)
    (owns' : owner' ∈ f.menuOwners) (same : owner.menuMethod = owner'.menuMethod)
    (other : owner ≠ owner') : f.MethodClash d o c := by
  have form := isForm_of_ofTree hf
  rcases menuMethod_eq_iff.1 same with ⟨isForm, isForm'⟩ | ⟨window, window', name⟩
  · exact .forms owns owns' other isForm isForm'
  · have inner := mem_innerSpots_of_mem_menuOwners form owns window
    have inner' := mem_innerSpots_of_mem_menuOwners form owns' window'
    have one : ¬(owner.element.varName = "" ↔ owner'.element.varName = "") := by
      intro both
      exact other (eq_of_name_eq hf given inner inner' name both)
    by_cases unnamed : owner.element.varName = ""
    · exact .windows owns owns' window window' unnamed (fun h => one ⟨fun _ => h, fun _ => unnamed⟩)
        name
    · have unnamed' : owner'.element.varName = "" := by
        by_contra h
        exact one ⟨fun h' => absurd h' unnamed, fun h' => absurd h' h⟩
      exact .windows owns' owns window' window unnamed' unnamed name.symm

/-- Without respelling, methods are apart if handlers and menus are, and menus among each other. -/
theorem nodup_methodTexts_iff (form : f.node.kind.isForm = true) (owners : f.menuOwners.Nodup) :
    (f.methodTexts o c).Nodup ↔
      (∀ owner ∈ f.menuOwners, ∀ owner' ∈ f.menuOwners,
        owner.menuMethod = owner'.menuMethod → owner = owner') ∧
      ∀ owner ∈ f.menuOwners,
        owner.menuMethod ∉ (f.classInfo o c.events).handlers.map Prod.snd := by
  have listed : ((f.classInfo o c.events).handlers.map Prod.snd).Nodup := nodup_namedHandlers _
  rw [methodTexts, contextMenus_eq form, List.nodup_append, List.nodup_map_iff_inj_on owners,
    and_iff_right listed]
  refine and_congr_right fun _ => ?_
  constructor
  · intro apart owner owns listed
    exact apart _ listed _ (List.mem_map_of_mem owns) rfl
  · rintro apart _ listed _ hmethod rfl
    obtain ⟨owner, owns, rfl⟩ := List.mem_map.1 hmethod
    exact apart owner owns listed

end Form

/-- **When the methods of a class have names of their own**, as long as no window owns two context
menus and the names that the design gives are apart: no handler has the name of a menu's method, no
two forms own menus, no window has a name that is made up for another, and Ruby spells no two names
alike. -/
theorem nodup_methodNames_iff {t : Tree} {id : Nat} {f : Form} (hf : Form.ofTree t id = .ok f)
    {d : Dialect} (hd : d.supports f.node.kind = true) {o : Options} {source : FileSource}
    {cache after : Cache} {table : ImageTable}
    (images : f.images source o.artDirectory cache = (.ok table, after))
    (owners : f.menuOwners.Nodup) (given : (givenNames f.innerElements).Nodup) :
    let c := f.collected d table after
    generateSource t id (.source d) o source cache = (.ok (f.output d o c), after) ∧
      f.WritesMethods d o c ∧ ((f.methodNames d o c).Nodup ↔ ¬f.MethodClash d o c) := by
  intro c
  have form := Form.isForm_of_ofTree hf
  refine ⟨by rw [generateSource_eq hf hd, Form.generate, images], Form.writesMethods, ?_⟩
  constructor
  · intro apart clash
    obtain ⟨menus, handlers⟩ := (Form.nodup_methodTexts_iff form owners).1 apart.of_map
    cases clash with
    | handler owns listed => exact handlers _ owns listed
    | forms owns owns' other form form' =>
      exact other (menus _ owns _ owns' (Form.menuMethod_eq_iff.2 (Or.inl ⟨form, form'⟩)))
    | windows owns owns' window window' unnamed named name =>
      have same := menus _ owns _ owns' (Form.menuMethod_eq_iff.2 (Or.inr ⟨window, window', name⟩))
      exact named (same ▸ unnamed)
    | spelling mem mem' other ruby spelled =>
      subst ruby
      exact other (List.inj_on_of_nodup_map apart mem mem' spelled)
  · intro free
    have texts : (f.methodTexts o c).Nodup := by
      refine (Form.nodup_methodTexts_iff form owners).2 ⟨?_, ?_⟩
      · intro owner owns owner' owns' same
        by_contra other
        exact free (Form.clash_of_menuMethod_eq hf given owns owns' same other)
      · intro owner owns listed
        exact free (.handler owns listed)
    refine (List.nodup_map_iff_inj_on texts).2 ?_
    intro text mem text' mem' spelled
    cases d with
    | cpp | python | perl => exact spelled
    | ruby =>
      by_contra other
      exact free (.spelling mem mem' other rfl spelled)

/-! ## A dialog with a context menu -/

/-- A dialog with an event, given its handler. -/
def clickedDialog (handler : String) : Element where
  kind := .dialog
  props := [(.className, "Dlg")]
  events := [{ name := "wxEVT_RIGHT_UP", handler }]

/-- That dialog with a context menu. -/
def clickedDesign (handler : String) : Design :=
  .mk (clickedDialog handler) [.mk (.ofKind .contextMenuEvent) []]

/-- The form of that dialog. -/
def clickedForm (handler : String) : Form where
  node := { clickedDialog handler with id := 0, parent := none, children := [1] }
  children :=
    [.mk
      { node := { Element.ofKind .contextMenuEvent with id := 1, parent := some 0, children := [] }
        name := "context_menu_event" }
      []]
  above := []

/-- Another name than that of the menu's method remains another in Ruby. -/
theorem clickedForm_methodNames_nodup :
    let f := clickedForm "OnRightUp"
    let c := f.collected .ruby .empty .empty
    Form.ofTree (.ofDesign (clickedDesign "OnRightUp")) 0 = .ok f ∧
      generateSource (.ofDesign (clickedDesign "OnRightUp")) 0 (.source .ruby) .default noFiles
          .empty
        = (.ok (f.output .ruby .default c), .empty) ∧
      f.methodNames .ruby .default c = ["on_right_up", "on_context_menu"] ∧
      ¬f.MethodClash .ruby .default c := by
  intro f c
  have hf : Form.ofTree (.ofDesign (clickedDesign "OnRightUp")) 0 = .ok f := by
    with_unfolding_all rfl
  have images : f.images noFiles Options.default.artDirectory .empty = (.ok .empty, .empty) := rfl
  obtain ⟨generated, -, apart⟩ := nodup_methodNames_iff hf (d := .ruby) (by decide) images
    (by decide +kernel) (by decide +kernel)
  have names : f.methodNames .ruby .default c = ["on_right_up", "on_context_menu"] := by
    have texts : (clickedForm "OnRightUp").methodTexts .default
        ((clickedForm "OnRightUp").collected .ruby .empty .empty)
          = ["OnRightUp", "OnContextMenu"] := by
      with_unfolding_all rfl
    rw [Form.methodNames, texts]
    decide +kernel
  exact ⟨hf, generated, names, apart.1 (names ▸ by decide)⟩

/-- A handler that is called as the method for the menu gets a second method of that name. -/
theorem clickedForm_methodNames_not_nodup :
    let f := clickedForm "OnContextMenu"
    let c := f.collected .python .empty .empty
    Form.ofTree (.ofDesign (clickedDesign "OnContextMenu")) 0 = .ok f ∧
      generateSource (.ofDesign (clickedDesign "OnContextMenu")) 0 (.source .python) .default
          noFiles .empty
        = (.ok (f.output .python .default c), .empty) ∧
      f.menuOwners.Nodup ∧ (givenNames f.innerElements).Nodup ∧
      f.methodNames .python .default c = ["OnContextMenu", "OnContextMenu"] ∧
      ¬(f.methodNames .python .default c).Nodup := by
  intro f c
  have hf : Form.ofTree (.ofDesign (clickedDesign "OnContextMenu")) 0 = .ok f := by
    with_unfolding_all rfl
  have names : f.methodNames .python .default c = ["OnContextMenu", "OnContextMenu"] := by
    have texts : (clickedForm "OnContextMenu").methodTexts .default
        ((clickedForm "OnContextMenu").collected .python .empty .empty)
          = ["OnContextMenu", "OnContextMenu"] := by
      with_unfolding_all rfl
    rw [Form.methodNames, texts]
    rfl
  refine ⟨hf, ?_, by decide +kernel, by decide +kernel, names, names ▸ by decide⟩
  rw [generateSource_eq hf (by decide)]
  rfl

end FormDesign
