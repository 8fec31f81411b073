import FormDesign.Proofs.Resource.NamedOnce
import FormDesign.Proofs.Resource.Shapes

/-!
# Classes in the resource

Every object has a class, and the classes tell what has to be loaded. Besides the object of a node
there are objects that stand around it or around its children, and some nodes bring controls and
menus of their own.

* `Xml.Has`: an element of some sort, told by whether it is an object and by its class
* `Element.classes`: the classes that are written for one node, apart from what stands around
* `classesOfAll`: the classes that are written for siblings and below them
* `has_growAll`: an element is among what siblings grow into exactly if its class is among these
-/

namespace FormDesign

/-! ## Elements of some sort -/

namespace Xml

/-- Some element among the nodes is as `R` asks, given whether it is an object and its class. -/
def Has (R : Bool → Option String → Prop) (xs : List Xml) : Prop :=
  ∃ x ∈ elementsAll xs, R x.isObject x.class?

variable {R : Bool → Option String → Prop}

theorem not_has_nil : ¬Has R [] :=
  nofun

theorem has_append (xs ys : List Xml) : Has R (xs ++ ys) ↔ Has R xs ∨ Has R ys := by
  simp only [Has, elementsAll_append, List.mem_append, or_and_right, exists_or]

theorem has_cons (x : Xml) (xs : List Xml) : Has R (x :: xs) ↔ Has R [x] ∨ Has R xs :=
  has_append [x] xs

theorem has_perm {xs ys : List Xml} (h : xs.Perm ys) : Has R xs ↔ Has R ys := by
  simp only [Has, elementsAll_eq, (h.flatMap_right _).mem_iff]

theorem has_element (name : String) (attributes : List (String × String)) (text : Option String)
    (children : List Xml) :
    Has R [.element name attributes text children]
      ↔ R (name == "object") (attributes.lookup "class") ∨ Has R children := by
  simp only [Has, elementsAll, elements, List.append_nil, List.mem_cons, or_and_right, exists_or,
    exists_eq_left]
  rfl

theorem has_object (p : Part) :
    Has R [p.object] ↔ R true (p.attributes.lookup "class") ∨ Has R p.contents :=
  has_element ..

theorem has_extend (p : Part) (more : List Xml) :
    Has R [(p.extend more).object]
      ↔ R true (p.attributes.lookup "class") ∨ Has R p.contents ∨ Has R more := by
  rw [has_object, Part.extend, has_append]

end Xml

open Xml (Has)

/-- The classes of objects that stand around the objects of nodes or around their children. -/
def wrapperClasses : List String :=
  ["sizeritem", "panewindow", "button", "notebookpage", "treebookpage", "choicebookpage",
    "listbookpage", "simplebookpage"]

/-- What `R` asks for is not met by what stands around the objects of nodes, and by no element that
is neither an object nor has a class. -/
structure IgnoresWrappers (R : Bool → Option String → Prop) : Prop where
  unclassed : ¬R false none
  wrapper : ∀ c ∈ wrapperClasses, ¬R true (some c)

variable {R : Bool → Option String → Prop}

theorem Unclassed.not_has {xs : List Xml} (h : Unclassed xs) (hR : IgnoresWrappers R) :
    ¬Has R xs := by
  rintro ⟨x, hx, hRx⟩
  obtain ⟨other, none⟩ := h x hx
  rw [other, none] at hRx
  exact hR.unclassed hRx

/-- A wrapper does not count. -/
theorem IgnoresWrappers.has_extend (hR : IgnoresWrappers R) {p : Part} {c : String}
    (class_eq : p.attributes.lookup "class" = some c) (wrapper : c ∈ wrapperClasses)
    (own : Unclassed p.contents) (more : List Xml) :
    Has R [(p.extend more).object] ↔ Has R more := by
  rw [Xml.has_extend, class_eq, or_iff_right (hR.wrapper c wrapper), or_iff_right (own.not_has hR)]

/-- Neither does an element that is no object. -/
theorem IgnoresWrappers.has_element (hR : IgnoresWrappers R) {name : String} (h : name ≠ "object")
    (text : Option String) (children : List Xml) :
    Has R [.element name [] text children] ↔ Has R children := by
  rw [Xml.has_element, beq_false_of_ne h]
  exact or_iff_right hR.unclassed

/-! ## The object of a node -/

/-- The part of the node itself, without an item or page around it. -/
def Shape.own? : Shape → Option Part
  | .plain object => some object
  | .wrapped _ inner => some inner
  | .absent | .remark _ => none

namespace Element

/-- The classes of the controls that are written for the properties of a sizer. -/
def controlClasses (e : Element) : List String :=
  match e.kind with
  | .staticCheckboxBoxSizer => ["wxCheckBox"]
  | .staticRadioBtnBoxSizer => ["wxRadioButton"]
  | .stdDialogButtonSizer => if e.buttons = [] then [] else ["wxButton"]
  | _ => []

/-- The class of the menu that stands below a tool. -/
def menuClasses (e : Element) (leafless : Bool) : List String :=
  match e.kind with
  | .toolDropdown => if leafless then [] else ["wxMenu"]
  | _ => []

/-- Whether something is written for a node. -/
def isWritten (comments : Bool) (e : Element) : Bool :=
  e.kind.isDescribed || comments && e.kind != .images

/-- The classes of the objects that are written for a node, apart from those around it. The object
of a project or folder has none. In place of a node that the resource cannot describe stands an
empty sizer with a remark. -/
def classes (comments leafless : Bool) (e : Element) : List (Option String) :=
  if e.kind.isDescribed then
    e.kind.objectClass? :: (e.controlClasses ++ e.menuClasses leafless).map some
  else if e.isWritten comments then [some "wxBoxSizer"]
  else []

@[simp] theorem own?_placed (e : Element) (inSizer : Bool) (object : Part) :
    (e.placed inSizer object).own? = some object := by
  cases inSizer <;> rfl

/-- Other nodes than these sizers have no controls in their own part. -/
theorem unclassed_own (e : Element) (comments : Bool) (above : List Element)
    (checkbox : e.kind ≠ .staticCheckboxBoxSizer) (radio : e.kind ≠ .staticRadioBtnBoxSizer)
    (buttons : e.kind ≠ .stdDialogButtonSizer) :
    ∀ p, (e.resourceShape comments above).own? = some p → Unclassed p.contents := by
  have plain {object : Part} (h : Unclassed object.contents) :
      ∀ p, (Shape.plain object).own? = some p → Unclassed p.contents :=
    fun _ own => Option.some.inj own ▸ h
  have placed {object : Part} (inSizer : Bool) (h : Unclassed object.contents) :
      ∀ p, (e.placed inSizer object).own? = some p → Unclassed p.contents := by
    rw [own?_placed]
    exact plain h
  have part {className : String} {contents : List Xml} (h : Unclassed contents) :
      Unclassed (e.part className contents).contents := h
  have pair {x : Xml} {xs : List Xml} (hx : Unclassed [x]) (hxs : Unclassed xs) :
      Unclassed (x :: xs) := (unclassed_cons x xs).2 ⟨hx, hxs⟩
  unfold resourceShape shape
  cases hk : e.kind
  case staticCheckboxBoxSizer => exact absurd hk checkbox
  case staticRadioBtnBoxSizer => exact absurd hk radio
  case stdDialogButtonSizer => exact absurd hk buttons
  case images | popupTransientWindow => exact nofun
  case timer | contextMenuEvent => cases comments <;> exact nofun
  case project | folder | separator | toolSeparator => exact plain unclassed_nil
  case panelForm | bookPage => exact plain (e.unclassed_panelPart _)
  case dialog | frame => exact plain (e.unclassed_windowPart _)
  case menuItem => exact plain (e.unclassed_menuItemPart _)
  case tool | toolDropdown => exact plain (e.unclassed_toolPart _)
  case spacer => exact plain (pair (by simp) (by simp))
  case wizard | menu | subMenu | ribbonButton => exact plain (part (by simp))
  case boxSizer | verticalBoxSizer => exact placed _ (part (pair (by simp) (by simp)))
  case staticBoxSizer =>
    refine placed _ ?_
    rw [boxSizerPart, hk]
    exact part (pair e.unclassed_orientationTag (by simp))
  case menuBarForm | menuBar | toolBarForm | toolBar | auiToolBar | gridSizer | flexGridSizer =>
    exact placed _ (part (by simp))
  all_goals exact placed _ (part (by simp))

theorem isOwn_of_own? {e : Element} {comments : Bool} {above : List Element} {p : Part}
    (own : (e.resourceShape comments above).own? = some p) : e.IsOwn p := by
  have shaped := e.shaped_resourceShape comments above
  generalize e.resourceShape comments above = s at own shaped
  cases s with
  | absent | remark => cases own
  | plain object => exact Option.some.inj own ▸ shaped.isOwn_of_plain
  | wrapped outer inner => exact Option.some.inj own ▸ shaped.isOwn_of_wrapped

variable (hR : IgnoresWrappers R) {e : Element}

include hR

/-- The label of a box is a control, in an element of its own. -/
theorem has_boxSizerPart {className : String} (tag : String) (h : tag ≠ "object")
    (contents : e.boxSizerPart.contents = [e.orientationTag]
      ++ [.element "windowlabel" [] none
        [(Part.ofClass className (e.textTag .label "label" ++ e.flagTag .checked tag)).object]]
      ++ e.pairTag .minSize "minsize") :
    Has R e.boxSizerPart.contents ↔ R true (some className) := by
  have orientation := e.unclassed_orientationTag.not_has hR
  have size : ¬Has R (e.pairTag .minSize "minsize") :=
    (e.unclassed_pairTag (by decide) .minSize).not_has hR
  have label : Unclassed (e.textTag .label "label" ++ e.flagTag .checked tag) := by simp [h]
  rw [contents, Xml.has_append, Xml.has_append, or_iff_left size, or_iff_right orientation,
    hR.has_element (by decide), Xml.has_object]
  exact or_iff_left (label.not_has hR)

theorem has_buttonSizerPart :
    Has R e.buttonSizerPart.contents ↔ e.buttons ≠ [] ∧ R true (some "wxButton") := by
  let button (id : String) : Xml :=
    (Part.ofClass "button"
      [.element "object" [("class", "wxButton"), ("name", id)] none []]).object
  have one (id : String) : Has R [button id] ↔ R true (some "wxButton") := by
    rw [Xml.has_object, Part.ofClass, Xml.has_element, or_iff_left Xml.not_has_nil]
    exact or_iff_right (hR.wrapper "button" (by decide))
  have all (ids : List String) :
      Has R (ids.map button) ↔ ids ≠ [] ∧ R true (some "wxButton") := by
    induction ids with
    | nil => simp [Xml.not_has_nil]
    | cons id ids ih =>
      rw [List.map_cons, Xml.has_cons, one, ih]
      simp
  exact all e.buttons

/-- The own part of a node has its controls in it. -/
theorem has_contents_own {comments : Bool} {above : List Element} {p : Part}
    (own : (e.resourceShape comments above).own? = some p) :
    Has R p.contents ↔ ∃ c ∈ e.controlClasses, R true (some c) := by
  by_cases checkbox : e.kind = .staticCheckboxBoxSizer
  · have hp : p = e.boxSizerPart := by
      rw [resourceShape, shape, checkbox] at own
      exact (Option.some.inj ((e.own?_placed ..).symm.trans own)).symm
    have classes : e.controlClasses = ["wxCheckBox"] := by rw [controlClasses, checkbox]
    rw [hp, classes, has_boxSizerPart hR "checked" (by decide)
      (by rw [boxSizerPart, checkbox]; rfl)]
    simp
  by_cases radio : e.kind = .staticRadioBtnBoxSizer
  · have hp : p = e.boxSizerPart := by
      rw [resourceShape, shape, radio] at own
      exact (Option.some.inj ((e.own?_placed ..).symm.trans own)).symm
    have classes : e.controlClasses = ["wxRadioButton"] := by rw [controlClasses, radio]
    rw [hp, classes, has_boxSizerPart hR "value" (by decide)
      (by rw [boxSizerPart, radio]; rfl)]
    simp
  by_cases buttons : e.kind = .stdDialogButtonSizer
  · have hp : p = e.buttonSizerPart := by
      rw [resourceShape, shape, buttons] at own
      exact (Option.some.inj ((e.own?_placed ..).symm.trans own)).symm
    have classes : e.controlClasses = if e.buttons = [] then [] else ["wxButton"] := by
      rw [controlClasses, buttons]
    rw [hp, classes, has_buttonSizerPart hR]
    split <;> simp [*]
  have none : e.controlClasses = [] := by
    unfold controlClasses
    split <;> simp_all
  rw [none]
  simpa using (e.unclassed_own comments above checkbox radio buttons p own).not_has hR

/-- The object of a node has the class of the node, its controls, and what is put into it. -/
theorem has_own {comments : Bool} {above : List Element} {p : Part}
    (own : (e.resourceShape comments above).own? = some p) (more : List Xml) :
    Has R [(p.extend more).object] ↔
      (∃ c ∈ e.kind.objectClass? :: e.controlClasses.map some, R true c) ∨ Has R more := by
  rw [Xml.has_extend, (isOwn_of_own? own).class_eq, has_contents_own hR own]
  simp [or_assoc]

/-- Menus below a tool have a class, unlike the other windows around children. -/
theorem has_container {leafless : Bool} {children : List Xml}
    (leaf : leafless = true → children = []) :
    Has R (e.container leafless children) ↔
      (∃ c ∈ e.menuClasses leafless, R true (some c)) ∨ Has R children := by
  unfold container
  split
  · next pane =>
    have none : e.menuClasses leafless = [] := by rw [menuClasses, pane]
    have wrapper : ¬R true (some "panewindow") := hR.wrapper _ (by decide)
    rw [none, paneWindow, Xml.has_object]
    simp [Part.ofClass, wrapper]
  · next dropdown =>
    have classes : e.menuClasses leafless = if leafless then [] else ["wxMenu"] := by
      rw [menuClasses, dropdown]
    rw [classes]
    cases leafless with
    | true => simp [leaf rfl]
    | false =>
      rw [if_neg Bool.false_ne_true, if_neg Bool.false_ne_true, dropdownMenu,
        hR.has_element (by decide), Xml.has_object]
      simp [Part.ofClass]
  · next dropdown =>
    have none : e.menuClasses leafless = [] := by
      unfold menuClasses
      split
      · next tool => exact absurd tool dropdown
      · rfl
    simp [none]

omit hR in
theorem has_settle (e : Element) (sprouts : List Sprout) :
    Has R (e.settle sprouts).1 ∨ Has R ((e.settle sprouts).2.map Sprout.xml)
      ↔ Has R (sprouts.map Sprout.xml) := by
  rw [← Xml.has_append]
  exact Xml.has_perm (e.perm_settle sprouts)

theorem has_sizerItem (e : Element) (more : List Xml) :
    Has R [(e.sizerItem.extend more).object] ↔ Has R more :=
  hR.has_extend (p := e.sizerItem) rfl (by decide) e.unclassed_sizerItemTags more

omit hR in
theorem pageClass_mem_wrapperClasses (book : Option Kind) : pageClass book ∈ wrapperClasses := by
  unfold pageClass
  split <;> decide

theorem has_page (e : Element) (comments : Bool) (book : Option Kind) (more : List Xml) :
    Has R [((e.pagePart comments book).extend more).object] ↔ Has R more :=
  hR.has_extend rfl (pageClass_mem_wrapperClasses book) (e.unclassed_pagePart comments book) more

end Element

namespace Growth

variable {comments : Bool} {above : List Element} {trail : Trail} {depth : Nat} {e : Element}
  {leafless : Bool} {grove : Bool → Trail → Grove}

theorem placement_around :
    (around comments above trail depth e leafless grove).placement = .notSupported
      ↔ e.isWritten comments = false := by
  have holds := e.holdsChildren_resourceShape comments above
  unfold around assemble Element.isWritten
  dsimp only
  cases hd : e.kind.isDescribed with
  | true =>
    rw [hd] at holds
    cases hs : e.resourceShape comments above with
    | absent | remark object => rw [hs] at holds; cases holds
    | plain object | wrapped outer inner => exact iff_of_false nofun nofun
  | false =>
    unfold Element.resourceShape Element.shape
    cases hk : e.kind
    case images => cases comments <;> exact iff_of_true rfl rfl
    case timer | contextMenuEvent | popupTransientWindow =>
      cases comments with
      | true => exact iff_of_false nofun nofun
      | false => exact iff_of_true rfl rfl
    all_goals
      rw [hk] at hd
      cases hd

/-- The objects of a node that the resource describes are those of the node itself and those below
it. -/
theorem has_around (hR : IgnoresWrappers R) (described : e.kind.isDescribed = true)
    (leaf : leafless = true → ∀ flatten inner, (grove flatten inner).sprouts = []) :
    Has R ((around comments above trail depth e leafless grove).object.object
        :: (around comments above trail depth e leafless grove).pages.map Sprout.xml)
      ↔ (∃ c ∈ e.classes comments leafless, R true c) ∨ Has R
          ((grove (Element.flattensFolders (e.resourceShape comments above) e)
              (trail.enter e ((above.find? fun a => a.kind.isBook).map Element.kind)
                depth)).sprouts.map Sprout.xml) := by
  have shaped := e.shaped_resourceShape comments above
  have classes : e.classes comments leafless = e.kind.objectClass?
      :: (e.controlClasses ++ e.menuClasses leafless).map some := if_pos described
  have hown (p : Part) (hp : (e.resourceShape comments above).own? = some p) (more : List Xml) :=
    Element.has_own hR hp more
  unfold around
  dsimp only
  generalize hs : e.resourceShape comments above = s at shaped hown ⊢
  have held (flatten : Bool) (inner : Trail) :
      Has R (e.container leafless (e.settle (grove flatten inner).sprouts).1) ∨
          Has R ((e.settle (grove flatten inner).sprouts).2.map Sprout.xml)
        ↔ (∃ c ∈ e.menuClasses leafless, R true (some c)) ∨
          Has R ((grove flatten inner).sprouts.map Sprout.xml) := by
    rw [Element.has_container hR fun h => ?_, or_assoc, e.has_settle]
    rw [leaf h]
    unfold Element.settle
    split <;> rfl
  have regroup (below : Prop) :
      (∃ c ∈ e.kind.objectClass? :: e.controlClasses.map some, R true c) ∨
          (∃ c ∈ e.menuClasses leafless, R true (some c)) ∨ below
        ↔ (∃ c ∈ e.kind.objectClass? :: (e.controlClasses ++ e.menuClasses leafless).map some,
          R true c) ∨ below := by
    simp [or_and_right, exists_or, or_assoc]
  rw [Xml.has_cons, classes, ← regroup]
  -- the item or page around the object of the node does not count in any shape
  cases shaped with
  | absent h => cases h.symm.trans described
  | remark h => cases h.symm.trans described
  | own _ _ inSizer own =>
    cases inSizer with
    | false =>
      show Has R [(Part.extend _ _).object] ∨ _ ↔ _
      rw [hown _ rfl, or_assoc]
      exact or_congr_right (held _ _)
    | true =>
      show Has R [(Part.extend _ [(Part.extend _ _).object]).object] ∨ _ ↔ _
      rw [Element.has_sizerItem hR, hown _ rfl, or_assoc]
      exact or_congr_right (held _ _)
  | page _ book own =>
    show Has R [(Part.extend _ [(Part.extend _ _).object]).object] ∨ _ ↔ _
    rw [Element.has_page hR, hown _ rfl, or_assoc]
    exact or_congr_right (held _ _)

/-- The depth of a page is no object. -/
theorem has_asPage (hR : IgnoresWrappers R) (g : Growth) (depth : Nat) :
    Has R ((g.asPage depth).sprouts.map Sprout.xml)
      ↔ Has R (g.object.object :: g.pages.map Sprout.xml) := by
  have tag : ¬Has R [.leaf "depth" (toString depth)] :=
    (unclassed_leaf (by decide) _).not_has hR
  have object (p : Part) :
      Has R [Part.object { p with contents := .leaf "depth" (toString depth) :: p.contents }]
        ↔ Has R [p.object] := by
    rw [Xml.has_object, Xml.has_object, Xml.has_cons, or_iff_right tag]
  rw [asPage, List.map_cons, Xml.has_cons, Xml.has_cons g.object.object]
  exact or_congr_left (object g.object)

/-- A remark stands in a sizer of its own. -/
theorem has_placedRemark (hR : IgnoresWrappers R) (e : Element) (inSizer : Bool)
    {object part : Part} (class_eq : object.attributes.lookup "class" = some "wxBoxSizer")
    (contents : ∃ text, object.contents = [.comment text])
    (hp : e.placedRemark inSizer object = .remark part) :
    Has R [part.object] ↔ R true (some "wxBoxSizer") := by
  obtain ⟨text, contents⟩ := contents
  have self : Has R [object.object] ↔ R true (some "wxBoxSizer") := by
    rw [Xml.has_object, class_eq, contents]
    exact or_iff_left ((unclassed_comment text).not_has hR)
  cases inSizer with
  | false =>
    obtain rfl : object = part := Shape.remark.inj hp
    exact self
  | true =>
    obtain rfl : e.sizerItem.extend [object.object] = part := Shape.remark.inj hp
    rwa [Element.has_sizerItem hR]

/-- What is written for a child of another node, and below it. -/
theorem has_asChild (hR : IgnoresWrappers R)
    (leaf : leafless = true → ∀ flatten inner, (grove flatten inner).sprouts = []) :
    Has R ((around comments above trail depth e leafless grove).asChild.sprouts.map Sprout.xml)
      ↔ (∃ c ∈ e.classes comments leafless, R true c) ∨ e.kind.isDescribed = true ∧ Has R
          ((grove (Element.flattensFolders (e.resourceShape comments above) e)
              (trail.enter e ((above.find? fun a => a.kind.isBook).map Element.kind)
                depth)).sprouts.map Sprout.xml) := by
  have placement : (around comments above trail depth e leafless grove).placement = .notSupported
      ↔ e.isWritten comments = false := placement_around
  cases described : e.kind.isDescribed with
  | true =>
    have supported :
        (around comments above trail depth e leafless grove).placement ≠ .notSupported := by
      rw [Ne, placement, Element.isWritten, described]
      intro h
      cases h
    rw [asChild, if_neg supported, and_iff_right rfl, ← has_around hR described leaf]
    rfl
  | false =>
    have shaped := e.shaped_resourceShape comments above
    rw [or_iff_left (by simp), Element.classes, if_neg (by simp [described])]
    cases written : e.isWritten comments with
    | false =>
      rw [asChild, if_pos (placement.2 written)]
      simp [Xml.not_has_nil]
    | true =>
      have supported : ¬(around comments above trail depth e leafless grove).placement
          = .notSupported := by
        rw [placement, written]
        intro h
        cases h
      rw [asChild, if_neg supported, if_pos rfl]
      unfold around at supported ⊢
      dsimp only at supported ⊢
      generalize hs : e.resourceShape comments above = s at shaped supported ⊢
      cases shaped with
      | absent => exact absurd rfl supported
      | @remark _ inSizer object class_eq contents =>
        obtain ⟨part, hp⟩ : ∃ part, e.placedRemark inSizer object = .remark part := ⟨_, rfl⟩
        have self := has_placedRemark hR e inSizer class_eq contents hp
        rw [hp]
        show Has R [part.object] ↔ _
        simpa using self
      | own h => cases h.symm.trans described
      | page page =>
        rw [page] at described
        cases described

end Growth

/-! ## All nodes of a design -/

mutual

/-- The classes that are written for a child and below it. A folder leaves no trace where it is
dissolved, and nothing is written below a node that the resource cannot describe. -/
def classesOf (comments flatten : Bool) (above : List Element) : Design → List (Option String)
  | .mk e cs =>
    if flatten && e.kind = .folder then classesOfAll comments true (e :: above) cs
    else
      e.classes comments cs.isEmpty
        ++ if e.kind.isDescribed then
          classesOfAll comments (Element.flattensFolders (e.resourceShape comments above) e)
            (e :: above) cs
        else []

/-- The classes that are written for some children and below them. -/
def classesOfAll (comments flatten : Bool) (above : List Element) :
    List Design → List (Option String)
  | [] => []
  | b :: bs => classesOf comments flatten above b ++ classesOfAll comments flatten above bs

end

mutual

theorem has_growChild (hR : IgnoresWrappers R) (comments : Bool) (parent : Element)
    (flatten : Bool) (above : List Element) (trail : Trail) (b : Design) :
    Has R ((growChild comments parent flatten above trail b).sprouts.map Sprout.xml)
      ↔ ∃ c ∈ classesOf comments flatten above b, R true c := by
  cases b with
  | mk e cs =>
    have below (flatten : Bool) (inner : Trail) :
        Has R ((growAll comments e flatten (e :: above) inner cs).sprouts.map Sprout.xml)
          ↔ ∃ c ∈ classesOfAll comments flatten (e :: above) cs, R true c :=
      has_growAll hR comments e flatten (e :: above) inner cs
    have leaf (h : cs.isEmpty = true) (flatten : Bool) (inner : Trail) :
        (growAll comments e flatten (e :: above) inner cs).sprouts = [] :=
      sprouts_growAll_of_isEmpty h
    rw [growChild, classesOf]
    dsimp only
    split
    · exact below true trail
    · split
      · next hpage =>
        have page : e.kind = .bookPage := by
          simp only [Bool.and_eq_true, decide_eq_true_eq] at hpage
          exact hpage.1.2
        have described : e.kind.isDescribed = true := by
          rw [page]
          rfl
        rw [Growth.has_asPage hR, Growth.has_around hR described leaf, below, if_pos described]
        simp only [List.mem_append, or_and_right, exists_or]
      · rw [Growth.has_asChild hR leaf, below]
        cases described : e.kind.isDescribed <;> simp [or_and_right, exists_or]

/-- An element is among what siblings grow into exactly if its class is written for them. -/
theorem has_growAll (hR : IgnoresWrappers R) (comments : Bool) (parent : Element)
    (flatten : Bool) (above : List Element) (trail : Trail) (bs : List Design) :
    Has R ((growAll comments parent flatten above trail bs).sprouts.map Sprout.xml)
      ↔ ∃ c ∈ classesOfAll comments flatten above bs, R true c := by
  cases bs with
  | nil => simp [growAll, classesOfAll, Grove.empty, Xml.not_has_nil]
  | cons b bs =>
    rw [growAll, classesOfAll, Grove.append, List.map_append, Xml.has_append,
      has_growChild hR comments parent flatten above trail b,
      has_growAll hR comments parent flatten above trail bs]
    simp only [List.mem_append, or_and_right, exists_or]

end

/-! ## Documents -/

namespace ResourceDocument

/-- Around its objects a document has no objects. -/
theorem has_nodes (hR : IgnoresWrappers R) (d : ResourceDocument) :
    Has R d.nodes ↔ Has R (d.objects.getD []) := by
  have banner : ¬Has R (if d.banner then bannerComments else []) := by
    cases d.banner <;> exact nofun
  rw [nodes, Xml.has_append, or_iff_right banner]
  cases d.objects with
  | none => exact Iff.rfl
  | some objects =>
    show Has R [resourceElement objects] ↔ Has R objects
    rw [resourceElement, Xml.has_element]
    exact or_iff_right hR.unclassed

/-- What is added for a design has the classes that are written for it. A project, which is
dissolved, has no class itself. -/
theorem has_addition (hR : IgnoresWrappers R) (classless : ¬R true none) (comments : Bool)
    (above : List Element) (b : Design) :
    Has R (addition comments false above b).objects
      ↔ ∃ c ∈ classesOf comments false above b, R true c := by
  obtain ⟨e, cs⟩ := b
  have leaf (h : cs.isEmpty = true) (flatten : Bool) (inner : Trail) :
      (growAll comments e flatten (e :: above) inner cs).sprouts = [] :=
    sprouts_growAll_of_isEmpty h
  have grown : Has R ((grow comments above (.mk e cs)).asChild.sprouts.map Sprout.xml)
      ↔ ∃ c ∈ classesOf comments false above (.mk e cs), R true c := by
    rw [classesOf, if_neg (by simp), grow]
    dsimp only [Branch.label, Branch.children]
    rw [Growth.has_asChild hR leaf, has_growAll hR]
    cases e.kind.isDescribed <;> simp [or_and_right, exists_or]
  have object : (grow comments above (.mk e cs)).asChild.sprouts.map Sprout.xml
      = if (grow comments above (.mk e cs)).placement = .notSupported then []
        else [(grow comments above (.mk e cs)).object.object] := by
    rw [Growth.asChild, pages_grow]
    split <;> rfl
  rw [← grown, object, objects_addition]
  split
  · next project =>
    have hk : e.kind = .project := project
    have supported : ¬(grow comments above (.mk e cs)).placement = .notSupported := by
      rw [grow, Growth.placement_around, Branch.label, Element.isWritten, hk]
      intro h
      cases h
    have attributes : (grow comments above (.mk e cs)).object.attributes = [] :=
      attributes_grow_of_grouping (by rw [project]; rfl)
    rw [if_neg supported, Xml.has_object, attributes]
    exact (or_iff_right classless).symm
  · rfl

end ResourceDocument

end FormDesign
