import FormDesign.Proofs.Resource.Names

/-!
# What nodes become

The shape of a node is told by its kind and by what it stands in: nothing, a remark, the object of
the node, or that object in an item of a sizer or in the page of a book.

* `Unclassed`, `Detailed`: what is written for the properties of a node
* `Element.IsOwn`: the object of a node itself, with the class of its kind
* `Element.shaped_resourceShape`: a node has one of these shapes
* `isObject_growAll`: everything that siblings grow into is an object
-/

namespace FormDesign

namespace Xml

/-- The class of an object. -/
def class? (x : Xml) : Option String :=
  x.attribute? "class"

/-- Whether a node is an element named `object`. -/
def isObject (x : Xml) : Bool :=
  x.name? == some "object"

def children : Xml → List Xml
  | .element _ _ _ children => children
  | .comment _ => []

/-- The objects right below a node. -/
def objects (x : Xml) : List Xml :=
  x.children.filter isObject

end Xml

/-! ## What is written for properties -/

/-- Nothing in the nodes is an object or has a class. -/
def Unclassed (xs : List Xml) : Prop :=
  ∀ x ∈ Xml.elementsAll xs, x.isObject = false ∧ x.class? = none

@[simp] theorem unclassed_nil : Unclassed [] :=
  nofun

@[simp] theorem unclassed_append (xs ys : List Xml) :
    Unclassed (xs ++ ys) ↔ Unclassed xs ∧ Unclassed ys := by
  unfold Unclassed
  rw [Xml.elementsAll_append, List.forall_mem_append]

theorem unclassed_cons (x : Xml) (xs : List Xml) :
    Unclassed (x :: xs) ↔ Unclassed [x] ∧ Unclassed xs :=
  unclassed_append [x] xs

@[simp] theorem unclassed_comment (text : String) : Unclassed [.comment text] :=
  nofun

theorem unclassed_element {name : String} (h : name ≠ "object")
    {attributes : List (String × String)} (other : attributes.lookup "class" = none)
    (text : Option String) {children : List Xml} (below : Unclassed children) :
    Unclassed [.element name attributes text children] := by
  intro x hx
  rw [Xml.elementsAll, Xml.elementsAll, List.append_nil, Xml.elements] at hx
  rcases List.mem_cons.1 hx with rfl | hx
  · exact ⟨beq_false_of_ne fun heq => h (Option.some.inj heq), other⟩
  · exact below x hx

theorem unclassed_leaf {name : String} (h : name ≠ "object") (text : String) :
    Unclassed [.leaf name text] :=
  unclassed_element h rfl _ unclassed_nil

@[simp] theorem unclassed_leaf_cons {name : String} (h : name ≠ "object") (text : String)
    (xs : List Xml) : Unclassed (.leaf name text :: xs) ↔ Unclassed xs := by
  rw [unclassed_cons, and_iff_right (unclassed_leaf h text)]

@[simp] theorem unclassed_ite (c : Prop) [Decidable c] {xs ys : List Xml} (hx : Unclassed xs)
    (hy : Unclassed ys) : Unclassed (if c then xs else ys) := by
  split
  · exact hx
  · exact hy

/-- There is no object among the nodes. -/
theorem Unclassed.filter_isObject {xs : List Xml} (h : Unclassed xs) :
    xs.filter Xml.isObject = [] := by
  induction xs with
  | nil => rfl
  | cons x xs ih =>
    obtain ⟨hx, hxs⟩ := (unclassed_cons x xs).1 h
    have other : ¬x.isObject = true := by
      cases x with
      | comment text => exact nofun
      | element name attributes text children =>
        rw [(hx _ List.mem_cons_self).1]
        exact Bool.false_ne_true
    rw [List.filter_cons_of_neg other, ih hxs]

namespace Element

variable (e : Element) {tag : String} (h : tag ≠ "object")

include h

@[simp] theorem unclassed_textTag (p : Property) : Unclassed (e.textTag p tag) := by
  simp [textTag, h]

@[simp] theorem unclassed_flagTag (p : Property) : Unclassed (e.flagTag p tag) := by
  simp [flagTag, h]

@[simp] theorem unclassed_pairTag (p : Property) : Unclassed (e.pairTag p tag) := by
  unfold pairTag
  split <;> simp [h]

theorem unclassed_imageTag (d : ImageDescription) : Unclassed [imageTag tag d] := by
  unfold imageTag
  cases d.kind with
  | art =>
    obtain ⟨id, client⟩ := d.artParts
    cases client <;> exact unclassed_element h rfl none unclassed_nil
  | svg => cases d.size <;> exact unclassed_element h rfl _ unclassed_nil
  | embed | xpm | header => exact unclassed_leaf h _

@[simp] theorem unclassed_bitmapTag (comments : Bool) (p : Property) :
    Unclassed (e.bitmapTag comments p tag) := by
  unfold bitmapTag
  split
  · exact unclassed_nil
  · split
    · exact unclassed_imageTag h _
    · simp

omit h

@[simp] theorem unclassed_placementTags (implied : String) :
    Unclassed (e.placementTags implied) := by
  simp [placementTags]

@[simp] theorem unclassed_windowTags (comments : Bool) : Unclassed (e.windowTags comments) := by
  simp [windowTags]

@[simp] theorem unclassed_orientationTag : Unclassed [e.orientationTag] := by
  simp [orientationTag]

@[simp] theorem unclassed_sizerItemTags : Unclassed e.sizerItemTags := by
  simp [sizerItemTags]

@[simp] theorem unclassed_gridTags : Unclassed e.gridTags := by
  simp [gridTags]

theorem unclassed_items (items : List String) : Unclassed (items.map (Xml.leaf "item")) := by
  induction items with
  | nil => exact unclassed_nil
  | cons item items ih => exact (unclassed_cons _ _).2 ⟨by simp, ih⟩

@[simp] theorem unclassed_choiceTags : Unclassed e.choiceTags := by
  have content (items : List String) :
      Unclassed [.element "content" [] none (items.map (Xml.leaf "item"))] :=
    unclassed_element (by decide) rfl none (unclassed_items items)
  simp [choiceTags, content]

@[simp] theorem unclassed_kindTags (comments : Bool) : Unclassed (e.kindTags comments) := by
  have animation (d : Option ImageDescription) :
      Unclassed (d.map fun d => Xml.leaf "animation" d.path).toList := by
    cases d <;> simp
  unfold kindTags
  split
  all_goals simp [animation]

end Element

/-! ## The object of a node -/

/-- The class of the object of a node. Project and folders have no class. -/
def Kind.objectClass? : Kind → Option String
  | .project | .folder => none
  | .spacer => some "spacer"
  | .separator | .toolSeparator => some "separator"
  | .tool | .toolDropdown => some "tool"
  | .ribbonButton => some "button"
  | .customControl => some "unknown"
  | k => some k.className

/-- The classes of buttons that are written for the properties of a sizer. -/
def buttonClasses : List String :=
  ["wxCheckBox", "wxRadioButton", "button", "wxButton"]

/-- An element inside of the object of a node: it is no object and has no class, or it is a
button. -/
def Xml.IsDetail (x : Xml) : Prop :=
  x.isObject = false ∧ x.class? = none ∨ ∃ c ∈ buttonClasses, x.class? = some c

/-- Everything in the nodes is of this form. -/
def Detailed (xs : List Xml) : Prop :=
  ∀ x ∈ Xml.elementsAll xs, x.IsDetail

theorem detailed_append (xs ys : List Xml) :
    Detailed (xs ++ ys) ↔ Detailed xs ∧ Detailed ys := by
  unfold Detailed
  rw [Xml.elementsAll_append, List.forall_mem_append]

theorem Unclassed.detailed {xs : List Xml} (h : Unclassed xs) : Detailed xs :=
  fun x hx => Or.inl (h x hx)

namespace Element

/-- The part of a node itself: the class of its kind, and what is written for its properties. -/
structure IsOwn (e : Element) (p : Part) : Prop where
  class_eq : p.attributes.lookup "class" = e.kind.objectClass?
  details : Detailed p.contents
  objects : e.kind ≠ .stdDialogButtonSizer → p.contents.filter Xml.isObject = []

variable {e : Element}

theorem IsOwn.of_unclassed {p : Part} (class_eq : p.attributes.lookup "class" = e.kind.objectClass?)
    (h : Unclassed p.contents) : e.IsOwn p where
  class_eq := class_eq
  details := h.detailed
  objects _ := h.filter_isObject

theorem isOwn_part {className : String} (class_eq : e.kind.objectClass? = some className)
    {contents : List Xml} (h : Unclassed contents) : e.IsOwn (e.part className contents) :=
  .of_unclassed class_eq.symm h

theorem isOwn_ofClass {className : String} (class_eq : e.kind.objectClass? = some className)
    {contents : List Xml} (h : Unclassed contents) : e.IsOwn (.ofClass className contents) :=
  .of_unclassed class_eq.symm h

theorem isOwn_widgetPart (class_eq : e.kind.objectClass?
      = some (if e.kind = .customControl then "unknown" else e.kind.className)) (comments : Bool) :
    e.IsOwn (e.widgetPart comments) :=
  isOwn_part class_eq (by simp)

/-- The label of a box may be a button, which stands in an element of its own. -/
theorem isOwn_boxSizerPart (class_eq : e.kind.objectClass? = some "wxStaticBoxSizer") :
    e.IsOwn e.boxSizerPart := by
  have around {label : List Xml} (h : Detailed label) (none : label.filter Xml.isObject = []) :
      e.IsOwn (e.part "wxStaticBoxSizer"
        ([e.orientationTag] ++ label ++ e.pairTag .minSize "minsize")) := by
    have first : Unclassed [e.orientationTag] := e.unclassed_orientationTag
    have last : Unclassed (e.pairTag .minSize "minsize") := by simp
    refine ⟨class_eq.symm, ?_, fun _ => ?_⟩
    · exact (detailed_append ..).2 ⟨(detailed_append ..).2 ⟨first.detailed, h⟩, last.detailed⟩
    · rw [part, List.filter_append, List.filter_append, none, first.filter_isObject,
        last.filter_isObject]
      rfl
  have control {className : String} (h : className ∈ buttonClasses) {tag : String}
      (other : tag ≠ "object") :
      Detailed [.element "windowlabel" [] none
        [(Part.ofClass className
          (e.textTag .label "label" ++ e.flagTag .checked tag)).object]] := by
    intro x hx
    simp only [Xml.elementsAll, Xml.elements, Part.object, Part.ofClass, List.append_nil,
      List.mem_cons] at hx
    rcases hx with rfl | rfl | hx
    · exact Or.inl ⟨rfl, rfl⟩
    · exact Or.inr ⟨className, h, rfl⟩
    · exact Unclassed.detailed (by simp [other]) x hx
  have label : Unclassed (e.textTag .label "label") := by simp
  unfold boxSizerPart
  split
  · exact around (control (by simp [buttonClasses]) (by decide)) rfl
  · exact around (control (by simp [buttonClasses]) (by decide)) rfl
  · exact around label.detailed label.filter_isObject

/-- The buttons of a dialog are objects inside of objects. -/
theorem isOwn_buttonSizerPart (kind : e.kind = .stdDialogButtonSizer) :
    e.IsOwn e.buttonSizerPart := by
  let button (id : String) : Xml :=
    (Part.ofClass "button"
      [.element "object" [("class", "wxButton"), ("name", id)] none []]).object
  have buttons (ids : List String) : Detailed (ids.map button) := by
    intro x hx
    induction ids with
    | nil => cases hx
    | cons id ids ih =>
      simp only [button, List.map_cons, Xml.elementsAll, Xml.elements, Part.object, Part.ofClass,
        List.append_nil, List.mem_append, List.mem_cons, List.not_mem_nil, or_false] at hx
      rcases hx with (rfl | rfl) | hx
      · exact Or.inr ⟨"button", by simp [buttonClasses], rfl⟩
      · exact Or.inr ⟨"wxButton", by simp [buttonClasses], rfl⟩
      · exact ih hx
  exact ⟨by rw [kind]; rfl, buttons e.buttons, fun h => absurd kind h⟩

theorem unclassed_windowPart (comments : Bool) : Unclassed (e.windowPart comments).contents := by
  have center : Unclassed
      (if e.text .center = "" then []
        else if e.text .center = "no" then [.leaf "centered" "0"]
        else
          (if comments && (e.text .center = "wxVERTICAL" || e.text .center = "wxHORIZONTAL") then
              [.comment (" " ++ e.text .center ++ " cannot be set in the XRC file. ")]
            else [])
            ++ [.leaf "centered" "1"]) := by
    split
    · exact unclassed_nil
    · split <;> simp
  simp only [windowPart, part, unclassed_append, center]
  simp

theorem unclassed_toolPart (comments : Bool) : Unclassed (e.toolPart comments).contents := by
  have picture : Unclassed (if e.hasValue .bitmap then e.bitmapTag comments .bitmap "bitmap"
      else [.element "bitmap" [("stock_id", "wxART_QUESTION"), ("stock_client", "wxART_TOOLBAR")]
        none []]) :=
    unclassed_ite _ (by simp) (unclassed_element (by decide) rfl none unclassed_nil)
  have kind : Unclassed (if e.text .kind = "wxITEM_RADIO" then [.leaf "radio" "1"]
      else if e.text .kind = "wxITEM_CHECK" then [.leaf "toggle" "1"]
      else if e.text .kind = "wxITEM_DROPDOWN" then [.leaf "dropdown" "1"] else []) := by
    split
    · simp
    · split <;> simp
  simp only [toolPart, part, unclassed_append, picture, kind]
  simp

theorem unclassed_menuItemPart (comments : Bool) :
    Unclassed (e.menuItemPart comments).contents := by
  have kind : Unclassed (if e.text .kind = "wxITEM_CHECK" then [.leaf "checkable" "1"]
      else if e.text .kind = "wxITEM_RADIO" then [.leaf "radio" "1"] else []) := by
    split
    · simp
    · split <;> simp
  simp only [menuItemPart, part, unclassed_append, kind]
  simp

theorem unclassed_panelPart (comments : Bool) : Unclassed (e.panelPart comments).contents := by
  simp [panelPart, part]

theorem unclassed_pagePart (comments : Bool) (book : Option Kind) :
    Unclassed (e.pagePart comments book).contents := by
  simp [pagePart, Part.ofClass]

/-! ## Shapes -/

/-- The shapes of a node: nothing or a remark if the resource cannot describe it, the object of the
node with or without an item of a sizer around it, or the object in the page of a book. -/
inductive Shaped (e : Element) (comments : Bool) : Shape → Prop
  | absent (h : e.kind.isDescribed = false) : Shaped e comments .absent
  | remark (h : e.kind.isDescribed = false) (inSizer : Bool) {object : Part}
      (class_eq : object.attributes.lookup "class" = some "wxBoxSizer")
      (contents : ∃ text, object.contents = [.comment text]) :
      Shaped e comments (e.placedRemark inSizer object)
  | own (h : e.kind.isDescribed = true) (other : e.kind ≠ .bookPage) (inSizer : Bool)
      {object : Part} (own : e.IsOwn object) : Shaped e comments (e.placed inSizer object)
  | page (page : e.kind = .bookPage) (book : Option Kind) {object : Part} (own : e.IsOwn object) :
      Shaped e comments (.wrapped (e.pagePart comments book) object)

namespace Shaped

variable {comments : Bool} {object outer inner : Part}

theorem isOwn_of_plain (h : e.Shaped comments (.plain object)) : e.IsOwn object := by
  generalize hs : Shape.plain object = s at h
  cases h with
  | absent | remark | page => cases hs
  | own _ _ inSizer own =>
    cases inSizer with
    | true => cases hs
    | false => exact Shape.plain.inj hs ▸ own

theorem isOwn_of_wrapped (h : e.Shaped comments (.wrapped outer inner)) : e.IsOwn inner := by
  generalize hs : Shape.wrapped outer inner = s at h
  cases h with
  | absent | remark => cases hs
  | own _ _ inSizer own =>
    cases inSizer with
    | true => exact (Shape.wrapped.inj hs).2 ▸ own
    | false => cases hs
  | page _ _ own => exact (Shape.wrapped.inj hs).2 ▸ own

theorem not_described_of_remark (h : e.Shaped comments (.remark object)) :
    e.kind.isDescribed = false := by
  generalize hs : Shape.remark object = s at h
  cases h with
  | absent | page => cases hs
  | remark undescribed => exact undescribed
  | own _ _ inSizer => cases inSizer <;> cases hs

end Shaped

/-- **A node has one of these shapes.** -/
theorem shaped_resourceShape (e : Element) (comments : Bool) (above : List Element) :
    e.Shaped comments (e.resourceShape comments above) := by
  have placed {object : Part} (h : e.kind.isDescribed = true ∧ e.kind ≠ .bookPage) (inSizer : Bool)
      (own : e.IsOwn object) : e.Shaped comments (e.placed inSizer object) :=
    .own h.1 h.2 inSizer own
  have plain {object : Part} (h : e.kind.isDescribed = true ∧ e.kind ≠ .bookPage)
      (own : e.IsOwn object) : e.Shaped comments (.plain object) := placed h false own
  have pair {x : Xml} {xs : List Xml} (hx : Unclassed [x]) (hxs : Unclassed xs) :
      Unclassed (x :: xs) := (unclassed_cons x xs).2 ⟨hx, hxs⟩
  unfold resourceShape shape
  cases hk : e.kind
  case project | folder =>
    exact plain (by rw [hk]; decide) (.of_unclassed (by rw [hk]; rfl) unclassed_nil)
  case images => exact .absent (by rw [hk]; rfl)
  case timer | contextMenuEvent =>
    cases comments with
    | true => exact .remark (by rw [hk]; rfl) _ rfl ⟨_, rfl⟩
    | false => exact .absent (by rw [hk]; rfl)
  case popupTransientWindow => exact .remark (by rw [hk]; rfl) _ rfl ⟨_, rfl⟩
  case bookPage => exact .page hk _ (.of_unclassed (by rw [hk]; rfl) (e.unclassed_panelPart _))
  case dialog | frame =>
    exact plain (by rw [hk]; decide)
      (.of_unclassed (by rw [windowPart, hk]; rfl) (e.unclassed_windowPart _))
  case panelForm =>
    exact plain (by rw [hk]; decide) (.of_unclassed (by rw [hk]; rfl) (e.unclassed_panelPart _))
  case spacer =>
    exact plain (by rw [hk]; decide) (isOwn_ofClass (by rw [hk]; rfl) (pair (by simp) (by simp)))
  case menuItem =>
    exact plain (by rw [hk]; decide) (.of_unclassed (by rw [hk]; rfl) (e.unclassed_menuItemPart _))
  case tool | toolDropdown =>
    exact plain (by rw [hk]; decide) (.of_unclassed (by rw [hk]; rfl) (e.unclassed_toolPart _))
  case wizard | menu | subMenu | ribbonButton =>
    exact plain (by rw [hk]; decide) (isOwn_part (by rw [hk]; rfl) (by simp))
  case separator | toolSeparator =>
    exact plain (by rw [hk]; decide) (isOwn_ofClass (by rw [hk]; rfl) unclassed_nil)
  case boxSizer | verticalBoxSizer =>
    exact placed (by rw [hk]; decide) _ (isOwn_part (by rw [hk]; rfl) (pair (by simp) (by simp)))
  case menuBarForm | menuBar | toolBarForm | toolBar | auiToolBar | gridSizer | flexGridSizer =>
    exact placed (by rw [hk]; decide) _ (isOwn_part (by rw [hk]; rfl) (by simp))
  case staticBoxSizer | staticCheckboxBoxSizer | staticRadioBtnBoxSizer =>
    exact placed (by rw [hk]; decide) _ (isOwn_boxSizerPart (by rw [hk]; rfl))
  case stdDialogButtonSizer => exact placed (by rw [hk]; decide) _ (isOwn_buttonSizerPart hk)
  all_goals exact placed (by rw [hk]; decide) _ (isOwn_widgetPart (by rw [hk]; rfl) comments)

end Element

/-! ## What children grow into -/

/-- What holds of all that the children of a node grow into holds of the pages that move on. -/
theorem Growth.forall_mem_pages_around {P : Sprout → Prop} {comments : Bool} {above : List Element}
    {trail : Trail} {depth : Nat} {e : Element} {leafless : Bool} {grove : Bool → Trail → Grove}
    (h : ∀ flatten inner, ∀ s ∈ (grove flatten inner).sprouts, P s) :
    ∀ s ∈ (around comments above trail depth e leafless grove).pages, P s := by
  have settled (flatten : Bool) (inner : Trail) :
      ∀ s ∈ (e.settle (grove flatten inner).sprouts).2, P s := by
    intro s hs
    unfold Element.settle at hs
    split at hs
    · cases hs
    · exact h flatten inner s (List.mem_filter.1 hs).1
  unfold around
  dsimp only
  cases e.resourceShape comments above with
  | absent | remark => exact nofun
  | plain | wrapped => exact settled _ _

mutual

theorem isObject_growChild {comments : Bool} {parent : Element} {flatten : Bool}
    {above : List Element} {trail : Trail} {b : Design} :
    ∀ s ∈ (growChild comments parent flatten above trail b).sprouts, s.xml.isObject = true := by
  cases b with
  | mk e cs =>
    have below (flatten : Bool) (inner : Trail) :
        ∀ s ∈ (growAll comments e flatten (e :: above) inner cs).sprouts, s.xml.isObject = true :=
      isObject_growAll
    unfold growChild
    dsimp only
    split
    · exact below true trail
    · split
      · exact List.forall_mem_cons.2 ⟨rfl, Growth.forall_mem_pages_around below⟩
      · unfold Growth.asChild
        split
        · exact nofun
        · exact List.forall_mem_cons.2 ⟨rfl, Growth.forall_mem_pages_around below⟩

/-- Everything that siblings grow into is an object. -/
theorem isObject_growAll {comments : Bool} {parent : Element} {flatten : Bool}
    {above : List Element} {trail : Trail} {bs : List Design} :
    ∀ s ∈ (growAll comments parent flatten above trail bs).sprouts, s.xml.isObject = true := by
  cases bs with
  | nil => exact nofun
  | cons b bs =>
    unfold growAll
    exact List.forall_mem_append.2 ⟨isObject_growChild, isObject_growAll⟩

end

end FormDesign
