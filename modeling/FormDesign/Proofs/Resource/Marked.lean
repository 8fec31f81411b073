import FormDesign.Proofs.Resource.Names
import FormDesign.Proofs.Tree.Places

/-!
# Resources with marks

A resource does not tell which of its elements was written for which node of the design. Here it is
built once more, with marks on the elements that do. Without the marks it is the resource as it is
written, so what holds of marked elements holds of the elements in a document.

* `Marked`: elements with marks, and `Marked.erase`, which takes the marks off
* `markAll`: what siblings grow into, with marks
* `ResourceDocument.marked`: the objects that are added to a document, with marks
* `ResourceDocument.objects_add`: without their marks these are the objects that are added
-/

namespace FormDesign

/-! ## Elements with marks -/

/-- What an element is to the node that it was written for. -/
inductive Role
  /-- The object of the node, or the remark in its place. -/
  | object
  /-- The element around the object: the item of a sizer, or the page of a book. -/
  | around
  deriving DecidableEq

/-- The node that an element was written for. -/
structure Mark where
  role : Role
  node : Node
  deriving DecidableEq

/-- Elements of a resource that may have a mark. What is written for the properties of a node stays
as it is. -/
inductive Marked where
  | bare (x : Xml)
  | element (mark : Option Mark) (name : String) (attributes : List (String × String))
      (contents : List Marked)

namespace Marked

mutual

/-- The XML without the marks. -/
def erase : Marked → Xml
  | bare x => x
  | element _ name attributes contents => .element name attributes none (eraseAll contents)

/-- Several nodes without their marks. -/
def eraseAll : List Marked → List Xml
  | [] => []
  | x :: xs => erase x :: eraseAll xs

end

theorem eraseAll_eq (xs : List Marked) : eraseAll xs = xs.map erase := by
  induction xs with
  | nil => rfl
  | cons x xs ih => rw [eraseAll, ih, List.map_cons]

theorem map_erase_bare (xs : List Xml) : (xs.map bare).map erase = xs := by
  rw [List.map_map]
  exact List.map_id xs

def mark? : Marked → Option Mark
  | bare _ => none
  | element mark .. => mark

def contents : Marked → List Marked
  | bare _ => []
  | element _ _ _ contents => contents

/-- The class of an object. -/
def class? (x : Marked) : Option String :=
  x.erase.attribute? "class"

/-- An object with more contents at its end. -/
def object (mark : Option Mark) (p : Part) (more : List Marked) : Marked :=
  element mark "object" p.attributes (p.contents.map bare ++ more)

/-- The same element with more contents at its beginning. -/
def prepend (tags : List Xml) : Marked → Marked
  | bare x => bare x
  | element mark name attributes contents =>
    element mark name attributes (tags.map bare ++ contents)

theorem erase_object (mark : Option Mark) (p : Part) (more : List Marked) :
    (object mark p more).erase = (p.extend (more.map erase)).object := by
  rw [object, erase, eraseAll_eq, List.map_append, map_erase_bare]
  rfl

mutual

/-- The elements in pre-order, the element itself first. -/
def elements : Marked → List Marked
  | bare _ => []
  | element mark name attributes contents =>
    element mark name attributes contents :: elementsAll contents

/-- The elements of several nodes. -/
def elementsAll : List Marked → List Marked
  | [] => []
  | x :: xs => elements x ++ elementsAll xs

end

theorem elementsAll_eq (xs : List Marked) : elementsAll xs = xs.flatMap elements := by
  induction xs with
  | nil => rfl
  | cons x xs ih => rw [elementsAll, ih, List.flatMap_cons]

end Marked

/-! ## Growth with marks -/

/-- A marked object that goes below its parent, or a marked page that moves up. -/
structure MarkedSprout where
  moves : Bool
  xml : Marked

namespace MarkedSprout

def erase (s : MarkedSprout) : Sprout :=
  if s.moves then .page s.xml.erase else .here s.xml.erase

theorem xml_erase (s : MarkedSprout) : s.erase.xml = s.xml.erase := by
  unfold erase
  split <;> rfl

end MarkedSprout

namespace Marked

/-- The objects of children as they are put into the object of the node. -/
def container (e : Element) (leafless : Bool) (children : List Marked) : List Marked :=
  if e.kind = .collapsiblePane then [object none (.ofClass "panewindow" []) children]
  else if e.kind = .toolDropdown then
    if leafless then []
    else [element none "dropdown" [] [object none (.ofClass "wxMenu" []) children]]
  else children

/-- The objects that stay below a node, and the pages that move on. -/
def settle (e : Element) (sprouts : List MarkedSprout) : List MarkedSprout × List MarkedSprout :=
  if e.kind = .treebook then (sprouts, [])
  else (sprouts.filter fun s => !s.moves, sprouts.filter fun s => s.moves)

end Marked

/-- The object of a node with marks, as far as it was built. -/
structure MarkedGrowth where
  kept : Bool
  object : Marked
  pages : List MarkedSprout

namespace MarkedGrowth

def asChild (g : MarkedGrowth) : List MarkedSprout :=
  if g.kept then ⟨false, g.object⟩ :: g.pages else []

def asPage (g : MarkedGrowth) (depth : Nat) : List MarkedSprout :=
  ⟨true, g.object.prepend [.leaf "depth" (toString depth)]⟩ :: g.pages

/-- The object of a node from its shape and what its children grew into. Only what is kept has
marks. -/
def assemble (comments : Bool) (n : Node) (s : Shape) (leafless : Bool)
    (sprouts : List MarkedSprout) : MarkedGrowth :=
  let (children, pages) := Marked.settle n.toElement sprouts
  let contents := Marked.container n.toElement leafless (children.map MarkedSprout.xml)
  match s with
  | .absent => { kept := false, object := .object none ⟨[], []⟩ [], pages := [] }
  | .remark object =>
    { kept := comments, object := .object (if comments then some ⟨.object, n⟩ else none) object [],
      pages := [] }
  | .plain object => { kept := true, object := .object (some ⟨.object, n⟩) object contents, pages }
  | .wrapped outer inner =>
    { kept := true
      object := .object (some ⟨.around, n⟩) outer [.object (some ⟨.object, n⟩) inner contents]
      pages }

/-- The object of a node around the objects of its children. -/
def around (comments : Bool) (above : List Node) (trail : Trail) (depth : Nat) (n : Node)
    (leafless : Bool) (grove : Bool → Trail → List MarkedSprout) : MarkedGrowth :=
  let elements := above.map Node.toElement
  let shape := n.resourceShape comments elements
  let book := (elements.find? fun a => a.kind.isBook).map Element.kind
  let children :=
    if shape.holdsChildren then
      grove (Element.flattensFolders shape n.toElement) (trail.enter n.toElement book depth)
    else []
  assemble comments n shape leafless children

end MarkedGrowth

mutual

/-- What a child of `parent` grows into, with marks. -/
def markChild (comments : Bool) (parent : Node) (flatten : Bool) (above : List Node)
    (trail : Trail) : Branch Node → List MarkedSprout
  | .mk n cs =>
    let grown (trail : Trail) (depth : Nat) : MarkedGrowth :=
      .around comments above trail depth n cs.isEmpty fun flatten inner =>
        markAll comments n flatten (n :: above) inner cs
    if flatten && n.kind = .folder then markAll comments n true (n :: above) trail cs
    else if parent.kind = .bookPage && n.kind = .bookPage && trail.inTreeBook then
      (grown { trail with pageDepth := none } trail.nextDepth).asPage trail.nextDepth
    else (grown trail 0).asChild

/-- What the children of `parent` grow into, with marks. -/
def markAll (comments : Bool) (parent : Node) (flatten : Bool) (above : List Node)
    (trail : Trail) : List (Branch Node) → List MarkedSprout
  | [] => []
  | b :: bs =>
    markChild comments parent flatten above trail b
      ++ markAll comments parent flatten above trail bs

end

theorem markAll_eq (comments : Bool) (parent : Node) (flatten : Bool) (above : List Node)
    (trail : Trail) (bs : List (Branch Node)) :
    markAll comments parent flatten above trail bs
      = bs.flatMap (markChild comments parent flatten above trail) := by
  induction bs with
  | nil => rw [markAll, List.flatMap_nil]
  | cons b bs ih => rw [markAll, List.flatMap_cons, ih]

/-- The object of a branch and what is below it, with marks. -/
def markedGrow (comments : Bool) (above : List Node) (b : Branch Node) : MarkedGrowth :=
  .around comments above .none 0 b.label b.children.isEmpty fun flatten inner =>
    markAll comments b.label flatten (b.label :: above) inner b.children

/-! ## Documents with marks -/

namespace ResourceDocument

/-- A dialog that shows a marked object. -/
def markedShellDialog (title : String) (shown : Marked) : Marked :=
  let sizer : Part :=
    { attributes := [("class", "wxBoxSizer"), ("name", shellSizerName)]
      contents := [.leaf "orient" "wxVERTICAL"] }
  let dialog : Part :=
    { attributes := [("class", "wxDialog"), ("name", shellName)]
      contents :=
        [.leaf "style" "wxDEFAULT_DIALOG_STYLE|wxRESIZE_BORDER", .leaf "centered" "1",
          .leaf "title" title] }
  .object none dialog [.object none sizer [.object none (.ofClass "sizeritem" []) [shown]]]

/-- A panel that shows a marked object. -/
def markedShellPanel (shown : Marked) : Marked :=
  .object none ⟨[("class", "wxPanel"), ("name", shellName)], []⟩ [shown]

/-- The objects that are added for a branch, with marks. -/
def markedAddition (comments previewing : Bool) (above : List Node) (b : Branch Node) :
    List Marked :=
  let g := markedGrow comments above b
  if b.label.kind = .project then g.object.contents
  else if previewing && b.label.kind = .panelForm then
    [markedShellDialog b.label.className g.object]
  else if previewing && b.label.kind = .dialog then
    match b.children with
    | [] => [markedShellPanel (.bare emptyObject)]
    | child :: _ => [markedShellPanel (markedGrow comments (b.label :: above) child).object]
  else if g.kept then [g.object] else []

/-- A bar in a panel of its own. The panel and the sizer get positions behind those of the tree. -/
def markedBarPanel (t : Tree) (bar : Branch Node) : Branch Node :=
  let panel := (Element.ofKind .panelForm).setProp .className bar.label.className
  let sizer := (Element.ofKind .verticalBoxSizer).setProp .varName shellSizerName
  .mk { panel with id := t.size, parent := none, children := [] }
    [.mk { sizer with id := t.size + 1, parent := none, children := [] } [bar]]

/-- The branch that is written for a node, with the nodes above it. -/
def source (t : Tree) (id : Nat) (b : Branch Node) : List Node × Branch Node :=
  if b.label.kind.isBarForm then ([], markedBarPanel t b) else (t.ancestors id, b)

/-- The objects that are added for a node, with marks. -/
def marked (d : ResourceDocument) (t : Tree) (id : Nat) : List Marked :=
  match t.branch? id with
  | none => []
  | some b =>
    let (above, b) := source t id b
    markedAddition d.options.addComments d.previewing above b

end ResourceDocument

/-! ## Without the marks -/

theorem Marked.erase_container (e : Element) (leafless : Bool) (children : List Marked) :
    (container e leafless children).map erase = e.container leafless (children.map erase) := by
  unfold container Element.container
  by_cases hpane : e.kind = .collapsiblePane
  · rw [if_pos hpane, hpane, List.map_singleton, erase_object]
    rfl
  · rw [if_neg hpane]
    by_cases hdrop : e.kind = .toolDropdown
    · rw [if_pos hdrop, hdrop]
      cases leafless with
      | true => rfl
      | false =>
        rw [if_neg Bool.false_ne_true, List.map_singleton, erase, eraseAll_eq, List.map_singleton,
          erase_object]
        rfl
    · rw [if_neg hdrop]
      split
      · contradiction
      · contradiction
      · rfl

theorem MarkedSprout.staying_map_erase (sprouts : List MarkedSprout) :
    Sprout.staying (sprouts.map erase)
      = (sprouts.filter fun s => !s.moves).map fun s => s.xml.erase := by
  induction sprouts with
  | nil => rfl
  | cons s sprouts ih =>
    obtain ⟨moves, x⟩ := s
    cases moves with
    | true => exact ih
    | false => exact congrArg (List.cons x.erase) ih

theorem MarkedSprout.pages_map_erase (sprouts : List MarkedSprout) :
    Sprout.pages (sprouts.map erase) = (sprouts.filter fun s => s.moves).map erase := by
  induction sprouts with
  | nil => rfl
  | cons s sprouts ih =>
    obtain ⟨moves, x⟩ := s
    cases moves with
    | true => exact congrArg (List.cons (Sprout.page x.erase)) ih
    | false => exact ih

theorem Marked.erase_settle (e : Element) (sprouts : List MarkedSprout) :
    e.settle (sprouts.map MarkedSprout.erase)
      = ((settle e sprouts).1.map fun s => s.xml.erase,
          (settle e sprouts).2.map MarkedSprout.erase) := by
  unfold settle Element.settle
  split
  · rw [List.map_map]
    exact Prod.ext (List.map_congr_left fun s _ => s.xml_erase) rfl
  · rw [MarkedSprout.staying_map_erase, MarkedSprout.pages_map_erase]

/-- A growth is another one with marks. -/
structure MarkedGrowth.Erases (g : MarkedGrowth) (g' : Growth) : Prop where
  kept : g.kept = true ↔ g'.placement ≠ .notSupported
  object : ∃ mark contents, g.object = .element mark "object" g'.object.attributes contents ∧
    contents.map Marked.erase = g'.object.contents
  pages : g.pages.map MarkedSprout.erase = g'.pages

namespace MarkedGrowth

variable {g : MarkedGrowth} {g' : Growth}

theorem Erases.erase_object (h : g.Erases g') : g.object.erase = g'.object.object := by
  obtain ⟨mark, contents, hobject, hcontents⟩ := h.object
  rw [hobject, Marked.erase, Marked.eraseAll_eq, hcontents]
  rfl

theorem Erases.erase_contents (h : g.Erases g') :
    g.object.contents.map Marked.erase = g'.object.contents := by
  obtain ⟨mark, contents, hobject, hcontents⟩ := h.object
  rw [hobject]
  exact hcontents

theorem Erases.asChild (h : g.Erases g') :
    g.asChild.map MarkedSprout.erase = g'.asChild.sprouts := by
  unfold MarkedGrowth.asChild Growth.asChild
  by_cases hk : g.kept = true
  · rw [if_pos hk, if_neg (h.kept.1 hk), List.map_cons, h.pages]
    exact congrArg (Sprout.here · :: g'.pages) h.erase_object
  · rw [if_neg hk, if_pos (not_not.1 (mt h.kept.2 hk))]
    rfl

theorem Erases.asPage (h : g.Erases g') (depth : Nat) :
    (g.asPage depth).map MarkedSprout.erase = (g'.asPage depth).sprouts := by
  obtain ⟨mark, contents, hobject, hcontents⟩ := h.object
  unfold MarkedGrowth.asPage Growth.asPage
  rw [List.map_cons, h.pages, hobject, Marked.prepend, MarkedSprout.erase]
  dsimp only
  rw [if_pos rfl, Marked.erase, Marked.eraseAll_eq, List.map_append, Marked.map_erase_bare,
    hcontents]
  rfl

theorem erases_assemble (comments : Bool) (n : Node) (s : Shape) (leafless : Bool)
    {sprouts : List MarkedSprout} {grove : Grove}
    (h : sprouts.map MarkedSprout.erase = grove.sprouts) :
    (assemble comments n s leafless sprouts).Erases
      (Growth.assemble comments n.toElement s leafless grove) := by
  have contents : (Marked.container n.toElement leafless
      ((Marked.settle n.toElement sprouts).1.map MarkedSprout.xml)).map Marked.erase
        = n.container leafless (n.settle grove.sprouts).1 := by
    rw [Marked.erase_container, ← h, Marked.erase_settle, List.map_map]
    rfl
  have pages : (Marked.settle n.toElement sprouts).2.map MarkedSprout.erase
      = (n.settle grove.sprouts).2 := by
    rw [← h, Marked.erase_settle]
  unfold assemble Growth.assemble
  cases s with
  | absent => exact ⟨⟨nofun, fun hk => absurd rfl hk⟩, ⟨_, _, rfl, rfl⟩, rfl⟩
  | remark object =>
    refine ⟨?_, ⟨_, _, rfl, ?_⟩, rfl⟩
    · cases comments <;> simp
    · rw [List.append_nil, Marked.map_erase_bare]
  | plain object =>
    refine ⟨⟨fun _ => nofun, fun _ => rfl⟩, ⟨_, _, rfl, ?_⟩, pages⟩
    rw [List.map_append, Marked.map_erase_bare, contents]
    rfl
  | wrapped outer inner =>
    refine ⟨⟨fun _ => nofun, fun _ => rfl⟩, ⟨_, _, rfl, ?_⟩, pages⟩
    rw [List.map_append, Marked.map_erase_bare, List.map_singleton, Marked.erase_object, contents]
    rfl

theorem erases_around (comments : Bool) (above : List Node) (trail : Trail) (depth : Nat) (n : Node)
    (leafless : Bool) {grove : Bool → Trail → List MarkedSprout} {grove' : Bool → Trail → Grove}
    (h : ∀ flatten inner, (grove flatten inner).map MarkedSprout.erase
      = (grove' flatten inner).sprouts) :
    (around comments above trail depth n leafless grove).Erases
      (.around comments (above.map Node.toElement) trail depth n.toElement leafless grove') := by
  refine erases_assemble comments n _ leafless ?_
  split
  · exact h _ _
  · rfl

end MarkedGrowth

mutual

theorem erase_markChild (comments : Bool) (parent : Node) (flatten : Bool) (above : List Node)
    (trail : Trail) (b : Branch Node) :
    (markChild comments parent flatten above trail b).map MarkedSprout.erase
      = (growChild comments parent.toElement flatten (above.map Node.toElement) trail
          (b.map Node.toElement)).sprouts := by
  cases b with
  | mk n cs =>
    have below (flatten : Bool) (inner : Trail) :
        (markAll comments n flatten (n :: above) inner cs).map MarkedSprout.erase
          = (growAll comments n.toElement flatten ((n :: above).map Node.toElement) inner
              (Branch.mapAll Node.toElement cs)).sprouts :=
      erase_markAll comments n flatten (n :: above) inner cs
    have leafless : (Branch.mapAll Node.toElement cs).isEmpty = cs.isEmpty := by
      cases cs <;> rfl
    have grown (trail : Trail) (depth : Nat) :=
      MarkedGrowth.erases_around comments above trail depth n cs.isEmpty below
    rw [markChild, Branch.map, growChild, leafless]
    dsimp only
    split
    · exact below true trail
    · split
      · exact (grown _ _).asPage _
      · exact (grown _ _).asChild

theorem erase_markAll (comments : Bool) (parent : Node) (flatten : Bool) (above : List Node)
    (trail : Trail) (bs : List (Branch Node)) :
    (markAll comments parent flatten above trail bs).map MarkedSprout.erase
      = (growAll comments parent.toElement flatten (above.map Node.toElement) trail
          (Branch.mapAll Node.toElement bs)).sprouts := by
  cases bs with
  | nil =>
    rw [markAll, Branch.mapAll, growAll]
    rfl
  | cons b bs =>
    rw [markAll, Branch.mapAll, growAll, List.map_append,
      erase_markChild comments parent flatten above trail b,
      erase_markAll comments parent flatten above trail bs]
    rfl

end

theorem erases_markedGrow (comments : Bool) (above : List Node) (b : Branch Node) :
    (markedGrow comments above b).Erases
      (grow comments (above.map Node.toElement) (b.map Node.toElement)) := by
  unfold markedGrow grow
  rw [Branch.label_map, Branch.children_map, List.isEmpty_map, ← Branch.mapAll_eq]
  exact MarkedGrowth.erases_around comments above .none 0 b.label b.children.isEmpty
    fun flatten inner => erase_markAll comments b.label flatten (b.label :: above) inner b.children

namespace ResourceDocument

theorem erase_markedShellPanel (shown : Marked) :
    (markedShellPanel shown).erase = shellPanel shown.erase := by
  rw [markedShellPanel, Marked.erase_object]
  rfl

theorem erase_markedShellDialog (title : String) (shown : Marked) :
    (markedShellDialog title shown).erase = shellDialog title shown.erase := by
  simp only [markedShellDialog, Marked.erase_object, List.map_singleton]
  rfl

theorem erase_markedAddition (comments previewing : Bool) (above : List Node) (b : Branch Node) :
    (markedAddition comments previewing above b).map Marked.erase
      = (addition comments previewing (above.map Node.toElement)
          (b.map Node.toElement)).objects := by
  have self := erases_markedGrow comments above b
  unfold markedAddition addition
  dsimp only
  rw [Branch.label_map, Branch.children_map]
  by_cases hproject : b.label.kind = .project
  · rw [if_pos hproject, if_pos hproject]
    exact self.erase_contents
  rw [if_neg hproject, if_neg hproject]
  by_cases hpanel : (previewing && b.label.kind = .panelForm) = true
  · rw [if_pos hpanel, if_pos hpanel, List.map_singleton, erase_markedShellDialog,
      self.erase_object]
  rw [if_neg hpanel, if_neg hpanel]
  by_cases hdialog : (previewing && b.label.kind = .dialog) = true
  · rw [if_pos hdialog, if_pos hdialog]
    cases b.children with
    | nil => rfl
    | cons child rest =>
      have inner := erases_markedGrow comments (b.label :: above) child
      rw [List.map_singleton, erase_markedShellPanel, inner.erase_object]
      rfl
  rw [if_neg hdialog, if_neg hdialog]
  by_cases hkept : (markedGrow comments above b).kept = true
  · rw [if_pos hkept, if_neg (self.kept.1 hkept), List.map_singleton, self.erase_object]
  · rw [if_neg hkept, if_pos (not_not.1 (mt self.kept.2 hkept))]
    rfl

theorem map_markedBarPanel (t : Tree) (bar : Branch Node) :
    (markedBarPanel t bar).map Node.toElement = barPanel (bar.map Node.toElement) := by
  obtain ⟨n, cs⟩ := bar
  rfl

/-- **Without their marks these are the objects that are added to a document.** -/
theorem objects_add {d d' : ResourceDocument} {t : Tree} {id : Nat} {placement : Placement}
    (h : d.add t id = .ok (placement, d')) :
    d'.objects = some (d.objects.getD [] ++ (d.marked t id).map Marked.erase) := by
  unfold add Tree.design at h
  unfold marked
  cases hb : t.branch? id with
  | none =>
    rw [hb] at h
    cases h
  | some b =>
    rw [hb] at h
    obtain ⟨-, rfl⟩ := Prod.mk.inj (Except.ok.inj h)
    dsimp only
    rw [erase_markedAddition]
    unfold extend source
    dsimp only
    rw [Branch.label_map]
    split
    · rw [map_markedBarPanel]
      rfl
    · rfl

end ResourceDocument

end FormDesign
