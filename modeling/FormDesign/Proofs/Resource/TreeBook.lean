import FormDesign.Proofs.Resource.JoinedPages

/-!
# Tree books in a document

Whatever else a form holds, the pages of a tree book are in the resource as they are in the design:
all of them, in the same order, with their depths, and each with what stands on it.

* `Details`: contents that are neither objects nor depths
* `ResourceDocument.IsFlatPage`, `ResourceDocument.IsFlatBook`: how a tree book is written
* `ResourceDocument.isFlatBook_add`: every tree book whose pages are joined is written like this
-/

namespace FormDesign

open Branch (places)

/-! ## What is written for properties -/

/-- Contents that are neither objects nor depths. -/
def Details (xs : List Xml) : Prop :=
  ∀ x ∈ xs, x.attribute? "class" = none ∧ x.name? ≠ some "depth"

@[simp] theorem details_nil : Details [] :=
  nofun

@[simp] theorem details_append (xs ys : List Xml) :
    Details (xs ++ ys) ↔ Details xs ∧ Details ys :=
  List.forall_mem_append

@[simp] theorem details_comment (text : String) : Details [.comment text] :=
  List.forall_mem_singleton.2 ⟨rfl, nofun⟩

theorem details_element {name : String} (h : name ≠ "depth") {attributes : List (String × String)}
    (other : attributes.lookup "class" = none) (text : Option String) :
    Details [.element name attributes text []] :=
  List.forall_mem_singleton.2 ⟨other, fun heq => h (Option.some.inj heq)⟩

@[simp] theorem details_leaf {name : String} (h : name ≠ "depth") (text : String) :
    Details [.leaf name text] :=
  details_element h rfl _

@[simp] theorem details_ite (c : Prop) [Decidable c] {xs ys : List Xml} (hx : Details xs)
    (hy : Details ys) : Details (if c then xs else ys) := by
  split
  · exact hx
  · exact hy

namespace Element

variable (e : Element) {tag : String} (h : tag ≠ "depth")

include h

@[simp] theorem details_textTag (p : Property) : Details (e.textTag p tag) := by
  simp [textTag, h]

@[simp] theorem details_flagTag (p : Property) : Details (e.flagTag p tag) := by
  simp [flagTag, h]

@[simp] theorem details_pairTag (p : Property) : Details (e.pairTag p tag) := by
  unfold pairTag
  split <;> simp [h]

theorem details_imageTag (d : ImageDescription) : Details [imageTag tag d] := by
  unfold imageTag
  cases d.kind with
  | art =>
    obtain ⟨id, client⟩ := d.artParts
    cases client <;> exact details_element h rfl none
  | svg => cases d.size <;> exact details_element h rfl _
  | embed | xpm | header => exact details_leaf h _

@[simp] theorem details_bitmapTag (comments : Bool) (p : Property) :
    Details (e.bitmapTag comments p tag) := by
  unfold bitmapTag
  split
  · exact details_nil
  · split
    · exact details_imageTag h _
    · simp

omit h

@[simp] theorem details_placementTags (implied : String) : Details (e.placementTags implied) := by
  simp [placementTags]

@[simp] theorem details_windowTags (comments : Bool) : Details (e.windowTags comments) := by
  simp [windowTags]

theorem details_pagePart (comments : Bool) (book : Option Kind) :
    Details (e.pagePart comments book).contents := by
  simp [pagePart, Part.ofClass]

theorem details_widgetPart_treebook (treebook : e.kind = .treebook) (comments : Bool) :
    Details (e.widgetPart comments).contents := by
  simp [widgetPart, part, kindTags, treebook]

/-- A tree book is a control. -/
theorem resourceShape_treebook (treebook : e.kind = .treebook) (comments : Bool)
    (above : List Element) :
    e.resourceShape comments above = .plain (e.widgetPart comments)
      ∨ e.resourceShape comments above = .wrapped e.sizerItem (e.widgetPart comments) := by
  unfold resourceShape shape placed
  rw [treebook]
  simp [Kind.isGrouping]

end Element

/-! ## What stands on a page -/

namespace Branch.Place

variable {comments : Bool} {q : Branch.Place Node}

theorem contents_of_page (page : q.label.kind = .bookPage) (trail : Trail) (depth : Nat) :
    q.contents comments trail depth
      = ((q.held comments trail depth).filter fun s => !s.moves).map MarkedSprout.xml := by
  simp [contents, Marked.container, Marked.settle, page]

theorem contents_of_treebook (treebook : q.label.kind = .treebook) (trail : Trail) (depth : Nat) :
    q.contents comments trail depth = (q.held comments trail depth).map MarkedSprout.xml := by
  simp [contents, Marked.container, Marked.settle, treebook]

/-- What is written at a place is in the growth there. -/
theorem exists_mark_grown {z : Marked} (written : Marked.WrittenAt comments q z) (trail : Trail)
    (depth : Nat) :
    (q.grown comments trail depth).kept = true ∧
      ∃ y ∈ (q.grown comments trail depth).object.elements, y.mark? = z.mark? := by
  have self (m : Option Mark) (p : Part) (more : List Marked) :
      Marked.object m p more ∈ (Marked.object m p more).elements := by
    rw [Marked.elements_object]
    exact List.mem_cons_self
  cases written with
  | plain hs =>
    rw [grown_of_plain hs]
    exact ⟨rfl, _, self _ _ _, rfl⟩
  | remark hs keep =>
    subst keep
    rw [grown_of_remark hs]
    exact ⟨rfl, _, self _ _ _, rfl⟩
  | @inner outer inner hs =>
    rw [grown_of_wrapped hs]
    refine ⟨rfl, .object (some ⟨.object, q.label⟩) inner (q.contents comments trail depth), ?_, rfl⟩
    simp
  | outer hs =>
    rw [grown_of_wrapped hs]
    exact ⟨rfl, _, self _ _ _, rfl⟩

/-- Something is written for a node that the resource has an object for. -/
theorem exists_writtenAt_of_isDescribed (comments : Bool)
    (described : q.label.kind.isDescribed = true) : ∃ z, Marked.WrittenAt comments q z := by
  have holds : (q.shape comments).holdsChildren = true :=
    (Element.holdsChildren_resourceShape _ comments _).trans described
  cases hs : q.shape comments with
  | absent =>
    rw [hs] at holds
    cases holds
  | remark part =>
    rw [hs] at holds
    cases holds
  | plain part => exact ⟨_, .plain hs .none 0⟩
  | wrapped outer inner => exact ⟨_, .inner hs .none 0⟩

/-- A folder whose place is taken by what is in it, because the node around it flattens folders. -/
def Dissolved (comments : Bool) (q : Branch.Place Node) : Prop :=
  q.label.kind = .folder ∧ ∃ parent above, q.above = parent :: above ∧
    Element.flattensFolders (parent.resourceShape comments (above.map Node.toElement))
      parent.toElement = true

/-- The object of a child stays below the node, unless the child is a folder that is dissolved or a
page below a page. -/
theorem object_mem_held {c : Branch Node} (hc : c ∈ q.branch.children)
    (stays : ¬(⟨q.label :: q.above, c⟩ : Branch.Place Node).Dissolved comments)
    (apart : q.label.kind ≠ .bookPage ∨ c.label.kind ≠ .bookPage) (trail : Trail) (depth : Nat)
    (kept : ∀ trail, ((⟨q.label :: q.above, c⟩ : Branch.Place Node).grown comments trail 0).kept
      = true) :
    ∃ inner, ⟨false, ((⟨q.label :: q.above, c⟩ : Branch.Place Node).grown comments inner 0).object⟩
      ∈ q.held comments trail depth := by
  let child : Branch.Place Node := ⟨q.label :: q.above, c⟩
  let inner := trail.enter q.label.toElement q.book? depth
  let flatten := Element.flattensFolders (q.shape comments) q.label.toElement
  have whole : ¬(flatten && decide (child.label.kind = .folder)) = true := by
    rw [Bool.and_eq_true, decide_eq_true_eq]
    exact fun h => stays ⟨h.2, _, _, rfl, h.1⟩
  have plain : ¬(q.label.kind = .bookPage && child.label.kind = .bookPage && inner.inTreeBook)
      = true := by
    rw [Bool.and_eq_true, Bool.and_eq_true, decide_eq_true_eq, decide_eq_true_eq]
    exact fun h => apart.elim (fun hq => hq h.1.1) fun hc => hc h.1.2
  have grown : markChild comments q.label flatten (q.label :: q.above) inner c
      = ⟨false, (child.grown comments inner 0).object⟩ :: (child.grown comments inner 0).pages := by
    have eq := markChild_place comments q.label flatten inner child
    rw [if_neg whole, if_neg plain, MarkedGrowth.asChild, if_pos (kept inner)] at eq
    exact eq
  refine ⟨inner, ?_⟩
  rw [Branch.Place.held, markAll_eq, List.mem_flatMap]
  exact ⟨c, hc, by rw [grown]; exact List.mem_cons_self⟩

/-- The object of what stands on a page is put into the panel of the page. -/
theorem object_mem_contents (page : q.label.kind = .bookPage) {c : Branch Node}
    (hc : c ∈ q.branch.children) (other : c.label.kind ≠ .bookPage) (trail : Trail) (depth : Nat)
    (kept : ∀ trail, ((⟨q.label :: q.above, c⟩ : Branch.Place Node).grown comments trail 0).kept
      = true) :
    ∃ inner, ((⟨q.label :: q.above, c⟩ : Branch.Place Node).grown comments inner 0).object
      ∈ q.contents comments trail depth := by
  have stays : ¬(⟨q.label :: q.above, c⟩ : Branch.Place Node).Dissolved comments := by
    rintro ⟨-, parent, above, habove, flat⟩
    obtain ⟨rfl, rfl⟩ := List.cons.inj habove
    rw [show q.label.resourceShape comments (q.above.map Node.toElement) = _ from
      shape_of_bookPage page comments] at flat
    cases flat
  obtain ⟨inner, held⟩ := object_mem_held hc stays (Or.inr other) trail depth kept
  refine ⟨inner, ?_⟩
  rw [contents_of_page page]
  exact List.mem_map_of_mem (List.mem_filter.2 ⟨held, rfl⟩)

end Branch.Place

/-! ## Tree books -/

/-- A page of a tree book around the panel of the page. A page that is below others starts with its
depth. -/
def Marked.treePage (comments : Bool) (depth : Nat) (p : Node) (contents : List Marked) : Marked :=
  (object (some ⟨.around, p⟩) (p.pagePart comments (some .treebook))
    [object (some ⟨.object, p⟩) (p.panelPart comments) contents]).prepend (depthTags depth)

namespace Marked

theorem mark?_treePage (comments : Bool) (depth : Nat) (p : Node) (contents : List Marked) :
    (treePage comments depth p contents).mark? = some ⟨.around, p⟩ :=
  rfl

theorem elementsAll_contents_treePage (comments : Bool) (depth : Nat) (p : Node)
    (contents : List Marked) :
    elementsAll (treePage comments depth p contents).contents
      = object (some ⟨.object, p⟩) (p.panelPart comments) contents :: elementsAll contents := by
  have elements : (treePage comments depth p contents).elements
      = treePage comments depth p contents
        :: object (some ⟨.object, p⟩) (p.panelPart comments) contents :: elementsAll contents := by
    simp [treePage]
  rw [elements_eq (mark?_treePage ..)] at elements
  exact (List.cons.inj elements).2

theorem erase_contents_treePage (comments : Bool) (depth : Nat) (p : Node)
    (contents : List Marked) :
    (treePage comments depth p contents).contents.map erase
      = depthTags depth ++ (p.pagePart comments (some .treebook)).contents
        ++ [((p.panelPart comments).extend (contents.map erase)).object] := by
  rw [treePage, object, prepend, Marked.contents, List.map_append, List.map_append, map_erase_bare,
    map_erase_bare, List.map_singleton, erase_object, List.append_assoc]

end Marked

/-- Only a page that is below others has a depth. -/
theorem filter_depth_treePage (comments : Bool) (depth : Nat) (p : Node) (contents : List Marked) :
    ((Marked.treePage comments depth p contents).contents.map Marked.erase).filter
        (fun x => x.name? = some "depth")
      = depthTags depth := by
  have tags : (depthTags depth).filter (fun x => x.name? = some "depth") = depthTags depth := by
    unfold depthTags
    split <;> rfl
  have details : (p.pagePart comments (some .treebook)).contents.filter
      (fun x => x.name? = some "depth") = [] :=
    List.filter_eq_nil_iff.2 fun x hx => by
      simpa using (p.details_pagePart comments (some .treebook) x hx).2
  rw [Marked.erase_contents_treePage, List.filter_append, List.filter_append, tags, details,
    List.append_nil]
  exact List.append_nil _

/-- A page of a tree book is what was written for it, with its depth. -/
theorem IsPageAt.xml_eq {comments : Bool} {parent : Node} {s : MarkedSprout}
    {page : Branch.Place Node × Nat} (h : IsPageAt comments parent s page)
    (hs : s.xml.isTreePage = true) :
    page.1.label.kind = .bookPage ∧
      ∃ trail, s.xml
        = .treePage comments page.2 page.1.label (page.1.contents comments trail page.2) := by
  obtain ⟨trail, hxml⟩ := h.xml
  rw [hxml, Marked.isTreePage_prepend, Branch.Place.isTreePage_grown] at hs
  obtain ⟨kind, book⟩ := hs
  refine ⟨kind, trail, ?_⟩
  rw [hxml, Branch.Place.grown_of_wrapped (Branch.Place.shape_of_bookPage kind comments), book]
  rfl

namespace ResourceDocument

/-- An element is written for a page of a tree book as it should be:
* it is the page of the tree book around a panel with some contents,
* it starts with its depth if it is below other pages, and has no depth otherwise,
* no other page of the book is inside of it,
* whatever is written for other children of the page is in the panel. -/
structure IsFlatPage (d : ResourceDocument) (t : Tree) (id : Nat) (book : Node) (y : Marked)
    (p : Node) (contents : List Marked) : Prop where
  element : y = .treePage d.options.addComments (t.pageDepth p) p contents
  first : depthTags (t.pageDepth p) <+: y.contents.map Marked.erase
  depth : (y.contents.map Marked.erase).filter (fun x => x.name? = some "depth")
    = depthTags (t.pageDepth p)
  apart : ∀ z ∈ Marked.elementsAll y.contents, ∀ p' ∈ t.pagesOf book,
    z.mark? ≠ some ⟨.around, p'⟩
  inside : ∀ c ∈ t.nodes, t.parent? c.id = some p.id → c.kind ≠ .bookPage →
    ∀ z ∈ Marked.elementsAll (d.marked t id), z.mark?.map Mark.node = some c →
      z ∈ Marked.elementsAll contents
  shown : ∀ c ∈ t.nodes, t.parent? c.id = some p.id → c.kind ≠ .bookPage →
    c.kind.isDescribed = true →
      ∃ z ∈ Marked.elementsAll contents, z.mark?.map Mark.node = some c

/-- A tree book is written with its pages, in the order of the tree and each of them once. -/
structure IsFlatBook (d : ResourceDocument) (t : Tree) (id : Nat) (book : Node) (x : Marked) :
    Prop where
  element : ∃ contents,
    x = .object (some ⟨.object, book⟩) (book.widgetPart d.options.addComments) contents
  class_eq : x.class? = some "wxTreebook"
  pages : List.Forall₂ (fun y p => ∃ contents, d.IsFlatPage t id book y p contents)
    (x.contents.filter Marked.isTreePage) (t.pagesOf book)
  once : (t.pagesOf book).Nodup

variable {d d' : ResourceDocument} {t : Tree} {id : Nat} {book : Node} {x : Marked}

/-- The element of a tree book holds what its children grew into. -/
theorem exists_book_place (treebook : book.kind = .treebook)
    (hx : x ∈ Marked.elementsAll (d.marked t id)) (hmark : x.mark? = some ⟨.object, book⟩) :
    ∃ q ∈ sourcePlaces t id, q.label = book ∧ ∃ trail depth,
      x = .object (some ⟨.object, book⟩) (book.widgetPart d.options.addComments)
        ((q.held d.options.addComments trail depth).map MarkedSprout.xml) := by
  obtain ⟨q, hq, written⟩ := exists_writtenAt (by rw [hmark]; exact nofun) hx
  obtain ⟨role, hrole⟩ := written.exists_mark
  obtain rfl : q.label = book := congrArg Mark.node (Option.some.inj (hrole.symm.trans hmark))
  refine ⟨q, hq, rfl, ?_⟩
  have shape : q.shape d.options.addComments = .plain (q.label.widgetPart d.options.addComments)
      ∨ q.shape d.options.addComments
        = .wrapped q.label.sizerItem (q.label.widgetPart d.options.addComments) :=
    q.label.resourceShape_treebook treebook _ _
  cases written with
  | plain hs trail depth =>
    rw [hs] at shape
    obtain ⟨⟨⟩⟩ | ⟨⟨⟩⟩ := shape
    exact ⟨trail, depth, by rw [Branch.Place.contents_of_treebook treebook]⟩
  | remark hs keep =>
    rw [hs] at shape
    obtain ⟨⟨⟩⟩ | ⟨⟨⟩⟩ := shape
  | inner hs trail depth =>
    rw [hs] at shape
    obtain ⟨⟨⟩⟩ | ⟨⟨⟩⟩ := shape
    exact ⟨trail, depth, by rw [Branch.Place.contents_of_treebook treebook]⟩
  | outer hs => cases hmark

/-- A node of the tree is below its parent in what is written. -/
theorem exists_child_place (kept : t.Kept) {r : Branch.Place Node} (hr : r ∈ sourcePlaces t id)
    (hp : r.label ∈ t.nodes) {c : Node} (hc : c ∈ t.nodes)
    (parent : t.parent? c.id = some r.label.id) :
    ∃ b ∈ r.branch.children, b.label = c ∧ ⟨r.label :: r.above, b⟩ ∈ sourcePlaces t id := by
  obtain ⟨hk, hbranch⟩ := branch_eq kept.wellFormed hr hp
  obtain ⟨i, hi, rfl⟩ := Array.mem_iff_getElem.1 hc
  rw [t.id_eq i hi] at parent
  have hchild : t.branchAt i hi ∈ r.branch.children := by
    have listed := (kept.mem_children (Array.getElem_mem hk)).2
      (parent.trans (by rw [t.id_eq _ hk]))
    rw [hbranch, Tree.branchAt_eq]
    exact List.mem_filterMap.2 ⟨i, listed, dif_pos hi⟩
  exact ⟨_, hchild, Tree.label_branchAt hi,
    places_subset_sourcePlaces hr (Branch.child_mem_places _ hchild)⟩

/-- Where the object of a child of a node is kept, everything that is written for it is kept. -/
theorem mem_elementsAll_of_child (kept : t.Kept) {r : Branch.Place Node}
    (hr : r ∈ sourcePlaces t id) (hp : r.label ∈ t.nodes) {c : Node} (hc : c ∈ t.nodes)
    (parent : t.parent? c.id = some r.label.id) {xs : List Marked}
    (sub : Marked.elementsAll xs ⊆ Marked.elementsAll (d.marked t id))
    (object : ∀ b ∈ r.branch.children, b.label = c →
      (∀ trail, ((⟨r.label :: r.above, b⟩ : Branch.Place Node).grown d.options.addComments trail
        0).kept = true) →
      ∃ inner, ((⟨r.label :: r.above, b⟩ : Branch.Place Node).grown d.options.addComments inner
        0).object ∈ xs)
    {z : Marked} (hz : z ∈ Marked.elementsAll (d.marked t id))
    (hmark : z.mark?.map Mark.node = some c) : z ∈ Marked.elementsAll xs := by
  obtain ⟨m, hm, rfl⟩ := Option.map_eq_some_iff.1 hmark
  obtain ⟨b, hb, hlabel, hchild⟩ := exists_child_place kept hr hp hc parent
  obtain ⟨q, hq, written⟩ := exists_writtenAt (by rw [hm]; exact nofun) hz
  -- the element was written at the place below the node
  obtain rfl : q = ⟨r.label :: r.above, b⟩ := by
    obtain ⟨role, hrole⟩ := written.exists_mark
    refine place_eq kept.wellFormed hq hchild (Eq.trans ?_ hlabel.symm)
    exact congrArg Mark.node (Option.some.inj (hrole.symm.trans hm))
  obtain ⟨inner, hobject⟩ := object b hb hlabel
    fun inner => (Branch.Place.exists_mark_grown written inner 0).1
  obtain ⟨y, hy, hym⟩ := (Branch.Place.exists_mark_grown written inner 0).2
  have inside := Marked.mem_elementsAll.2 ⟨_, hobject, hy⟩
  rwa [Marked.eq_of_mark (nodup_marks kept.wellFormed) hz (sub inside) hm (hym.trans hm)]

/-- Where the object of a child of a node is kept, something is written for it if the resource has
an object for it. -/
theorem exists_mem_elementsAll_of_child (kept : t.Kept) {r : Branch.Place Node}
    (hr : r ∈ sourcePlaces t id) (hp : r.label ∈ t.nodes) (comments : Bool) {c : Node}
    (hc : c ∈ t.nodes) (parent : t.parent? c.id = some r.label.id)
    (described : c.kind.isDescribed = true) {xs : List Marked}
    (object : ∀ b ∈ r.branch.children, b.label = c →
      (∀ trail,
        ((⟨r.label :: r.above, b⟩ : Branch.Place Node).grown comments trail 0).kept = true) →
      ∃ inner, ((⟨r.label :: r.above, b⟩ : Branch.Place Node).grown comments inner 0).object ∈ xs) :
    ∃ z ∈ Marked.elementsAll xs, z.mark?.map Mark.node = some c := by
  obtain ⟨b, hb, rfl, hchild⟩ := exists_child_place kept hr hp hc parent
  let child : Branch.Place Node := ⟨r.label :: r.above, b⟩
  obtain ⟨z, written⟩ := child.exists_writtenAt_of_isDescribed comments described
  obtain ⟨inner, hobject⟩ := object b hb rfl
    fun inner => (Branch.Place.exists_mark_grown written inner 0).1
  obtain ⟨y, hy, hym⟩ := (Branch.Place.exists_mark_grown written inner 0).2
  obtain ⟨role, hrole⟩ := written.exists_mark
  refine ⟨y, Marked.mem_elementsAll.2 ⟨_, hobject, hy⟩, ?_⟩
  rw [hym, hrole]
  rfl

section Page

variable {r : Branch.Place Node} {trail : Trail} {depth : Nat} {c : Node}

/-- Whatever is written for a child of a page is in the panel of the page. -/
theorem mem_contents_of_child (kept : t.Kept) (hr : r ∈ sourcePlaces t id) (hp : r.label ∈ t.nodes)
    (page : r.label.kind = .bookPage)
    (sub : Marked.elementsAll (r.contents d.options.addComments trail depth)
      ⊆ Marked.elementsAll (d.marked t id))
    (hc : c ∈ t.nodes) (parent : t.parent? c.id = some r.label.id) (other : c.kind ≠ .bookPage)
    {z : Marked} (hz : z ∈ Marked.elementsAll (d.marked t id))
    (hmark : z.mark?.map Mark.node = some c) :
    z ∈ Marked.elementsAll (r.contents d.options.addComments trail depth) := by
  refine mem_elementsAll_of_child kept hr hp hc parent sub (fun b hb hlabel => ?_) hz hmark
  exact Branch.Place.object_mem_contents page hb (by rwa [hlabel]) trail depth

/-- Something is written for a child of a page if the resource has an object for it. -/
theorem exists_mem_contents_of_child (kept : t.Kept) (hr : r ∈ sourcePlaces t id)
    (hp : r.label ∈ t.nodes) (page : r.label.kind = .bookPage) (comments : Bool)
    (hc : c ∈ t.nodes) (parent : t.parent? c.id = some r.label.id) (other : c.kind ≠ .bookPage)
    (described : c.kind.isDescribed = true) :
    ∃ z ∈ Marked.elementsAll (r.contents comments trail depth),
      z.mark?.map Mark.node = some c := by
  refine exists_mem_elementsAll_of_child kept hr hp comments hc parent described
    fun b hb hlabel => ?_
  exact Branch.Place.object_mem_contents page hb (by rwa [hlabel]) trail depth

/-- The pages of a tree book are in its element, at the places where the walk finds them. -/
theorem forall₂_treePages (kept : t.Kept) (hbook : book ∈ t.nodes)
    (treebook : book.kind = .treebook) (joined : t.PagesJoined book) {q : Branch.Place Node}
    (hq : q ∈ sourcePlaces t id) (hlabel : q.label = book) (comments : Bool) (trail : Trail)
    (depth : Nat) :
    List.Forall₂
      (fun y p => ∃ r ∈ sourcePlaces t id, r.label = p ∧ p.kind = .bookPage ∧
        ∃ trail, y = .treePage comments (t.pageDepth p) p
          (r.contents comments trail (t.pageDepth p)))
      (((q.held comments trail depth).map MarkedSprout.xml).filter Marked.isTreePage)
      (t.pagesOf book) := by
  obtain ⟨k, hk, rfl⟩ := Array.mem_iff_getElem.1 hbook
  have isBook : t.nodes[k].kind.isBook = true := by rw [treebook]; rfl
  have branch : q.branch = t.branchAt k hk := by
    obtain ⟨hlt, hbranch⟩ := branch_eq kept.wellFormed hq (hlabel ▸ hbook)
    simpa only [hlabel, t.id_eq k hk] using hbranch
  have pages : List.Forall₂ (IsPageAt comments t.nodes[k])
      ((q.held comments trail depth).filter fun s => s.xml.isTreePage)
      (bookPagesAll (t.nodes[k] :: q.above) 0 (t.branchAt k hk).children) := by
    have enter : (trail.enter t.nodes[k].toElement q.book? depth).inTreeBook = true := by
      rw [Trail.enter, if_pos treebook]
    rw [Branch.Place.held, hlabel, branch]
    refine forall₂_treePages_markAll ?_ enter (Or.inr ⟨by rw [treebook]; decide, rfl⟩)
      (kept.joined_of_pagesJoined isBook joined q.above)
    rw [nearestBook_cons, if_pos isBook, treebook]
  rw [kept.pagesOf_eq_bookPages (k := k) isBook q.above, List.filter_map,
    List.forall₂_map_left_iff, List.forall₂_map_right_iff]
  refine List.forall₂_iff_zip.2 ⟨pages.length_eq, fun {s p} hz => ?_⟩
  obtain ⟨hs, hp⟩ := List.of_mem_zip hz
  obtain ⟨kind, trail, hxml⟩ :=
    ((List.forall₂_iff_zip.1 pages).2 hz).xml_eq (List.mem_filter.1 hs).2
  have inside : p.1 ∈ places q.above q.branch := by
    rw [Branch.places_eq, branch, Tree.label_branchAt]
    exact List.mem_cons_of_mem _ (kept.mem_placesAll_of_mem_bookPages isBook hp)
  refine ⟨p.1, places_subset_sourcePlaces hq inside, rfl, kind, trail, ?_⟩
  rw [kept.pageDepth_of_mem_bookPages isBook hp, hxml]

end Page

/-- A page of a tree book is written as it should be, where it stands among other pages. -/
theorem isFlatPage_treePage (kept : t.Kept) {r : Branch.Place Node} (hr : r ∈ sourcePlaces t id)
    (hp : r.label ∈ t.nodes) (page : r.label.kind = .bookPage) (trail : Trail) {xs : List Marked}
    (distinct : (Marked.marks xs).Nodup)
    (sub : Marked.elementsAll xs ⊆ Marked.elementsAll (d.marked t id))
    (hy : .treePage d.options.addComments (t.pageDepth r.label) r.label
      (r.contents d.options.addComments trail (t.pageDepth r.label)) ∈ xs)
    (others : ∀ p' ∈ t.pagesOf book, ∃ y' ∈ xs, y'.mark? = some ⟨.around, p'⟩) :
    d.IsFlatPage t id book
      (.treePage d.options.addComments (t.pageDepth r.label) r.label
        (r.contents d.options.addComments trail (t.pageDepth r.label))) r.label
      (r.contents d.options.addComments trail (t.pageDepth r.label)) where
  element := rfl
  first := by
    rw [Marked.erase_contents_treePage, List.append_assoc]
    exact List.prefix_append _ _
  depth := filter_depth_treePage ..
  apart := by
    intro z hz p' hp'
    obtain ⟨y', hy', hmark⟩ := others p' hp'
    exact Marked.not_inside distinct hy hy' (Marked.mark?_treePage ..) hmark hz
  inside := by
    intro c hc parent other z hz hmark
    refine mem_contents_of_child kept hr hp page (fun w hw => sub ?_) hc parent other hz hmark
    refine Marked.mem_elementsAll.2 ⟨_, hy, ?_⟩
    rw [Marked.elements_eq (Marked.mark?_treePage ..), Marked.elementsAll_contents_treePage]
    exact List.mem_cons_of_mem _ (List.mem_cons_of_mem _ hw)
  shown _ hc parent other described :=
    exists_mem_contents_of_child kept hr hp page _ hc parent other described

/-- Among the contents of an object the details are no pages. -/
theorem filter_isTreePage_object {part : Part} (details : Details part.contents)
    (mark : Option Mark) (more : List Marked) :
    (Marked.object mark part more).contents.filter Marked.isTreePage
      = more.filter Marked.isTreePage := by
  have none : (part.contents.map Marked.bare).filter Marked.isTreePage = [] := by
    refine List.filter_eq_nil_iff.2 fun y hy => ?_
    obtain ⟨x, hx, rfl⟩ := List.mem_map.1 hy
    rw [Marked.isTreePage, Marked.class?, Marked.erase, (details x hx).1]
    exact Bool.false_ne_true
  rw [Marked.object, Marked.contents, List.filter_append, none, List.nil_append]

theorem exists_left_of_forall₂ {α β : Type} {R : α → β → Prop} {as : List α} {bs : List β}
    (h : List.Forall₂ R as bs) {b : β} (hb : b ∈ bs) : ∃ a ∈ as, R a b := by
  induction h with
  | nil => cases hb
  | cons hr _ ih =>
    rcases List.mem_cons.1 hb with rfl | hb
    · exact ⟨_, List.mem_cons_self, hr⟩
    · obtain ⟨a, ha, hr⟩ := ih hb
      exact ⟨a, List.mem_cons_of_mem _ ha, hr⟩

/-- Every tree book whose pages are joined is written with its pages. -/
theorem isFlatBook_of_joined (kept : t.Kept) (hbook : book ∈ t.nodes)
    (treebook : book.kind = .treebook) (joined : t.PagesJoined book)
    (hx : x ∈ Marked.elementsAll (d.marked t id)) (hmark : x.mark? = some ⟨.object, book⟩) :
    d.IsFlatBook t id book x := by
  have inside : (Marked.elementsAll x.contents).Sublist (Marked.elementsAll (d.marked t id)) := by
    refine List.Sublist.trans ?_ (Marked.elementsAll_sublist hx)
    rw [Marked.elements_eq hmark]
    exact List.sublist_cons_self _ _
  have distinct : (Marked.marks x.contents).Nodup :=
    (inside.filterMap Marked.mark?).nodup (nodup_marks kept.wellFormed)
  obtain ⟨q, hq, hlabel, trail, depth, hcontents⟩ := exists_book_place treebook hx hmark
  have pages := forall₂_treePages kept hbook treebook joined hq hlabel d.options.addComments trail
    depth
  rw [← filter_isTreePage_object (book.details_widgetPart_treebook treebook d.options.addComments)
    (some ⟨.object, book⟩), ← hcontents] at pages
  have others : ∀ p ∈ t.pagesOf book, ∃ y ∈ x.contents, y.mark? = some ⟨.around, p⟩ := by
    intro p hp
    obtain ⟨y, hy, r, -, -, -, trail, rfl⟩ := exists_left_of_forall₂ pages hp
    exact ⟨_, (List.mem_filter.1 hy).1, Marked.mark?_treePage ..⟩
  refine
    { element := ⟨_, hcontents⟩
      class_eq := ?_
      pages := List.forall₂_iff_zip.2 ⟨pages.length_eq, fun {y p} hz => ?_⟩
      once := kept.nodup_pagesOf book }
  · rw [hcontents, Marked.class?, Marked.object, Marked.erase, Xml.attribute?, Element.widgetPart,
      treebook]
    rfl
  · obtain ⟨hy, hp⟩ := List.of_mem_zip hz
    obtain ⟨r, hr, rfl, page, trail, rfl⟩ := (List.forall₂_iff_zip.1 pages).2 hz
    exact ⟨_, isFlatPage_treePage kept hr (kept.mem_nodes_of_mem_pagesOf hp) page trail distinct
      inside.subset (List.mem_filter.1 hy).1 others⟩

theorem exists_add (d : ResourceDocument) {form : Node} (hform : t.get? id = some form) :
    ∃ placement d', d.add t id = .ok (placement, d') := by
  obtain ⟨hid, -⟩ := Array.getElem?_eq_some_iff.1 hform
  rw [add, Tree.design, Tree.branch?, dif_pos hid]
  exact ⟨_, _, rfl⟩

/-- **Adding a form to a document adds each of its tree books with its pages.** -/
theorem isFlatBook_add (built : t.Built) (d : ResourceDocument) {form : Node}
    (hform : t.get? id = some form) :
    ∃ placement d', d.add t id = .ok (placement, d') ∧
      d'.objects = some (d.objects.getD [] ++ (d.marked t id).map Marked.erase) ∧
      ∀ book ∈ t.nodes, book.kind = .treebook → t.PagesJoined book →
        ∀ x ∈ Marked.elementsAll (d.marked t id), x.mark? = some ⟨.object, book⟩ →
          d.IsFlatBook t id book x := by
  obtain ⟨placement, d', added⟩ := d.exists_add hform
  refine ⟨placement, d', added, objects_add added, fun book hbook treebook joined x hx hmark => ?_⟩
  exact isFlatBook_of_joined built.kept hbook treebook joined hx hmark

/-! ## A tree book in a pane -/

/-- A dialog with a tree book in a pane. Three of the pages are below one another. -/
def paneDialog : Design :=
  .mk (.ofKind .project) [.mk (.ofKind .dialog) [.mk (.ofKind .verticalBoxSizer)
    [.mk (.ofKind .collapsiblePane) [.mk (.ofKind .boxSizer)
      [.mk (.ofKind .treebook)
        [.mk (.ofKind .bookPage)
          [.mk (.ofKind .bookPage) [.mk (.ofKind .bookPage) [], .mk (.ofKind .button) []]],
          .mk (.ofKind .bookPage) []]]]]]]

/-- The tree book of the dialog. -/
def paneBook : Node :=
  { Element.ofKind .treebook with id := 5, parent := some 4, children := [6, 10] }

theorem isFlatBook_paneDialog :
    ((Tree.ofDesign paneDialog).pagesOf paneBook).map
        (fun p => (p.id, (Tree.ofDesign paneDialog).pageDepth p))
      = [(6, 0), (7, 1), (8, 2), (10, 0)] ∧
    ∃ x ∈ Marked.elementsAll
        ((ResourceDocument.empty .default false true).marked (Tree.ofDesign paneDialog) 1),
      (ResourceDocument.empty .default false true).IsFlatBook (Tree.ofDesign paneDialog) 1 paneBook
        x := by
  have built : (Tree.ofDesign paneDialog).Built := .ofDesign (by
    intro e he
    simp only [paneDialog, Branch.toList, Branch.toListAll, List.append_nil, List.cons_append,
      List.nil_append, List.mem_cons, List.not_mem_nil, or_false] at he
    rcases he with rfl | rfl | rfl | rfl | rfl | rfl | rfl | rfl | rfl | rfl | rfl
    all_goals exact .ofKind _)
  have hbook : paneBook ∈ (Tree.ofDesign paneDialog).nodes :=
    Array.mem_of_getElem? (show (Tree.ofDesign paneDialog).nodes[5]? = some paneBook from rfl)
  have joined : (Tree.ofDesign paneDialog).PagesJoined paneBook := by
    unfold Tree.PagesJoined
    decide +kernel
  have written : ((Marked.elementsAll ((ResourceDocument.empty .default false true).marked
      (Tree.ofDesign paneDialog) 1)).find?
        fun x => x.mark? = some ⟨.object, paneBook⟩).isSome = true := by
    decide +kernel
  have form : (Tree.ofDesign paneDialog).get? 1
      = some { Element.ofKind .dialog with id := 1, parent := some 0, children := [2] } := rfl
  obtain ⟨-, -, -, -, flat⟩ := isFlatBook_add built (.empty .default false true) form
  obtain ⟨x, hx⟩ := Option.isSome_iff_exists.1 written
  have hmark : x.mark? = some ⟨.object, paneBook⟩ := by simpa using List.find?_some hx
  have hmem := List.mem_of_find?_eq_some hx
  exact ⟨by decide +kernel, x, hmem, flat paneBook hbook rfl joined x hmem hmark⟩

end ResourceDocument

end FormDesign
