import FormDesign.Proofs.Resource.Origin
import FormDesign.Proofs.Resource.Shapes

/-!
# Pages of a tree book

The pages of a tree book may stand below one another in the design. In the resource all of them are
objects of the book, in the order of the design, and tell how deep they were.

* `bookPages`: the pages of the book around a branch, with their depths
* `Joined`: no page of the book stands below something else than a page
* `forall₂_treePages_markAll`: the pages among what siblings grow into
-/

namespace FormDesign

open Branch (places placesAll)

/-! ## Pages in a design -/

mutual

/-- The pages of the book around a branch, in pre-order. Each is told with the number of pages that
it is below, of which `depth` are above the branch. -/
def bookPages (above : List Node) (depth : Nat) : Branch Node → List (Branch.Place Node × Nat)
  | .mk n cs =>
    if n.kind.isBook then []
    else if n.kind = .bookPage then
      (⟨above, .mk n cs⟩, depth) :: bookPagesAll (n :: above) (depth + 1) cs
    else bookPagesAll (n :: above) depth cs

/-- The pages of the book around several branches. -/
def bookPagesAll (above : List Node) (depth : Nat) :
    List (Branch Node) → List (Branch.Place Node × Nat)
  | [] => []
  | b :: bs => bookPages above depth b ++ bookPagesAll above depth bs

end

theorem bookPages_of_page {above : List Node} {depth : Nat} {n : Node} {cs : List (Branch Node)}
    (page : n.kind = .bookPage) :
    bookPages above depth (.mk n cs)
      = (⟨above, .mk n cs⟩, depth) :: bookPagesAll (n :: above) (depth + 1) cs := by
  rw [bookPages, if_neg (by rw [page]; decide), if_pos page]

theorem bookPages_ne_nil {above : List Node} {depth : Nat} {n : Node} {cs : List (Branch Node)}
    (page : n.kind = .bookPage) : bookPages above depth (.mk n cs) ≠ [] := by
  rw [bookPages_of_page page]
  exact List.cons_ne_nil _ _

theorem bookPagesAll_eq_nil {above : List Node} {depth : Nat} {n : Node} {cs : List (Branch Node)}
    (book : ¬n.kind.isBook = true) (none : bookPages above depth (.mk n cs) = []) :
    bookPagesAll (n :: above) depth cs = [] := by
  by_cases page : n.kind = .bookPage
  · exact absurd none (bookPages_ne_nil page)
  · rwa [bookPages, if_neg book, if_neg page] at none

/-- A branch in which no page of the book around it stands below something else than a page. -/
inductive Joined : List Node → Branch Node → Prop
  | page {above : List Node} {n : Node} {cs : List (Branch Node)} (page : n.kind = .bookPage)
      (below : ∀ c ∈ cs, Joined (n :: above) c) : Joined above (.mk n cs)
  | other {above : List Node} {n : Node} {cs : List (Branch Node)} (other : n.kind ≠ .bookPage)
      (none : ∀ depth, bookPages above depth (.mk n cs) = []) : Joined above (.mk n cs)

/-- The kind of the nearest book among some nodes, nearest first. -/
def nearestBook (above : List Node) : Option Kind :=
  ((above.map Node.toElement).find? fun a => a.kind.isBook).map Element.kind

theorem nearestBook_cons (n : Node) (above : List Node) :
    nearestBook (n :: above) = if n.kind.isBook = true then some n.kind else nearestBook above := by
  rw [nearestBook, List.map_cons, List.find?_cons]
  cases n.kind.isBook <;> rfl

/-! ## Classes of elements -/

/-- The part of the element that stands for a node. -/
def Shape.outside : Shape → Part
  | .absent => ⟨[], []⟩
  | .plain part | .remark part | .wrapped part _ => part

namespace Element

theorem pageClass_eq_iff (book : Option Kind) :
    pageClass book = "treebookpage" ↔ book = some .treebook := by
  unfold pageClass
  split <;> simp_all

theorem objectClass?_ne_page (k : Kind) : k.objectClass? ≠ some "treebookpage" := by
  cases k <;> decide

/-- Only pages have the class of the pages of a tree book. -/
theorem class_outside_ne_page (e : Element) (comments : Bool) (above : List Element)
    (h : e.kind ≠ .bookPage) :
    (e.resourceShape comments above).outside.attributes.lookup "class"
      ≠ some "treebookpage" := by
  have item : some "sizeritem" ≠ some "treebookpage" := by decide
  have shaped := e.shaped_resourceShape comments above
  generalize e.resourceShape comments above = shape at shaped
  cases shaped with
  | absent => nofun
  | remark _ inSizer class_eq =>
    cases inSizer with
    | true => exact item
    | false => exact fun page => nomatch class_eq.symm.trans page
  | own _ _ inSizer own =>
    cases inSizer with
    | true => exact item
    | false => exact fun page => objectClass?_ne_page e.kind (own.class_eq.symm.trans page)
  | page page => exact absurd page h

end Element

/-! ## Pages among the elements -/

/-- Whether an element is a page of a tree book. -/
def Marked.isTreePage (x : Marked) : Bool :=
  x.class? == some "treebookpage"

theorem Marked.class?_prepend (tags : List Xml) (x : Marked) :
    (x.prepend tags).class? = x.class? := by
  cases x <;> rfl

theorem Marked.isTreePage_prepend (tags : List Xml) (x : Marked) :
    (x.prepend tags).isTreePage = x.isTreePage := by
  rw [isTreePage, class?_prepend]
  rfl

namespace Branch.Place

variable {comments : Bool} {q : Branch.Place Node}

/-- An object has the class that the shape of its node tells. -/
theorem class?_grown (comments : Bool) (q : Branch.Place Node) (trail : Trail) (depth : Nat) :
    (q.grown comments trail depth).object.class?
      = (q.shape comments).outside.attributes.lookup "class" := by
  cases hs : q.shape comments with
  | absent => rw [grown_of_absent hs]; rfl
  | remark part => rw [grown_of_remark hs]; rfl
  | plain part => rw [grown_of_plain hs]; rfl
  | wrapped outer inner => rw [grown_of_wrapped hs]; rfl

theorem isTreePage_grown (comments : Bool) (q : Branch.Place Node) (trail : Trail) (depth : Nat) :
    (q.grown comments trail depth).object.isTreePage = true
      ↔ q.label.kind = .bookPage ∧ q.book? = some .treebook := by
  rw [Marked.isTreePage, class?_grown, beq_iff_eq]
  by_cases page : q.label.kind = .bookPage
  · have lookup : (q.shape comments).outside.attributes.lookup "class"
        = some (Element.pageClass q.book?) := by
      rw [shape_of_bookPage page]
      rfl
    rw [lookup, Option.some.injEq, Element.pageClass_eq_iff, and_iff_right page]
  · refine iff_of_false ?_ fun h => page h.1
    exact Element.class_outside_ne_page q.label.toElement comments _ page

/-- What moves on from a node is part of what its children grew into, and nothing moves on from a
tree book. -/
theorem pages_grown_sublist (trail : Trail) (depth : Nat) :
    (q.grown comments trail depth).pages.Sublist (q.held comments trail depth) := by
  cases hs : q.shape comments with
  | absent => rw [grown_of_absent hs]; exact List.nil_sublist _
  | remark part => rw [grown_of_remark hs]; exact List.nil_sublist _
  | plain part => rw [grown_of_plain hs]; exact Marked.settle_snd_sublist _ _
  | wrapped outer inner => rw [grown_of_wrapped hs]; exact Marked.settle_snd_sublist _ _

theorem pages_grown_of_treebook (h : q.label.kind = .treebook) (trail : Trail) (depth : Nat) :
    (q.grown comments trail depth).pages = [] := by
  have settled : (Marked.settle q.label.toElement (q.held comments trail depth)).2 = [] := by
    rw [Marked.settle, if_pos h]
  cases hs : q.shape comments with
  | absent => rw [grown_of_absent hs]
  | remark part => rw [grown_of_remark hs]
  | plain part => rw [grown_of_plain hs]; exact settled
  | wrapped outer inner => rw [grown_of_wrapped hs]; exact settled

end Branch.Place

mutual

/-- Where no page belongs to a tree book around, none goes there. -/
theorem no_treePages_markChild {comments : Bool} {parent : Node} {flatten : Bool}
    {above : List Node} {trail : Trail} {b : Branch Node}
    (h : nearestBook above ≠ some .treebook ∨ ∀ depth, bookPages above depth b = [])
    {s : MarkedSprout} (hs : s ∈ markChild comments parent flatten above trail b) :
    s.xml.isTreePage = false := by
  cases b with
  | mk n cs =>
    let self : Branch.Place Node := ⟨above, .mk n cs⟩
    have object (tags : List Xml) (trail : Trail) (depth : Nat) :
        ((self.grown comments trail depth).object.prepend tags).isTreePage = false := by
      rw [Marked.isTreePage_prepend, Bool.eq_false_iff]
      intro hpage
      obtain ⟨page, book⟩ := (self.isTreePage_grown comments trail depth).1 hpage
      rcases h with h | none
      · exact h book
      · exact bookPages_ne_nil page (none 0)
    have below {flatten : Bool} {inner : Trail} (hkind : n.kind ≠ .treebook)
        (hs : s ∈ markAll comments n flatten (n :: above) inner cs) : s.xml.isTreePage = false := by
      refine no_treePages_markAll ?_ hs
      rw [nearestBook_cons]
      split
      · exact Or.inl fun heq => hkind (Option.some.inj heq)
      · next hbook => exact h.imp_right fun none depth => bookPagesAll_eq_nil hbook (none depth)
    have pages {trail : Trail} {depth : Nat}
        (hs : s ∈ (self.grown comments trail depth).pages) : s.xml.isTreePage = false := by
      by_cases hkind : n.kind = .treebook
      · rw [Branch.Place.pages_grown_of_treebook (q := self) hkind] at hs
        cases hs
      · exact below hkind ((Branch.Place.pages_grown_sublist trail depth).subset hs)
    rw [markChild] at hs
    dsimp only at hs
    split at hs
    · next hfolder =>
      refine below (fun htree => ?_) hs
      simp [htree] at hfolder
    · split at hs
      · rcases List.mem_cons.1 hs with rfl | hs
        · exact object _ _ _
        · exact pages hs
      · unfold MarkedGrowth.asChild at hs
        split at hs
        · rcases List.mem_cons.1 hs with rfl | hs
          · rw [← Marked.prepend_nil (MarkedGrowth.object _)]
            exact object [] _ _
          · exact pages hs
        · cases hs

theorem no_treePages_markAll {comments : Bool} {parent : Node} {flatten : Bool}
    {above : List Node} {trail : Trail} {bs : List (Branch Node)}
    (h : nearestBook above ≠ some .treebook ∨ ∀ depth, bookPagesAll above depth bs = [])
    {s : MarkedSprout} (hs : s ∈ markAll comments parent flatten above trail bs) :
    s.xml.isTreePage = false := by
  cases bs with
  | nil =>
    rw [markAll] at hs
    cases hs
  | cons b bs =>
    rw [markAll] at hs
    rcases List.mem_append.1 hs with hs | hs
    · refine no_treePages_markChild (h.imp_right fun none depth => ?_) hs
      exact (List.append_eq_nil_iff.1 (none depth)).1
    · refine no_treePages_markAll (h.imp_right fun none depth => ?_) hs
      exact (List.append_eq_nil_iff.1 (none depth)).2

end

/-! ## Pages of the book around -/

/-- What a page that is below others is written with first. -/
def depthTags (depth : Nat) : List Xml :=
  if depth = 0 then [] else [.leaf "depth" (toString depth)]

/-- A sprout is the page at a place, with its depth. The pages below a page move up. -/
structure IsPageAt (comments : Bool) (parent : Node) (s : MarkedSprout)
    (page : Branch.Place Node × Nat) : Prop where
  moves : parent.kind = .bookPage → s.moves = true
  xml : ∃ trail, s.xml = (page.1.grown comments trail page.2).object.prepend (depthTags page.2)

theorem Trail.nextDepth_pos (trail : Trail) : 0 < trail.nextDepth := by
  unfold nextDepth
  split
  · exact Nat.succ_pos _
  · exact Nat.one_pos

theorem Trail.enter_page (trail : Trail) {n : Node} (page : n.kind = .bookPage) (depth : Nat) :
    trail.enter n.toElement (some .treebook) depth = { trail with pageDepth := some depth } := by
  rw [enter, if_neg (by rw [page]; decide), page]
  rfl

/-- The pages of a tree book below a page are among what moves on from the page. -/
theorem filter_treePages_pages {comments : Bool} {q : Branch.Place Node} {trail : Trail}
    {depth : Nat} {pages : List (Branch.Place Node × Nat)} (page : q.label.kind = .bookPage)
    (held : List.Forall₂ (IsPageAt comments q.label)
      ((q.held comments trail depth).filter fun s => s.xml.isTreePage) pages) :
    ((q.grown comments trail depth).pages.filter fun s => s.xml.isTreePage)
      = (q.held comments trail depth).filter fun s => s.xml.isTreePage := by
  have moves : ∀ s ∈ (q.held comments trail depth).filter fun s => s.xml.isTreePage,
      s.moves = true :=
    ((List.forall₂_and_left _ _).1 (held.imp fun s p h => ⟨h.moves page, h⟩)).1
  rw [Branch.Place.grown_of_wrapped (Branch.Place.shape_of_bookPage page comments)]
  dsimp only
  rw [Marked.settle, if_neg (by rw [page]; decide), List.filter_filter]
  refine List.filter_congr fun s hs => ?_
  cases hpage : s.xml.isTreePage with
  | false => rfl
  | true => exact moves s (List.mem_filter.2 ⟨hs, hpage⟩)

/-- A page grows into itself and the pages that move on from it. Below a page it moves up and tells
its depth, and as a page of the book itself it stays. -/
theorem forall₂_treePages_page {comments : Bool} {parent : Node} {flatten : Bool} {trail : Trail}
    {depth : Nat} {q : Branch.Place Node} {pages : List (Branch.Place Node × Nat)}
    (page : q.label.kind = .bookPage) (book : q.book? = some .treebook)
    (inside : trail.inTreeBook = true)
    (hdepth : parent.kind = .bookPage ∧ trail.nextDepth = depth
      ∨ parent.kind ≠ .bookPage ∧ depth = 0)
    (rest : ∀ trail : Trail, trail.inTreeBook = true →
      List.Forall₂ (IsPageAt comments q.label)
        ((q.grown comments trail depth).pages.filter fun s => s.xml.isTreePage) pages) :
    List.Forall₂ (IsPageAt comments parent)
      ((markChild comments parent flatten q.above trail q.branch).filter fun s => s.xml.isTreePage)
      ((q, depth) :: pages) := by
  have isPage (trail : Trail) : (q.grown comments trail depth).object.isTreePage = true :=
    (q.isTreePage_grown comments trail depth).2 ⟨page, book⟩
  have first {s : MarkedSprout} (hs : s.xml.isTreePage = true) (more : List MarkedSprout) :
      (s :: more).filter (fun s => s.xml.isTreePage)
        = s :: more.filter fun s => s.xml.isTreePage := List.filter_cons_of_pos hs
  rw [markChild_place, if_neg (by simp [page])]
  rcases hdepth with ⟨hparent, rfl⟩ | ⟨hparent, rfl⟩
  · have tags : depthTags trail.nextDepth = [.leaf "depth" (toString trail.nextDepth)] :=
      if_neg (Nat.pos_iff_ne_zero.1 trail.nextDepth_pos)
    rw [if_pos (by simp [hparent, page, inside]), MarkedGrowth.asPage, ← tags, first]
    · refine .cons ⟨fun _ => rfl, _, rfl⟩ ?_
      have moved := rest { trail with pageDepth := none } inside
      exact moved.imp fun s p h => ⟨fun _ => h.moves page, h.xml⟩
    · exact (Marked.isTreePage_prepend ..).trans (isPage _)
  · have kept : (q.grown comments trail 0).kept = true := by
      rw [Branch.Place.grown_of_wrapped (Branch.Place.shape_of_bookPage page comments)]
    rw [if_neg (by simp [hparent]), MarkedGrowth.asChild, if_pos kept, first (isPage trail)]
    refine .cons ⟨fun h => absurd h hparent, trail, (Marked.prepend_nil _).symm⟩ ?_
    exact (rest trail inside).imp fun s p h => ⟨fun h => absurd h hparent, h.xml⟩

mutual

/-- The pages among what a node grows into are the pages of its branch. -/
theorem forall₂_treePages_markChild {comments : Bool} {parent : Node} {flatten : Bool}
    {above : List Node} {trail : Trail} {depth : Nat} {b : Branch Node}
    (book : nearestBook above = some .treebook) (inside : trail.inTreeBook = true)
    (hdepth : parent.kind = .bookPage ∧ trail.nextDepth = depth
      ∨ parent.kind ≠ .bookPage ∧ depth = 0)
    (joined : Joined above b) :
    List.Forall₂ (IsPageAt comments parent)
      ((markChild comments parent flatten above trail b).filter fun s => s.xml.isTreePage)
      (bookPages above depth b) := by
  cases joined with
  | @other above n cs hother none =>
    have empty : (markChild comments parent flatten above trail (.mk n cs)).filter
        (fun s => s.xml.isTreePage) = [] :=
      List.filter_eq_nil_iff.2 fun s hs => by
        rw [no_treePages_markChild (Or.inr none) hs]
        exact Bool.false_ne_true
    rw [empty, none]
    exact .nil
  | @page above n cs page below =>
    let self : Branch.Place Node := ⟨above, .mk n cs⟩
    rw [bookPages_of_page page]
    refine forall₂_treePages_page (q := self) page book inside hdepth fun trail inside => ?_
    have held : List.Forall₂ (IsPageAt comments n)
        ((self.held comments trail depth).filter fun s => s.xml.isTreePage)
        (bookPagesAll (n :: above) (depth + 1) cs) := by
      have enter : trail.enter self.label.toElement self.book? depth
          = { trail with pageDepth := some depth } := by
        rw [show self.book? = some .treebook from book]
        exact trail.enter_page page depth
      have notBook : ¬n.kind.isBook = true := by
        rw [page]
        decide
      rw [Branch.Place.held, enter]
      refine forall₂_treePages_markAll ?_ inside (Or.inl ⟨page, rfl⟩) below
      rw [← book]
      exact (nearestBook_cons n above).trans (if_neg notBook)
    rwa [← filter_treePages_pages (q := self) page held] at held

theorem forall₂_treePages_markAll {comments : Bool} {parent : Node} {flatten : Bool}
    {above : List Node} {trail : Trail} {depth : Nat} {bs : List (Branch Node)}
    (book : nearestBook above = some .treebook) (inside : trail.inTreeBook = true)
    (hdepth : parent.kind = .bookPage ∧ trail.nextDepth = depth
      ∨ parent.kind ≠ .bookPage ∧ depth = 0)
    (joined : ∀ b ∈ bs, Joined above b) :
    List.Forall₂ (IsPageAt comments parent)
      ((markAll comments parent flatten above trail bs).filter fun s => s.xml.isTreePage)
      (bookPagesAll above depth bs) := by
  cases bs with
  | nil =>
    rw [markAll, bookPagesAll]
    exact .nil
  | cons b bs =>
    rw [markAll, bookPagesAll, List.filter_append]
    exact List.rel_append
      (forall₂_treePages_markChild book inside hdepth (joined b List.mem_cons_self))
      (forall₂_treePages_markAll book inside hdepth fun c hc =>
        joined c (List.mem_cons_of_mem _ hc))

end

end FormDesign
