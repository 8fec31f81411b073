import FormDesign.Proofs.Resource.Marked
import Mathlib.Data.List.Nodup
import Mathlib.Data.List.Pairwise
import Mathlib.Data.List.Perm.Subperm

/-!
# Where the elements of a resource come from

Every marked element was written at the place of its node in the design, and no two elements have
the same mark. So an element can be found by its mark, wherever in the resource it was put.

* `Marked.WrittenAt`: the elements that are written at a place
* `exists_writtenAt_markAll`: what siblings grow into was written at the places below them
* `subperm_marks_markAll`: each node is marked once as an object, and once around it
* `Marked.eq_of_mark`, `Marked.not_inside`: elements are told apart by their marks
* `ResourceDocument.exists_writtenAt`, `ResourceDocument.nodup_marks`: the same for a document
-/

namespace FormDesign

open Branch (places placesAll)

/-! ## Places in a design -/

namespace Branch.Place

/-- What the node at a place becomes. -/
def shape (comments : Bool) (q : Branch.Place Node) : Shape :=
  q.label.resourceShape comments (q.above.map Node.toElement)

/-- The kind of the nearest book above a place. -/
def book? (q : Branch.Place Node) : Option Kind :=
  ((q.above.map Node.toElement).find? fun a => a.kind.isBook).map Element.kind

/-- What the children of the node at a place grow into. -/
def held (comments : Bool) (q : Branch.Place Node) (trail : Trail) (depth : Nat) :
    List MarkedSprout :=
  markAll comments q.label (Element.flattensFolders (q.shape comments) q.label.toElement)
    (q.label :: q.above) (trail.enter q.label.toElement q.book? depth) q.branch.children

/-- What is put into the object of the node at a place. -/
def contents (comments : Bool) (q : Branch.Place Node) (trail : Trail) (depth : Nat) :
    List Marked :=
  Marked.container q.label.toElement q.branch.children.isEmpty
    ((Marked.settle q.label.toElement (q.held comments trail depth)).1.map MarkedSprout.xml)

/-- The growth of the node at a place. -/
def grown (comments : Bool) (q : Branch.Place Node) (trail : Trail) (depth : Nat) : MarkedGrowth :=
  .around comments q.above trail depth q.label q.branch.children.isEmpty fun flatten inner =>
    markAll comments q.label flatten (q.label :: q.above) inner q.branch.children

end Branch.Place

/-- What the node at a place grows into, by what stands around it. -/
theorem markChild_place (comments : Bool) (parent : Node) (flatten : Bool) (trail : Trail)
    (q : Branch.Place Node) :
    markChild comments parent flatten q.above trail q.branch
      = if flatten && q.label.kind = .folder then
          markAll comments q.label true (q.label :: q.above) trail q.branch.children
        else if parent.kind = .bookPage && q.label.kind = .bookPage && trail.inTreeBook then
          (q.grown comments { trail with pageDepth := none } trail.nextDepth).asPage trail.nextDepth
        else (q.grown comments trail 0).asChild := by
  obtain ⟨above, n, cs⟩ := q
  dsimp only
  rw [markChild]
  rfl

/-- The elements that are written for the node at a place: its object, a remark, or an object with
an element around it. Around a page that element may have tags before its other contents. -/
inductive Marked.WrittenAt (comments : Bool) (q : Branch.Place Node) : Marked → Prop
  | plain {part : Part} (hs : q.shape comments = .plain part) (trail : Trail) (depth : Nat) :
      WrittenAt comments q
        (object (some ⟨.object, q.label⟩) part (q.contents comments trail depth))
  | remark {part : Part} (hs : q.shape comments = .remark part) (keep : comments = true) :
      WrittenAt comments q (object (some ⟨.object, q.label⟩) part [])
  | inner {outer inner : Part} (hs : q.shape comments = .wrapped outer inner) (trail : Trail)
      (depth : Nat) :
      WrittenAt comments q
        (object (some ⟨.object, q.label⟩) inner (q.contents comments trail depth))
  | outer {outer inner : Part} (hs : q.shape comments = .wrapped outer inner) (trail : Trail)
      (depth : Nat) {tags : List Xml} (htags : tags = [] ∨ q.label.kind = .bookPage) :
      WrittenAt comments q
        ((object (some ⟨.around, q.label⟩) outer
          [object (some ⟨.object, q.label⟩) inner (q.contents comments trail depth)]).prepend tags)

namespace Branch.Place

variable {comments : Bool} {q : Branch.Place Node} {part outer inner : Part}

theorem shape_of_bookPage (page : q.label.kind = .bookPage) (comments : Bool) :
    q.shape comments
      = .wrapped (q.label.pagePart comments q.book?) (q.label.panelPart comments) := by
  unfold shape Element.resourceShape Element.shape
  rw [page]
  rfl

theorem grown_of_absent (hs : q.shape comments = .absent) (trail : Trail) (depth : Nat) :
    q.grown comments trail depth = ⟨false, .object none ⟨[], []⟩ [], []⟩ := by
  unfold grown MarkedGrowth.around
  dsimp only
  rw [show q.label.resourceShape comments (q.above.map Node.toElement) = _ from hs]
  rfl

theorem grown_of_remark (hs : q.shape comments = .remark part) (trail : Trail) (depth : Nat) :
    q.grown comments trail depth
      = ⟨comments, .object (if comments then some ⟨.object, q.label⟩ else none) part [], []⟩ := by
  unfold grown MarkedGrowth.around
  dsimp only
  rw [show q.label.resourceShape comments (q.above.map Node.toElement) = _ from hs]
  rfl

theorem grown_of_plain (hs : q.shape comments = .plain part) (trail : Trail) (depth : Nat) :
    q.grown comments trail depth
      = ⟨true, .object (some ⟨.object, q.label⟩) part (q.contents comments trail depth),
          (Marked.settle q.label.toElement (q.held comments trail depth)).2⟩ := by
  unfold contents held grown MarkedGrowth.around
  dsimp only
  rw [hs, show q.label.resourceShape comments (q.above.map Node.toElement) = _ from hs]
  rfl

theorem grown_of_wrapped (hs : q.shape comments = .wrapped outer inner) (trail : Trail)
    (depth : Nat) :
    q.grown comments trail depth
      = ⟨true, .object (some ⟨.around, q.label⟩) outer
            [.object (some ⟨.object, q.label⟩) inner (q.contents comments trail depth)],
          (Marked.settle q.label.toElement (q.held comments trail depth)).2⟩ := by
  unfold contents held grown MarkedGrowth.around
  dsimp only
  rw [hs, show q.label.resourceShape comments (q.above.map Node.toElement) = _ from hs]
  rfl

end Branch.Place

namespace Marked

variable {comments : Bool} {q : Branch.Place Node} {y : Marked}

/-- The mark of what is written at a place names the node there. -/
theorem WrittenAt.exists_mark (h : WrittenAt comments q y) :
    ∃ role, y.mark? = some ⟨role, q.label⟩ := by
  cases h with
  | plain | remark | inner => exact ⟨.object, rfl⟩
  | outer => exact ⟨.around, rfl⟩

/-! ## Elements of a growth -/

theorem elementsAll_append (xs ys : List Marked) :
    elementsAll (xs ++ ys) = elementsAll xs ++ elementsAll ys := by
  rw [elementsAll_eq, elementsAll_eq, elementsAll_eq, List.flatMap_append]

theorem elementsAll_bare (xs : List Xml) : elementsAll (xs.map bare) = [] := by
  induction xs with
  | nil => rfl
  | cons x xs ih => exact ih

@[simp] theorem elementsAll_nil : elementsAll [] = [] :=
  rfl

@[simp] theorem elementsAll_cons (x : Marked) (xs : List Marked) :
    elementsAll (x :: xs) = x.elements ++ elementsAll xs :=
  rfl

@[simp] theorem elements_object (mark : Option Mark) (p : Part) (more : List Marked) :
    (object mark p more).elements = object mark p more :: elementsAll more := by
  rw [object, elements, elementsAll_append, elementsAll_bare, List.nil_append]

@[simp] theorem prepend_nil (x : Marked) : x.prepend [] = x := by
  cases x <;> rfl

@[simp] theorem elements_prepend_object (tags : List Xml) (mark : Option Mark) (p : Part)
    (more : List Marked) :
    ((object mark p more).prepend tags).elements
      = (object mark p more).prepend tags :: elementsAll more := by
  rw [object, prepend, elements, elementsAll_append, elementsAll_append, elementsAll_bare,
    elementsAll_bare, List.nil_append, List.nil_append]

theorem contents_object (mark : Option Mark) (p : Part) (more : List Marked) :
    (object mark p more).contents = p.contents.map bare ++ more :=
  rfl

theorem elementsAll_contents_subset (x : Marked) : elementsAll x.contents ⊆ x.elements := by
  cases x with
  | bare x => exact List.nil_subset _
  | element mark name attributes contents => exact List.subset_cons_self _ _

theorem mem_elementsAll {xs : List Marked} : y ∈ elementsAll xs ↔ ∃ x ∈ xs, y ∈ x.elements := by
  rw [elementsAll_eq, List.mem_flatMap]

/-- Windows and menus that are put between a node and its children have no mark. -/
theorem mem_elementsAll_of_container {e : Element} {leafless : Bool} {children : List Marked}
    (hmark : y.mark? ≠ none) (hy : y ∈ elementsAll (container e leafless children)) :
    y ∈ elementsAll children := by
  have unmarked {x : Marked} (hx : x.mark? = none) : y ≠ x := by
    rintro rfl
    exact hmark hx
  unfold container at hy
  split at hy
  · simpa [unmarked (x := object ..) rfl] using hy
  · split at hy
    · split at hy
      · cases hy
      · simpa [elements, unmarked (x := element ..) rfl, unmarked (x := object ..) rfl] using hy
    · exact hy

theorem settle_fst_sublist (e : Element) (sprouts : List MarkedSprout) :
    (settle e sprouts).1.Sublist sprouts := by
  unfold settle
  split
  · exact List.Sublist.refl _
  · exact List.filter_sublist

theorem settle_snd_sublist (e : Element) (sprouts : List MarkedSprout) :
    (settle e sprouts).2.Sublist sprouts := by
  unfold settle
  split
  · exact List.nil_sublist _
  · exact List.filter_sublist

theorem elementsAll_subset_of_sublist {sprouts more : List MarkedSprout}
    (h : sprouts.Sublist more) :
    elementsAll (sprouts.map MarkedSprout.xml) ⊆ elementsAll (more.map MarkedSprout.xml) := by
  intro y hy
  obtain ⟨x, hx, hy⟩ := mem_elementsAll.1 hy
  exact mem_elementsAll.2 ⟨x, (h.map _).subset hx, hy⟩

/-- An element is written at a place on a trail. The object of a node that the resource describes
holds what the children grow into on the trail. -/
structure Writes (comments : Bool) (q : Branch.Place Node) (trail : Trail) (depth : Nat)
    (y : Marked) : Prop where
  written : WrittenAt comments q y
  object : q.label.kind.isDescribed = true → y.mark? = some ⟨.object, q.label⟩ →
    ∃ part, (q.shape comments = .plain part ∨ ∃ outer, q.shape comments = .wrapped outer part) ∧
      y = object (some ⟨.object, q.label⟩) part (q.contents comments trail depth)

/-- An element in the object of a node, or in a page that moves on, was written at the place of the
node, or is in what the children grew into. -/
theorem writes_or_held {tags : List Xml} {trail : Trail} {depth : Nat}
    (htags : tags = [] ∨ q.label.kind = .bookPage)
    (hmark : y.mark? ≠ none)
    (hy : y ∈ elementsAll ((q.grown comments trail depth).object.prepend tags
      :: (q.grown comments trail depth).pages.map MarkedSprout.xml)) :
    Writes comments q trail depth y ∨ q.label.kind.isDescribed = true
      ∧ y ∈ elementsAll ((q.held comments trail depth).map MarkedSprout.xml) := by
  have contents (h : y ∈ elementsAll (q.contents comments trail depth)) :
      y ∈ elementsAll ((q.held comments trail depth).map MarkedSprout.xml) :=
    elementsAll_subset_of_sublist (settle_fst_sublist _ _) (mem_elementsAll_of_container hmark h)
  have pages (h : y ∈ elementsAll ((Marked.settle q.label.toElement
      (q.held comments trail depth)).2.map MarkedSprout.xml)) :
      y ∈ elementsAll ((q.held comments trail depth).map MarkedSprout.xml) :=
    elementsAll_subset_of_sublist (settle_snd_sublist _ _) h
  have untagged (h : ∀ outer inner, q.shape comments ≠ .wrapped outer inner) : tags = [] :=
    htags.resolve_right fun page => h _ _ (Branch.Place.shape_of_bookPage page comments)
  have holds : (q.shape comments).holdsChildren = q.label.kind.isDescribed :=
    q.label.holdsChildren_resourceShape ..
  cases hs : q.shape comments with
  | absent =>
    rw [Branch.Place.grown_of_absent hs, untagged (by rw [hs]; exact nofun)] at hy
    obtain rfl : y = object none ⟨[], []⟩ [] := by simpa using hy
    exact absurd rfl hmark
  | remark part =>
    rw [Branch.Place.grown_of_remark hs, untagged (by rw [hs]; exact nofun)] at hy
    obtain rfl : y = object _ part [] := by simpa using hy
    rw [hs] at holds
    cases comments with
    | false => exact absurd rfl hmark
    | true => exact Or.inl ⟨.remark hs rfl, fun described _ => nomatch holds.trans described⟩
  | plain part =>
    rw [hs] at holds
    rw [Branch.Place.grown_of_plain hs, untagged (by rw [hs]; exact nofun), elementsAll_cons,
      prepend_nil, elements_object] at hy
    rcases List.mem_append.1 hy with hy | hy
    · rcases List.mem_cons.1 hy with rfl | hy
      · exact Or.inl ⟨.plain hs trail depth, fun _ _ => ⟨part, Or.inl hs, rfl⟩⟩
      · exact Or.inr ⟨holds.symm, contents hy⟩
    · exact Or.inr ⟨holds.symm, pages hy⟩
  | wrapped outer inner =>
    rw [hs] at holds
    rw [Branch.Place.grown_of_wrapped hs, elementsAll_cons, elements_prepend_object,
      elementsAll_cons, elements_object, elementsAll_nil, List.append_nil] at hy
    rcases List.mem_append.1 hy with hy | hy
    · rcases List.mem_cons.1 hy with rfl | hy
      · exact Or.inl ⟨.outer hs trail depth htags, fun _ around => nomatch around⟩
      · rcases List.mem_cons.1 hy with rfl | hy
        · exact Or.inl ⟨.inner hs trail depth, fun _ _ => ⟨inner, Or.inr ⟨outer, hs⟩, rfl⟩⟩
        · exact Or.inr ⟨holds.symm, contents hy⟩
    · exact Or.inr ⟨holds.symm, pages hy⟩

theorem writtenAt_or_held {tags : List Xml} {trail : Trail} {depth : Nat}
    (htags : tags = [] ∨ q.label.kind = .bookPage)
    (hmark : y.mark? ≠ none)
    (hy : y ∈ elementsAll ((q.grown comments trail depth).object.prepend tags
      :: (q.grown comments trail depth).pages.map MarkedSprout.xml)) :
    WrittenAt comments q y
      ∨ y ∈ elementsAll ((q.held comments trail depth).map MarkedSprout.xml) :=
  (writes_or_held htags hmark hy).imp Writes.written And.right

/-- The marks of elements, in pre-order. -/
def marks (xs : List Marked) : List Mark :=
  (elementsAll xs).filterMap mark?

end Marked

namespace Branch.Place

variable {comments : Bool} {q : Branch.Place Node} {y : Marked}

theorem kept_grown (described : q.label.kind.isDescribed = true) (trail : Trail) (depth : Nat) :
    (q.grown comments trail depth).kept = true := by
  have holds : (q.shape comments).holdsChildren = q.label.kind.isDescribed :=
    q.label.holdsChildren_resourceShape ..
  cases hs : q.shape comments with
  | absent | remark part =>
    rw [hs] at holds
    cases holds.trans described
  | plain part => rw [grown_of_plain hs]
  | wrapped outer inner => rw [grown_of_wrapped hs]

/-- What a node holds is in its object, if the resource describes the node. -/
theorem mem_contents_grown (described : q.label.kind.isDescribed = true) {trail : Trail}
    {depth : Nat} (hy : y ∈ Marked.elementsAll (q.contents comments trail depth)) :
    y ∈ Marked.elementsAll (q.grown comments trail depth).object.contents := by
  have holds : (q.shape comments).holdsChildren = q.label.kind.isDescribed :=
    q.label.holdsChildren_resourceShape ..
  cases hs : q.shape comments with
  | absent | remark part =>
    rw [hs] at holds
    cases holds.trans described
  | plain part =>
    rw [grown_of_plain hs, Marked.contents_object, Marked.elementsAll_append]
    exact List.mem_append_right _ hy
  | wrapped outer inner =>
    rw [grown_of_wrapped hs, Marked.contents_object, Marked.elementsAll_append]
    refine List.mem_append_right _ ?_
    simpa using Or.inr hy

end Branch.Place

/-! ## Origins -/

mutual

/-- What a node grows into was written at the places of its branch. -/
theorem exists_writtenAt_markChild {comments : Bool} {parent : Node} {flatten : Bool}
    {above : List Node} {trail : Trail} {b : Branch Node} {y : Marked} (hmark : y.mark? ≠ none)
    (hy : y ∈ Marked.elementsAll
      ((markChild comments parent flatten above trail b).map MarkedSprout.xml)) :
    ∃ q ∈ places above b, Marked.WrittenAt comments q y := by
  cases b with
  | mk n cs =>
    let self : Branch.Place Node := ⟨above, .mk n cs⟩
    have below {flatten : Bool} {inner : Trail}
        (h : y ∈ Marked.elementsAll
          ((markAll comments n flatten (n :: above) inner cs).map MarkedSprout.xml)) :
        ∃ q ∈ places above (.mk n cs), Marked.WrittenAt comments q y := by
      obtain ⟨q, hq, written⟩ := exists_writtenAt_markAll hmark h
      rw [places]
      exact ⟨q, List.mem_cons_of_mem _ hq, written⟩
    have here {trail : Trail} {depth : Nat}
        (h : Marked.WrittenAt comments self y ∨
          y ∈ Marked.elementsAll ((self.held comments trail depth).map MarkedSprout.xml)) :
        ∃ q ∈ places above (.mk n cs), Marked.WrittenAt comments q y :=
      h.elim (fun written => ⟨self, Branch.self_mem_places above _, written⟩) below
    rw [markChild] at hy
    dsimp only at hy
    split at hy
    · exact below hy
    · split at hy
      · next hpage =>
        have page : self.label.kind = .bookPage := by
          simp only [Bool.and_eq_true, decide_eq_true_eq] at hpage
          exact hpage.1.2
        exact here (Marked.writtenAt_or_held (Or.inr page) hmark hy)
      · unfold MarkedGrowth.asChild at hy
        split at hy
        · rw [← Marked.prepend_nil (MarkedGrowth.object _)] at hy
          exact here (Marked.writtenAt_or_held (Or.inl rfl) hmark hy)
        · cases hy

theorem exists_writtenAt_markAll {comments : Bool} {parent : Node} {flatten : Bool}
    {above : List Node} {trail : Trail} {bs : List (Branch Node)} {y : Marked}
    (hmark : y.mark? ≠ none)
    (hy : y ∈ Marked.elementsAll
      ((markAll comments parent flatten above trail bs).map MarkedSprout.xml)) :
    ∃ q ∈ placesAll above bs, Marked.WrittenAt comments q y := by
  cases bs with
  | nil =>
    rw [markAll] at hy
    cases hy
  | cons b bs =>
    rw [markAll, List.map_append, Marked.elementsAll_append] at hy
    rw [placesAll]
    rcases List.mem_append.1 hy with hy | hy
    · obtain ⟨q, hq, written⟩ := exists_writtenAt_markChild hmark hy
      exact ⟨q, List.mem_append_left _ hq, written⟩
    · obtain ⟨q, hq, written⟩ := exists_writtenAt_markAll hmark hy
      exact ⟨q, List.mem_append_right _ hq, written⟩

end

/-! ## Marks -/

/-- The marks that a node may have in a resource. -/
def Node.marks (n : Node) : List Mark :=
  [⟨.around, n⟩, ⟨.object, n⟩]

theorem Node.nodup_marks {ns : List Node} (distinct : ns.Nodup) :
    (ns.flatMap Node.marks).Nodup := by
  rw [List.nodup_flatMap]
  refine ⟨fun n _ => by simp [Node.marks], distinct.imp fun {n m} hne => ?_⟩
  show List.Disjoint _ _
  rw [List.disjoint_left]
  rintro ⟨role, k⟩ hn hm
  have hkn : k = n := by
    simp only [Node.marks, List.mem_cons, List.not_mem_nil, Mark.mk.injEq, or_false] at hn
    exact hn.elim And.right And.right
  have hkm : k = m := by
    simp only [Node.marks, List.mem_cons, List.not_mem_nil, Mark.mk.injEq, or_false] at hm
    exact hm.elim And.right And.right
  exact hne (hkn.symm.trans hkm)

namespace Marked

variable {comments : Bool} {q : Branch.Place Node}

/-- The elements that have a mark, in pre-order. -/
def marked (xs : List Marked) : List Marked :=
  (elementsAll xs).filter fun y => y.mark?.isSome

theorem filterMap_marked (xs : List Marked) : (marked xs).filterMap mark? = marks xs := by
  rw [marked, List.filterMap_filter]
  refine List.filterMap_congr fun y _ => ?_
  cases y.mark? <;> rfl

theorem marked_object_none (p : Part) (more : List Marked) :
    marked [object none p more] = marked more := by
  rw [marked, elementsAll_cons, elements_object, elementsAll_nil, List.append_nil,
    List.filter_cons]
  rfl

theorem marked_sublist (x : Marked) : (marked [x]).Sublist x.elements := by
  rw [marked, elementsAll_cons, elementsAll_nil, List.append_nil]
  exact List.filter_sublist

theorem marked_contents_sublist (x : Marked) : (marked x.contents).Sublist x.elements := by
  cases x with
  | bare x => exact List.nil_sublist _
  | element mark name attributes contents => exact List.filter_sublist.cons _

theorem marks_append (xs ys : List Marked) : marks (xs ++ ys) = marks xs ++ marks ys := by
  rw [marks, elementsAll_append, List.filterMap_append]
  rfl

theorem marks_cons (x : Marked) (xs : List Marked) : marks (x :: xs) = marks [x] ++ marks xs :=
  marks_append [x] xs

theorem marks_singleton (x : Marked) : marks [x] = x.elements.filterMap mark? := by
  rw [marks, elementsAll_cons, elementsAll_nil, List.append_nil]

theorem marks_element (mark : Option Mark) (name : String) (attributes : List (String × String))
    (contents : List Marked) :
    marks [element mark name attributes contents] = mark.toList ++ marks contents := by
  rw [marks_singleton, elements, List.filterMap_cons, mark?]
  cases mark <;> rfl

theorem marks_bare (xs : List Xml) : marks (xs.map bare) = [] := by
  rw [marks, elementsAll_bare]
  rfl

theorem marks_prepend_object (tags : List Xml) (mark : Option Mark) (p : Part)
    (more : List Marked) :
    marks [(object mark p more).prepend tags] = mark.toList ++ marks more := by
  rw [object, prepend, marks_element, marks_append, marks_append, marks_bare, marks_bare,
    List.nil_append, List.nil_append]

theorem marks_object (mark : Option Mark) (p : Part) (more : List Marked) :
    marks [object mark p more] = mark.toList ++ marks more := by
  rw [← marks_prepend_object [], prepend_nil]

theorem marks_container_sublist (e : Element) (leafless : Bool) (children : List Marked) :
    (marks (container e leafless children)).Sublist (marks children) := by
  unfold container
  split
  · rw [marks_object]
    exact .refl _
  · split
    · split
      · exact List.nil_sublist _
      · rw [marks_element, marks_object]
        exact .refl _
    · exact .refl _

theorem marks_perm {xs ys : List Marked} (h : xs.Perm ys) : (marks xs).Perm (marks ys) := by
  rw [marks, marks, elementsAll_eq, elementsAll_eq]
  exact (h.flatMap_right _).filterMap _

theorem perm_settle (e : Element) (sprouts : List MarkedSprout) :
    ((settle e sprouts).1 ++ (settle e sprouts).2).Perm sprouts := by
  unfold settle
  split
  · exact .of_eq (List.append_nil _)
  · exact List.perm_append_comm.trans (List.filter_append_perm _ _)

/-- A growth has marks of its node, each at most once, and the marks of what the children grew
into. -/
theorem subperm_marks_grown (tags : List Xml) (trail : Trail) (depth : Nat) :
    (marks ((q.grown comments trail depth).object.prepend tags
        :: (q.grown comments trail depth).pages.map MarkedSprout.xml)).Subperm
      (q.label.marks ++ marks ((q.held comments trail depth).map MarkedSprout.xml)) := by
  let settled := Marked.settle q.label.toElement (q.held comments trail depth)
  have rest : (marks (q.contents comments trail depth)
        ++ marks (settled.2.map MarkedSprout.xml)).Subperm
      (marks ((q.held comments trail depth).map MarkedSprout.xml)) := by
    refine ((marks_container_sublist ..).append_right _).subperm.trans (List.Perm.subperm ?_)
    rw [← marks_append, ← List.map_append]
    exact marks_perm ((perm_settle ..).map _)
  have object : [(⟨.object, q.label⟩ : Mark)].Sublist q.label.marks := List.sublist_cons_self _ _
  cases hs : q.shape comments with
  | absent =>
    rw [Branch.Place.grown_of_absent hs, List.map_nil, marks_prepend_object]
    exact List.nil_subperm
  | remark part =>
    rw [Branch.Place.grown_of_remark hs, List.map_nil, marks_prepend_object]
    refine (List.Sublist.trans ?_ (List.sublist_append_left _ _)).subperm
    cases comments with
    | false => exact List.nil_sublist _
    | true => exact object
  | plain part =>
    rw [Branch.Place.grown_of_plain hs, marks_cons, marks_prepend_object, List.append_assoc]
    exact object.subperm.append rest
  | wrapped outer inner =>
    rw [Branch.Place.grown_of_wrapped hs, marks_cons, marks_prepend_object, marks_object,
      List.append_assoc, List.append_assoc, ← List.append_assoc]
    exact List.Subperm.append (List.Sublist.refl _).subperm rest

end Marked

mutual

/-- No node has a mark twice in what its branch grows into. -/
theorem subperm_marks_markChild (comments : Bool) (parent : Node) (flatten : Bool)
    (above : List Node) (trail : Trail) (b : Branch Node) :
    (Marked.marks ((markChild comments parent flatten above trail b).map MarkedSprout.xml)).Subperm
      (b.toList.flatMap Node.marks) := by
  cases b with
  | mk n cs =>
    let self : Branch.Place Node := ⟨above, .mk n cs⟩
    have below (flatten : Bool) (inner : Trail) :
        (Marked.marks ((markAll comments n flatten (n :: above) inner cs).map
          MarkedSprout.xml)).Subperm ((Branch.toListAll cs).flatMap Node.marks) :=
      subperm_marks_markAll comments n flatten (n :: above) inner cs
    have here (tags : List Xml) (trail : Trail) (depth : Nat) :
        (Marked.marks ((self.grown comments trail depth).object.prepend tags
            :: (self.grown comments trail depth).pages.map MarkedSprout.xml)).Subperm
          (n.marks ++ (Branch.toListAll cs).flatMap Node.marks) :=
      (Marked.subperm_marks_grown tags trail depth).trans
        ((List.subperm_append_left _).2 (below _ _))
    rw [markChild, Branch.toList, List.flatMap_cons]
    dsimp only
    split
    · exact (below true trail).trans (List.sublist_append_right _ _).subperm
    · split
      · exact here _ _ _
      · unfold MarkedGrowth.asChild
        split
        · rw [← Marked.prepend_nil (MarkedGrowth.object _)]
          exact here [] trail 0
        · exact List.nil_subperm

theorem subperm_marks_markAll (comments : Bool) (parent : Node) (flatten : Bool)
    (above : List Node) (trail : Trail) (bs : List (Branch Node)) :
    (Marked.marks ((markAll comments parent flatten above trail bs).map MarkedSprout.xml)).Subperm
      ((Branch.toListAll bs).flatMap Node.marks) := by
  cases bs with
  | nil =>
    rw [markAll]
    exact List.nil_subperm
  | cons b bs =>
    rw [markAll, List.map_append, Marked.marks_append, Branch.toListAll, List.flatMap_append]
    exact (subperm_marks_markChild comments parent flatten above trail b).append
      (subperm_marks_markAll comments parent flatten above trail bs)

end

/-! ## Telling elements apart -/

namespace Marked

mutual

/-- The elements inside of an element are among those around it. -/
theorem elements_sublist {x y : Marked} (hy : y ∈ x.elements) : y.elements.Sublist x.elements := by
  cases x with
  | bare x => cases hy
  | element mark name attributes contents =>
    rw [elements, List.mem_cons] at hy
    rcases hy with rfl | hy
    · exact .refl _
    · rw [elements.eq_def (element mark name attributes contents)]
      exact (elementsAll_sublist hy).cons _

theorem elementsAll_sublist {xs : List Marked} {y : Marked} (hy : y ∈ elementsAll xs) :
    y.elements.Sublist (elementsAll xs) := by
  cases xs with
  | nil => cases hy
  | cons x xs =>
    rw [elementsAll, List.mem_append] at hy
    rw [elementsAll]
    rcases hy with hy | hy
    · exact (elements_sublist hy).trans (List.sublist_append_left _ _)
    · exact (elementsAll_sublist hy).trans (List.sublist_append_right _ _)

end

theorem elements_eq {x : Marked} {m : Mark} (hx : x.mark? = some m) :
    x.elements = x :: elementsAll x.contents := by
  cases x with
  | bare x => cases hx
  | element mark name attributes contents => rfl

/-- No two elements have the same mark. -/
theorem eq_of_mark {xs : List Marked} (distinct : (marks xs).Nodup) {y z : Marked} {m : Mark}
    (hy : y ∈ elementsAll xs) (hz : z ∈ elementsAll xs) (hym : y.mark? = some m)
    (hzm : z.mark? = some m) : y = z := by
  by_contra hne
  have apart := List.pairwise_filterMap.1 distinct
  have : Std.Symm fun a b : Marked => ∀ k, a.mark? = some k → ∀ k', b.mark? = some k' → k ≠ k' :=
    ⟨fun _ _ h k hk k' hk' => (h k' hk' k hk).symm⟩
  exact apart.forall hy hz hne m hym m hzm rfl

theorem marks_eq (xs : List Marked) : marks xs = xs.flatMap fun x => marks [x] := by
  rw [marks, elementsAll_eq, List.filterMap_flatMap]
  exact List.flatMap_congr fun x _ => (marks_singleton x).symm

/-- An element with a mark is not inside of one that stands beside it, or inside of itself. -/
theorem not_inside {xs : List Marked} (distinct : (marks xs).Nodup) {x y z : Marked} {m m' : Mark}
    (hx : x ∈ xs) (hy : y ∈ xs) (hxm : x.mark? = some m') (hym : y.mark? = some m)
    (hz : z ∈ elementsAll x.contents) : z.mark? ≠ some m := by
  intro hzm
  have inside : m ∈ marks x.contents := List.mem_filterMap.2 ⟨z, hz, hzm⟩
  have split {w : Marked} {k : Mark} (hw : w.mark? = some k) :
      marks [w] = k :: marks w.contents := by
    rw [marks_singleton, elements_eq hw, List.filterMap_cons_some hw]
    rfl
  rw [marks_eq, List.nodup_flatMap] at distinct
  obtain ⟨each, apart⟩ := distinct
  by_cases heq : x = y
  · subst heq
    have nodup := each x hx
    rw [split hym] at nodup
    exact (List.nodup_cons.1 nodup).1 inside
  · have : Std.Symm (Function.onFun List.Disjoint fun x : Marked => marks [x]) :=
      ⟨fun _ _ h _ hm hm' => h hm' hm⟩
    have disjoint : List.Disjoint (marks [x]) (marks [y]) := apart.forall hx hy heq
    rw [split hxm, split hym] at disjoint
    exact disjoint (List.mem_cons_of_mem _ inside) List.mem_cons_self

end Marked

/-! ## Documents -/

namespace ResourceDocument

/-- What is added for a branch is in the object at a place: that of the branch, or that of the first
child in a preview of a dialog. What the node there holds is added, if the resource describes it. -/
structure IsRoot (comments : Bool) (above : List Node) (b : Branch Node) (added : List Marked)
    (q : Branch.Place Node) : Prop where
  place : q = ⟨above, b⟩ ∨
    b.label.kind = .dialog ∧ ∃ child ∈ b.children, q = ⟨b.label :: above, child⟩
  inside : (Marked.marked added).Sublist (q.grown comments .none 0).object.elements
  shown : q.label.kind.isDescribed = true →
    Marked.elementsAll (q.contents comments .none 0) ⊆ Marked.elementsAll added

theorem exists_isRoot (comments previewing : Bool) (above : List Node) (b : Branch Node) :
    ∃ q, IsRoot comments above b (markedAddition comments previewing above b) q := by
  let self : Branch.Place Node := ⟨above, b⟩
  have whole {q : Branch.Place Node} (described : q.label.kind.isDescribed = true) {y : Marked}
      (hy : y ∈ Marked.elementsAll (q.contents comments .none 0)) :
      y ∈ (markedGrow comments q.above q.branch).object.elements :=
    Marked.elementsAll_contents_subset _ (q.mem_contents_grown described hy)
  unfold markedAddition
  dsimp only
  split
  · refine ⟨self, Or.inl rfl, Marked.marked_contents_sublist _, fun described y hy => ?_⟩
    exact self.mem_contents_grown described hy
  · split
    · refine ⟨self, Or.inl rfl, ?_, fun described y hy => ?_⟩
      · rw [markedShellDialog, Marked.marked_object_none, Marked.marked_object_none,
          Marked.marked_object_none]
        exact Marked.marked_sublist _
      · simpa [markedShellDialog] using Or.inr (Or.inr (Or.inr (whole described hy)))
    · split
      · next hdialog =>
        simp only [Bool.and_eq_true, decide_eq_true_eq] at hdialog
        cases hc : b.children with
        | nil =>
          have empty : self.contents comments .none 0 = [] := by
            simp [self, Branch.Place.contents, Branch.Place.held, Branch.Place.label, hc, markAll,
              Marked.settle, Marked.container, hdialog.2]
          refine ⟨self, Or.inl rfl, List.nil_sublist _, fun _ => ?_⟩
          rw [empty]
          exact List.nil_subset _
        | cons child rest =>
          refine ⟨⟨b.label :: above, child⟩,
            Or.inr ⟨hdialog.2, child, hc ▸ List.mem_cons_self, rfl⟩, ?_, fun described y hy => ?_⟩
          · dsimp only
            rw [markedShellPanel, Marked.marked_object_none]
            exact Marked.marked_sublist _
          · simpa [markedShellPanel] using Or.inr (whole described hy)
      · refine ⟨self, Or.inl rfl, ?_, fun described y hy => ?_⟩
        · split
          · exact Marked.marked_sublist _
          · exact List.nil_sublist _
        · have kept : (markedGrow comments above b).kept = true := self.kept_grown described .none 0
          rw [if_pos kept]
          simpa using whole described hy

theorem exists_place_markedAddition (comments previewing : Bool) (above : List Node)
    (b : Branch Node) :
    ∃ q ∈ places above b, q.branch.toList.Sublist b.toList ∧
      (Marked.marked (markedAddition comments previewing above b)).Sublist
        (q.grown comments .none 0).object.elements := by
  obtain ⟨q, root⟩ := exists_isRoot comments previewing above b
  rcases root.place with rfl | ⟨-, child, hchild, rfl⟩
  · exact ⟨_, Branch.self_mem_places above b, .refl _, root.inside⟩
  · exact ⟨_, Branch.child_mem_places above hchild,
      Branch.toList_sublist_of_mem_children hchild, root.inside⟩

/-- What is added for a branch stands in the object of one node. -/
theorem exists_root_markedAddition (comments previewing : Bool) (above : List Node)
    (b : Branch Node) :
    ∃ q ∈ places above b, ∀ y ∈ Marked.elementsAll (markedAddition comments previewing above b),
      y.mark? ≠ none → Marked.WrittenAt comments q y ∨
        y ∈ Marked.elementsAll ((q.held comments .none 0).map MarkedSprout.xml) := by
  obtain ⟨q, hq, -, sub⟩ := exists_place_markedAddition comments previewing above b
  refine ⟨q, hq, fun y hy hmark => ?_⟩
  have hobject := sub.subset (List.mem_filter.2 ⟨hy, Option.isSome_iff_ne_none.2 hmark⟩)
  rw [← Marked.prepend_nil (MarkedGrowth.object _)] at hobject
  exact Marked.writtenAt_or_held (Or.inl rfl) hmark (List.mem_append_left _ hobject)

/-- What is added for a branch was written at the places of the branch. -/
theorem exists_writtenAt_markedAddition {comments previewing : Bool} {above : List Node}
    {b : Branch Node} {y : Marked} (hmark : y.mark? ≠ none)
    (hy : y ∈ Marked.elementsAll (markedAddition comments previewing above b)) :
    ∃ q ∈ places above b, Marked.WrittenAt comments q y := by
  obtain ⟨q, hq, either⟩ := exists_root_markedAddition comments previewing above b
  rcases either y hy hmark with written | held
  · exact ⟨q, hq, written⟩
  · obtain ⟨q', hq', written⟩ := exists_writtenAt_markAll hmark held
    refine ⟨q', Branch.places_subset hq ?_, written⟩
    rw [Branch.places_eq]
    exact List.mem_cons_of_mem _ hq'

/-- No two elements that are added for a branch have the same mark. -/
theorem nodup_marks_markedAddition {comments previewing : Bool} {above : List Node}
    {b : Branch Node} (distinct : b.toList.Nodup) :
    (Marked.marks (markedAddition comments previewing above b)).Nodup := by
  obtain ⟨q, -, branch, sub⟩ := exists_place_markedAddition comments previewing above b
  have object : (Marked.marks (markedAddition comments previewing above b)).Sublist
      (Marked.marks ((q.grown comments .none 0).object.prepend []
        :: (q.grown comments .none 0).pages.map MarkedSprout.xml)) := by
    rw [Marked.marks_cons, Marked.prepend_nil]
    refine List.Sublist.trans ?_ (List.sublist_append_left _ _)
    have marks := sub.filterMap Marked.mark?
    rw [Marked.filterMap_marked] at marks
    rwa [Marked.marks_singleton]
  have below : (Marked.marks ((q.held comments .none 0).map MarkedSprout.xml)).Subperm
      ((Branch.toListAll q.branch.children).flatMap Node.marks) := subperm_marks_markAll ..
  have nodes : q.label.marks ++ (Branch.toListAll q.branch.children).flatMap Node.marks
      = q.branch.toList.flatMap Node.marks := by
    rw [Branch.toList_eq, List.flatMap_cons]
    rfl
  have subperm := object.subperm.trans
    ((Marked.subperm_marks_grown [] .none 0).trans ((List.subperm_append_left _).2 below))
  rw [nodes] at subperm
  obtain ⟨marks, perm, sublist⟩ := subperm
  exact perm.nodup_iff.1 (sublist.nodup (Node.nodup_marks (branch.nodup distinct)))

/-- The places of what is written for a node. -/
def sourcePlaces (t : Tree) (id : Nat) : List (Branch.Place Node) :=
  match t.branch? id with
  | none => []
  | some b => places (source t id b).1 (source t id b).2

variable {d : ResourceDocument} {t : Tree} {id : Nat} {y : Marked} {q : Branch.Place Node}

/-- What is added for a node was written at one of the places. -/
theorem exists_writtenAt (hmark : y.mark? ≠ none) (hy : y ∈ Marked.elementsAll (d.marked t id)) :
    ∃ q ∈ sourcePlaces t id, Marked.WrittenAt d.options.addComments q y := by
  unfold marked at hy
  unfold sourcePlaces
  cases hb : t.branch? id with
  | none =>
    rw [hb] at hy
    cases hy
  | some b =>
    rw [hb] at hy
    exact exists_writtenAt_markedAddition hmark hy

theorem places_subset_sourcePlaces (hq : q ∈ sourcePlaces t id) :
    places q.above q.branch ⊆ sourcePlaces t id := by
  unfold sourcePlaces at hq ⊢
  cases hb : t.branch? id with
  | none =>
    rw [hb] at hq
    cases hq
  | some b =>
    rw [hb] at hq
    exact Branch.places_subset hq

/-- The panel and the sizer around a bar are no nodes of the tree. -/
theorem nodup_source (h : t.WellFormed) {b : Branch Node} (hb : t.branch? id = some b) :
    (source t id b).2.toList.Nodup := by
  unfold Tree.branch? at hb
  split at hb
  · next hid =>
    obtain rfl := Option.some.inj hb
    have distinct : (t.branchAt id hid).toList.Nodup :=
      List.Nodup.of_map Node.id (h.nodup_branchAt hid)
    have inside {n : Node} (hn : n ∈ (t.branchAt id hid).toList) : n.id < t.size := by
      obtain ⟨i, hi, rfl⟩ := Array.mem_iff_getElem.1 (h.under_of_mem_branchAt hid hn).1
      rw [t.id_eq]
      exact hi
    unfold source
    split
    · dsimp only [markedBarPanel]
      rw [Branch.toList, Branch.toListAll, Branch.toList, Branch.toListAll, Branch.toListAll,
        Branch.toListAll, List.append_nil, List.append_nil, List.nodup_cons, List.nodup_cons]
      refine ⟨fun hpanel => ?_, fun hsizer => ?_, distinct⟩
      · rcases List.mem_cons.1 hpanel with heq | hpanel
        · exact absurd (congrArg Node.id heq) (Nat.ne_of_lt (Nat.lt_succ_self t.size))
        · exact Nat.lt_irrefl _ (inside hpanel)
      · exact Nat.lt_irrefl _ (Nat.lt_of_succ_lt (inside hsizer))
    · exact distinct
  · cases hb

/-- No two elements that are added for a node have the same mark. -/
theorem nodup_marks (h : t.WellFormed) : (Marked.marks (d.marked t id)).Nodup := by
  unfold marked
  cases hb : t.branch? id with
  | none => exact List.nodup_nil
  | some b => exact nodup_marks_markedAddition (nodup_source h hb)

theorem place_eq (h : t.WellFormed) {q' : Branch.Place Node} (hq : q ∈ sourcePlaces t id)
    (hq' : q' ∈ sourcePlaces t id) (hlabel : q.label = q'.label) : q = q' := by
  unfold sourcePlaces at hq hq'
  cases hb : t.branch? id with
  | none =>
    rw [hb] at hq
    cases hq
  | some b =>
    rw [hb] at hq hq'
    refine List.inj_on_of_nodup_map ?_ hq hq' hlabel
    rw [Branch.map_label_places]
    exact nodup_source h hb

/-- At the place of a node of the tree is its branch there. -/
theorem branch_eq (h : t.WellFormed) (hq : q ∈ sourcePlaces t id) (hn : q.label ∈ t.nodes) :
    ∃ hk : q.label.id < t.nodes.size, q.branch = t.branchAt q.label.id hk := by
  have small : q.label.id < t.size := by
    obtain ⟨i, hi, heq⟩ := Array.mem_iff_getElem.1 hn
    rw [← heq, t.id_eq]
    exact hi
  unfold sourcePlaces Tree.branch? at hq
  by_cases hid : id < t.nodes.size
  · rw [dif_pos hid] at hq
    dsimp only [source] at hq
    split at hq
    · simp only [markedBarPanel, places, placesAll, List.append_nil, List.mem_cons] at hq
      rcases hq with rfl | rfl | hq
      · exact absurd small (Nat.lt_irrefl t.size)
      · exact absurd small (Nat.not_lt.2 (Nat.le_succ t.size))
      · exact h.branch_eq_of_mem_places hq
    · exact h.branch_eq_of_mem_places hq
  · rw [dif_neg hid] at hq
    cases hq

end ResourceDocument

end FormDesign
