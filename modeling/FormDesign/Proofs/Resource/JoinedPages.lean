import FormDesign.Proofs.Resource.BookPages

/-!
# The pages of a book in a tree

A tree tells of each page which book is the nearest above it, and how many pages there are between.
For a branch below a book these are the pages that a walk through the branch finds.

* `Tree.pagesOf`, `Tree.pageDepth`: the pages of a book in a tree, and how deep they are
* `Tree.PagesJoined`: no page of a book stands below something else than the book and its pages
* `Tree.Kept.bookPages_eq_pagesOf`: the walk finds the pages of the tree, with their depths
* `Tree.Kept.joined_of_pagesJoined`: it finds them joined if they are in the tree
-/

namespace FormDesign

open Branch (places placesAll)

/-! ## The nearest book -/

/-- How many pages there are before the nearest book. -/
def pagesBefore (above : List Node) : Nat :=
  (above.takeWhile fun a => !a.kind.isBook).countP fun a => a.kind == .bookPage

theorem pagesBefore_cons {n : Node} (book : n.kind.isBook = false) (above : List Node) :
    pagesBefore (n :: above)
      = pagesBefore above + if n.kind = .bookPage then 1 else 0 := by
  unfold pagesBefore
  rw [List.takeWhile_cons_of_pos (by rw [book]; rfl), List.countP_cons]
  simp only [beq_iff_eq]

theorem pagesBefore_book {n : Node} (book : n.kind.isBook = true) (above : List Node) :
    pagesBefore (n :: above) = 0 := by
  rw [pagesBefore, List.takeWhile_cons_of_neg (by rw [book]; exact Bool.false_ne_true)]
  rfl

theorem find?_book_cons {n : Node} (book : ¬n.kind.isBook = true) (above : List Node) :
    (n :: above).find? (fun a => a.kind.isBook) = above.find? fun a => a.kind.isBook := by
  rw [List.find?_cons, Bool.eq_false_of_not_eq_true book]

/-- What is above a book does not matter below it. -/
theorem find?_book_append {book : Node} (h : book.kind.isBook = true) (zs more : List Node) :
    ((zs ++ [book]) ++ more).find? (fun a => a.kind.isBook)
      = (zs ++ [book]).find? fun a => a.kind.isBook := by
  induction zs with
  | nil => simp [h]
  | cons z zs ih =>
    rw [List.cons_append, List.cons_append, List.find?_cons, List.find?_cons, ih]

/-- Whether the node at a place is a page whose nearest book is the one given. -/
def Branch.Place.isPageOf (book : Node) (q : Branch.Place Node) : Bool :=
  q.label.kind = .bookPage && q.above.find? (fun a => a.kind.isBook) = some book

/-- Below another book no page belongs to the book. -/
theorem not_isPageOf {book n : Node} (hbook : n.kind.isBook = true) {above : List Node}
    {cs : List (Branch Node)} (hne : book ≠ n) (out : book ∉ Branch.toListAll cs)
    {q : Branch.Place Node} (hq : q ∈ placesAll (n :: above) cs) : ¬q.isPageOf book = true := by
  obtain ⟨zs, habove, hzs⟩ := Branch.exists_above_of_mem_placesAll hq
  have split : q.above = (zs ++ [n]) ++ above := by
    rw [habove, List.append_assoc]
    rfl
  intro h
  rw [Branch.Place.isPageOf, split, find?_book_append hbook, Bool.and_eq_true,
    decide_eq_true_eq, decide_eq_true_eq] at h
  rcases List.mem_append.1 (List.mem_of_find?_eq_some h.2) with hmem | hmem
  · exact out (hzs book hmem)
  · exact hne (List.mem_singleton.1 hmem)

mutual

/-- The pages that a walk finds are those with the book nearest above. -/
theorem bookPages_eq {book : Node} {above : List Node} {b : Branch Node}
    (nearest : above.find? (fun a => a.kind.isBook) = some book) (out : book ∉ b.toList) :
    bookPages above (pagesBefore above) b
      = ((places above b).filter (Branch.Place.isPageOf book)).map
          fun q => (q, pagesBefore q.above) := by
  cases b with
  | mk n cs =>
    rw [Branch.toList, List.mem_cons, not_or] at out
    rw [places, List.filter_cons]
    cases hbook : n.kind.isBook with
    | true =>
      have other : Branch.Place.isPageOf book ⟨above, .mk n cs⟩ = false := by
        have hpage : n.kind ≠ .bookPage := by
          intro hpage
          rw [hpage] at hbook
          cases hbook
        simp [Branch.Place.isPageOf, Branch.Place.label, Branch.label, hpage]
      have below : (placesAll (n :: above) cs).filter (Branch.Place.isPageOf book) = [] :=
        List.filter_eq_nil_iff.2 fun q hq => not_isPageOf hbook out.1 out.2 hq
      rw [bookPages, if_pos hbook, other, below]
      rfl
    | false =>
      have nearest' : (n :: above).find? (fun a => a.kind.isBook) = some book := by
        rw [find?_book_cons (by rw [hbook]; exact Bool.false_ne_true), nearest]
      have below := bookPagesAll_eq nearest' out.2
      by_cases hpage : n.kind = .bookPage
      · have self : Branch.Place.isPageOf book ⟨above, .mk n cs⟩ = true := by
          simp [Branch.Place.isPageOf, Branch.Place.label, Branch.label, hpage, nearest]
        rw [pagesBefore_cons hbook, if_pos hpage] at below
        rw [bookPages_of_page hpage, self, below]
        rfl
      · have other : Branch.Place.isPageOf book ⟨above, .mk n cs⟩ = false := by
          simp [Branch.Place.isPageOf, Branch.Place.label, Branch.label, hpage]
        rw [pagesBefore_cons hbook, if_neg hpage] at below
        rw [bookPages, if_neg (by simp [hbook]), if_neg hpage, other]
        exact below

theorem bookPagesAll_eq {book : Node} {above : List Node} {bs : List (Branch Node)}
    (nearest : above.find? (fun a => a.kind.isBook) = some book)
    (out : book ∉ Branch.toListAll bs) :
    bookPagesAll above (pagesBefore above) bs
      = ((placesAll above bs).filter (Branch.Place.isPageOf book)).map
          fun q => (q, pagesBefore q.above) := by
  cases bs with
  | nil => rfl
  | cons b bs =>
    rw [Branch.toListAll, List.mem_append, not_or] at out
    rw [bookPagesAll, placesAll, List.filter_append, List.map_append, bookPages_eq nearest out.1,
      bookPagesAll_eq nearest out.2]

end

/-! ## Joined pages -/

/-- The page at a place stands directly below the book or a page. -/
def Branch.Place.IsJoined (book : Node) (q : Branch.Place Node) : Prop :=
  ∃ m, q.above.head? = some m ∧ (m = book ∨ m.kind = .bookPage)

mutual

/-- Below something else than the book and its pages there are none. -/
theorem bookPages_eq_nil {book m : Node} {above : List Node} {b : Branch Node}
    (nearest : (m :: above).find? (fun a => a.kind.isBook) = some book) (hne : m ≠ book)
    (other : m.kind ≠ .bookPage) (out : book ∉ b.toList)
    (joined : ∀ q ∈ places (m :: above) b, q.isPageOf book = true → q.IsJoined book) (depth : Nat) :
    bookPages (m :: above) depth b = [] := by
  cases b with
  | mk n cs =>
    rw [Branch.toList, List.mem_cons, not_or] at out
    rw [places] at joined
    -- a page here would have to stand below the book or a page
    have page : n.kind ≠ .bookPage := by
      intro page
      have self : Branch.Place.isPageOf book ⟨m :: above, .mk n cs⟩ = true := by
        simp [Branch.Place.isPageOf, Branch.Place.label, Branch.label, page, nearest]
      obtain ⟨k, hk, hor⟩ := joined _ List.mem_cons_self self
      obtain rfl := Option.some.inj hk
      exact hor.elim hne other
    rw [bookPages]
    split
    · rfl
    · next hbook =>
      have nearest' : (n :: m :: above).find? (fun a => a.kind.isBook) = some book := by
        rw [find?_book_cons hbook, nearest]
      exact bookPagesAll_nil nearest' (Ne.symm out.1) page out.2
        (fun q hq => joined q (List.mem_cons_of_mem _ hq)) depth

theorem bookPagesAll_nil {book m : Node} {above : List Node} {bs : List (Branch Node)}
    (nearest : (m :: above).find? (fun a => a.kind.isBook) = some book) (hne : m ≠ book)
    (other : m.kind ≠ .bookPage) (out : book ∉ Branch.toListAll bs)
    (joined : ∀ q ∈ placesAll (m :: above) bs, q.isPageOf book = true → q.IsJoined book)
    (depth : Nat) : bookPagesAll (m :: above) depth bs = [] := by
  cases bs with
  | nil => rfl
  | cons b bs =>
    rw [Branch.toListAll, List.mem_append, not_or] at out
    rw [placesAll] at joined
    rw [bookPagesAll, bookPages_eq_nil nearest hne other out.1
        (fun q hq => joined q (List.mem_append_left _ hq)) depth,
      bookPagesAll_nil nearest hne other out.2
        (fun q hq => joined q (List.mem_append_right _ hq)) depth]
    rfl

end

mutual

theorem joined_of_isJoined {book : Node} {above : List Node} {b : Branch Node}
    (nearest : above.find? (fun a => a.kind.isBook) = some book) (out : book ∉ b.toList)
    (joined : ∀ q ∈ places above b, q.isPageOf book = true → q.IsJoined book) : Joined above b := by
  cases b with
  | mk n cs =>
    rw [Branch.toList, List.mem_cons, not_or] at out
    rw [places] at joined
    have below (hbook : ¬n.kind.isBook = true) :
        (n :: above).find? (fun a => a.kind.isBook) = some book := by
      rw [find?_book_cons hbook, nearest]
    by_cases page : n.kind = .bookPage
    · have hbook : ¬n.kind.isBook = true := by
        rw [page]
        decide
      exact .page page (joinedAll_of_isJoined (below hbook) out.2 fun q hq =>
        joined q (List.mem_cons_of_mem _ hq))
    · refine .other page fun depth => ?_
      rw [bookPages]
      split
      · rfl
      · next hbook =>
        exact bookPagesAll_nil (below hbook) (Ne.symm out.1) page out.2
          (fun q hq => joined q (List.mem_cons_of_mem _ hq)) depth

/-- Pages that stand below the book or a page make a branch in which pages are joined. -/
theorem joinedAll_of_isJoined {book : Node} {above : List Node} {bs : List (Branch Node)}
    (nearest : above.find? (fun a => a.kind.isBook) = some book)
    (out : book ∉ Branch.toListAll bs)
    (joined : ∀ q ∈ placesAll above bs, q.isPageOf book = true → q.IsJoined book) :
    ∀ b ∈ bs, Joined above b := by
  cases bs with
  | nil => simp
  | cons b bs =>
    rw [Branch.toListAll, List.mem_append, not_or] at out
    rw [placesAll] at joined
    have first : Joined above b :=
      joined_of_isJoined nearest out.1 fun q hq => joined q (List.mem_append_left _ hq)
    have rest : ∀ c ∈ bs, Joined above c :=
      joinedAll_of_isJoined nearest out.2 fun q hq => joined q (List.mem_append_right _ hq)
    exact List.forall_mem_cons.2 ⟨first, rest⟩

end

/-! ## What is above does not matter -/

mutual

/-- What is above a branch does not matter for the pages that are found in it. -/
theorem map_label_bookPages (above above' : List Node) (depth : Nat) (b : Branch Node) :
    (bookPages above depth b).map (fun p => (p.1.label, p.2))
      = (bookPages above' depth b).map fun p => (p.1.label, p.2) := by
  cases b with
  | mk n cs =>
    rw [bookPages, bookPages]
    split
    · rfl
    · split
      · rw [List.map_cons, List.map_cons,
          map_label_bookPagesAll (n :: above) (n :: above') (depth + 1) cs]
        rfl
      · exact map_label_bookPagesAll (n :: above) (n :: above') depth cs

theorem map_label_bookPagesAll (above above' : List Node) (depth : Nat) (bs : List (Branch Node)) :
    (bookPagesAll above depth bs).map (fun p => (p.1.label, p.2))
      = (bookPagesAll above' depth bs).map fun p => (p.1.label, p.2) := by
  cases bs with
  | nil => rfl
  | cons b bs =>
    rw [bookPagesAll, bookPagesAll, List.map_append, List.map_append,
      map_label_bookPages above above' depth b, map_label_bookPagesAll above above' depth bs]

end

theorem Joined.of_above {above : List Node} {b : Branch Node} (h : Joined above b)
    (above' : List Node) : Joined above' b := by
  induction h generalizing above' with
  | page page _ ih => exact .page page fun c hc => ih c hc _
  | @other above n cs other none =>
    refine .other other fun depth => ?_
    have labels := map_label_bookPages above' above depth (.mk n cs)
    rw [none, List.map_nil] at labels
    exact List.map_eq_nil_iff.1 labels

/-! ## Pages in a tree -/

/-- What passes in a part of a list is what passes in the list, if nothing passes outside. -/
theorem filter_eq_of_infix {α : Type} {part whole : List α} (inside : part <:+: whole)
    (distinct : whole.Nodup) {pass : α → Bool}
    (only : ∀ x ∈ whole, pass x = true → x ∈ part) : whole.filter pass = part.filter pass := by
  obtain ⟨before, after, rfl⟩ := inside
  rw [List.nodup_append, List.nodup_append] at distinct
  obtain ⟨⟨-, -, hbefore⟩, -, hafter⟩ := distinct
  have none_before : before.filter pass = [] := List.filter_eq_nil_iff.2 fun x hx hpass =>
    hbefore x hx x
      (only x (List.mem_append_left _ (List.mem_append_left _ hx)) hpass) rfl
  have none_after : after.filter pass = [] := List.filter_eq_nil_iff.2 fun x hx hpass =>
    hafter x (List.mem_append_right _ (only x (List.mem_append_right _ hx) hpass)) x hx rfl
  rw [List.filter_append, List.filter_append, none_before, none_after, List.nil_append,
    List.append_nil]

namespace Tree

variable {t : Tree}

/-- Whether a node is a page whose nearest book is the one given. -/
def isPageOf (t : Tree) (book p : Node) : Bool :=
  p.kind = .bookPage && (t.ancestors p.id).find? (fun a => a.kind.isBook) = some book

/-- The pages whose nearest book is the one given, in the order of the tree. -/
def pagesOf (t : Tree) (book : Node) : List Node :=
  (t.descendants root).filter (t.isPageOf book)

/-- The number of pages between a page and its book. -/
def pageDepth (t : Tree) (p : Node) : Nat :=
  pagesBefore (t.ancestors p.id)

/-- Each page of the book has the book or a page as its parent. -/
def PagesJoined (t : Tree) (book : Node) : Prop :=
  ∀ p ∈ t.pagesOf book, ∀ m ∈ t.nodes,
    t.parent? p.id = some m.id → m = book ∨ m.kind = .bookPage

namespace Kept

theorem mem_nodes_of_mem_pagesOf (h : t.Kept) {book p : Node} (hp : p ∈ t.pagesOf book) :
    p ∈ t.nodes := by
  have visited := (List.mem_filter.1 hp).1
  rw [descendants_eq t.root_lt_size] at visited
  exact (h.wellFormed.under_of_mem_branchAt _ visited).1

theorem nodup_pagesOf (h : t.Kept) (book : Node) : (t.pagesOf book).Nodup := by
  rw [pagesOf, descendants_eq t.root_lt_size]
  exact (List.Nodup.of_map Node.id (h.wellFormed.nodup_branchAt _)).filter _

theorem mem_branchAt_of_isPageOf (h : t.Kept) {k : Nat} (hk : k < t.nodes.size) {p : Node}
    (hp : p ∈ t.nodes) (page : t.isPageOf t.nodes[k] p = true) :
    p ∈ (t.branchAt k hk).toList := by
  obtain ⟨i, hi, rfl⟩ := Array.mem_iff_getElem.1 hp
  rw [isPageOf, Bool.and_eq_true, decide_eq_true_eq, decide_eq_true_eq] at page
  have under := under_of_mem_ancestors (List.mem_of_find?_eq_some page.2)
  rw [t.id_eq k hk, t.id_eq i hi] at under
  exact h.mem_branchAt_of_under hk hi under

/-- The pages of a book are below it. -/
theorem pagesOf_eq (h : t.Kept) {k : Nat} (hk : k < t.nodes.size) :
    t.pagesOf t.nodes[k] = (t.branchAt k hk).toList.filter (t.isPageOf t.nodes[k]) := by
  have inside : (t.branchAt k hk).toList <:+: (t.branchAt root t.root_lt_size).toList := by
    have hbook := h.mem_branchAt_root hk
    rw [← Branch.map_label_places []] at hbook
    obtain ⟨q, hq, hlabel⟩ := List.mem_map.1 hbook
    obtain ⟨hlt, hbranch⟩ := h.wellFormed.branch_eq_of_mem_places hq
    simp only [hlabel, t.id_eq k hk] at hbranch
    rw [← hbranch]
    exact Branch.toList_infix_of_mem_places hq
  rw [pagesOf, descendants_eq t.root_lt_size]
  refine filter_eq_of_infix inside (List.Nodup.of_map Node.id (h.wellFormed.nodup_branchAt _))
    fun p hp page => h.mem_branchAt_of_isPageOf hk ?_ page
  exact (h.wellFormed.under_of_mem_branchAt _ hp).1

variable {k : Nat} {hk : k < t.nodes.size}

theorem label_not_mem_children (h : t.Kept) :
    t.nodes[k] ∉ Branch.toListAll (t.branchAt k hk).children := by
  have distinct := List.Nodup.of_map Node.id (h.wellFormed.nodup_branchAt hk)
  rw [Branch.toList_eq, label_branchAt] at distinct
  exact (List.nodup_cons.1 distinct).1

/-- The places below a node tell the same as the tree. -/
theorem isPageOf_of_mem_places (h : t.Kept) (book : Node) {q : Branch.Place Node}
    (hq : q ∈ placesAll (t.nodes[k] :: t.ancestors k) (t.branchAt k hk).children) :
    t.isPageOf book q.label = q.isPageOf book ∧ t.ancestors q.label.id = q.above := by
  rw [← label_branchAt hk] at hq
  have inside : q ∈ places (t.ancestors k) (t.branchAt k hk) := by
    rw [Branch.places_eq]
    exact List.mem_cons_of_mem _ hq
  have above := (h.wellFormed.of_mem_places inside).2
  exact ⟨by rw [isPageOf, Branch.Place.isPageOf, above], above.symm⟩

/-- The pages of a book are at the places below it. -/
theorem pagesOf_eq_places (h : t.Kept) (hbook : t.nodes[k].kind.isBook = true) :
    t.pagesOf t.nodes[k]
      = ((placesAll (t.nodes[k] :: t.ancestors k) (t.branchAt k hk).children).filter
          (Branch.Place.isPageOf t.nodes[k])).map Branch.Place.label := by
  have other : ¬t.isPageOf t.nodes[k] t.nodes[k] = true := by
    intro page
    rw [isPageOf, Bool.and_eq_true, decide_eq_true_eq] at page
    rw [page.1] at hbook
    cases hbook
  rw [h.pagesOf_eq hk, Branch.toList_eq, label_branchAt, List.filter_cons_of_neg other,
    ← Branch.map_label_placesAll (t.nodes[k] :: t.ancestors k), List.filter_map]
  exact congrArg _ (List.filter_congr fun q hq => (h.isPageOf_of_mem_places _ hq).1)

/-- **The walk below a book finds the pages of the tree, with their depths.** -/
theorem bookPages_eq_pagesOf (h : t.Kept) (hbook : t.nodes[k].kind.isBook = true)
    (above : List Node) :
    (bookPagesAll (t.nodes[k] :: above) 0 (t.branchAt k hk).children).map
        (fun p => (p.1.label, p.2))
      = (t.pagesOf t.nodes[k]).map fun p => (p, t.pageDepth p) := by
  rw [map_label_bookPagesAll _ (t.nodes[k] :: t.ancestors k), ← pagesBefore_book hbook,
    bookPagesAll_eq (List.find?_cons_of_pos hbook) h.label_not_mem_children,
    h.pagesOf_eq_places hbook, List.map_map, List.map_map]
  refine List.map_congr_left fun q hq => ?_
  have above := (h.isPageOf_of_mem_places t.nodes[k] (List.mem_filter.1 hq).1).2
  simp only [Function.comp_apply, pageDepth, above]

theorem pagesOf_eq_bookPages (h : t.Kept) (hbook : t.nodes[k].kind.isBook = true)
    (above : List Node) :
    t.pagesOf t.nodes[k]
      = (bookPagesAll (t.nodes[k] :: above) 0 (t.branchAt k hk).children).map
          fun p => p.1.label := by
  have found := congrArg (List.map Prod.fst) (h.bookPages_eq_pagesOf (k := k) hbook above)
  rw [List.map_map, List.map_map] at found
  exact (List.map_id _).symm.trans found.symm

theorem pageDepth_of_mem_bookPages (h : t.Kept) (hbook : t.nodes[k].kind.isBook = true)
    {above : List Node} {p : Branch.Place Node × Nat}
    (hp : p ∈ bookPagesAll (t.nodes[k] :: above) 0 (t.branchAt k hk).children) :
    t.pageDepth p.1.label = p.2 := by
  have found : (p.1.label, p.2) ∈ (t.pagesOf t.nodes[k]).map fun p => (p, t.pageDepth p) := by
    rw [← h.bookPages_eq_pagesOf (k := k) hbook above]
    exact List.mem_map_of_mem hp
  obtain ⟨n, -, heq⟩ := List.mem_map.1 found
  obtain ⟨rfl, depth⟩ := Prod.mk.inj heq
  exact depth

/-- The walk below a book stays there. -/
theorem mem_placesAll_of_mem_bookPages (h : t.Kept) (hbook : t.nodes[k].kind.isBook = true)
    {above : List Node} {p : Branch.Place Node × Nat}
    (hp : p ∈ bookPagesAll (t.nodes[k] :: above) 0 (t.branchAt k hk).children) :
    p.1 ∈ placesAll (t.nodes[k] :: above) (t.branchAt k hk).children := by
  rw [← pagesBefore_book hbook above,
    bookPagesAll_eq (List.find?_cons_of_pos hbook) h.label_not_mem_children] at hp
  obtain ⟨q, hq, rfl⟩ := List.mem_map.1 hp
  exact (List.mem_filter.1 hq).1

/-- **The walk below a book finds its pages joined, if they are in the tree.** -/
theorem joined_of_pagesJoined (h : t.Kept) (hbook : t.nodes[k].kind.isBook = true)
    (joined : t.PagesJoined t.nodes[k]) (above : List Node) :
    ∀ b ∈ (t.branchAt k hk).children, Joined (t.nodes[k] :: above) b := by
  have below : ∀ q ∈ placesAll (t.nodes[k] :: t.ancestors k) (t.branchAt k hk).children,
      q.isPageOf t.nodes[k] = true → q.IsJoined t.nodes[k] := by
    intro q hq page
    have hp : q.label ∈ t.pagesOf t.nodes[k] := by
      rw [h.pagesOf_eq_places hbook]
      exact List.mem_map_of_mem (List.mem_filter.2 ⟨hq, page⟩)
    have above := (h.isPageOf_of_mem_places t.nodes[k] hq).2
    cases parent : t.parent? q.label.id with
    | none =>
      -- a page without a parent has no book either
      rw [Branch.Place.isPageOf, ← above, ancestors_of_parent?_eq_none parent] at page
      simp at page
    | some m =>
      have hm := lt_size_of_parent? parent
      refine ⟨t.nodes[m], ?_, ?_⟩
      · rw [← above, ancestors_of_parent? hm parent]
        rfl
      · exact joined _ hp _ (Array.getElem_mem hm) (parent.trans (by rw [t.id_eq m hm]))
  intro b hb
  exact (joinedAll_of_isJoined (List.find?_cons_of_pos hbook) h.label_not_mem_children below b
    hb).of_above _

end Kept

end Tree

end FormDesign
