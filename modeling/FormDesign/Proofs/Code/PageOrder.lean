import FormDesign.Proofs.Code.Stretch

/-!
# Books get their pages in order

A page is added to its book when it is created, before anything below it. So a book gets its pages
and the pages below these in the order of the design.

* `Branch.Place.pages`: the pages of a book
* `Site.addPage_eq`: the call that adds a page
* `Site.pageCalls_traceAll`: the calls that add the pages among some branches
* `Construction.pageCalls_eq`: a book gets its pages in order, each once
* `Construction.exists_addsPage`: a page is added between its creation and what is below it
* `addsPages_of_ofTree`: so it is in every method of a form
-/

namespace FormDesign

/-! ## The pages of a book -/

namespace Item

def isPage (i : Item) : Bool :=
  i.kind == .bookPage

end Item

namespace Branch

/-- Where there are only pages above the branch: the places of pages in it, with only pages above
them. -/
def pagesIn (above : List Item) (b : Branch Item) : List (Place Item) :=
  (places above b).filter (Place.passes Item.isPage)

/-- Those of several branches. -/
def pagesInAll (above : List Item) (bs : List (Branch Item)) : List (Place Item) :=
  (placesAll above bs).filter (Place.passes Item.isPage)

variable {above : List Item} {i : Item}

theorem pagesIn_of_isPage (pages : above.all Item.isPage = true) (h : i.isPage = true)
    (cs : List (Branch Item)) :
    pagesIn above (.mk i cs) = ⟨above, .mk i cs⟩ :: pagesInAll (i :: above) cs :=
  List.filter_cons_of_pos (Bool.and_eq_true_iff.2 ⟨h, pages⟩)

theorem pagesIn_of_not_isPage (h : i.isPage = false) (cs : List (Branch Item)) :
    pagesIn above (.mk i cs) = [] := by
  have fail : Place.passes Item.isPage ⟨above, .mk i cs⟩ = false :=
    Bool.and_eq_false_iff.2 (Or.inl h)
  have below : (i :: above).all Item.isPage = false := by rw [List.all_cons, h, Bool.false_and]
  rw [pagesIn, places, List.filter_cons_of_neg (Bool.eq_false_iff.1 fail)]
  exact filter_placesAll_of_fail below cs

theorem pagesInAll_cons (above : List Item) (b : Branch Item) (bs : List (Branch Item)) :
    pagesInAll above (b :: bs) = pagesIn above b ++ pagesInAll above bs := by
  rw [pagesInAll, placesAll, List.filter_append]
  rfl

namespace Place

/-- The node at the place. -/
def node (r : Place Item) : Node :=
  r.label.node

/-- The pages of the book at the place in pre-order, each with the pages above it: the page nodes
that are reached from the book through page nodes only. -/
def pages (q : Place Item) : List (Place Item) :=
  pagesInAll [] q.branch.children

variable {q r : Place Item}

theorem all_isPage_of_mem_pages (hr : r ∈ q.pages) :
    r.label.isPage = true ∧ r.above.all Item.isPage = true :=
  Bool.and_eq_true_iff.1 (List.mem_filter.1 hr).2

/-- A page of a book stands below the book. -/
theorem under_mem_of_mem_pages (hr : r ∈ q.pages) :
    r.under (q.label :: q.above) ∈ places q.above q.branch := by
  have hr := (List.mem_filter.1 hr).1
  rw [places_eq, ← List.nil_append (q.branch.label :: q.above), placesAll_append]
  exact List.mem_cons_of_mem _ (List.mem_map_of_mem hr)

end Place

theorem nodes_pagesIn_subset (above : List Item) (b : Branch Item) :
    (pagesIn above b).map Place.node ⊆ b.nodes := by
  rw [nodes, ← map_label_places above, List.map_map]
  exact List.map_subset _ (List.filter_subset_self _)

theorem nodes_pagesInAll_subset (above : List Item) (bs : List (Branch Item)) :
    (pagesInAll above bs).map Place.node ⊆ nodesAll bs := by
  rw [nodesAll, ← map_label_placesAll above, List.map_map]
  exact List.map_subset _ (List.filter_subset_self _)

end Branch

/-! ## Calls that add pages -/

namespace Step

/-- Whether the step adds a page to a book, or a page to the page added last. -/
def addsPage : Step → Bool
  | .stmt (.call _ method _) => method == "AddPage" || method == "AddSubPage"
  | _ => false

@[simp] theorem addsPage_call (target : Target) (method : String) (args : List Expr) :
    (call target method args).addsPage = (method == "AddPage" || method == "AddSubPage") := rfl

@[simp] theorem addsPage_create (v : Var) (className : String) (args : List Expr)
    (initMethod : Option String) : (stmt (.create v className args initMethod)).addsPage = false :=
  rfl

@[simp] theorem addsPage_validate (control : Var) (v : ValidatorVar) :
    (validate control v).addsPage = false := rfl

@[simp] theorem addsPage_warn (text : String) : (warn text).addsPage = false := rfl

end Step

namespace Site

/-- The call that adds a page of a book. The page is a sub page if it has pages above it, and only
other pages can be selected. -/
def pageCall (s : Site) (book : Item) (r : Branch.Place Item) : Step :=
  let e := r.label.element
  let page := Expr.var (s.var r.label)
  let label := Expr.text (e.text .label)
  if r.above.isEmpty then
    let selected := if e.flag .select then [Expr.bool true] else []
    Step.call (.var (s.var book)) "AddPage" ([page, label] ++ selected)
  else Step.call (.var (s.var book)) "AddSubPage" [page, label]

variable {s : Site} {p : Place} {book : Item}

theorem addsPage_pageCall (r : Branch.Place Item) : (s.pageCall book r).addsPage = true := by
  unfold pageCall
  dsimp only
  split <;> rfl

/-- A page of a book is added to it. -/
theorem addPage_eq (isBook : book.kind.isBook = true) {r : Branch.Place Item}
    (pages : r.above.all Item.isPage = true) (hr : p.item = r.label) (page : p.kind = .bookPage)
    {rest : List Item} (above : p.above = r.above ++ book :: rest) :
    s.addPage p = [s.pageCall book r] := by
  have notPage : book.kind ≠ .bookPage := by
    rintro h
    rw [h] at isBook
    cases isBook
  unfold addPage pageCall Place.parent? Place.element
  rw [above, hr]
  cases habove : r.above with
  | nil => simp [page, notPage, isBook]
  | cons parent inner =>
    -- no page is a book, so the book is the nearest one
    have noBook : (parent :: inner).find? (fun i => i.kind.isBook) = none := by
      refine List.find?_eq_none.2 fun i hi => ?_
      have kind : i.kind = .bookPage := beq_iff_eq.1 (List.all_eq_true.1 pages i (habove ▸ hi))
      rw [kind]
      decide
    have nearest :
        (parent :: inner ++ book :: rest).find? (fun i => i.kind.isBook) = some book := by
      rw [List.find?_append, noBook]
      exact List.find?_cons_of_pos (p := fun i : Item => i.kind.isBook) isBook
    have parentPage : parent.kind = .bookPage :=
      beq_iff_eq.1 (List.all_eq_true.1 pages parent (habove ▸ List.mem_cons_self))
    rw [nearest]
    simp [page, parentPage]

/-- What is done with a page before it is added: it is created, and told what any window can be
told. -/
def beforePage (s : Site) (p : Place) : List Step :=
  s.create p (s.args p) none ++ s.windowSettings p

theorem createNode_page (h : p.kind = .bookPage) :
    s.createNode p = s.beforePage p ++ s.addPage p := by
  have settings : s.kindSettings p = [] := by
    unfold kindSettings
    rw [h]
  unfold createNode
  rw [h]
  simp only [Kind.category, createWindow, settings, List.append_nil, if_pos h]
  rfl

theorem not_addsPage_beforePage : Step.Each (fun st => ¬st.addsPage = true) (s.beforePage p) := by
  simp [beforePage, Site.create, windowSettings]

theorem exists_creation_beforePage :
    ∃ st ∈ s.beforePage p, ∃ className, st.creation? = some (s.var p.item, className) :=
  ⟨_, List.mem_append_left _ (List.mem_append_right _ List.mem_cons_self), _, rfl⟩

theorem finish_page (h : p.kind = .bookPage) : s.finish p = [] := by
  unfold finish
  rw [h]

/-- Pages can be created in every language. -/
theorem creates_bookPage (s : Site) : s.creates .bookPage = true := by
  unfold creates
  cases s.dialect <;> rfl

end Site

/-! ## In a trace -/

namespace Traced

/-- The call that adds a page, if the step is one, with the node that it is there for. -/
def pageCall? (x : Traced) : Option (Node × Step) :=
  match x.origin with
  | .node p => if x.step.addsPage then some (p.item.node, x.step) else none
  | .event _ | .menu _ => none

/-- The calls that add pages among the steps for some nodes, in order. -/
def pageCalls (nodes : List Node) (xs : List Traced) : List (Node × Step) :=
  (xs.filterMap pageCall?).filter fun call => nodes.contains call.1

variable {nodes : List Node} {xs : List Traced} {x : Traced} {call : Node × Step}

theorem pageCall?_eq_some :
    x.pageCall? = some call ↔
      x.Does call.1 (fun st => st.addsPage = true) ∧ x.step = call.2 := by
  obtain ⟨n, st⟩ := call
  rw [Does, isFor_iff]
  unfold pageCall?
  cases x.origin with
  | node p => grind
  | event | menu => simp

theorem mem_pageCalls :
    call ∈ pageCalls nodes xs ↔
      call.1 ∈ nodes ∧
        ∃ x ∈ xs, x.Does call.1 (fun st => st.addsPage = true) ∧ x.step = call.2 := by
  simp only [pageCalls, List.mem_filter, List.mem_filterMap, pageCall?_eq_some,
    List.contains_iff_mem, and_comm]

theorem pageCalls_append (xs ys : List Traced) :
    pageCalls nodes (xs ++ ys) = pageCalls nodes xs ++ pageCalls nodes ys := by
  simp [pageCalls]

theorem pageCalls_eq_nil
    (h : ∀ x ∈ xs, ∀ n ∈ nodes, ¬x.Does n fun st => st.addsPage = true) :
    pageCalls nodes xs = [] := by
  refine List.eq_nil_iff_forall_not_mem.2 fun call hcall => ?_
  obtain ⟨hn, x, hx, does, -⟩ := mem_pageCalls.1 hcall
  exact h x hx call.1 hn does

theorem pageCalls_cons {p : Place} (origin : x.origin = .node p) (hp : p.item.node ∈ nodes)
    (h : x.step.addsPage = true) :
    pageCalls nodes (x :: xs) = (p.item.node, x.step) :: pageCalls nodes xs := by
  have heq : x.pageCall? = some (p.item.node, x.step) := by
    unfold pageCall?
    rw [origin]
    exact if_pos h
  rw [pageCalls, List.filterMap_cons_some heq]
  exact List.filter_cons_of_pos (List.contains_iff_mem.2 hp)

end Traced

namespace Site

open Branch (pagesIn pagesInAll Place.node)

/-- The trace of a page of a book: its creation, the call that adds it, and what is below it. -/
theorem traceNode_page {s : Site} {book : Item} (isBook : book.kind.isBook = true)
    {r : Branch.Place Item} (page : r.label.isPage = true) (pages : r.above.all Item.isPage = true)
    (blocks : List String) (before rest : List Item) :
    let p := r.branch.standing (r.above ++ book :: rest) before
    let inside := blocks ++ r.label.element.selector?.toList
    Step.Each (fun st => st.isPlain = true) (s.beforePage p) ∧
      s.traceNode blocks (r.above ++ book :: rest) before r.branch
        = Traced.mark inside (.node p) (s.beforePage p)
          ++ ⟨inside, .node p, s.pageCall book r⟩
            :: s.traceAll inside (r.label :: r.above ++ book :: rest) [] r.branch.children := by
  intro p inside
  have kind : p.kind = .bookPage := beq_iff_eq.1 page
  have creates : s.creates r.branch.label.kind = true := by
    rw [show r.branch.label.kind = .bookPage from kind]
    exact s.creates_bookPage
  have created : s.createNode p = s.beforePage p ++ [s.pageCall book r] := by
    rw [createNode_page kind, addPage_eq isBook pages rfl kind rfl]
  have plain := plain_createNode (s := s) (p := p) (not_isMenuBuilder_of_creates creates)
  rw [created, Step.each_append] at plain
  refine ⟨plain.1, ?_⟩
  rw [traceNode_eq creates, created, finish_page kind, Traced.mark_append,
    Traced.mark_of_plain plain.2, List.append_assoc, List.append_assoc]
  exact congrArg _ (congrArg _ (List.append_nil _))

mutual

theorem pageCalls_traceNode {s : Site} {blocks : List String} {pages before rest : List Item}
    {book : Item} (isBook : book.kind.isBook = true) (hpages : pages.all Item.isPage = true)
    {b : Branch Item} (apart : Apart (pages ++ book :: rest) [b]) {nodes : List Node}
    (hnodes : ∀ n ∈ b.nodes, n ∈ nodes ↔ n ∈ (pagesIn pages b).map Place.node) :
    Traced.pageCalls nodes (s.traceNode blocks (pages ++ book :: rest) before b)
      = (pagesIn pages b).map fun r => (r.node, s.pageCall book r) := by
  cases b with
  | mk i cs =>
    cases hi : i.isPage with
    | false =>
      -- no node of the branch is one of those that the calls are counted for
      rw [Branch.pagesIn_of_not_isPage hi] at hnodes ⊢
      refine Traced.pageCalls_eq_nil fun x hx n hn does => ?_
      rw [← traceAll_singleton] at hx
      have inside := mem_nodesAll_of_isFor hx does.1
      rw [Branch.nodesAll_singleton] at inside
      cases (hnodes n inside).1 hn
    | true =>
      rw [Branch.pagesIn_of_isPage hpages hi] at hnodes ⊢
      have hnode : i.node ∈ nodes :=
        (hnodes _ (Branch.node_label_mem_nodes _)).2 List.mem_cons_self
      have below : ∀ n ∈ Branch.nodesAll cs,
          n ∈ nodes ↔ n ∈ (pagesInAll (i :: pages) cs).map Place.node := by
        intro n hn
        have other : n ≠ i.node := by
          rintro rfl
          exact apart.not_mem_children hn
        rw [hnodes n (by rw [Branch.nodes_cons]; exact List.mem_cons_of_mem _ hn), List.map_cons,
          List.mem_cons]
        exact or_iff_right other
      have hpages' : (i :: pages).all Item.isPage = true := by rw [List.all_cons, hi, hpages]; rfl
      obtain ⟨plain, split⟩ :=
        traceNode_page (s := s) (r := ⟨pages, .mk i cs⟩) isBook hi hpages blocks before rest
      rw [split, Traced.pageCalls_append, Traced.pageCalls_eq_nil fun x hx n _ =>
          Traced.not_does_of_mem_mark plain not_addsPage_beforePage hx,
        Traced.pageCalls_cons rfl hnode (addsPage_pageCall _), List.map_cons]
      exact congrArg (_ :: ·) (pageCalls_traceAll isBook hpages' apart.children below)

/-- **The pages among some branches are added in the order of the design, each once.** -/
theorem pageCalls_traceAll {s : Site} {blocks : List String} {pages before rest : List Item}
    {book : Item} (isBook : book.kind.isBook = true) (hpages : pages.all Item.isPage = true)
    {bs : List (Branch Item)} (apart : Apart (pages ++ book :: rest) bs) {nodes : List Node}
    (hnodes : ∀ n ∈ Branch.nodesAll bs, n ∈ nodes ↔ n ∈ (pagesInAll pages bs).map Place.node) :
    Traced.pageCalls nodes (s.traceAll blocks (pages ++ book :: rest) before bs)
      = (pagesInAll pages bs).map fun r => (r.node, s.pageCall book r) := by
  cases bs with
  | nil => rfl
  | cons b bs =>
    have between := apart.between_cons
    rw [Branch.nodesAll_cons, Branch.pagesInAll_cons, List.map_append] at hnodes
    have first : ∀ n ∈ b.nodes, n ∈ nodes ↔ n ∈ (pagesIn pages b).map Place.node := by
      intro n hn
      rw [hnodes n (List.mem_append_left _ hn), List.mem_append]
      exact or_iff_left fun hn' => between hn (Branch.nodes_pagesInAll_subset _ _ hn')
    have others : ∀ n ∈ Branch.nodesAll bs,
        n ∈ nodes ↔ n ∈ (pagesInAll pages bs).map Place.node := by
      intro n hn
      rw [hnodes n (List.mem_append_right _ hn), List.mem_append]
      exact or_iff_right fun hn' => between (Branch.nodes_pagesIn_subset _ _ hn') hn
    rw [traceAll, Traced.pageCalls_append, Branch.pagesInAll_cons, List.map_append,
      pageCalls_traceNode isBook hpages apart.head first,
      pageCalls_traceAll isBook hpages apart.tail others]

end

end Site

/-! ## Where a page is added -/

/-- The call adds a page of a book between the creation of the page and what is below it. -/
structure Traced.AddsPage (s : Site) (book : Item) (r : Branch.Place Item)
    (xs before : List Traced) (x : Traced) (after : List Traced) : Prop where
  only : IsOnly (Does r.node fun st => st.addsPage = true) xs before x after
  step : x.step = s.pageCall book r
  /-- The page is created before. -/
  created : ∃ y ∈ before, y.isFor r.node = true ∧
    ∃ className, y.step.creation? = some (s.var r.label, className)
  /-- Nothing else is done for the page itself. -/
  last : ∀ y ∈ after, ¬y.isFor r.node = true
  /-- What is below the page comes later. -/
  first : ∀ y ∈ before, ¬y.IsBelow r.node

theorem Traced.AddsPage.surround {s : Site} {book : Item} {r : Branch.Place Item}
    {xs before after : List Traced} {x : Traced} (h : AddsPage s book r xs before x after)
    {pre post : List Traced} (outside : ∀ y ∈ pre ++ post, y.IsOutside r.branch) :
    AddsPage s book r (pre ++ xs ++ post) (pre ++ before) x (after ++ post) := by
  obtain ⟨hpre, hpost⟩ := List.forall_mem_append.1 outside
  refine ⟨h.only.surround outside, h.step, ?_, ?_, ?_⟩
  · obtain ⟨y, hy, created⟩ := h.created
    exact ⟨y, List.mem_append_right _ hy, created⟩
  · exact List.forall_mem_append.2 ⟨h.last, fun y hy => (hpost y hy).not_isFor⟩
  · refine List.forall_mem_append.2 ⟨fun y hy below => ?_, h.first⟩
    exact (hpre y hy).not_isWithin r.branch.node_label_mem_nodes (Traced.isWithin_of_isBelow below)

/-- A page is added after its creation and before what is below it. -/
theorem Site.addsPage_traceNode {s : Site} {book : Item} (isBook : book.kind.isBook = true)
    {r : Branch.Place Item} (page : r.label.isPage = true) (pages : r.above.all Item.isPage = true)
    {rest : List Item} (apart : Apart (r.above ++ book :: rest) [r.branch]) (blocks : List String)
    (before : List Item) :
    ∃ own x inner,
      Traced.AddsPage s book r (s.traceNode blocks (r.above ++ book :: rest) before r.branch) own x
        inner := by
  obtain ⟨plain, split⟩ := traceNode_page (s := s) isBook page pages blocks before rest
  let p := r.branch.standing (r.above ++ book :: rest) before
  refine ⟨_, _, _, ⟨split, ⟨beq_self_eq_true _, addsPage_pageCall _⟩, ?_⟩, rfl, ?_,
    fun y => not_isFor_of_mem_below apart, ?_⟩
  · refine List.forall_mem_append.2 ⟨fun y hy => ?_, fun y hy does => ?_⟩
    · exact Traced.not_does_of_mem_mark plain not_addsPage_beforePage hy
    · exact not_isFor_of_mem_below apart hy does.1
  · obtain ⟨st, hst, created⟩ := exists_creation_beforePage (s := s) (p := p)
    exact ⟨⟨_, .node p, st⟩, (Traced.mem_mark_of_plain plain).2 ⟨rfl, rfl, hst⟩,
      beq_self_eq_true _, created⟩
  · intro y hy below
    rw [Traced.IsBelow, Traced.path_of_mem_mark hy] at below
    exact apart.disjoint below
      (Branch.nodes_subset_nodesAll List.mem_cons_self r.branch.node_label_mem_nodes)

/-! ## In a method -/

namespace Construction

open Branch (Place.node)

variable {f : Form} {d : Dialect} {c : Collected} {m : Construction} {q r : Branch.Place Item}

/-- **A book gets its pages in the order of the design, each once.** -/
theorem pageCalls_eq (h : f.Sound) (hm : m ∈ f.constructions d c)
    (hq : q ∈ Branch.places f.above f.branch) (isBook : q.label.kind.isBook = true)
    (created : m.Creates q.label) :
    Traced.pageCalls (q.pages.map Place.node) m.trace
      = q.pages.map fun r => (r.node, m.site.pageCall q.label r) := by
  obtain ⟨above, i, cs⟩ := q
  have apart := h.apart.of_mem_places hq
  obtain ⟨stretch, creates⟩ := created.hasStretch h hm hq rfl
    (Kind.hasConstruction_of_isLaidOut (Kind.isLaidOut_of_isBook isBook))
  obtain ⟨opened, blocks, closed, split, around⟩ := stretch.exists_children apart creates
  -- the steps around the trace of what is below the book are there for none of its pages
  have none {ys : List Traced} (hys : ys ⊆ opened ++ closed) :
      Traced.pageCalls ((Branch.Place.pages ⟨above, .mk i cs⟩).map Place.node) ys = [] :=
    Traced.pageCalls_eq_nil fun y hy n hn does =>
      around y (hys hy) (Traced.isWithin_of_isFor does.1) (Branch.nodes_pagesInAll_subset _ _ hn)
  rw [split, Traced.pageCalls_append, Traced.pageCalls_append,
    none (List.subset_append_left _ _), none (List.subset_append_right _ _), List.nil_append,
    List.append_nil]
  exact Site.pageCalls_traceAll isBook (show ([] : List Item).all Item.isPage = true from rfl)
    apart.children fun n _ => Iff.rfl

/-- **A page is added to its book when it is created**, before anything below it. -/
theorem exists_addsPage (h : f.Sound) (hm : m ∈ f.constructions d c)
    (hq : q ∈ Branch.places f.above f.branch) (isBook : q.label.kind.isBook = true)
    (created : m.Creates q.label) (hr : r ∈ q.pages) :
    ∃ before x after, Traced.AddsPage m.site q.label r m.trace before x after := by
  obtain ⟨page, pages⟩ := Branch.Place.all_isPage_of_mem_pages hr
  have hplace := Branch.places_subset hq (Branch.Place.under_mem_of_mem_pages hr)
  have apart := h.apart.of_mem_places hplace
  -- the page has a step, so it has a stretch
  obtain ⟨z, hz, hfor⟩ : ∃ z ∈ m.trace, z.isFor r.node = true := by
    have hcall : (r.node, m.site.pageCall q.label r)
        ∈ Traced.pageCalls (q.pages.map Place.node) m.trace := by
      rw [pageCalls_eq h hm hq isBook created]
      exact List.mem_map_of_mem hr
    obtain ⟨-, z, hz, does, -⟩ := Traced.mem_pageCalls.1 hcall
    exact ⟨z, hz, does.1⟩
  have construction : r.label.kind.hasConstruction = true := by
    rw [show r.label.kind = .bookPage from beq_iff_eq.1 page]
    rfl
  obtain ⟨front, blocks, before, back, split, outside⟩ :=
    Form.hasStretch_of_mem_constructions h hm hplace construction hz hfor
  obtain ⟨own, x, inner, adds⟩ :=
    Site.addsPage_traceNode (s := m.site) isBook page pages apart blocks before
  rw [split]
  exact ⟨_, _, _, adds.surround outside⟩

/-- **Books get their pages in the order of the design.** -/
structure AddsPages (f : Form) (m : Construction) : Prop where
  /-- The trace is that of the method. -/
  leaves : Step.leavesAll [] m.steps = m.trace.map Traced.erase
  /-- Among the steps for the pages of a book, the calls that add pages are one for each of them, in
  pre-order. -/
  calls : ∀ q ∈ Branch.places f.above f.branch, q.label.kind.isBook = true → m.Creates q.label →
    Traced.pageCalls (q.pages.map Place.node) m.trace
      = q.pages.map fun r => (r.node, m.site.pageCall q.label r)
  /-- Each page is added when it is created, before every step for what is below it. -/
  between : ∀ q ∈ Branch.places f.above f.branch, q.label.kind.isBook = true → m.Creates q.label →
    ∀ r ∈ q.pages, ∃ before x after, Traced.AddsPage m.site q.label r m.trace before x after

end Construction

/-- **Every method of a form adds the pages of its books in the order of the design.** -/
theorem addsPages_of_ofTree {t : Tree} (reachable : t.Reachable) {id : Nat} {f : Form}
    (hf : Form.ofTree t id = .ok f) (d : Dialect) (c : Collected) :
    ∀ m ∈ f.constructions d c, m.AddsPages f := by
  intro m hm
  have sound := Form.sound_of_ofTree reachable hf
  exact
    { leaves := Form.leavesAll_of_mem_constructions hm
      calls := fun _ hq isBook created => Construction.pageCalls_eq sound hm hq isBook created
      between := fun _ hq isBook created _ hr =>
        Construction.exists_addsPage sound hm hq isBook created hr }

/-- A page of a book. -/
def namedPage (name : String) : Element :=
  (Element.ofKind .bookPage).setProp .varName name

/-- A dialog with a book of two pages, where the first one has a page below it. -/
def pagedDesign : Design :=
  .mk (.ofKind .dialog)
    [.mk ((Element.ofKind .treebook).setProp .varName "m_book")
      [.mk (namedPage "m_first") [.mk (namedPage "m_inner") []], .mk (namedPage "m_second") []]]

/-- The book of that dialog. -/
def pagedBook : Item where
  node :=
    { (Element.ofKind .treebook).setProp .varName "m_book" with
      id := 1, parent := some 0, children := [2, 4] }
  name := "m_book"

/-- A page of that book. -/
def pagedPage (id parent : Nat) (children : List Nat) (name : String) : Item where
  node := { namedPage name with id, parent := some parent, children }
  name := name

/-- The book with its pages. -/
def pagedBranch : Branch Item :=
  .mk pagedBook
    [.mk (pagedPage 2 1 [3] "m_first") [.mk (pagedPage 3 2 [] "m_inner") []],
      .mk (pagedPage 4 1 [] "m_second") []]

/-- The form of that dialog. -/
def pagedDialog : Form where
  node := { Element.ofKind .dialog with id := 0, parent := none, children := [1] }
  children := [pagedBranch]
  above := []

/-- The constructor of the dialog creates the book, and adds its pages in order. -/
theorem pagedDialog_addsPages :
    ∃ m ∈ pagedDialog.constructions .perl (pagedDialog.collected .perl .empty .empty),
      m.AddsPages pagedDialog ∧ m.Creates pagedBook ∧
        (Branch.Place.pages ⟨pagedDialog.path, pagedBranch⟩).map (fun r => r.label.name)
          = ["m_first", "m_inner", "m_second"] := by
  have hf : Form.ofTree (.ofDesign pagedDesign) 0 = .ok pagedDialog := by
    with_unfolding_all rfl
  have once : pagedDesign.EventsOnce := by
    unfold Design.EventsOnce Element.EventsOnce
    decide
  refine ⟨_, List.mem_cons_self,
    addsPages_of_ofTree (.ofDesign once) hf .perl _ _ List.mem_cons_self, ?_, by decide⟩
  exact ⟨_, List.mem_cons_self, rfl, _, rfl⟩

end FormDesign
