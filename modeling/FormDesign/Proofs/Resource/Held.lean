import FormDesign.Proofs.Resource.NamedOnce
import FormDesign.Proofs.Resource.Panes

/-!
# What stays below a node

Whatever is written for the nodes below a node is in what the children of the node grow into, on
every trail. It stays in the object of the node, except for pages that move up to a tree book.

* `hasOrigin_markAll`: where an element was written, with what stands between
* `exists_mark_markAll`: what is written at a place is in what the siblings above it grow into
* `Branch.Place.MovesPast`: the pages that move up past the nodes above them
* `movesFrom_markAll`, `exists_moves_markAll`: these are the pages that move up
-/

namespace FormDesign

open Branch (places placesAll)

theorem Trail.inTreeBook_enter_eq (trail : Trail) (e : Element) (book : Option Kind) (depth : Nat) :
    (trail.enter e book depth).inTreeBook = (trail.inTreeBook || e.kind == .treebook) := by
  by_cases treebook : e.kind = .treebook
  · simp [enter, treebook]
  · rw [inTreeBook_enter treebook, beq_false_of_ne treebook, Bool.or_false]

/-! ## Through one node -/

namespace Marked

variable {y : Marked}

/-- What is put into windows and menus is in them. -/
theorem mem_elementsAll_container {e : Element} {leafless : Bool} {children : List Marked}
    (empty : leafless = true → children = []) (hy : y ∈ elementsAll children) :
    y ∈ elementsAll (container e leafless children) := by
  unfold container
  split
  · simpa using Or.inr hy
  · split
    · split
      · next leafless =>
        rw [empty leafless] at hy
        cases hy
      · simpa [elements] using Or.inr (Or.inr hy)
    · exact hy

theorem mem_elements_prepend (tags : List Xml) {x : Marked} (hy : y ∈ elementsAll x.contents) :
    y ∈ (x.prepend tags).elements := by
  cases x with
  | bare x => cases hy
  | element mark name attributes contents =>
    rw [prepend, elements, elementsAll_append]
    exact List.mem_cons_of_mem _ (List.mem_append_right _ hy)

theorem mark?_prepend (tags : List Xml) (x : Marked) : (x.prepend tags).mark? = x.mark? := by
  cases x <;> rfl

theorem exists_mark_prepend (tags : List Xml) {x : Marked} (hy : y ∈ x.elements) :
    ∃ z ∈ (x.prepend tags).elements, z.mark? = y.mark? := by
  cases x with
  | bare x => cases hy
  | element mark name attributes contents =>
    rw [elements] at hy
    rcases List.mem_cons.1 hy with rfl | hy
    · exact ⟨_, List.mem_cons_self, rfl⟩
    · exact ⟨y, mem_elements_prepend tags hy, rfl⟩

end Marked

namespace Branch.Place

variable {comments : Bool} {q : Branch.Place Node} {trail : Trail} {depth : Nat} {y : Marked}
  {s : MarkedSprout}

theorem pages_grown (described : q.label.kind.isDescribed = true) (comments : Bool) (trail : Trail)
    (depth : Nat) :
    (q.grown comments trail depth).pages
      = (Marked.settle q.label.toElement (q.held comments trail depth)).2 := by
  have holds : (q.shape comments).holdsChildren = q.label.kind.isDescribed :=
    q.label.holdsChildren_resourceShape ..
  cases hs : q.shape comments with
  | absent | remark part =>
    rw [hs] at holds
    cases holds.trans described
  | plain part => rw [grown_of_plain hs]
  | wrapped outer inner => rw [grown_of_wrapped hs]

theorem pages_grown_of_not_described (undescribed : ¬q.label.kind.isDescribed = true) :
    (q.grown comments trail depth).pages = [] := by
  have holds : (q.shape comments).holdsChildren = q.label.kind.isDescribed :=
    q.label.holdsChildren_resourceShape ..
  cases hs : q.shape comments with
  | absent => rw [grown_of_absent hs]
  | remark part => rw [grown_of_remark hs]
  | plain part | wrapped outer inner =>
    rw [hs] at holds
    exact absurd holds.symm undescribed

/-- What stays of what the children of a node grow into. -/
def staying (comments : Bool) (q : Branch.Place Node) (trail : Trail) (depth : Nat) : List Marked :=
  ((q.held comments trail depth).filter fun s => !s.moves).map MarkedSprout.xml

/-- A page moves on from a node if it moves out of what the children grew into, and the node is no
tree book. -/
theorem mem_pages_grown :
    s ∈ (q.grown comments trail depth).pages
      ↔ (q.label.kind.isDescribed = true ∧ q.label.kind ≠ .treebook) ∧
        s ∈ q.held comments trail depth ∧ s.moves = true := by
  by_cases described : q.label.kind.isDescribed = true
  · rw [pages_grown described, Marked.settle, and_iff_right described]
    split
    · next treebook => simp [treebook]
    · next other => simp [other, List.mem_filter]
  · simp [pages_grown_of_not_described described, described]

/-- What stays below a node is in its object. -/
theorem mem_contents (hy : y ∈ Marked.elementsAll
      ((Marked.settle q.label.toElement (q.held comments trail depth)).1.map MarkedSprout.xml)) :
    y ∈ Marked.elementsAll (q.contents comments trail depth) := by
  refine Marked.mem_elementsAll_container (fun leafless => ?_) hy
  have held : q.held comments trail depth = [] := by
    rw [Branch.Place.held, List.isEmpty_iff.1 leafless, markAll]
  rw [held]
  unfold Marked.settle
  split <;> rfl

/-- What a node holds is in its object, or in a page that moves on. -/
theorem mem_grown_of_held (described : q.label.kind.isDescribed = true) (tags : List Xml)
    (hy : y ∈ Marked.elementsAll ((q.held comments trail depth).map MarkedSprout.xml)) :
    y ∈ Marked.elementsAll ((q.grown comments trail depth).object.prepend tags
      :: (q.grown comments trail depth).pages.map MarkedSprout.xml) := by
  obtain ⟨x, hx, hy⟩ := Marked.mem_elementsAll.1 hy
  obtain ⟨s, hs, rfl⟩ := List.mem_map.1 hx
  rw [pages_grown described, Marked.elementsAll_cons, List.mem_append]
  rcases List.mem_append.1 ((Marked.perm_settle q.label.toElement _).symm.subset hs) with hs | hs
  · have stays := mem_contents (Marked.mem_elementsAll.2 ⟨_, List.mem_map_of_mem hs, hy⟩)
    exact Or.inl (Marked.mem_elements_prepend tags (mem_contents_grown described stays))
  · exact Or.inr (Marked.mem_elementsAll.2 ⟨_, List.mem_map_of_mem hs, hy⟩)

end Branch.Place

/-! ## Where an element was written -/

/-- An element was written at a place below some nodes, on a trail that goes past `zs`. The resource
describes all of them, and their tree books are on the trail. -/
structure Marked.IsOrigin (comments : Bool) (above : List Node) (trail : Trail) (y : Marked)
    (q : Branch.Place Node) (zs : List Node) : Prop where
  above_eq : q.above = zs ++ above
  described : ∀ z ∈ zs, z.kind.isDescribed = true
  writes : ∃ inner depth,
    inner.inTreeBook = (trail.inTreeBook || zs.any fun z => z.kind == .treebook) ∧
      Marked.Writes comments q inner depth y

theorem Marked.IsOrigin.below {comments : Bool} {above zs : List Node} {n : Node}
    {trail inner : Trail} {y : Marked} {q : Branch.Place Node}
    (h : IsOrigin comments (n :: above) inner y q zs) (described : n.kind.isDescribed = true)
    (enter : inner.inTreeBook = (trail.inTreeBook || n.kind == .treebook)) :
    IsOrigin comments above trail y q (zs ++ [n]) := by
  obtain ⟨inside, depth, book, writes⟩ := h.writes
  refine ⟨by simp [h.above_eq], ?_, inside, depth, ?_, writes⟩
  · rw [List.forall_mem_append]
    exact ⟨h.described, List.forall_mem_singleton.2 described⟩
  · rw [book, enter, List.any_append, List.any_cons, List.any_nil, Bool.or_false, Bool.or_assoc,
      Bool.or_comm (n.kind == _)]

/-- Something was written at one of some places, and the place is not dissolved. -/
def Marked.HasOrigin (comments : Bool) (above : List Node) (trail : Trail) (y : Marked)
    (places : List (Branch.Place Node)) : Prop :=
  ∃ q ∈ places, ¬q.Dissolved comments ∧ ∃ zs, IsOrigin comments above trail y q zs

theorem Marked.HasOrigin.below {comments : Bool} {above : List Node} {n : Node}
    {cs : List (Branch Node)} {trail inner : Trail} {y : Marked}
    (h : HasOrigin comments (n :: above) inner y (placesAll (n :: above) cs))
    (described : n.kind.isDescribed = true)
    (enter : inner.inTreeBook = (trail.inTreeBook || n.kind == .treebook)) :
    HasOrigin comments above trail y (places above (.mk n cs)) := by
  obtain ⟨q, hq, stays, zs, origin⟩ := h
  exact ⟨q, List.mem_cons_of_mem _ hq, stays, _, origin.below described enter⟩

mutual

theorem hasOrigin_markChild {comments : Bool} {parent : Node} {rest : List Node} {trail : Trail}
    {b : Branch Node} {y : Marked} (hmark : y.mark? ≠ none)
    (hy : y ∈ Marked.elementsAll ((markChild comments parent
      (Element.flattensFolders (parent.resourceShape comments (rest.map Node.toElement))
        parent.toElement) (parent :: rest) trail b).map MarkedSprout.xml)) :
    Marked.HasOrigin comments (parent :: rest) trail y (places (parent :: rest) b) := by
  cases b with
  | mk n cs =>
    let self : Branch.Place Node := ⟨parent :: rest, .mk n cs⟩
    have here {inner : Trail} {depth : Nat} (stays : ¬self.Dissolved comments)
        (h : Marked.Writes comments self inner depth y ∨ n.kind.isDescribed = true ∧
          y ∈ Marked.elementsAll ((self.held comments inner depth).map MarkedSprout.xml))
        (same : inner.inTreeBook = trail.inTreeBook) :
        Marked.HasOrigin comments (parent :: rest) trail y
          (places (parent :: rest) (.mk n cs)) := by
      rcases h with writes | ⟨described, held⟩
      · refine ⟨self, Branch.self_mem_places _ _, stays, [], rfl, nofun, inner, depth, ?_, writes⟩
        rw [same, List.any_nil, Bool.or_false]
      · refine (hasOrigin_markAll hmark held).below described ?_
        rw [Trail.inTreeBook_enter_eq, same]
    rw [markChild] at hy
    dsimp only at hy
    split at hy
    · next hfolder =>
      rw [Bool.and_eq_true, decide_eq_true_eq] at hfolder
      rw [← Element.flattensFolders_folder hfolder.2 comments
        ((parent :: rest).map Node.toElement)] at hy
      refine (hasOrigin_markAll hmark hy).below (by rw [hfolder.2]; rfl) ?_
      rw [hfolder.2]
      exact (Bool.or_false _).symm
    · next hfolder =>
      have stays : ¬self.Dissolved comments := by
        rintro ⟨folder, parent', above', habove, flat⟩
        obtain ⟨rfl, rfl⟩ := List.cons.inj habove
        rw [flat, Bool.true_and, decide_eq_true_eq] at hfolder
        exact hfolder folder
      split at hy
      · next hpage =>
        have page : self.label.kind = .bookPage := by
          simp only [Bool.and_eq_true, decide_eq_true_eq] at hpage
          exact hpage.1.2
        exact here stays (Marked.writes_or_held (q := self) (Or.inr page) hmark hy) rfl
      · unfold MarkedGrowth.asChild at hy
        split at hy
        · rw [← Marked.prepend_nil (MarkedGrowth.object _)] at hy
          exact here stays (Marked.writes_or_held (q := self) (Or.inl rfl) hmark hy) rfl
        · cases hy

/-- Whatever siblings grow into has an origin below them. -/
theorem hasOrigin_markAll {comments : Bool} {parent : Node} {rest : List Node} {trail : Trail}
    {bs : List (Branch Node)} {y : Marked} (hmark : y.mark? ≠ none)
    (hy : y ∈ Marked.elementsAll ((markAll comments parent
      (Element.flattensFolders (parent.resourceShape comments (rest.map Node.toElement))
        parent.toElement) (parent :: rest) trail bs).map MarkedSprout.xml)) :
    Marked.HasOrigin comments (parent :: rest) trail y (placesAll (parent :: rest) bs) := by
  cases bs with
  | nil =>
    rw [markAll] at hy
    cases hy
  | cons b bs =>
    rw [markAll, List.map_append, Marked.elementsAll_append] at hy
    rcases List.mem_append.1 hy with hy | hy
    · obtain ⟨q, hq, found⟩ := hasOrigin_markChild hmark hy
      exact ⟨q, List.mem_append_left _ hq, found⟩
    · obtain ⟨q, hq, found⟩ := hasOrigin_markAll hmark hy
      exact ⟨q, List.mem_append_right _ hq, found⟩

end

/-- What stands between a place and the nodes above a node ends with that node. -/
theorem exists_between {n : Node} {above zs : List Node} {cs : List (Branch Node)}
    {q : Branch.Place Node} (hq : q ∈ placesAll (n :: above) cs) (habove : q.above = zs ++ above) :
    ∃ ws, zs = ws ++ [n] ∧ q.above = ws ++ n :: above := by
  obtain ⟨ws, heq, -⟩ := Branch.exists_above_of_mem_placesAll hq
  refine ⟨ws, (List.append_left_inj above).1 ?_, heq⟩
  rw [← habove, heq, List.append_assoc]
  rfl

/-- What is in the growth of a node on every trail is in what the node grows into, unless it is a
folder that is dissolved. -/
theorem exists_mem_markChild {comments : Bool} {parent : Node} {flatten : Bool} {trail : Trail}
    {q : Branch.Place Node} {P : Marked → Prop}
    (whole : ¬(flatten && decide (q.label.kind = .folder)) = true)
    (kept : (q.grown comments trail 0).kept = true)
    (grown : ∀ tags trail depth, ∃ y ∈ Marked.elementsAll
      ((q.grown comments trail depth).object.prepend tags
        :: (q.grown comments trail depth).pages.map MarkedSprout.xml), P y) :
    ∃ y ∈ Marked.elementsAll
      ((markChild comments parent flatten q.above trail q.branch).map MarkedSprout.xml), P y := by
  rw [markChild_place, if_neg whole]
  split
  · exact grown _ _ _
  · have object := grown [] trail 0
    rw [Marked.prepend_nil] at object
    rw [MarkedGrowth.asChild, if_pos kept]
    exact object

mutual

theorem exists_mark_markChild {comments : Bool} {parent : Node} {rest zs : List Node}
    (trail : Trail) {b : Branch Node} {q : Branch.Place Node} {z : Marked}
    (hq : q ∈ places (parent :: rest) b) (habove : q.above = zs ++ parent :: rest)
    (described : ∀ a ∈ zs, a.kind.isDescribed = true) (stays : ¬q.Dissolved comments)
    (written : Marked.WrittenAt comments q z) :
    ∃ y ∈ Marked.elementsAll ((markChild comments parent
      (Element.flattensFolders (parent.resourceShape comments (rest.map Node.toElement))
        parent.toElement) (parent :: rest) trail b).map MarkedSprout.xml), y.mark? = z.mark? := by
  cases b with
  | mk n cs =>
    let self : Branch.Place Node := ⟨parent :: rest, .mk n cs⟩
    rw [places] at hq
    rcases List.mem_cons.1 hq with rfl | hq
    · refine exists_mem_markChild (q := self) (fun hfolder => ?_)
        (Branch.Place.exists_mark_grown written trail 0).1 fun tags trail depth => ?_
      · rw [Bool.and_eq_true, decide_eq_true_eq] at hfolder
        exact stays ⟨hfolder.2, parent, rest, rfl, hfolder.1⟩
      · obtain ⟨-, y, hy, mark⟩ := Branch.Place.exists_mark_grown written trail depth
        obtain ⟨y', hy', mark'⟩ := Marked.exists_mark_prepend tags hy
        exact ⟨y', List.mem_append_left _ hy', mark'.trans mark⟩
    · obtain ⟨ws, rfl, hbetween⟩ := exists_between hq habove
      have hn : n.kind.isDescribed = true := described n (by simp)
      have below (trail : Trail) := exists_mark_markAll trail hq hbetween
        (fun a ha => described a (List.mem_append_left _ ha)) stays written
      by_cases hfolder : (Element.flattensFolders (parent.resourceShape comments
          (rest.map Node.toElement)) parent.toElement && decide (n.kind = .folder)) = true
      · rw [markChild]
        dsimp only
        rw [if_pos hfolder]
        rw [Bool.and_eq_true, decide_eq_true_eq] at hfolder
        rw [← Element.flattensFolders_folder hfolder.2 comments
          ((parent :: rest).map Node.toElement)]
        exact below trail
      · refine exists_mem_markChild (q := self) hfolder (self.kept_grown hn trail 0)
          fun tags trail depth => ?_
        obtain ⟨y, hy, mark⟩ := below (trail.enter self.label.toElement self.book? depth)
        exact ⟨y, self.mem_grown_of_held hn tags hy, mark⟩

/-- What is written at a place is in what the siblings above grow into, if the resource describes
whatever stands between. -/
theorem exists_mark_markAll {comments : Bool} {parent : Node} {rest zs : List Node} (trail : Trail)
    {bs : List (Branch Node)} {q : Branch.Place Node} {z : Marked}
    (hq : q ∈ placesAll (parent :: rest) bs) (habove : q.above = zs ++ parent :: rest)
    (described : ∀ a ∈ zs, a.kind.isDescribed = true) (stays : ¬q.Dissolved comments)
    (written : Marked.WrittenAt comments q z) :
    ∃ y ∈ Marked.elementsAll ((markAll comments parent
      (Element.flattensFolders (parent.resourceShape comments (rest.map Node.toElement))
        parent.toElement) (parent :: rest) trail bs).map MarkedSprout.xml), y.mark? = z.mark? := by
  cases bs with
  | nil => cases hq
  | cons b bs =>
    rw [placesAll] at hq
    rw [markAll, List.map_append, Marked.elementsAll_append]
    rcases List.mem_append.1 hq with hq | hq
    · obtain ⟨y, hy, mark⟩ := exists_mark_markChild trail hq habove described stays written
      exact ⟨y, List.mem_append_left _ hy, mark⟩
    · obtain ⟨y, hy, mark⟩ := exists_mark_markAll trail hq habove described stays written
      exact ⟨y, List.mem_append_right _ hy, mark⟩

end

/-! ## Pages that move up -/

/-- The place of a page that moves up past some nodes: it stands right below another page, and the
resource describes the nodes between, none of which is a tree book. -/
structure Branch.Place.MovesPast (zs : List Node) (q : Branch.Place Node) : Prop where
  page : q.label.kind = .bookPage
  below : ∃ p, q.above.head? = some p ∧ p.kind = .bookPage
  past : ∀ z ∈ zs, z.kind.isDescribed = true ∧ z.kind ≠ .treebook

/-- A page comes from one of some places, and moves up past whatever stands between. -/
def MarkedSprout.MovesFrom (above : List Node) (s : MarkedSprout)
    (places : List (Branch.Place Node)) : Prop :=
  ∃ q ∈ places, ∃ zs, q.above = zs ++ above ∧ q.MovesPast zs ∧
    s.xml.mark? = some ⟨.around, q.label⟩

theorem MarkedSprout.MovesFrom.below {above : List Node} {n : Node} {cs : List (Branch Node)}
    {s : MarkedSprout} (h : s.MovesFrom (n :: above) (placesAll (n :: above) cs))
    (past : n.kind.isDescribed = true ∧ n.kind ≠ .treebook) :
    s.MovesFrom above (places above (.mk n cs)) := by
  obtain ⟨q, hq, zs, habove, moves, mark⟩ := h
  refine ⟨q, List.mem_cons_of_mem _ hq, zs ++ [n], by simp [habove], ?_, mark⟩
  refine ⟨moves.page, moves.below, ?_⟩
  rw [List.forall_mem_append]
  exact ⟨moves.past, List.forall_mem_singleton.2 past⟩

mutual

theorem movesFrom_markChild {comments : Bool} {parent : Node} {flatten : Bool}
    {rest : List Node} {trail : Trail} {b : Branch Node} {s : MarkedSprout}
    (hs : s ∈ markChild comments parent flatten (parent :: rest) trail b)
    (moves : s.moves = true) :
    trail.inTreeBook = true ∧ s.MovesFrom (parent :: rest) (places (parent :: rest) b) := by
  cases b with
  | mk n cs =>
    let self : Branch.Place Node := ⟨parent :: rest, .mk n cs⟩
    have pages {inner : Trail} {depth : Nat} (hs : s ∈ (self.grown comments inner depth).pages)
        (same : inner.inTreeBook = trail.inTreeBook) :
        trail.inTreeBook = true ∧
          s.MovesFrom (parent :: rest) (places (parent :: rest) (.mk n cs)) := by
      obtain ⟨past, held, -⟩ := Branch.Place.mem_pages_grown.1 hs
      obtain ⟨inside, found⟩ := movesFrom_markAll held moves
      rw [Trail.inTreeBook_enter past.2, same] at inside
      exact ⟨inside, found.below past⟩
    rw [markChild] at hs
    dsimp only at hs
    split at hs
    · next hfolder =>
      rw [Bool.and_eq_true, decide_eq_true_eq] at hfolder
      obtain ⟨inside, found⟩ := movesFrom_markAll hs moves
      exact ⟨inside, found.below (by rw [hfolder.2]; decide)⟩
    · split at hs
      · next hpage =>
        simp only [Bool.and_eq_true, decide_eq_true_eq] at hpage
        rcases List.mem_cons.1 hs with rfl | hs
        · refine ⟨hpage.2, self, Branch.self_mem_places _ _, [], rfl, ⟨hpage.1.2, ?_, nofun⟩, ?_⟩
          · exact ⟨parent, rfl, hpage.1.1⟩
          · have page : self.label.kind = .bookPage := hpage.1.2
            rw [Marked.mark?_prepend]
            exact congrArg (fun g => MarkedGrowth.object g |>.mark?)
              (Branch.Place.grown_of_wrapped (Branch.Place.shape_of_bookPage page comments) _ _)
        · exact pages hs rfl
      · unfold MarkedGrowth.asChild at hs
        split at hs
        · rcases List.mem_cons.1 hs with rfl | hs
          · cases moves
          · exact pages hs rfl
        · cases hs

/-- A page that siblings give away moves up past the nodes between, to a tree book around. -/
theorem movesFrom_markAll {comments : Bool} {parent : Node} {flatten : Bool}
    {rest : List Node} {trail : Trail} {bs : List (Branch Node)} {s : MarkedSprout}
    (hs : s ∈ markAll comments parent flatten (parent :: rest) trail bs)
    (moves : s.moves = true) :
    trail.inTreeBook = true ∧ s.MovesFrom (parent :: rest) (placesAll (parent :: rest) bs) := by
  cases bs with
  | nil =>
    rw [markAll] at hs
    cases hs
  | cons b bs =>
    rw [markAll] at hs
    rcases List.mem_append.1 hs with hs | hs
    · obtain ⟨inside, q, hq, found⟩ := movesFrom_markChild hs moves
      exact ⟨inside, q, List.mem_append_left _ hq, found⟩
    · obtain ⟨inside, q, hq, found⟩ := movesFrom_markAll hs moves
      exact ⟨inside, q, List.mem_append_right _ hq, found⟩

end

mutual

theorem exists_moves_markChild (comments : Bool) {parent : Node} (flatten : Bool)
    {rest zs : List Node} {trail : Trail} (inside : trail.inTreeBook = true) {b : Branch Node}
    {q : Branch.Place Node} (hq : q ∈ places (parent :: rest) b)
    (habove : q.above = zs ++ parent :: rest) (hmoves : q.MovesPast zs) :
    ∃ s ∈ markChild comments parent flatten (parent :: rest) trail b,
      s.moves = true ∧ s.xml.mark? = some ⟨.around, q.label⟩ := by
  cases b with
  | mk n cs =>
    let self : Branch.Place Node := ⟨parent :: rest, .mk n cs⟩
    rw [markChild]
    dsimp only
    rw [places] at hq
    rcases List.mem_cons.1 hq with rfl | hq
    · have page : n.kind = .bookPage := hmoves.page
      have around : parent.kind = .bookPage := by
        obtain ⟨p, hp, kind⟩ := hmoves.below
        rwa [← Option.some.inj hp] at kind
      rw [if_neg (by simp [page]), if_pos (by simp [page, around, inside])]
      refine ⟨_, List.mem_cons_self, rfl, ?_⟩
      rw [Marked.mark?_prepend]
      exact congrArg (fun g => MarkedGrowth.object g |>.mark?) (Branch.Place.grown_of_wrapped
        (Branch.Place.shape_of_bookPage (q := self) page comments) _ _)
    · obtain ⟨ws, rfl, hbetween⟩ := exists_between hq habove
      have past := hmoves.past n (by simp)
      have below (flatten : Bool) {trail : Trail} (inside : trail.inTreeBook = true) :=
        exists_moves_markAll comments flatten inside hq hbetween
          ⟨hmoves.page, hmoves.below, fun z hz => hmoves.past z (List.mem_append_left _ hz)⟩
      have pages (inner : Trail) (inside : inner.inTreeBook = true) (depth : Nat) :
          ∃ s ∈ (self.grown comments inner depth).pages,
            s.moves = true ∧ s.xml.mark? = some ⟨.around, q.label⟩ := by
        have entered : (inner.enter self.label.toElement self.book? depth).inTreeBook = true :=
          (Trail.inTreeBook_enter past.2).trans inside
        obtain ⟨s, held, found⟩ := below
          (Element.flattensFolders (self.shape comments) self.label.toElement) entered
        exact ⟨s, Branch.Place.mem_pages_grown.2 ⟨past, held, found.1⟩, found⟩
      split
      · exact below true inside
      · split
        · obtain ⟨s, hs, found⟩ := pages { trail with pageDepth := none } inside
            trail.nextDepth
          exact ⟨s, List.mem_cons_of_mem _ hs, found⟩
        · obtain ⟨s, hs, found⟩ := pages trail inside 0
          unfold MarkedGrowth.asChild
          split
          · exact ⟨s, List.mem_cons_of_mem _ hs, found⟩
          · next dropped => exact absurd (self.kept_grown past.1 trail 0) dropped

/-- In a tree book siblings give away every such page. -/
theorem exists_moves_markAll (comments : Bool) {parent : Node} (flatten : Bool)
    {rest zs : List Node} {trail : Trail} (inside : trail.inTreeBook = true)
    {bs : List (Branch Node)} {q : Branch.Place Node} (hq : q ∈ placesAll (parent :: rest) bs)
    (habove : q.above = zs ++ parent :: rest) (hmoves : q.MovesPast zs) :
    ∃ s ∈ markAll comments parent flatten (parent :: rest) trail bs,
      s.moves = true ∧ s.xml.mark? = some ⟨.around, q.label⟩ := by
  cases bs with
  | nil => cases hq
  | cons b bs =>
    rw [placesAll] at hq
    rw [markAll]
    rcases List.mem_append.1 hq with hq | hq
    · obtain ⟨s, hs, found⟩ := exists_moves_markChild comments flatten inside hq habove hmoves
      exact ⟨s, List.mem_append_left _ hs, found⟩
    · obtain ⟨s, hs, found⟩ := exists_moves_markAll comments flatten inside hq habove hmoves
      exact ⟨s, List.mem_append_right _ hs, found⟩

end

end FormDesign
