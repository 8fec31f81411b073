import FormDesign.Proofs.Resource.Held

/-!
# Pages that leave a node

A page below another page moves up to the tree book around, out of whatever node stands between.
The tree tells which nodes lose pages. All other nodes keep what is written below them.

* `Tree.LosesPages`: whether pages below a node move up to a tree book above the node
* `ResourceDocument.StandsAt`: where the object of a node stands, and what is known of it there
* `ResourceDocument.exists_standsAt`: the object of a node that the resource describes stands there
* `ResourceDocument.inside_staying_iff`: whatever is written below a node stays below, unless the
  node loses pages
-/

namespace FormDesign

open Branch (places placesAll)

/-! ## Pages that leave a node -/

namespace Tree

variable {t : Tree}

/-- The children of a node, in the order of the tree. -/
def childrenOf (t : Tree) (n : Node) : List Node :=
  n.children.filterMap t.get?

/-- A page below a node moves up past the node: it stands right below another page, and the resource
describes the nodes between, none of which is a tree book. -/
structure MovesPast (t : Tree) (n p : Node) : Prop where
  page : p.kind = .bookPage
  below : ∃ parent, (t.ancestors p.id).head? = some parent ∧ parent.kind = .bookPage
  inside : n ∈ t.ancestors p.id
  past : ∀ a ∈ t.ancestors p.id, n ∈ t.ancestors a.id →
    a.kind.isDescribed = true ∧ a.kind ≠ .treebook

/-- Pages below a node move up to a tree book above it, in the branch that is written. -/
def LosesPages (t : Tree) (id : Nat) (n : Node) : Prop :=
  (∃ book ∈ t.ancestors n.id, book ∈ t.descendants id ∧ book.kind = .treebook) ∧
    ∃ p ∈ t.nodes, t.MovesPast n p

/-- The node that an element was written for stands below another one. -/
def Below (t : Tree) (n : Node) (m : Mark) : Prop :=
  m.node ∈ t.nodes ∧ n ∈ t.ancestors m.node.id
deriving Decidable

variable {k : Nat} {hk : k < t.nodes.size} {above zs : List Node} {r : Branch.Place Node}

/-- The ancestors of a node below another one are those between and those of the other one. -/
theorem WellFormed.ancestors_of_mem_placesAll (h : t.WellFormed)
    (hr : r ∈ placesAll (t.nodes[k] :: above) (t.branchAt k hk).children)
    (habove : r.above = zs ++ t.nodes[k] :: above) :
    r.label ∈ t.nodes ∧ t.ancestors r.label.id = zs ++ t.nodes[k] :: t.ancestors k := by
  rw [← List.singleton_append, Branch.placesAll_append] at hr
  obtain ⟨r', hr', rfl⟩ := List.mem_map.1 hr
  have between : r'.above = zs ++ [t.nodes[k]] := by
    refine (List.append_left_inj above).1 ?_
    rw [show r'.above ++ above = _ from habove]
    simp
  have inside : r'.under (t.ancestors k) ∈ places (t.ancestors k) (t.branchAt k hk) := by
    have below := List.mem_map_of_mem (f := Branch.Place.under (t.ancestors k)) hr'
    rw [← Branch.placesAll_append, List.singleton_append] at below
    rw [Branch.places_eq, label_branchAt]
    exact List.mem_cons_of_mem _ below
  refine ⟨?_, ?_⟩
  · have hlabel := List.mem_map_of_mem (f := Branch.Place.label) inside
    rw [Branch.map_label_places] at hlabel
    exact (h.under_of_mem_branchAt hk hlabel).1
  · have heq : r'.above ++ t.ancestors k = t.ancestors r'.label.id := (h.of_mem_places inside).2
    rw [between, List.append_assoc] at heq
    exact heq.symm

/-- What is between are the ancestors that are below the other node as well. -/
theorem WellFormed.mem_between_iff (h : t.WellFormed)
    (hr : r ∈ placesAll (t.nodes[k] :: above) (t.branchAt k hk).children)
    (habove : r.above = zs ++ t.nodes[k] :: above) {a : Node} :
    a ∈ zs ↔ a ∈ t.ancestors r.label.id ∧ t.nodes[k] ∈ t.ancestors a.id := by
  have path := (h.ancestors_of_mem_placesAll hr habove).2
  have id := t.id_eq k hk
  rw [path, List.mem_append, List.mem_cons]
  constructor
  · intro ha
    refine ⟨Or.inl ha, ?_⟩
    obtain ⟨ws, heq, inside⟩ := Branch.exists_above_of_mem_placesAll hr
    obtain rfl : ws = zs := List.append_cancel_right (heq.symm.trans habove)
    rw [← Branch.map_label_placesAll (t.nodes[k] :: above)] at inside
    obtain ⟨r', hr', rfl⟩ := List.mem_map.1 (inside a ha)
    obtain ⟨ws', heq', -⟩ := Branch.exists_above_of_mem_placesAll hr'
    rw [(h.ancestors_of_mem_placesAll hr' heq').2]
    exact List.mem_append_right _ List.mem_cons_self
  · rintro ⟨ha | rfl | ha, below⟩
    · exact ha
    · exact absurd (lt_of_mem_ancestors below) (Nat.lt_irrefl _)
    · have under := lt_of_mem_ancestors ha
      have larger := lt_of_mem_ancestors below
      rw [id] at larger
      exact absurd under (Nat.not_lt.2 larger.le)

/-- A node with another one as ancestor is at a place below it. -/
theorem Kept.exists_place_of_mem_ancestors (h : t.Kept) {n : Node} (hn : n ∈ t.nodes)
    (inside : t.nodes[k] ∈ t.ancestors n.id) (above : List Node) :
    ∃ r ∈ placesAll (t.nodes[k] :: above) (t.branchAt k hk).children, r.label = n := by
  obtain ⟨i, hi, rfl⟩ := Array.mem_iff_getElem.1 hn
  have under := under_of_mem_ancestors inside
  have lt := lt_of_mem_ancestors inside
  rw [t.id_eq k hk, t.id_eq i hi] at under lt
  have hlabel := h.mem_branchAt_of_under hk hi under
  rw [Branch.toList_eq, label_branchAt] at hlabel
  rcases List.mem_cons.1 hlabel with self | below
  · have heq := congrArg Node.id self
    rw [t.id_eq k hk, t.id_eq i hi] at heq
    exact absurd heq (Nat.ne_of_gt lt)
  · rw [← Branch.map_label_placesAll (t.nodes[k] :: above)] at below
    exact List.mem_map.1 below

/-- The pages that move up past a node are at such places below it. -/
theorem Kept.movesPast_iff (h : t.Kept) (above : List Node) {page : Node} :
    page ∈ t.nodes ∧ t.MovesPast t.nodes[k] page
      ↔ ∃ r ∈ placesAll (t.nodes[k] :: above) (t.branchAt k hk).children, ∃ zs,
        r.above = zs ++ t.nodes[k] :: above ∧ r.MovesPast zs ∧ r.label = page := by
  constructor
  · rintro ⟨hn, moves⟩
    obtain ⟨r, hr, rfl⟩ := h.exists_place_of_mem_ancestors hn moves.inside above
    obtain ⟨zs, habove, -⟩ := Branch.exists_above_of_mem_placesAll hr
    have path := (h.wellFormed.ancestors_of_mem_placesAll hr habove).2
    refine ⟨r, hr, zs, habove, ⟨moves.page, ?_, fun a ha => ?_⟩, rfl⟩
    · have below := moves.below
      rw [path] at below
      rw [habove]
      simpa [List.head?_append] using below
    · obtain ⟨hanc, hbelow⟩ := (h.wellFormed.mem_between_iff hr habove).1 ha
      exact moves.past a hanc hbelow
  · rintro ⟨r, hr, zs, habove, moves, rfl⟩
    obtain ⟨hn, path⟩ := h.wellFormed.ancestors_of_mem_placesAll hr habove
    refine ⟨hn, moves.page, ?_, ?_, fun a ha below => ?_⟩
    · have below := moves.below
      rw [habove] at below
      rw [path]
      simpa [List.head?_append] using below
    · rw [path]
      exact List.mem_append_right _ List.mem_cons_self
    · exact moves.past a ((h.wellFormed.mem_between_iff hr habove).2 ⟨ha, below⟩)

theorem map_label_children (t : Tree) (hk : k < t.nodes.size) :
    (t.branchAt k hk).children.map Branch.label = t.childrenOf t.nodes[k] := by
  rw [branchAt_eq, Branch.children, List.map_filterMap, childrenOf]
  refine List.filterMap_congr fun c _ => ?_
  unfold branch? get?
  split
  · next hc => rw [Option.map_some, label_branchAt, Array.getElem?_eq_getElem hc]
  · next hc => rw [Option.map_none, Array.getElem?_eq_none (Nat.le_of_not_lt hc)]

theorem nodup_childrenOf (t : Tree) (h : t.Kept) {n : Node} (hn : n ∈ t.nodes) :
    (t.childrenOf n).Nodup := by
  refine (h.wellFormed.children_nodup n hn).filterMap fun c c' m hm hm' => ?_
  exact (id_of_get? hm).symm.trans (id_of_get? hm')

theorem children_branchAt_ne_nil (t : Tree) (hk : k < t.nodes.size)
    (nonempty : t.nodes[k].children ≠ []) : (t.branchAt k hk).children ≠ [] := by
  unfold branchAt
  simpa [Branch.children] using nonempty

end Tree

/-! ## Documents -/

/-- Outside of tree books everything stays below a node. -/
theorem Branch.Place.settle_held {comments : Bool} {q : Branch.Place Node} {trail : Trail}
    (out : trail.inTreeBook = false) (depth : Nat) :
    (Marked.settle q.label.toElement (q.held comments trail depth)).1
      = q.held comments trail depth := by
  unfold Marked.settle
  split
  · rfl
  · next other =>
    refine List.filter_eq_self.2 fun s hs => ?_
    cases hmoves : s.moves with
    | false => rfl
    | true =>
      have inside := (movesFrom_markAll hs hmoves).1
      rw [Trail.inTreeBook_enter other, out] at inside
      cases inside

namespace ResourceDocument

section Root

variable {comments : Bool} {above : List Node} {b : Branch Node} {added : List Marked}
  {root : Branch.Place Node}

/-- Whatever is added has its origin at the root or below. -/
theorem IsRoot.exists_origin (h : IsRoot comments above b added root) {y : Marked}
    (hmark : y.mark? ≠ none) (hy : y ∈ Marked.elementsAll added) :
    ∃ q ∈ places root.above root.branch, (q = root ∨ ¬q.Dissolved comments) ∧ ∃ zs,
      Marked.IsOrigin comments root.above .none y q zs := by
  have grown := h.inside.subset (List.mem_filter.2 ⟨hy, Option.isSome_iff_ne_none.2 hmark⟩)
  rw [← Marked.prepend_nil (MarkedGrowth.object _)] at grown
  rcases Marked.writes_or_held (Or.inl rfl) hmark (List.mem_append_left _ grown) with
    writes | ⟨described, held⟩
  · exact ⟨root, Branch.self_mem_places _ _, Or.inl rfl, [], rfl, List.forall_mem_nil _, .none, 0,
      rfl, writes⟩
  · obtain ⟨q, hq, stays, zs, origin⟩ := hasOrigin_markAll hmark held
    have below := origin.below described (Trail.inTreeBook_enter_eq .none _ _ _)
    refine ⟨q, ?_, Or.inr stays, _, below⟩
    rw [Branch.places_eq]
    exact List.mem_cons_of_mem _ hq

/-- What is written at a place below the root is added, if the resource describes whatever stands
between. -/
theorem IsRoot.exists_mark (h : IsRoot comments above b added root) {q : Branch.Place Node}
    (hq : q ∈ placesAll (root.label :: root.above) root.branch.children) {zs : List Node}
    (habove : q.above = zs ++ root.above) (described : ∀ a ∈ zs, a.kind.isDescribed = true)
    (stays : ¬q.Dissolved comments) {z : Marked} (written : Marked.WrittenAt comments q z) :
    ∃ y ∈ Marked.elementsAll added, y.mark? = z.mark? := by
  obtain ⟨ws, rfl, hbetween⟩ := exists_between hq habove
  obtain ⟨y, hy, mark⟩ := exists_mark_markAll
    (Trail.none.enter root.label.toElement root.book? 0) hq hbetween
    (fun a ha => described a (List.mem_append_left _ ha)) stays written
  have held : y ∈ Marked.elementsAll ((root.held comments .none 0).map MarkedSprout.xml) := hy
  rw [← Branch.Place.settle_held rfl] at held
  exact ⟨y, h.shown (described _ (by simp)) (Branch.Place.mem_contents held), mark⟩

end Root

variable {d : ResourceDocument} {t : Tree} {id : Nat} {n : Node} {x : Marked}

/-- The tree books above a node in what is written are those that the tree tells. -/
theorem treebooks_above (h : t.WellFormed) {hid : id < t.nodes.size} {q : Branch.Place Node}
    (hq : q ∈ sourcePlaces t id) (hn : q.label ∈ t.nodes) {ws : List Node}
    (habove : q.above = ws ++ (source t id (t.branchAt id hid)).1) {a : Node}
    (treebook : a.kind = .treebook) :
    a ∈ ws ↔ a ∈ t.ancestors q.label.id ∧ a ∈ t.descendants id := by
  have small : q.label.id < t.size := by
    obtain ⟨i, hi, heq⟩ := Array.mem_iff_getElem.1 hn
    rw [← heq, t.id_eq]
    exact hi
  rw [sourcePlaces, Tree.branch?, dif_pos hid] at hq
  unfold source at hq habove
  dsimp only at hq
  split at hq
  · next bar =>
    rw [if_pos bar, List.append_nil] at habove
    simp only [markedBarPanel, places, placesAll, List.append_nil, List.mem_cons] at hq
    rcases hq with rfl | rfl | hq
    · exact absurd small (Nat.lt_irrefl t.size)
    · exact absurd small (Nat.not_lt.2 (Nat.le_succ t.size))
    · rw [← List.nil_append (_ :: _), Branch.places_append] at hq
      obtain ⟨r, hr, rfl⟩ := List.mem_map.1 hq
      rw [← habove]
      refine Iff.trans ?_ (h.mem_above_iff hr)
      simp only [Branch.Place.under, List.mem_append, List.mem_cons, List.not_mem_nil, or_false]
      refine or_iff_left fun wrapper => ?_
      rcases wrapper with rfl | rfl <;> cases treebook
  · next other =>
    rw [if_neg other] at habove
    rw [← List.nil_append (t.ancestors id), Branch.places_append] at hq
    obtain ⟨r, hr, rfl⟩ := List.mem_map.1 hq
    rw [← List.append_cancel_right habove]
    exact h.mem_above_iff hr

/-- The root of what is written for a node. Above it there is at most a dialog that is previewed. -/
structure IsSourceRoot (d : ResourceDocument) (t : Tree) (id : Nat) (root : Branch.Place Node) :
    Prop where
  places_subset : places root.above root.branch ⊆ sourcePlaces t id
  origin : ∀ y ∈ Marked.elementsAll (d.marked t id), y.mark? ≠ none →
    ∃ q ∈ places root.above root.branch, (q = root ∨ ¬q.Dissolved d.options.addComments) ∧
      ∃ zs, Marked.IsOrigin d.options.addComments root.above .none y q zs
  added : ∀ q ∈ placesAll (root.label :: root.above) root.branch.children,
    ¬q.Dissolved d.options.addComments → ∀ zs, q.above = zs ++ root.above →
      (∀ a ∈ zs, a.kind.isDescribed = true) → ∀ z, Marked.WrittenAt d.options.addComments q z →
        ∃ y ∈ Marked.elementsAll (d.marked t id), y.mark? = z.mark?
  treebooks : t.WellFormed → ∀ q ∈ places root.above root.branch, q.label ∈ t.nodes →
    ∀ zs, q.above = zs ++ root.above → ∀ a, a.kind = .treebook →
      (a ∈ zs ↔ a ∈ t.ancestors q.label.id ∧ a ∈ t.descendants id)

theorem exists_isSourceRoot (d : ResourceDocument) {b : Branch Node} (hb : t.branch? id = some b) :
    ∃ root, d.IsSourceRoot t id root := by
  obtain ⟨hid, rfl⟩ : ∃ hid : id < t.nodes.size, t.branchAt id hid = b := by
    unfold Tree.branch? at hb
    split at hb
    · next hid => exact ⟨hid, Option.some.inj hb⟩
    · cases hb
  let src := source t id (t.branchAt id hid)
  have hplaces : sourcePlaces t id = places src.1 src.2 := by rw [sourcePlaces, hb]
  have hmarked : d.marked t id
      = markedAddition d.options.addComments d.previewing src.1 src.2 := by rw [marked, hb]
  obtain ⟨root, isRoot⟩ := exists_isRoot d.options.addComments d.previewing src.1 src.2
  rw [← hmarked] at isRoot
  have sub : places root.above root.branch ⊆ sourcePlaces t id := by
    refine places_subset_sourcePlaces ?_
    rw [hplaces]
    rcases isRoot.place with rfl | ⟨-, child, hchild, rfl⟩
    · exact Branch.self_mem_places _ _
    · exact Branch.child_mem_places _ hchild
  obtain ⟨us, habove, hus⟩ : ∃ us, root.above = us ++ src.1 ∧ ∀ a ∈ us, a.kind ≠ .treebook := by
    rcases isRoot.place with rfl | ⟨dialog, child, -, rfl⟩
    · exact ⟨[], rfl, List.forall_mem_nil _⟩
    · exact ⟨[_], rfl, List.forall_mem_singleton.2 (by rw [dialog]; decide)⟩
  refine ⟨root, sub, fun y hy hmark => isRoot.exists_origin hmark hy, ?_, ?_⟩
  · exact fun q hq stays zs hzs described z => isRoot.exists_mark hq hzs described stays
  · intro h q hq hn zs hzs a treebook
    rw [habove, ← List.append_assoc] at hzs
    rw [← treebooks_above h (sub hq) hn hzs treebook, List.mem_append]
    exact (or_iff_left fun ha => hus a ha treebook).symm

/-- The object of a node stands at a place, on a trail:
* the trail knows the tree books around,
* whatever is written below the node is in what its children grow into,
* what is written at a place below is added, if the resource describes whatever stands between. -/
structure StandsAt (d : ResourceDocument) (t : Tree) (id : Nat) (q : Branch.Place Node)
    (trail : Trail) : Prop where
  mem : q ∈ sourcePlaces t id
  inTreeBook : trail.inTreeBook = true ↔
    ∃ book ∈ t.ancestors q.label.id, book ∈ t.descendants id ∧ book.kind = .treebook
  held : ∀ r ∈ placesAll (q.label :: q.above) q.branch.children,
    ∀ z ∈ Marked.elementsAll (d.marked t id), z.mark?.map Mark.node = some r.label → ∀ depth,
      ∃ y ∈ Marked.elementsAll ((q.held d.options.addComments trail depth).map MarkedSprout.xml),
        y.mark? = z.mark?
  added : ∀ r ∈ placesAll (q.label :: q.above) q.branch.children,
    ¬r.Dissolved d.options.addComments → ∀ zs, r.above = zs ++ q.label :: q.above →
      (∀ a ∈ zs, a.kind.isDescribed = true) → ∀ z, Marked.WrittenAt d.options.addComments r z →
        ∃ y ∈ Marked.elementsAll (d.marked t id), y.mark? = z.mark?

variable {root q : Branch.Place Node} {zs : List Node} {trail : Trail}

/-- Whatever is written below a node is in what its children grow into. -/
theorem IsSourceRoot.exists_held (isRoot : d.IsSourceRoot t id root) (h : t.WellFormed)
    (hq : q ∈ places root.above root.branch) (habove : q.above = zs ++ root.above)
    {r : Branch.Place Node} (hr : r ∈ placesAll (q.label :: q.above) q.branch.children)
    {z : Marked} (hz : z ∈ Marked.elementsAll (d.marked t id))
    (hzm : z.mark?.map Mark.node = some r.label) (trail : Trail) (depth : Nat) :
    ∃ y ∈ Marked.elementsAll ((q.held d.options.addComments trail depth).map MarkedSprout.xml),
      y.mark? = z.mark? := by
  have hbelow := Branch.placesAll_children_subset hq hr
  obtain ⟨m, hm, hnode⟩ := Option.map_eq_some_iff.1 hzm
  obtain ⟨r', hr', stays, zs', origin⟩ := isRoot.origin z hz
    (by rw [hm]; exact Option.some_ne_none m)
  obtain ⟨_, _, -, writes⟩ := origin.writes
  obtain rfl : r' = r := by
    obtain ⟨role, hrole⟩ := writes.written.exists_mark
    refine place_eq h (isRoot.places_subset hr') (isRoot.places_subset ?_) ?_
    · rw [Branch.places_eq]
      exact List.mem_cons_of_mem _ hbelow
    · exact (congrArg Mark.node (Option.some.inj (hrole.symm.trans hm))).trans hnode
  obtain ⟨ws, hbetween, -⟩ := Branch.exists_above_of_mem_placesAll hr
  have path : zs' = ws ++ q.label :: zs := by
    refine (List.append_left_inj root.above).1 ?_
    rw [← origin.above_eq, hbetween, habove]
    simp
  have below : r' ≠ root := by
    rintro rfl
    exact Branch.above_ne_of_mem_placesAll hbelow rfl
  exact exists_mark_markAll _ hr hbetween
    (fun a ha => origin.described a (path ▸ List.mem_append_left _ ha))
    (stays.resolve_left below) writes.written

theorem IsSourceRoot.standsAt (isRoot : d.IsSourceRoot t id root) (h : t.WellFormed)
    (hq : q ∈ places root.above root.branch) (hn : q.label ∈ t.nodes)
    (described : q.label.kind.isDescribed = true) (habove : q.above = zs ++ root.above)
    (path : ∀ z ∈ zs, z.kind.isDescribed = true)
    (hbook : trail.inTreeBook = zs.any fun z => z.kind == .treebook) :
    d.StandsAt t id q trail where
  mem := isRoot.places_subset hq
  inTreeBook := by
    rw [hbook, List.any_eq_true]
    constructor
    · rintro ⟨book, hbook, treebook⟩
      have kind : book.kind = .treebook := beq_iff_eq.1 treebook
      obtain ⟨above, inside⟩ := (isRoot.treebooks h q hq hn zs habove book kind).1 hbook
      exact ⟨book, above, inside, kind⟩
    · rintro ⟨book, above, inside, kind⟩
      have hbook := (isRoot.treebooks h q hq hn zs habove book kind).2 ⟨above, inside⟩
      exact ⟨book, hbook, beq_iff_eq.2 kind⟩
  held _ hr _ hz hzm depth := isRoot.exists_held h hq habove hr hz hzm trail depth
  added := by
    intro r hr stays ws hbetween between z written
    refine isRoot.added r (Branch.placesAll_children_subset hq hr) stays (ws ++ q.label :: zs) ?_
      ?_ z written
    · rw [hbetween, habove]
      simp
    · rw [List.forall_mem_append, List.forall_mem_cons]
      exact ⟨between, described, path⟩

/-- The object of a node that the resource describes stands at its place. -/
theorem exists_standsAt (h : t.WellFormed) (hn : n ∈ t.nodes)
    (described : n.kind.isDescribed = true) (hx : x ∈ Marked.elementsAll (d.marked t id))
    (hmark : x.mark? = some ⟨.object, n⟩) :
    ∃ q trail depth part, q.label = n ∧ d.StandsAt t id q trail ∧
      (q.shape d.options.addComments = .plain part ∨
        ∃ outer, q.shape d.options.addComments = .wrapped outer part) ∧
      x = .object (some ⟨.object, n⟩) part (q.contents d.options.addComments trail depth) := by
  obtain ⟨b, hb⟩ : ∃ b, t.branch? id = some b := by
    cases hb : t.branch? id with
    | none =>
      rw [marked, hb] at hx
      cases hx
    | some b => exact ⟨b, rfl⟩
  obtain ⟨root, isRoot⟩ := d.exists_isSourceRoot hb
  obtain ⟨q, hq, -, zs, origin⟩ := isRoot.origin x hx
    (by rw [hmark]; exact Option.some_ne_none _)
  obtain ⟨trail, depth, hbook, writes⟩ := origin.writes
  obtain ⟨role, hrole⟩ := writes.written.exists_mark
  obtain rfl : q.label = n := congrArg Mark.node (Option.some.inj (hrole.symm.trans hmark))
  obtain ⟨part, shape, hobject⟩ := writes.object described hmark
  exact ⟨q, trail, depth, part, rfl,
    isRoot.standsAt h hq hn described origin.above_eq origin.described hbook, shape, hobject⟩

/-! ## What stays below a node -/

/-- What moves on is not among what stays. -/
theorem mark_ne_of_moves {sprouts : List MarkedSprout}
    (distinct : (Marked.marks (sprouts.map MarkedSprout.xml)).Nodup) {s : MarkedSprout}
    (hs : s ∈ sprouts) (moves : s.moves = true) {m : Mark} (hm : s.xml.mark? = some m) {y : Marked}
    (hy : y ∈ Marked.elementsAll ((sprouts.filter fun s => !s.moves).map MarkedSprout.xml)) :
    y.mark? ≠ some m := by
  intro hym
  have perm := Marked.marks_perm
    ((List.filter_append_perm (fun s : MarkedSprout => s.moves) sprouts).map MarkedSprout.xml)
  rw [List.map_append, Marked.marks_append] at perm
  have moved : m ∈ Marked.marks ((sprouts.filter fun s => s.moves).map MarkedSprout.xml) := by
    refine List.mem_filterMap.2 ⟨s.xml, Marked.mem_elementsAll.2 ⟨s.xml, ?_, ?_⟩, hm⟩
    · exact List.mem_map_of_mem (List.mem_filter.2 ⟨hs, moves⟩)
    · rw [Marked.elements_eq hm]
      exact List.mem_cons_self
  have stayed := List.mem_filterMap.2 ⟨y, hy, hym⟩
  exact (List.nodup_append.1 (perm.nodup_iff.2 distinct)).2.2 m moved m stayed rfl

variable {d : ResourceDocument} {t : Tree} {id k : Nat} {hk : k < t.nodes.size} {x : Marked}
  {q : Branch.Place Node} {trail : Trail}

/-- Pages move up from the children of a node if the tree tells that it loses pages. -/
theorem exists_moves_iff (kept : t.Kept) (hlabel : q.label = t.nodes[k])
    (other : t.nodes[k].kind ≠ .treebook) (branch : q.branch = t.branchAt k hk)
    (stands : d.StandsAt t id q trail) (depth : Nat) (p : Node) :
    (∃ s ∈ q.held d.options.addComments trail depth,
      s.moves = true ∧ s.xml.mark? = some ⟨.around, p⟩)
      ↔ (∃ book ∈ t.ancestors t.nodes[k].id, book ∈ t.descendants id ∧ book.kind = .treebook) ∧
        p ∈ t.nodes ∧ t.MovesPast t.nodes[k] p := by
  have enter : (trail.enter q.label.toElement q.book? depth).inTreeBook = trail.inTreeBook :=
    Trail.inTreeBook_enter (by rwa [hlabel])
  rw [← hlabel, ← stands.inTreeBook, hlabel, kept.movesPast_iff q.above, ← branch,
    ← hlabel]
  constructor
  · rintro ⟨s, hs, moves, mark⟩
    obtain ⟨inside, r, hr, zs, habove, past, mark'⟩ := movesFrom_markAll hs moves
    obtain rfl : r.label = p := congrArg Mark.node (Option.some.inj (mark'.symm.trans mark))
    exact ⟨enter ▸ inside, r, hr, zs, habove, past, rfl⟩
  · rintro ⟨inside, r, hr, zs, habove, past, rfl⟩
    exact exists_moves_markAll _ _ (enter.trans inside) hr habove past

theorem nodup_marks_held (h : t.WellFormed) (branch : q.branch = t.branchAt k hk) (comments : Bool)
    (trail : Trail) (depth : Nat) :
    (Marked.marks ((q.held comments trail depth).map MarkedSprout.xml)).Nodup := by
  have distinct : q.branch.toList.Nodup := by
    rw [branch]
    exact List.Nodup.of_map Node.id (h.nodup_branchAt hk)
  rw [Branch.toList_eq, List.nodup_cons] at distinct
  obtain ⟨marks, perm, sub⟩ := subperm_marks_markAll comments q.label
    (Element.flattensFolders (q.shape comments) q.label.toElement) (q.label :: q.above)
    (trail.enter q.label.toElement q.book? depth) q.branch.children
  exact perm.nodup_iff.1 (sub.nodup (Node.nodup_marks distinct.2))

/-- Whatever is written below a node stays below, unless the node loses pages. -/
theorem inside_staying_iff (kept : t.Kept) (hlabel : q.label = t.nodes[k])
    (other : t.nodes[k].kind ≠ .treebook) (branch : q.branch = t.branchAt k hk)
    (stands : d.StandsAt t id q trail) (depth : Nat) :
    (∀ m ∈ Marked.marks (d.marked t id), t.Below t.nodes[k] m →
      m ∈ Marked.marks (q.staying d.options.addComments trail depth))
      ↔ ¬t.LosesPages id t.nodes[k] := by
  have moves (p : Node) := exists_moves_iff kept hlabel other branch stands depth p
  have below {r : Branch.Place Node}
      (hr : r ∈ placesAll (t.nodes[k] :: q.above) (t.branchAt k hk).children) :
      r ∈ placesAll (q.label :: q.above) q.branch.children := by rwa [hlabel, branch]
  constructor
  · rintro inside ⟨book, p, hp, past⟩
    obtain ⟨s, hs, hmoves, hm⟩ := (moves p).2 ⟨book, hp, past⟩
    obtain ⟨r, hr, zs, habove, hpast, rfl⟩ := (kept.movesPast_iff q.above).1 ⟨hp, past⟩
    have stays : ¬r.Dissolved d.options.addComments := by
      rintro ⟨folder, -⟩
      cases hpast.page.symm.trans folder
    -- the page is written, so its mark would have to be in what stays
    obtain ⟨y, hy, hym⟩ := stands.added r (below hr) stays zs (by rw [habove, hlabel])
      (fun a ha => (hpast.past a ha).1) _
      (.outer (Branch.Place.shape_of_bookPage hpast.page _) .none 0 (Or.inl rfl))
    have written : ⟨.around, r.label⟩ ∈ Marked.marks (d.marked t id) :=
      List.mem_filterMap.2 ⟨y, hy, hym⟩
    obtain ⟨z, hz, hzm⟩ := List.mem_filterMap.1 (inside _ written ⟨hp, past.inside⟩)
    exact mark_ne_of_moves (nodup_marks_held kept.wellFormed branch ..) hs hmoves hm hz hzm
  · rintro stays m hm ⟨hn, inside⟩
    obtain ⟨z, hz, hzm⟩ := List.mem_filterMap.1 hm
    obtain ⟨r, hr, hlabel⟩ := kept.exists_place_of_mem_ancestors hn inside q.above
    have hzr : z.mark?.map Mark.node = some r.label := by rw [hzm, hlabel]; rfl
    obtain ⟨y, hy, hym⟩ := stands.held r (below hr) z hz hzr depth
    have all : (q.held d.options.addComments trail depth).filter (fun s => !s.moves)
        = q.held d.options.addComments trail depth := by
      refine List.filter_eq_self.2 fun s hs => ?_
      cases hmoves : s.moves with
      | false => rfl
      | true =>
        obtain ⟨-, r', -, -, -, -, hm⟩ := movesFrom_markAll hs hmoves
        obtain ⟨book, hp, past⟩ := (moves r'.label).1 ⟨s, hs, hmoves, hm⟩
        exact absurd ⟨book, r'.label, hp, past⟩ stays
    rw [← all] at hy
    exact List.mem_filterMap.2 ⟨y, hy, hym.trans hzm⟩

end ResourceDocument

end FormDesign
