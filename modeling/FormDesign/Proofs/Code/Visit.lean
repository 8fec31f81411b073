import FormDesign.Proofs.Code.Creation

/-!
# The nodes that construction visits

Construction goes from a node to what is below it only if it creates the node. So every step of the
trace stands under the selectors of the whole path to its node, and every node on that path was
created before it.

* `Site.fromNode_of_mem_traceAll`: where a step of the trace comes from
* `Site.exists_creation_traceAll`: a node that is visited has its object created
-/

namespace FormDesign

/-- The selectors of the items, given nearest first, as the blocks stand: outermost first. -/
def selectors (items : List Item) : List String :=
  items.reverse.filterMap fun i => i.element.selector?

@[simp] theorem selectors_nil : selectors [] = [] := rfl

theorem selectors_cons (i : Item) (items : List Item) :
    selectors (i :: items) = selectors items ++ i.element.selector?.toList := by
  cases h : i.element.selector? <;> simp [selectors, h]

theorem selectors_append (xs ys : List Item) :
    selectors (xs ++ ys) = selectors ys ++ selectors xs := by
  simp [selectors]

/-! ## Spots of a branch -/

mutual

theorem suffix_of_mem_spotsOf {above : List Item} {b : Branch Item} {sp : Spot}
    (h : sp ∈ spotsOf above b) : above <:+ sp.above := by
  cases b with
  | mk i cs =>
    unfold spotsOf at h
    rcases List.mem_cons.1 h with rfl | h
    · exact List.suffix_refl above
    · exact (List.suffix_cons i above).trans (suffix_of_mem_spotsOfAll h)

theorem suffix_of_mem_spotsOfAll {above : List Item} {bs : List (Branch Item)} {sp : Spot}
    (h : sp ∈ spotsOfAll above bs) : above <:+ sp.above := by
  cases bs with
  | nil => cases h
  | cons b bs =>
    unfold spotsOfAll at h
    rcases List.mem_append.1 h with h | h
    · exact suffix_of_mem_spotsOf h
    · exact suffix_of_mem_spotsOfAll h

end

mutual

theorem spotsOutsideMenus_subset (above : List Item) (b : Branch Item) :
    spotsOutsideMenus above b ⊆ spotsOf above b := by
  cases b with
  | mk i cs =>
    unfold spotsOutsideMenus spotsOf
    split
    · exact List.nil_subset _
    · exact List.cons_subset_cons _ (spotsOutsideMenusAll_subset (i :: above) cs)

theorem spotsOutsideMenusAll_subset (above : List Item) (bs : List (Branch Item)) :
    spotsOutsideMenusAll above bs ⊆ spotsOfAll above bs := by
  cases bs with
  | nil => exact List.nil_subset _
  | cons b bs =>
    unfold spotsOutsideMenusAll spotsOfAll
    exact List.append_subset.2
      ⟨List.subset_append_of_subset_left _ (spotsOutsideMenus_subset above b),
        List.subset_append_of_subset_right _ (spotsOutsideMenusAll_subset above bs)⟩

end

mutual

/-- What stands above a spot is a spot as well, unless it stands above the branch. -/
theorem parent_mem_spotsOf {above : List Item} {b : Branch Item} {sp : Spot}
    (h : sp ∈ spotsOf above b) {i : Item} {rest : List Item} (ha : sp.above = i :: rest) :
    i :: rest = above ∨ { item := i, above := rest } ∈ spotsOf above b := by
  cases b with
  | mk j cs =>
    unfold spotsOf at h ⊢
    rcases List.mem_cons.1 h with rfl | h
    · exact Or.inl ha.symm
    · rcases parent_mem_spotsOfAll h ha with heq | hm
      · obtain ⟨rfl, rfl⟩ := List.cons.inj heq
        exact Or.inr List.mem_cons_self
      · exact Or.inr (List.mem_cons_of_mem _ hm)

theorem parent_mem_spotsOfAll {above : List Item} {bs : List (Branch Item)} {sp : Spot}
    (h : sp ∈ spotsOfAll above bs) {i : Item} {rest : List Item} (ha : sp.above = i :: rest) :
    i :: rest = above ∨ { item := i, above := rest } ∈ spotsOfAll above bs := by
  cases bs with
  | nil => cases h
  | cons b bs =>
    unfold spotsOfAll at h ⊢
    rcases List.mem_append.1 h with h | h
    · exact (parent_mem_spotsOf h ha).imp_right (List.mem_append_left _)
    · exact (parent_mem_spotsOfAll h ha).imp_right (List.mem_append_right _)

end

mutual

theorem spot_mem_of_mem_menuBranchesIn {above : List Item} {b : Branch Item}
    {menu : List Item × Branch Item} (h : menu ∈ menuBranchesIn above b) :
    { item := menu.2.label, above := menu.1 } ∈ spotsOf above b ∧
      menu.2.label.isMenuBuilder = true := by
  cases b with
  | mk i cs =>
    unfold menuBranchesIn at h
    unfold spotsOf
    dsimp only at h
    split at h
    · next hm =>
      rcases List.mem_cons.1 h with rfl | h
      · exact ⟨List.mem_cons_self, hm⟩
      · exact (spot_mem_of_mem_menuBranchesInAll h).imp_left (List.mem_cons_of_mem _)
    · exact (spot_mem_of_mem_menuBranchesInAll h).imp_left (List.mem_cons_of_mem _)

theorem spot_mem_of_mem_menuBranchesInAll {above : List Item} {bs : List (Branch Item)}
    {menu : List Item × Branch Item} (h : menu ∈ menuBranchesInAll above bs) :
    { item := menu.2.label, above := menu.1 } ∈ spotsOfAll above bs ∧
      menu.2.label.isMenuBuilder = true := by
  cases bs with
  | nil => cases h
  | cons b bs =>
    unfold menuBranchesInAll at h
    unfold spotsOfAll
    rcases List.mem_append.1 h with h | h
    · exact (spot_mem_of_mem_menuBranchesIn h).imp_left (List.mem_append_left _)
    · exact (spot_mem_of_mem_menuBranchesInAll h).imp_left (List.mem_append_right _)

end

namespace Form

variable {f : Form}

/-- What a form has from the tree it was taken out of. -/
theorem of_ofTree {t : Tree} {id : Nat} (h : ofTree t id = .ok f) :
    ∃ (hid : id < t.nodes.size) (cs : List (Branch Node)),
      t.branchAt id hid = .mk f.node cs ∧ f.node.kind.isForm = true ∧
        f.children = (nameBranches [] cs).1 ∧ f.above = (t.ancestors id).map .nameless := by
  unfold ofTree Tree.branch? at h
  split at h
  · cases h
  · next n cs heq =>
    split at heq
    · next hid =>
      split at h
      · next hk =>
        obtain rfl := Except.ok.inj h
        exact ⟨hid, cs, Option.some.inj heq, hk, rfl, rfl⟩
      · cases h
    · cases heq

theorem isForm_of_ofTree {t : Tree} {id : Nat} (h : ofTree t id = .ok f) :
    f.node.kind.isForm = true := by
  obtain ⟨-, -, -, hk, -⟩ := of_ofTree h
  exact hk

/-- Above the form no node has a variable. -/
theorem name_of_mem_above {t : Tree} {id : Nat} (h : ofTree t id = .ok f) {i : Item}
    (hi : i ∈ f.above) : i.name = "" := by
  obtain ⟨-, -, -, -, -, habove⟩ := of_ofTree h
  rw [habove] at hi
  obtain ⟨n, -, rfl⟩ := List.mem_map.1 hi
  rfl

/-- The items between a node and its form, given all above the node. -/
def inside (f : Form) (above : List Item) : List Item :=
  above.take (above.length - f.path.length)

@[simp] theorem inside_append (inner : List Item) : f.inside (inner ++ f.path) = inner := by
  simp [inside]

theorem mem_spots {sp : Spot} :
    sp ∈ f.spots ↔ sp = { item := f.item, above := f.above } ∨ sp ∈ f.innerSpots :=
  List.mem_cons

theorem above_of_mem_innerSpots {sp : Spot} (h : sp ∈ f.innerSpots) :
    sp.above = f.inside sp.above ++ f.path := by
  obtain ⟨inner, hi⟩ := suffix_of_mem_spotsOfAll h
  rw [← hi, inside_append]

/-- A spot of another kind than a form stands below the form. -/
theorem mem_innerSpots_of_not_isForm {sp : Spot} (h : sp ∈ f.spots)
    (hf : f.node.kind.isForm = true) (hk : sp.item.kind.isForm = false) : sp ∈ f.innerSpots := by
  rcases mem_spots.1 h with rfl | h
  · exact Bool.noConfusion (hf.symm.trans hk)
  · exact h

/-- The node above a node of the form is a node of the form. -/
theorem parent_mem_spots {sp : Spot} (h : sp ∈ f.innerSpots) {i : Item} {rest : List Item}
    (ha : sp.above = i :: rest) : { item := i, above := rest } ∈ f.spots := by
  rcases parent_mem_spotsOfAll h ha with heq | hm
  · obtain ⟨rfl, rfl⟩ := List.cons.inj heq
    exact mem_spots.2 (Or.inl rfl)
  · exact mem_spots.2 (Or.inr hm)

theorem mem_spots_of_mem_menuBuilders {builder : Spot} (h : builder ∈ f.menuBuilders) :
    builder ∈ f.spots ∧ builder.item.isMenuBuilder = true := by
  obtain ⟨menu, hm, rfl⟩ := List.mem_map.1 h
  exact spot_mem_of_mem_menuBranchesIn hm

theorem mem_innerSpots_of_mem_menuBuilders (hf : f.node.kind.isForm = true) {builder : Spot}
    (h : builder ∈ f.menuBuilders) : builder ∈ f.innerSpots := by
  obtain ⟨hspot, hbuilder⟩ := mem_spots_of_mem_menuBuilders h
  refine mem_innerSpots_of_not_isForm hspot hf ?_
  simp only [Item.isMenuBuilder, beq_iff_eq] at hbuilder
  simp [hbuilder, Kind.isForm, Kind.category]

end Form

/-! ## Where a step comes from -/

namespace Site

variable {s : Site}

/-- The step is one of those for a node: of its construction, or the remark in place of it. The
blocks around the step are `blocks` and those of the path to the node. -/
inductive StepOf (s : Site) (blocks : List String) (inner : List Item) (p : Place) : Traced → Prop
  | visited {x : Traced} (creates : s.creates p.kind = true)
      (blocks_eq : x.blocks = blocks ++ selectors (p.item :: inner))
      (mem : x.step ∈ s.createNode p ++ s.finish p) : StepOf s blocks inner p x
  | remark {x : Traced} (creates : s.creates p.kind = false)
      (blocks_eq : x.blocks = blocks ++ selectors inner)
      (mem : x.step ∈ s.unsupported p.item) : StepOf s blocks inner p x

/-- The step is there for a node below `above`, and `inner` is the path between, nearest first. -/
structure FromNode (s : Site) (blocks : List String) (above : List Item) (x : Traced) (p : Place)
    (inner : List Item) : Prop where
  origin : x.origin = .node p
  above_eq : p.above = inner ++ above
  entered : ∀ i ∈ inner, s.creates i.kind = true
  outside : p.item.isMenuBuilder = false
  stepOf : s.StepOf blocks inner p x

theorem FromNode.lift {blocks : List String} {above inner : List Item} {x : Traced} {p : Place}
    {i : Item} (h : s.FromNode (blocks ++ i.element.selector?.toList) (i :: above) x p inner)
    (hc : s.creates i.kind = true) : s.FromNode blocks above x p (inner ++ [i]) where
  origin := h.origin
  above_eq := by simp [h.above_eq]
  entered j hj := by
    rcases List.mem_append.1 hj with hj | hj
    · exact h.entered j hj
    · rwa [List.mem_singleton.1 hj]
  outside := h.outside
  stepOf := by
    have blocks_eq (items : List Item) :
        blocks ++ i.element.selector?.toList ++ selectors items
          = blocks ++ selectors (items ++ [i]) := by
      rw [selectors_append, selectors_cons]
      simp
    cases h.stepOf with
    | visited hp hb hm => exact .visited hp (hb.trans (blocks_eq _)) hm
    | remark hp hb hm => exact .remark hp (hb.trans (blocks_eq _)) hm

theorem plain_createNode {p : Place} (hm : p.item.isMenuBuilder = false) :
    Step.Each (fun st => st.isPlain = true) (s.createNode p) :=
  (makes_createNode (ready_true p.above) hm (fun _ _ _ _ => trivial) fun _ _ => trivial).plain

theorem plain_finish {p : Place} (hm : p.item.isMenuBuilder = false) :
    Step.Each (fun st => st.isPlain = true) (s.finish p) :=
  (uses_finish (ready_true p.above) hm (fun _ _ => trivial) (fun _ _ _ => trivial)
    fun _ _ => trivial).imp fun _ h => h.plain

theorem plain_unsupported (i : Item) :
    Step.Each (fun st => st.isPlain = true) (s.unsupported i) := by
  have uses : Step.Each (Step.Uses fun _ => True) (s.unsupported i) := uses_unsupported i
  exact uses.imp fun _ h => h.plain

mutual

theorem fromNode_of_mem_traceNode {blocks : List String} {above before : List Item}
    {b : Branch Item} {x : Traced} (h : x ∈ s.traceNode blocks above before b) :
    ∃ p inner, p.spot ∈ spotsOutsideMenus above b ∧ s.FromNode blocks above x p inner := by
  cases b with
  | mk i cs =>
    unfold traceNode at h
    unfold spotsOutsideMenus
    by_cases hm : i.isMenuBuilder = true
    · simp [hm] at h
    · have hm : i.isMenuBuilder = false := by simpa using hm
      simp only [hm, Bool.false_eq_true, if_false] at h ⊢
      let p : Place := { item := i, children := cs.map Branch.label, above, before }
      by_cases hc : s.creates i.kind = true
      · simp only [hc, if_true, List.mem_append] at h
        rcases h with (h | h) | h
        · rw [Traced.mem_mark_of_plain (plain_createNode (p := p) hm)] at h
          exact ⟨p, [], List.mem_cons_self, h.2.1, rfl, List.forall_mem_nil _, hm,
            .visited hc (by simp [h.1, selectors_cons, p]) (List.mem_append_left _ h.2.2)⟩
        · obtain ⟨q, inner, hq, hx⟩ := fromNode_of_mem_traceAll h
          exact ⟨q, inner ++ [i], List.mem_cons_of_mem _ hq, hx.lift hc⟩
        · rw [Traced.mem_mark_of_plain (plain_finish (p := p) hm)] at h
          exact ⟨p, [], List.mem_cons_self, h.2.1, rfl, List.forall_mem_nil _, hm,
            .visited hc (by simp [h.1, selectors_cons, p]) (List.mem_append_right _ h.2.2)⟩
      · have hc : s.creates i.kind = false := by simpa using hc
        simp only [hc, Bool.false_eq_true, if_false] at h
        rw [Traced.mem_mark_of_plain (plain_unsupported i)] at h
        exact ⟨p, [], List.mem_cons_self, h.2.1, rfl, List.forall_mem_nil _, hm,
          .remark hc (by simp [h.1]) h.2.2⟩

/-- A step of the trace is there for a node whose path was entered, and stands under the selectors
of that path. -/
theorem fromNode_of_mem_traceAll {blocks : List String} {above before : List Item}
    {bs : List (Branch Item)} {x : Traced} (h : x ∈ s.traceAll blocks above before bs) :
    ∃ p inner, p.spot ∈ spotsOutsideMenusAll above bs ∧ s.FromNode blocks above x p inner := by
  cases bs with
  | nil => cases h
  | cons b bs =>
    unfold traceAll at h
    unfold spotsOutsideMenusAll
    rcases List.mem_append.1 h with h | h
    · obtain ⟨p, inner, hp, hx⟩ := fromNode_of_mem_traceNode h
      exact ⟨p, inner, List.mem_append_left _ hp, hx⟩
    · obtain ⟨p, inner, hp, hx⟩ := fromNode_of_mem_traceAll h
      exact ⟨p, inner, List.mem_append_right _ hp, hx⟩

end

theorem isPlain_of_mem_traceAll {blocks : List String} {above before : List Item}
    {bs : List (Branch Item)} {x : Traced} (h : x ∈ s.traceAll blocks above before bs) :
    x.step.isPlain = true := by
  obtain ⟨p, inner, -, hx⟩ := fromNode_of_mem_traceAll h
  cases hx.stepOf with
  | visited _ _ hm =>
    rcases List.mem_append.1 hm with hm | hm
    · exact plain_createNode hx.outside _ hm
    · exact plain_finish hx.outside _ hm
  | remark _ _ hm => exact plain_unsupported _ _ hm

/-- What is known of a node in a trace of `spots`: the items below it are spots as well, and if it
is visited, the trace holds all of its steps. -/
structure Stands (s : Site) (spots : List Spot) (trace : List Traced) (p : Place) : Prop where
  children : ∀ i ∈ p.children, { item := i, above := p.item :: p.above } ∈ spots
  steps : s.creates p.kind = true → ∀ st ∈ s.createNode p ++ s.finish p,
    ∃ x ∈ trace, x.origin = .node p ∧ x.step = st

theorem Stands.mono {spots more : List Spot} {trace longer : List Traced} {p : Place}
    (h : s.Stands spots trace p) (hs : spots ⊆ more) (ht : trace ⊆ longer) :
    s.Stands more longer p where
  children i hi := hs (h.children i hi)
  steps hc st hst := by
    obtain ⟨x, hx, ho, hs⟩ := h.steps hc st hst
    exact ⟨x, ht hx, ho, hs⟩

theorem label_mem_spotsOfAll {above : List Item} {bs : List (Branch Item)} {i : Item}
    (h : i ∈ bs.map Branch.label) : { item := i, above } ∈ spotsOfAll above bs := by
  induction bs with
  | nil => cases h
  | cons b bs ih =>
    unfold spotsOfAll
    rcases List.mem_cons.1 h with rfl | h
    · obtain ⟨i, cs⟩ := b
      exact List.mem_append_left _ List.mem_cons_self
    · exact List.mem_append_right _ (ih h)

theorem mem_mark_of_mem {blocks : List String} {origin : Origin} {steps : List Step}
    (h : Step.Each (fun st => st.isPlain = true) steps) {st : Step} (hs : st ∈ steps) :
    { blocks, origin, step := st } ∈ Traced.mark blocks origin steps :=
  (Traced.mem_mark_of_plain h).2 ⟨rfl, rfl, hs⟩

mutual

theorem stands_of_mem_traceNode {blocks : List String} {above before : List Item}
    {b : Branch Item} {x : Traced} (h : x ∈ s.traceNode blocks above before b) {p : Place}
    (ho : x.origin = .node p) :
    s.Stands (spotsOf above b) (s.traceNode blocks above before b) p := by
  cases b with
  | mk i cs =>
    let q : Place := { item := i, children := cs.map Branch.label, above, before }
    have children : ∀ j ∈ q.children,
        { item := j, above := i :: above } ∈ spotsOf above (.mk i cs) :=
      fun j hj => List.mem_cons_of_mem _ (label_mem_spotsOfAll hj)
    unfold traceNode at h ⊢
    by_cases hm : i.isMenuBuilder = true
    · simp [hm] at h
    · have hm : i.isMenuBuilder = false := by simpa using hm
      simp only [hm, Bool.false_eq_true, if_false] at h ⊢
      by_cases hc : s.creates i.kind = true
      · have first := plain_createNode (s := s) (p := q) hm
        have last := plain_finish (s := s) (p := q) hm
        simp only [hc, if_true] at h ⊢
        -- both marks stand for this node, and what is between them for those below
        have own : s.Stands (spotsOf above (.mk i cs))
            (Traced.mark (blocks ++ i.element.selector?.toList) (.node q) (s.createNode q)
              ++ s.traceAll (blocks ++ i.element.selector?.toList) (i :: above) [] cs
              ++ Traced.mark (blocks ++ i.element.selector?.toList) (.node q) (s.finish q)) q := by
          refine ⟨children, fun _ st hst => ?_⟩
          rcases List.mem_append.1 hst with hst | hst
          · exact ⟨_, List.mem_append_left _ (List.mem_append_left _ (mem_mark_of_mem first hst)),
              rfl, rfl⟩
          · exact ⟨_, List.mem_append_right _ (mem_mark_of_mem last hst), rfl, rfl⟩
        rcases List.mem_append.1 h with h | h
        · rcases List.mem_append.1 h with h | h
          · obtain rfl : q = p :=
              Origin.node.inj (((Traced.mem_mark_of_plain first).1 h).2.1.symm.trans ho)
            exact own
          · refine (stands_of_mem_traceAll h ho).mono (List.subset_cons_self _ _) ?_
            exact fun y hy => List.mem_append_left _ (List.mem_append_right _ hy)
        · obtain rfl : q = p :=
            Origin.node.inj (((Traced.mem_mark_of_plain last).1 h).2.1.symm.trans ho)
          exact own
      · have hc : s.creates i.kind = false := by simpa using hc
        simp only [hc, Bool.false_eq_true, if_false] at h ⊢
        obtain rfl : q = p := Origin.node.inj
          (((Traced.mem_mark_of_plain (plain_unsupported i)).1 h).2.1.symm.trans ho)
        exact ⟨children, fun hq => Bool.noConfusion (hc.symm.trans hq)⟩

/-- The trace of a branch is complete for each of its nodes. -/
theorem stands_of_mem_traceAll {blocks : List String} {above before : List Item}
    {bs : List (Branch Item)} {x : Traced} (h : x ∈ s.traceAll blocks above before bs) {p : Place}
    (ho : x.origin = .node p) :
    s.Stands (spotsOfAll above bs) (s.traceAll blocks above before bs) p := by
  cases bs with
  | nil => cases h
  | cons b bs =>
    unfold traceAll at h ⊢
    unfold spotsOfAll
    rcases List.mem_append.1 h with h | h
    · exact (stands_of_mem_traceNode h ho).mono (List.subset_append_left _ _)
        (List.subset_append_left _ _)
    · exact (stands_of_mem_traceAll h ho).mono (List.subset_append_right _ _)
        (List.subset_append_right _ _)

end

/-! ## What a step creates -/

/-- What a step creates is the object of its node, which is visited. -/
theorem FromNode.creation {blocks : List String} {above inner : List Item} {x : Traced} {p : Place}
    (h : s.FromNode blocks above x p inner) {c : Var × String} (hc : x.step.creation? = some c) :
    s.creates p.kind = true ∧ x.blocks = blocks ++ selectors (p.item :: inner) ∧
      s.object? p.item p.above p.children.isEmpty = some c := by
  cases h.stepOf with
  | visited hp hb hx =>
    refine ⟨hp, hb, ?_⟩
    rcases List.mem_append.1 hx with hx | hx
    · exact (makes_createNode (ready_true p.above) h.outside (fun _ _ _ _ => trivial)
        fun _ _ => trivial).creation_eq hx hc
    · have uses := uses_finish (s := s) (ready_true p.above) h.outside (fun _ _ => trivial)
        (fun _ _ _ => trivial) fun _ _ => trivial
      cases (uses _ hx).creates_none.symm.trans hc
  | remark hp hb hx =>
    have uses : Step.Each (Step.Uses fun _ => True) (s.unsupported p.item) := uses_unsupported _
    cases (uses _ hx).creates_none.symm.trans hc

mutual

theorem exists_creation_traceNode (blocks : List String) {above inner : List Item}
    (before : List Item) {b : Branch Item} {sp : Spot} (h : sp ∈ spotsOf above b)
    (ha : sp.above = inner ++ above)
    (hc : ∀ i ∈ sp.item :: inner, s.creates i.kind = true) (hk : keeps sp.item sp.above = true) :
    ∃ x ∈ s.traceNode blocks above before b, ∃ p, p.spot = sp ∧
      s.FromNode blocks above x p inner ∧
        x.step.creation?
          = some (s.var sp.item, (resolveClass s.dialect sp.item.element).token) := by
  cases b with
  | mk i cs =>
    unfold spotsOf at h
    rcases List.mem_cons.1 h with rfl | h
    · obtain rfl : inner = [] := List.append_cancel_right (ha.symm.trans (List.nil_append _).symm)
      have hi := hc i List.mem_cons_self
      have hm := not_isMenuBuilder_of_creates hi
      let p : Place := { item := i, children := cs.map Branch.label, above, before }
      have makes := makes_createNode (s := s) (p := p) (ready_true above) hm
        (fun _ _ _ _ => trivial) fun _ _ => trivial
      obtain ⟨st, hst, hcr⟩ := makes.exists_creation
        (c := (s.var i, (resolveClass s.dialect i.element).token)) (by simp_all [object?, p])
      refine ⟨{ blocks := blocks ++ i.element.selector?.toList, origin := .node p, step := st },
        ?_, p, rfl, ⟨rfl, rfl, List.forall_mem_nil _, hm, ?_⟩, hcr⟩
      · unfold traceNode
        simp only [hm, hi, Bool.false_eq_true, if_false, if_true, List.mem_append]
        exact Or.inl (Or.inl ((Traced.mem_mark_of_plain makes.plain).2 ⟨rfl, rfl, hst⟩))
      · exact .visited hi (by simp [selectors_cons, p]) (List.mem_append_left _ hst)
    · -- the path from the branch down to the spot begins with this node
      obtain ⟨inner, rfl⟩ : ∃ rest, inner = rest ++ [i] := by
        obtain ⟨rest, hr⟩ := suffix_of_mem_spotsOfAll h
        refine ⟨rest, List.append_cancel_right (ha.symm.trans ?_)⟩
        simp [← hr]
      have hi := hc i (by simp)
      have hm := not_isMenuBuilder_of_creates hi
      have path : ∀ j ∈ sp.item :: inner, s.creates j.kind = true := by
        intro j hj
        refine hc j ?_
        rw [← List.cons_append]
        exact List.mem_append_left _ hj
      obtain ⟨x, hx, p, hp, from', hcr⟩ := exists_creation_traceAll
        (blocks ++ i.element.selector?.toList) [] h (by simp [ha]) path hk
      refine ⟨x, ?_, p, hp, from'.lift hi, hcr⟩
      unfold traceNode
      simp only [hm, hi, Bool.false_eq_true, if_false, if_true, List.mem_append]
      exact Or.inl (Or.inr hx)

/-- A node has its object created if it and the path to it are visited. -/
theorem exists_creation_traceAll (blocks : List String) {above inner : List Item}
    (before : List Item) {bs : List (Branch Item)} {sp : Spot} (h : sp ∈ spotsOfAll above bs)
    (ha : sp.above = inner ++ above) (hc : ∀ i ∈ sp.item :: inner, s.creates i.kind = true)
    (hk : keeps sp.item sp.above = true) :
    ∃ x ∈ s.traceAll blocks above before bs, ∃ p, p.spot = sp ∧
      s.FromNode blocks above x p inner ∧
        x.step.creation?
          = some (s.var sp.item, (resolveClass s.dialect sp.item.element).token) := by
  cases bs with
  | nil => cases h
  | cons b bs =>
    unfold spotsOfAll at h
    unfold traceAll
    rcases List.mem_append.1 h with h | h
    · obtain ⟨x, hx, rest⟩ := exists_creation_traceNode blocks before h ha hc hk
      exact ⟨x, List.mem_append_left _ hx, rest⟩
    · obtain ⟨x, hx, rest⟩ := exists_creation_traceAll blocks (b.label :: before) h ha hc hk
      exact ⟨x, List.mem_append_right _ hx, rest⟩

end

end Site

namespace Form

variable {f : Form} {d : Dialect} {images : List Asset} {x : Traced}

/-- The steps for the form itself create nothing and refer to nothing. -/
theorem mem_trace (hx : x ∈ f.trace d images) :
    x ∈ (f.site d images).traceAll [] f.path [] f.children ∨
      x.origin = .node f.place ∧ ∀ known, x.step.Uses known := by
  have settings (known : Var → Prop) :
      Step.Each (Step.Uses known) ((f.site d images).formSettings f.element) :=
    Site.uses_formSettings f.element
  have finish (known : Var → Prop) : Step.Each (Step.Uses known) (Site.formFinish f.element) :=
    Site.uses_formFinish f.element
  have plain {steps : List Step} (h : ∀ known, Step.Each (Step.Uses known) steps) :
      Step.Each (fun st => st.isPlain = true) steps :=
    (h fun _ => True).imp fun _ h => h.plain
  simp only [trace, List.mem_append] at hx
  rcases hx with (hx | hx) | hx
  · obtain ⟨-, ho, hs⟩ := (Traced.mem_mark_of_plain (plain settings)).1 hx
    exact Or.inr ⟨ho, fun known => settings known _ hs⟩
  · exact Or.inl hx
  · obtain ⟨-, ho, hs⟩ := (Traced.mem_mark_of_plain (plain finish)).1 hx
    exact Or.inr ⟨ho, fun known => finish known _ hs⟩

theorem mem_traceAll_of_creation (hx : x ∈ f.trace d images) {c : Var × String}
    (hc : x.step.creation? = some c) : x ∈ (f.site d images).traceAll [] f.path [] f.children := by
  rcases mem_trace hx with hx | ⟨-, uses⟩
  · exact hx
  · cases (uses fun _ => True).creates_none.symm.trans hc

/-- Construction binds no events. -/
theorem isPlain_of_mem_trace (hx : x ∈ f.trace d images) : x.step.isPlain = true := by
  rcases mem_trace hx with hx | ⟨-, uses⟩
  · exact Site.isPlain_of_mem_traceAll hx
  · exact (uses fun _ => True).plain

end Form

end FormDesign
