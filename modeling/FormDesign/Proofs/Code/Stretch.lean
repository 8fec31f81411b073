import FormDesign.Proofs.Code.SizerLayout
import FormDesign.Proofs.Code.Spots

/-!
# The stretch of a node in a trace

The steps for a node and for what is below it stand together in the trace of a method. They are one
stretch of it, which opens with the creation of the node and closes with what is done when
everything below it exists. No step around the stretch is there for a node of its branch.

* `Site.exists_path_of_mem_traceAll`: the path that a step is there for
* `Site.hasStretch_traceAll`: a node that is visited has a stretch
* `Form.exists_builds`: a method builds some branches of the form
* `Construction.hasStretch`: so what holds of stretches holds in every method
-/

namespace FormDesign

/-! ## The path of a step -/

namespace Branch

/-- The nodes of a branch of items. -/
def nodes (b : Branch Item) : List Node :=
  b.toList.map Item.node

/-- The nodes of several branches. -/
def nodesAll (bs : List (Branch Item)) : List Node :=
  (toListAll bs).map Item.node

theorem node_label_mem_nodes (b : Branch Item) : b.label.node ∈ b.nodes := by
  rw [nodes, toList_eq]
  exact List.mem_cons_self

theorem nodes_cons (i : Item) (cs : List (Branch Item)) :
    (mk i cs).nodes = i.node :: nodesAll cs := by
  rw [nodes, toList]
  rfl

theorem nodesAll_cons (b : Branch Item) (bs : List (Branch Item)) :
    nodesAll (b :: bs) = b.nodes ++ nodesAll bs := by
  rw [nodesAll, toListAll, List.map_append]
  rfl

theorem nodesAll_singleton (b : Branch Item) : nodesAll [b] = b.nodes := by
  rw [nodesAll_cons]
  exact List.append_nil _

theorem nodesAll_append (bs cs : List (Branch Item)) :
    nodesAll (bs ++ cs) = nodesAll bs ++ nodesAll cs := by
  induction bs with
  | nil => rfl
  | cons b bs ih => rw [List.cons_append, nodesAll_cons, ih, nodesAll_cons, List.append_assoc]

theorem nodes_subset_nodesAll {b : Branch Item} {bs : List (Branch Item)} (hb : b ∈ bs) :
    b.nodes ⊆ nodesAll bs := by
  obtain ⟨front, back, rfl⟩ := List.append_of_mem hb
  rw [nodesAll_append, nodesAll_cons]
  exact List.subset_append_of_subset_right _ (List.subset_append_left _ _)

theorem nodes_subset_of_mem_places {above : List Item} {b : Branch Item} {q : Place Item}
    (hq : q ∈ places above b) : q.branch.nodes ⊆ b.nodes :=
  List.map_subset _ (toList_infix_of_mem_places hq).subset

theorem nodes_subset_of_mem_placesAll {above : List Item} {bs : List (Branch Item)}
    {q : Place Item} (hq : q ∈ placesAll above bs) : q.branch.nodes ⊆ nodesAll bs :=
  List.map_subset _ (toList_infix_of_mem_placesAll hq).subset

end Branch

namespace Traced

/-- The item that the step is there for, and those above it. -/
def path (x : Traced) : List Item :=
  match x.origin with
  | .node p => p.item :: p.above
  | .event _ | .menu _ => []

/-- The step is there for the node, or for one below it. -/
def IsWithin (n : Node) (x : Traced) : Prop :=
  n ∈ x.path.map Item.node

/-- The step is there for a node below the given one. -/
def IsBelow (n : Node) (x : Traced) : Prop :=
  n ∈ x.path.tail.map Item.node

/-- The step is there for no node of the branch, and for no node below one of these. -/
def IsOutside (b : Branch Item) (x : Traced) : Prop :=
  (x.path.map Item.node).Disjoint b.nodes

variable {x : Traced} {n : Node}

theorem path_of_origin {p : Place} (h : x.origin = .node p) : x.path = p.item :: p.above := by
  rw [path, h]

theorem path_of_mem_mark {blocks : List String} {p : Place} {steps : List Step}
    (h : x ∈ mark blocks (.node p) steps) : x.path = p.item :: p.above :=
  path_of_origin (origin_of_mem_mark h)

theorem isFor_iff : x.isFor n = true ↔ ∃ p, x.origin = .node p ∧ p.item.node = n := by
  unfold isFor
  cases x.origin with
  | node p => simp
  | event | menu => simp

theorem isWithin_of_isFor (h : x.isFor n = true) : x.IsWithin n := by
  obtain ⟨p, origin, rfl⟩ := isFor_iff.1 h
  rw [IsWithin, path_of_origin origin]
  exact List.mem_cons_self

theorem isWithin_of_isBelow (h : x.IsBelow n) : x.IsWithin n :=
  List.map_subset _ (List.tail_subset x.path) h

theorem IsOutside.not_isWithin {b : Branch Item} (h : x.IsOutside b) (hn : n ∈ b.nodes) :
    ¬x.IsWithin n :=
  fun within => h within hn

theorem IsOutside.not_isFor {b : Branch Item} (h : x.IsOutside b) :
    ¬x.isFor b.label.node = true :=
  fun hfor => h.not_isWithin b.node_label_mem_nodes (isWithin_of_isFor hfor)

end Traced

namespace Site

variable {s : Site} {blocks : List String} {above before : List Item} {bs : List (Branch Item)}
  {x : Traced}

/-- A step of a trace is there for an item of the branches, below items of the branches. -/
theorem exists_path_of_mem_traceAll (hx : x ∈ s.traceAll blocks above before bs) :
    ∃ i inner, x.path = i :: inner ++ above ∧ ∀ j ∈ i :: inner, j ∈ Branch.toListAll bs := by
  obtain ⟨p, inner, hp, hfrom⟩ := fromNode_of_mem_traceAll hx
  have hspot := spotsOutsideMenusAll_subset above bs hp
  rw [spotsOfAll_eq] at hspot
  obtain ⟨q, hq, heq⟩ := List.mem_map.1 hspot
  obtain ⟨hlabel, habove⟩ := Spot.mk.inj heq
  obtain ⟨zs, hzs, hinside⟩ := Branch.exists_above_of_mem_placesAll hq
  obtain rfl : zs = inner :=
    List.append_cancel_right (hzs.symm.trans (habove.trans hfrom.above_eq))
  refine ⟨p.item, zs, ?_, List.forall_mem_cons.2 ⟨?_, hinside⟩⟩
  · rw [Traced.path_of_origin hfrom.origin, hfrom.above_eq]
    rfl
  · rw [← hlabel, ← Branch.map_label_placesAll above]
    exact List.mem_map_of_mem hq

theorem path_subset_of_mem_traceAll (hx : x ∈ s.traceAll blocks above before bs) :
    x.path.map Item.node ⊆ above.map Item.node ++ Branch.nodesAll bs := by
  obtain ⟨i, inner, hpath, hinside⟩ := exists_path_of_mem_traceAll hx
  rw [hpath, List.map_append]
  refine List.append_subset.2
    ⟨List.subset_append_of_subset_right _ (List.map_subset _ hinside), List.subset_append_left _ _⟩

theorem mem_nodesAll_of_isFor (hx : x ∈ s.traceAll blocks above before bs) {n : Node}
    (h : x.isFor n = true) : n ∈ Branch.nodesAll bs := by
  obtain ⟨p, origin, rfl⟩ := Traced.isFor_iff.1 h
  obtain ⟨i, inner, hpath, hinside⟩ := exists_path_of_mem_traceAll hx
  obtain ⟨rfl, -⟩ := List.cons.inj ((Traced.path_of_origin origin).symm.trans hpath)
  exact List.mem_map_of_mem (hinside _ List.mem_cons_self)

theorem traceAll_singleton (b : Branch Item) :
    s.traceAll blocks above before [b] = s.traceNode blocks above before b := by
  rw [traceAll, traceAll, List.append_nil]

end Site

/-! ## Branches that lie apart -/

/-- The nodes of the branches are told apart from each other, and from those above. -/
structure Apart (above : List Item) (bs : List (Branch Item)) : Prop where
  nodup : (Branch.nodesAll bs).Nodup
  disjoint : (above.map Item.node).Disjoint (Branch.nodesAll bs)

namespace Apart

variable {above : List Item} {b : Branch Item} {bs cs : List (Branch Item)}

theorem left (h : Apart above (bs ++ cs)) : Apart above bs where
  nodup := (List.nodup_append'.1 (Branch.nodesAll_append bs cs ▸ h.nodup)).1
  disjoint := (List.disjoint_append_right.1 (Branch.nodesAll_append bs cs ▸ h.disjoint)).1

theorem right (h : Apart above (bs ++ cs)) : Apart above cs where
  nodup := (List.nodup_append'.1 (Branch.nodesAll_append bs cs ▸ h.nodup)).2.1
  disjoint := (List.disjoint_append_right.1 (Branch.nodesAll_append bs cs ▸ h.disjoint)).2

theorem between (h : Apart above (bs ++ cs)) :
    (Branch.nodesAll bs).Disjoint (Branch.nodesAll cs) :=
  (List.nodup_append'.1 (Branch.nodesAll_append bs cs ▸ h.nodup)).2.2

theorem head (h : Apart above (b :: bs)) : Apart above [b] :=
  left (show Apart above ([b] ++ bs) from h)

theorem tail (h : Apart above (b :: bs)) : Apart above bs :=
  right (show Apart above ([b] ++ bs) from h)

theorem between_cons (h : Apart above (b :: bs)) : b.nodes.Disjoint (Branch.nodesAll bs) :=
  Branch.nodesAll_singleton b ▸ between (show Apart above ([b] ++ bs) from h)

theorem children {i : Item} (h : Apart above [.mk i cs]) : Apart (i :: above) cs := by
  obtain ⟨nodup, disjoint⟩ := h
  rw [Branch.nodesAll_singleton, Branch.nodes_cons] at nodup disjoint
  obtain ⟨hi, nodup⟩ := List.nodup_cons.1 nodup
  refine ⟨nodup, ?_⟩
  rw [List.map_cons, List.disjoint_cons_left]
  exact ⟨hi, (List.disjoint_cons_right.1 disjoint).2⟩

theorem not_mem_children {i : Item} (h : Apart above [.mk i cs]) : i.node ∉ Branch.nodesAll cs :=
  (List.disjoint_cons_left.1 h.children.disjoint).1

mutual

theorem of_mem_places {above : List Item} {b : Branch Item} (h : Apart above [b])
    {q : Branch.Place Item} (hq : q ∈ Branch.places above b) : Apart q.above [q.branch] := by
  cases b with
  | mk i cs =>
    unfold Branch.places at hq
    rcases List.mem_cons.1 hq with rfl | hq
    · exact h
    · exact of_mem_placesAll h.children hq

/-- What stands apart stands apart at every place. -/
theorem of_mem_placesAll {above : List Item} {bs : List (Branch Item)} (h : Apart above bs)
    {q : Branch.Place Item} (hq : q ∈ Branch.placesAll above bs) : Apart q.above [q.branch] := by
  cases bs with
  | nil => cases hq
  | cons b bs =>
    unfold Branch.placesAll at hq
    rcases List.mem_append.1 hq with hq | hq
    · exact of_mem_places h.head hq
    · exact of_mem_placesAll h.tail hq

end

end Apart

/-! ## Stretches -/

namespace Branch

/-- The branch as a place of construction. -/
def standing (b : Branch Item) (above before : List Item) : FormDesign.Place :=
  { item := b.label, children := b.childLabels, above, before }

end Branch

namespace Site

variable {s : Site}

/-- The steps for a node that can be created: its creation, what is below it, and what is done in
the end. -/
theorem traceNode_eq {b : Branch Item} (h : s.creates b.label.kind = true) (blocks : List String)
    (above before : List Item) :
    s.traceNode blocks above before b
      = Traced.mark (blocks ++ b.label.element.selector?.toList) (.node (b.standing above before))
          (s.createNode (b.standing above before))
        ++ s.traceAll (blocks ++ b.label.element.selector?.toList) (b.label :: above) [] b.children
        ++ Traced.mark (blocks ++ b.label.element.selector?.toList)
            (.node (b.standing above before)) (s.finish (b.standing above before)) := by
  cases b with
  | mk i cs =>
    have hm : i.isMenuBuilder = false := not_isMenuBuilder_of_creates h
    have hc : s.creates i.kind = true := h
    unfold traceNode
    rw [if_neg (Bool.eq_false_iff.1 hm), if_pos hc]
    rfl

theorem traceAll_append (blocks : List String) (above before : List Item)
    (bs cs : List (Branch Item)) :
    s.traceAll blocks above before (bs ++ cs)
      = s.traceAll blocks above before bs
        ++ s.traceAll blocks above ((bs.map Branch.label).reverse ++ before) cs := by
  induction bs generalizing before with
  | nil => rfl
  | cons b bs ih =>
    rw [List.cons_append, traceAll, traceAll, ih, List.append_assoc]
    simp

/-- The trace of the place is a stretch of the trace, and the steps around it are there for other
nodes. -/
def HasStretch (s : Site) (q : Branch.Place Item) (xs : List Traced) : Prop :=
  ∃ front blocks before back,
    xs = front ++ s.traceNode blocks q.above before q.branch ++ back ∧
      ∀ y ∈ front ++ back, y.IsOutside q.branch

variable {q : Branch.Place Item} {xs : List Traced}

theorem HasStretch.prepend (h : s.HasStretch q xs) {pre : List Traced}
    (outside : ∀ y ∈ pre, y.IsOutside q.branch) : s.HasStretch q (pre ++ xs) := by
  obtain ⟨front, blocks, before, back, rfl, hout⟩ := h
  refine ⟨pre ++ front, blocks, before, back, by simp only [List.append_assoc], ?_⟩
  rw [List.append_assoc]
  exact List.forall_mem_append.2 ⟨outside, hout⟩

theorem HasStretch.append (h : s.HasStretch q xs) {post : List Traced}
    (outside : ∀ y ∈ post, y.IsOutside q.branch) : s.HasStretch q (xs ++ post) := by
  obtain ⟨front, blocks, before, back, rfl, hout⟩ := h
  refine ⟨front, blocks, before, back ++ post, by simp only [List.append_assoc], ?_⟩
  rw [← List.append_assoc]
  exact List.forall_mem_append.2 ⟨hout, outside⟩

variable {blocks : List String} {above before : List Item}

theorem isOutside_of_mem_mark {b : Branch Item} {p : FormDesign.Place} {steps : List Step}
    (disjoint : ((p.item :: p.above).map Item.node).Disjoint b.nodes) {x : Traced}
    (hx : x ∈ Traced.mark blocks (.node p) steps) : x.IsOutside b := by
  rwa [Traced.IsOutside, Traced.path_of_mem_mark hx]

theorem isOutside_of_mem_traceAll {b : Branch Item} {bs : List (Branch Item)}
    (disjoint : (above.map Item.node).Disjoint b.nodes)
    (between : (Branch.nodesAll bs).Disjoint b.nodes) {x : Traced}
    (hx : x ∈ s.traceAll blocks above before bs) : x.IsOutside b :=
  List.disjoint_of_subset_left (path_subset_of_mem_traceAll hx)
    (List.disjoint_append_left.2 ⟨disjoint, between⟩)

mutual

theorem hasStretch_traceNode {s : Site} {blocks : List String} {above before : List Item}
    {b : Branch Item} (h : Apart above [b]) {q : Branch.Place Item}
    (hq : q ∈ Branch.places above b) {x : Traced} (hx : x ∈ s.traceNode blocks above before b)
    (hfor : x.isFor q.label.node = true) :
    s.HasStretch q (s.traceNode blocks above before b) := by
  cases b with
  | mk i cs =>
    unfold Branch.places at hq
    rcases List.mem_cons.1 hq with rfl | hq
    · exact ⟨[], blocks, before, [], by simp, by simp⟩
    · -- the steps for the node itself are not there for the place below it
      have other {blocks : List String} {before : List Item} {steps : List Step} {y : Traced}
          (hy : y ∈ Traced.mark blocks (.node ((Branch.mk i cs).standing above before)) steps) :
          y.IsOutside q.branch :=
        isOutside_of_mem_mark (List.disjoint_of_subset_right
          (Branch.nodes_subset_of_mem_placesAll hq) h.children.disjoint) hy
      by_cases hc : s.creates i.kind = true
      · rw [traceNode_eq (b := .mk i cs) hc] at hx ⊢
        refine HasStretch.append (HasStretch.prepend ?_ fun y => other) fun y => other
        rcases List.mem_append.1 hx with hx | hx
        · rcases List.mem_append.1 hx with hx | hx
          · exact absurd hfor (other hx).not_isFor
          · exact hasStretch_traceAll h.children hq hx hfor
        · exact absurd hfor (other hx).not_isFor
      · unfold traceNode at hx
        dsimp only at hx
        rw [if_neg hc] at hx
        split at hx
        · cases hx
        · exact absurd hfor (other hx).not_isFor

/-- **A node that is visited has a stretch in the trace.** -/
theorem hasStretch_traceAll {s : Site} {blocks : List String} {above before : List Item}
    {bs : List (Branch Item)} (h : Apart above bs) {q : Branch.Place Item}
    (hq : q ∈ Branch.placesAll above bs) {x : Traced}
    (hx : x ∈ s.traceAll blocks above before bs) (hfor : x.isFor q.label.node = true) :
    s.HasStretch q (s.traceAll blocks above before bs) := by
  cases bs with
  | nil => cases hq
  | cons b bs =>
    have between : b.nodes.Disjoint (Branch.nodesAll bs) := h.between_cons
    unfold Branch.placesAll at hq
    unfold traceAll at hx ⊢
    rcases List.mem_append.1 hq with hq | hq
    · have inside := Branch.nodes_subset_of_mem_places hq
      have later {y : Traced} (hy : y ∈ s.traceAll blocks above (b.label :: before) bs) :
          y.IsOutside q.branch :=
        isOutside_of_mem_traceAll
          (List.disjoint_of_subset_right inside (Branch.nodesAll_singleton b ▸ h.head.disjoint))
          (List.disjoint_of_subset_right inside between.symm) hy
      rcases List.mem_append.1 hx with hx | hx
      · exact (hasStretch_traceNode h.head hq hx hfor).append fun y => later
      · exact absurd hfor (later hx).not_isFor
    · have inside := Branch.nodes_subset_of_mem_placesAll hq
      have earlier {y : Traced} (hy : y ∈ s.traceNode blocks above before b) :
          y.IsOutside q.branch := by
        rw [← traceAll_singleton] at hy
        refine isOutside_of_mem_traceAll
          (List.disjoint_of_subset_right inside h.tail.disjoint) ?_ hy
        rw [Branch.nodesAll_singleton]
        exact List.disjoint_of_subset_right inside between
      rcases List.mem_append.1 hx with hx | hx
      · exact absurd hfor (earlier hx).not_isFor
      · exact (hasStretch_traceAll h.tail hq hx hfor).prepend fun y => earlier

end

end Site

/-- Among siblings each has its stretch, and what comes up to the end of it is not there for those
that follow. -/
theorem Site.traceAll_child {s : Site} {above : List Item} {front back : List (Branch Item)}
    {b : Branch Item} (apart : Apart above (front ++ b :: back)) (blocks : List String)
    (before : List Item) :
    ∃ pre inner post,
      s.traceAll blocks above before (front ++ b :: back)
          = pre ++ s.traceNode blocks above inner b ++ post ∧
        (∀ y ∈ pre ++ post, y.IsOutside b) ∧
        ∀ later ∈ back, ∀ y ∈ pre ++ s.traceNode blocks above inner b, y.IsOutside later := by
  have disjoint {c : Branch Item} (hc : c ∈ front ++ b :: back) :
      (above.map Item.node).Disjoint c.nodes :=
    List.disjoint_of_subset_right (Branch.nodes_subset_nodesAll hc) apart.disjoint
  have rest {c : Branch Item} (hc : c ∈ b :: back) : (Branch.nodesAll front).Disjoint c.nodes :=
    List.disjoint_of_subset_right (Branch.nodes_subset_nodesAll hc) apart.between
  have next : b.nodes.Disjoint (Branch.nodesAll back) := apart.right.between_cons
  have hb : b ∈ front ++ b :: back := List.mem_append_right _ List.mem_cons_self
  rw [traceAll_append, traceAll, ← List.append_assoc]
  refine ⟨_, _, _, rfl, fun y hy => ?_, fun later hl y hy => ?_⟩
  · rcases List.mem_append.1 hy with hy | hy
    · exact isOutside_of_mem_traceAll (disjoint hb) (rest List.mem_cons_self) hy
    · exact isOutside_of_mem_traceAll (disjoint hb) next.symm hy
  · have hmem : later ∈ front ++ b :: back :=
      List.mem_append_right _ (List.mem_cons_of_mem _ hl)
    rcases List.mem_append.1 hy with hy | hy
    · exact isOutside_of_mem_traceAll (disjoint hmem) (rest (List.mem_cons_of_mem _ hl)) hy
    · rw [← traceAll_singleton] at hy
      refine isOutside_of_mem_traceAll (disjoint hmem) ?_ hy
      rw [Branch.nodesAll_singleton]
      exact List.disjoint_of_subset_right (Branch.nodes_subset_nodesAll hl) next

namespace Site.HasStretch

variable {s : Site} {q : Branch.Place Item} {xs : List Traced}

/-- A node that something is created for can be created. -/
theorem creates (h : s.HasStretch q xs) {x : Traced} (hx : x ∈ xs)
    (hfor : x.isFor q.label.node = true) {c : Var × String} (hc : x.step.creation? = some c) :
    s.creates q.label.kind = true := by
  obtain ⟨front, blocks, before, back, rfl, outside⟩ := h
  have hx : x ∈ s.traceAll blocks q.above before [q.branch] := by
    have notOutside : x ∉ front ++ back := fun hx => (outside x hx).not_isFor hfor
    rw [traceAll_singleton]
    simp only [List.mem_append, not_or] at hx notOutside
    rcases hx with (hx | hx) | hx
    · exact absurd hx notOutside.1
    · exact hx
    · exact absurd hx notOutside.2
  obtain ⟨p, inner, -, hfrom⟩ := fromNode_of_mem_traceAll hx
  obtain ⟨p', origin, node⟩ := Traced.isFor_iff.1 hfor
  obtain rfl := Origin.node.inj (hfrom.origin.symm.trans origin)
  have creates := (hfrom.creation hc).1
  rwa [Place.kind, Item.kind, node] at creates

/-- The stretch of a node holds the trace of its children, and no step around that trace is there
for what is below the node. -/
theorem exists_children {above : List Item} {i : Item} {cs : List (Branch Item)}
    (h : s.HasStretch ⟨above, .mk i cs⟩ xs) (apart : Apart above [.mk i cs])
    (creates : s.creates i.kind = true) :
    ∃ opened blocks closed,
      xs = opened ++ s.traceAll blocks (i :: above) [] cs ++ closed ∧
        ∀ y ∈ opened ++ closed, (y.path.map Item.node).Disjoint (Branch.nodesAll cs) := by
  obtain ⟨front, blocks, before, back, rfl, outside⟩ := h
  let p := (Branch.mk i cs).standing above before
  let inside := blocks ++ i.element.selector?.toList
  have own {steps : List Step} {y : Traced} (hy : y ∈ Traced.mark inside (.node p) steps) :
      (y.path.map Item.node).Disjoint (Branch.nodesAll cs) := by
    rw [Traced.path_of_mem_mark hy]
    exact apart.children.disjoint
  have around {y : Traced} (hy : y ∈ front ++ back) :
      (y.path.map Item.node).Disjoint (Branch.nodesAll cs) := by
    refine List.disjoint_of_subset_right ?_ (outside y hy)
    rw [Branch.nodes_cons]
    exact List.subset_cons_self _ _
  refine ⟨front ++ Traced.mark inside (.node p) (s.createNode p), inside,
    Traced.mark inside (.node p) (s.finish p) ++ back, ?_, fun y hy => ?_⟩
  · have split : s.traceNode blocks above before (.mk i cs)
        = Traced.mark inside (.node p) (s.createNode p) ++ s.traceAll inside (i :: above) [] cs
          ++ Traced.mark inside (.node p) (s.finish p) :=
      traceNode_eq (b := .mk i cs) creates blocks above before
    simp only [split, List.append_assoc]
  · simp only [List.mem_append] at hy
    rcases hy with (hy | hy) | hy | hy
    · exact around (List.mem_append_left _ hy)
    · exact own hy
    · exact own hy
    · exact around (List.mem_append_right _ hy)

/-- In the stretch of a node each child has its stretch, and what comes up to the end of it is not
there for the siblings that follow. -/
theorem exists_child {above : List Item} {i : Item} {front back : List (Branch Item)}
    {b : Branch Item} (h : s.HasStretch ⟨above, .mk i (front ++ b :: back)⟩ xs)
    (apart : Apart above [.mk i (front ++ b :: back)]) (creates : s.creates i.kind = true) :
    ∃ pre blocks before post,
      xs = pre ++ s.traceNode blocks (i :: above) before b ++ post ∧
        (∀ y ∈ pre ++ post, y.IsOutside b) ∧
        ∀ later ∈ back, ∀ y ∈ pre ++ s.traceNode blocks (i :: above) before b,
          y.IsOutside later := by
  obtain ⟨opened, blocks, closed, rfl, around⟩ := h.exists_children apart creates
  obtain ⟨pre, before, post, heq, outside, apartLater⟩ :=
    traceAll_child (s := s) apart.children blocks []
  have around {c : Branch Item} (hc : c ∈ front ++ b :: back) {y : Traced}
      (hy : y ∈ opened ++ closed) : y.IsOutside c :=
    List.disjoint_of_subset_right (Branch.nodes_subset_nodesAll hc) (around y hy)
  refine ⟨opened ++ pre, blocks, before, post ++ closed, by rw [heq]; simp only [List.append_assoc],
    fun y hy => ?_, fun later hl y hy => ?_⟩
  · have hb : b ∈ front ++ b :: back := List.mem_append_right _ List.mem_cons_self
    have outside := outside y
    simp only [List.mem_append] at hy outside
    rcases hy with (hy | hy) | hy | hy
    · exact around hb (List.mem_append_left _ hy)
    · exact outside (Or.inl hy)
    · exact outside (Or.inr hy)
    · exact around hb (List.mem_append_right _ hy)
  · have hmem : later ∈ front ++ b :: back :=
      List.mem_append_right _ (List.mem_cons_of_mem _ hl)
    rw [List.append_assoc] at hy
    rcases List.mem_append.1 hy with hy | hy
    · exact around hmem (List.mem_append_left _ hy)
    · exact apartLater later hl y hy

end Site.HasStretch

/-! ## The only step of a kind -/

namespace Traced

/-- One step of the trace satisfies `P`: the one between `before` and `after`. -/
structure IsOnly (P : Traced → Prop) (xs before : List Traced) (x : Traced) (after : List Traced) :
    Prop where
  split : xs = before ++ x :: after
  holds : P x
  alone : ∀ y ∈ before ++ after, ¬P y

/-- The step is there for the node, and of a kind. -/
def Does (n : Node) (kind : Step → Prop) (x : Traced) : Prop :=
  x.isFor n = true ∧ kind x.step

variable {P : Traced → Prop} {xs before after : List Traced} {x : Traced}

theorem not_does_of_mem_mark {n : Node} {kind : Step → Prop} {blocks : List String}
    {origin : Origin} {steps : List Step} (plain : Step.Each (fun st => st.isPlain = true) steps)
    (h : Step.Each (fun st => ¬kind st) steps) (hx : x ∈ mark blocks origin steps) :
    ¬x.Does n kind :=
  fun does => h _ ((mem_mark_of_plain plain).1 hx).2.2 does.2

theorem IsOutside.not_does {b : Branch Item} (h : x.IsOutside b) (kind : Step → Prop) :
    ¬x.Does b.label.node kind :=
  fun does => h.not_isFor does.1

/-- The only step of a kind for a node is the only one in a trace around. -/
theorem IsOnly.surround {b : Branch Item} {kind : Step → Prop}
    (h : IsOnly (Does b.label.node kind) xs before x after) {pre post : List Traced}
    (outside : ∀ y ∈ pre ++ post, y.IsOutside b) :
    IsOnly (Does b.label.node kind) (pre ++ xs ++ post) (pre ++ before) x (after ++ post) where
  split := by rw [h.split]; simp only [List.append_assoc, List.cons_append]
  holds := h.holds
  alone y hy := by
    have alone := h.alone
    simp only [List.mem_append, or_imp, forall_and] at hy alone outside
    rcases hy with (hy | hy) | hy | hy
    · exact (outside.1 y hy).not_does kind
    · exact alone.1 y hy
    · exact alone.2 y hy
    · exact (outside.2 y hy).not_does kind

end Traced

namespace Site

variable {s : Site} {b : Branch Item} {above before : List Item} {kind : Step → Prop}
  {own : List Step} {st : Step}

/-- The steps for what is below a node are not there for the node. -/
theorem not_isFor_of_mem_below (apart : Apart above [b]) {x : Traced} {inside : List String}
    (hx : x ∈ s.traceAll inside (b.label :: above) [] b.children) :
    ¬x.isFor b.label.node = true := by
  obtain ⟨i, cs⟩ := b
  exact fun hfor => apart.not_mem_children (mem_nodesAll_of_isFor hx hfor)

/-- If what is done with a node in the end closes with the only step of a kind, so does the trace of
the node. -/
theorem isOnly_of_finish_eq (blocks : List String) (apart : Apart above [b])
    (creates : s.creates b.label.kind = true)
    (heq : s.finish (b.standing above before) = own ++ [st]) (holds : kind st)
    (created : Step.Each (fun st => ¬kind st) (s.createNode (b.standing above before)))
    (alone : Step.Each (fun st => ¬kind st) own) :
    ∃ inner x, x.step = st ∧
      Traced.IsOnly (Traced.Does b.label.node kind) (s.traceNode blocks above before b) inner x
        [] := by
  have hm : (b.standing above before).item.isMenuBuilder = false :=
    not_isMenuBuilder_of_creates creates
  have plain := plain_finish (s := s) hm
  rw [heq, Step.each_append] at plain
  have split := traceNode_eq creates blocks above before
  rw [heq, Traced.mark_append, Traced.mark_of_plain plain.2, ← List.append_assoc] at split
  refine ⟨_, _, rfl, split, ⟨beq_self_eq_true _, holds⟩, ?_⟩
  rw [List.append_nil]
  intro y hy
  simp only [List.mem_append] at hy
  rcases hy with (hy | hy) | hy
  · exact Traced.not_does_of_mem_mark (plain_createNode hm) created hy
  · exact fun does => not_isFor_of_mem_below apart hy does.1
  · exact Traced.not_does_of_mem_mark plain.1 alone hy

end Site

/-! ## The methods of a form -/

/-- A method that constructs nodes: where it does so, its steps, and their trace. -/
structure Construction where
  site : Site
  steps : List Step
  trace : List Traced

namespace Construction

/-- The method creates the object of an item in the variable of the item. -/
def Creates (m : Construction) (i : Item) : Prop :=
  ∃ x ∈ m.trace, x.isFor i.node = true ∧
    ∃ className, x.step.creation? = some (m.site.var i, className)

end Construction

mutual

/-- The branches that open context menus are places of the branch. -/
theorem place_mem_of_mem_menuBranchesIn {above : List Item} {b : Branch Item}
    {menu : List Item × Branch Item} (h : menu ∈ menuBranchesIn above b) :
    ⟨menu.1, menu.2⟩ ∈ Branch.places above b ∧ menu.2.label.isMenuBuilder = true := by
  cases b with
  | mk i cs =>
    unfold menuBranchesIn at h
    unfold Branch.places
    dsimp only at h
    split at h
    · next hm =>
      rcases List.mem_cons.1 h with rfl | h
      · exact ⟨List.mem_cons_self, hm⟩
      · exact (place_mem_of_mem_menuBranchesInAll h).imp_left (List.mem_cons_of_mem _)
    · exact (place_mem_of_mem_menuBranchesInAll h).imp_left (List.mem_cons_of_mem _)

theorem place_mem_of_mem_menuBranchesInAll {above : List Item} {bs : List (Branch Item)}
    {menu : List Item × Branch Item} (h : menu ∈ menuBranchesInAll above bs) :
    ⟨menu.1, menu.2⟩ ∈ Branch.placesAll above bs ∧ menu.2.label.isMenuBuilder = true := by
  cases bs with
  | nil => cases h
  | cons b bs =>
    unfold menuBranchesInAll at h
    unfold Branch.placesAll
    rcases List.mem_append.1 h with h | h
    · exact (place_mem_of_mem_menuBranchesIn h).imp_left (List.mem_append_left _)
    · exact (place_mem_of_mem_menuBranchesInAll h).imp_left (List.mem_append_right _)

end

namespace Form

variable {f : Form} {d : Dialect} {c : Collected} {m : Construction}

/-- The constructor, and the handlers of the context menus. -/
def constructions (f : Form) (d : Dialect) (c : Collected) : List Construction :=
  { site := f.site d c.images
    steps := f.constructorSteps d c
    trace := f.traceConstructor d c }
  :: f.menuBranches.map fun (above, b) =>
    { site := { f.site d c.images with inMenu := true }
      steps := f.menuSteps d c above b
      trace := f.traceMenu d c above b }

/-- The trace of a method is the method. -/
theorem leavesAll_of_mem_constructions (hm : m ∈ f.constructions d c) :
    Step.leavesAll [] m.steps = m.trace.map Traced.erase := by
  unfold constructions at hm
  rcases List.mem_cons.1 hm with rfl | hm
  · exact f.leavesAll_constructorSteps d c
  · obtain ⟨⟨above, b⟩, -, rfl⟩ := List.mem_map.1 hm
    exact f.leavesAll_menuSteps d c above b

/-- The method builds the branches, which stand in the form. Its other steps are there for events,
or for the node that the branches stand in, and that node is not created. -/
structure Builds (f : Form) (m : Construction) (above : List Item) (bs : List (Branch Item)) :
    Prop where
  apart : Apart above bs
  inForm : Branch.placesAll above bs ⊆ Branch.places f.above f.branch
  root : ∀ i ∈ above.head?, i.kind.hasConstruction = false
  split : ∃ pre post, m.trace = pre ++ m.site.traceAll [] above [] bs ++ post ∧
    ∀ y ∈ pre ++ post, y.path = [] ∨ y.path = above

theorem Sound.apart (h : f.Sound) : Apart f.above [f.branch] := by
  have nodes : f.branch.nodes = f.spots.map fun sp => sp.item.node := by
    rw [Branch.nodes, ← map_item_spotsOf f.above, List.map_map]
    rfl
  refine ⟨?_, ?_⟩
  · rw [Branch.nodesAll_singleton, nodes]
    exact List.Nodup.of_map Node.id (by rw [List.map_map]; exact h.nodup_ids)
  · rw [Branch.nodesAll_singleton, nodes]
    intro n hn hn'
    obtain ⟨i, hi, rfl⟩ := List.mem_map.1 hn
    obtain ⟨sp, hsp, heq⟩ := List.mem_map.1 hn'
    exact absurd (congrArg Node.id heq) (Nat.ne_of_gt (h.above_lt i hi sp hsp))

theorem path_of_mem_traceEvents {blocks : List String} {uses : List EventUse} {y : Traced}
    (h : y ∈ uses.map (f.traceEvent blocks)) : y.path = [] := by
  obtain ⟨u, -, rfl⟩ := List.mem_map.1 h
  rfl

theorem path_of_mem_traceBindings {events : EventTables} {y : Traced}
    (h : y ∈ f.traceBindings events) : y.path = [] := by
  have none := not_node_of_mem_traceBindings h
  unfold Traced.path
  cases horigin : y.origin with
  | node p => exact absurd horigin (none p)
  | event | menu => rfl

theorem builds_constructor (h : f.Sound) :
    f.Builds { site := f.site d c.images, steps := f.constructorSteps d c,
               trace := f.traceConstructor d c } f.path f.children where
  apart := h.apart.children
  inForm := List.subset_cons_self _ _
  root i hi := by
    obtain rfl := Option.some.inj hi
    have form : f.node.kind.category = .form := beq_iff_eq.1 h.isForm
    change f.node.kind.hasConstruction = false
    rw [Kind.hasConstruction, form]
  split := by
    refine ⟨Traced.mark [] (.node f.place) ((f.site d c.images).formSettings f.element),
      Traced.mark [] (.node f.place) (Site.formFinish f.element)
        ++ Traced.mark [] (.node f.place) [.gap] ++ f.traceBindings c.events, ?_, ?_⟩
    · simp only [traceConstructor, trace, List.append_assoc]
    · intro y hy
      simp only [List.mem_append] at hy
      rcases hy with hy | (hy | hy) | hy
      · exact Or.inr (Traced.path_of_mem_mark hy)
      · exact Or.inr (Traced.path_of_mem_mark hy)
      · exact Or.inr (Traced.path_of_mem_mark hy)
      · exact Or.inl (path_of_mem_traceBindings hy)

theorem builds_menu (h : f.Sound) {above : List Item} {i : Item} {cs : List (Branch Item)}
    (hmenu : (above, .mk i cs) ∈ f.menuBranches) :
    f.Builds { site := { f.site d c.images with inMenu := true },
               steps := f.menuSteps d c above (.mk i cs),
               trace := f.traceMenu d c above (.mk i cs) } (i :: above) cs := by
  obtain ⟨hplace, hm⟩ := place_mem_of_mem_menuBranchesIn hmenu
  exact
    { apart := (h.apart.of_mem_places hplace).children
      inForm := List.Subset.trans (List.subset_cons_self _ _) (Branch.places_subset hplace)
      root := by
        intro j hj
        obtain rfl := Option.some.inj hj
        have kind : i.kind = .contextMenuEvent := beq_iff_eq.1 hm
        rw [kind]
        rfl
      split := by
        refine ⟨_, _, rfl, fun y hy => ?_⟩
        rcases List.mem_append.1 hy with hy | hy
        · exact Or.inr (Traced.path_of_mem_mark hy)
        · exact Or.inl (path_of_mem_traceEvents hy) }

/-- **A method of a form builds branches of the form.** -/
theorem exists_builds (h : f.Sound) (hm : m ∈ f.constructions d c) :
    ∃ above bs, f.Builds m above bs := by
  unfold constructions at hm
  rcases List.mem_cons.1 hm with rfl | hm
  · exact ⟨_, _, builds_constructor h⟩
  · obtain ⟨⟨above, i, cs⟩, hmenu, rfl⟩ := List.mem_map.1 hm
    exact ⟨_, _, builds_menu h hmenu⟩

/-- **A node of the form has a stretch in each method that has a step for it.** -/
theorem hasStretch_of_mem_constructions (h : f.Sound) (hm : m ∈ f.constructions d c)
    {q : Branch.Place Item} (hq : q ∈ Branch.places f.above f.branch)
    (hk : q.label.kind.hasConstruction = true) {x : Traced} (hx : x ∈ m.trace)
    (hfor : x.isFor q.label.node = true) : m.site.HasStretch q m.trace := by
  obtain ⟨above, bs, apart, inForm, root, pre, post, split, around⟩ := exists_builds h hm
  have notAround : x ∉ pre ++ post := by
    intro hy
    obtain ⟨p, origin, node⟩ := Traced.isFor_iff.1 hfor
    have path := Traced.path_of_origin origin
    rcases around x hy with hnone | hpath
    · rw [hnone] at path
      cases path
    · have kind := root p.item (by rw [← hpath, path]; rfl)
      rw [Item.kind, node] at kind
      cases kind.symm.trans hk
  have hx : x ∈ m.site.traceAll [] above [] bs := by
    rw [split] at hx
    simp only [List.mem_append, not_or] at hx notAround
    rcases hx with (hx | hx) | hx
    · exact absurd hx notAround.1
    · exact hx
    · exact absurd hx notAround.2
  -- the place is one of the branches, since no other place has its node
  have hq : q ∈ Branch.placesAll above bs := by
    have hnode := Site.mem_nodesAll_of_isFor hx hfor
    rw [Branch.nodesAll, ← Branch.map_label_placesAll above, List.map_map] at hnode
    obtain ⟨r, hr, heq⟩ := List.mem_map.1 hnode
    have nodup := h.apart.nodup
    rw [Branch.nodesAll_singleton, Branch.nodes, ← Branch.map_label_places f.above,
      List.map_map] at nodup
    rwa [← List.inj_on_of_nodup_map nodup (inForm hr) hq heq]
  have outside : ∀ y ∈ pre ++ post, y.IsOutside q.branch := by
    intro y hy
    rcases around y hy with hpath | hpath
    · rw [Traced.IsOutside, hpath]
      exact List.disjoint_nil_left _
    · rw [Traced.IsOutside, hpath]
      exact List.disjoint_of_subset_right (Branch.nodes_subset_of_mem_placesAll hq) apart.disjoint
  rw [split]
  exact ((Site.hasStretch_traceAll apart hq hx hfor).prepend
    fun y hy => outside y (List.mem_append_left _ hy)).append
    fun y hy => outside y (List.mem_append_right _ hy)

end Form

/-- The place of a node that the method creates has a stretch, and the node can be created. -/
theorem Construction.Creates.hasStretch {f : Form} {d : Dialect} {c : Collected} {m : Construction}
    {i : Item} (created : m.Creates i) (h : f.Sound) (hm : m ∈ f.constructions d c)
    {q : Branch.Place Item} (hq : q ∈ Branch.places f.above f.branch) (hi : q.label = i)
    (hk : i.kind.hasConstruction = true) :
    m.site.HasStretch q m.trace ∧ m.site.creates i.kind = true := by
  subst hi
  obtain ⟨x, hx, hfor, className, hc⟩ := created
  have stretch := Form.hasStretch_of_mem_constructions h hm hq hk hx hfor
  exact ⟨stretch, stretch.creates hx hfor hc⟩

end FormDesign
