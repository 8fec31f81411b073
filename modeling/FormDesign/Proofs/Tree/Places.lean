import FormDesign.Proofs.Tree.Built
import Mathlib.Data.List.Flatten

/-!
# Places in a branch

Every node of a branch is the root of a branch inside of it, and the nodes above it lead to it. For
a branch of a tree these are the ancestors that the tree tells, as far as they are in the branch.

* `Branch.places`: the branches inside of a branch, with the labels above them
* `Branch.pruned`: the labels that are left when some branches are cut off
* `Branch.trimmed`: the branch that is left
* `Tree.WellFormed.of_mem_places`: the places in a branch of a tree
* `Tree.WellFormed.mem_pruned_branchAt`: what is left of a branch of a tree, by the ancestors
-/

namespace FormDesign

namespace Branch

/-- A branch inside of another one, with the labels above it, nearest first. -/
structure Place (α : Type) where
  above : List α
  branch : Branch α

variable {α β : Type}

namespace Place

/-- The label at the place. -/
def label (q : Place α) : α :=
  q.branch.label

/-- The same place when there is more above. -/
def under (more : List α) (q : Place α) : Place α :=
  { q with above := q.above ++ more }

/-- The same place with every label changed by `f`. -/
def map (f : α → β) (q : Place α) : Place β where
  above := q.above.map f
  branch := q.branch.map f

end Place

mutual

/-- The places of a branch in pre-order, below some labels. -/
def places (above : List α) : Branch α → List (Place α)
  | .mk a cs => ⟨above, .mk a cs⟩ :: placesAll (a :: above) cs

/-- The places of several branches. -/
def placesAll (above : List α) : List (Branch α) → List (Place α)
  | [] => []
  | b :: bs => places above b ++ placesAll above bs

end

theorem places_eq (above : List α) (b : Branch α) :
    places above b = ⟨above, b⟩ :: placesAll (b.label :: above) b.children := by
  cases b
  rfl

theorem placesAll_eq (above : List α) (bs : List (Branch α)) :
    placesAll above bs = bs.flatMap (places above) := by
  induction bs with
  | nil => rfl
  | cons b bs ih => simp [placesAll, ih]

mutual

/-- The places of a branch that is relabelled. -/
theorem places_map (f : α → β) (above : List α) (b : Branch α) :
    places (above.map f) (b.map f) = (places above b).map (Place.map f) := by
  cases b with
  | mk a cs =>
    unfold map places
    rw [List.map_cons, ← placesAll_mapAll f (a :: above) cs]
    rfl

theorem placesAll_mapAll (f : α → β) (above : List α) (bs : List (Branch α)) :
    placesAll (above.map f) (mapAll f bs) = (placesAll above bs).map (Place.map f) := by
  cases bs with
  | nil => rfl
  | cons b bs =>
    unfold mapAll placesAll
    rw [List.map_append, places_map f above b, placesAll_mapAll f above bs]

end

theorem self_mem_places (above : List α) (b : Branch α) : ⟨above, b⟩ ∈ places above b := by
  rw [places_eq]
  exact List.mem_cons_self

mutual

theorem map_label_places (above : List α) (b : Branch α) :
    (places above b).map Place.label = b.toList := by
  cases b with
  | mk a cs =>
    unfold places toList
    rw [List.map_cons, map_label_placesAll (a :: above) cs]
    rfl

theorem map_label_placesAll (above : List α) (bs : List (Branch α)) :
    (placesAll above bs).map Place.label = toListAll bs := by
  cases bs with
  | nil => rfl
  | cons b bs =>
    unfold placesAll toListAll
    rw [List.map_append, map_label_places above b, map_label_placesAll above bs]

end

mutual

/-- What is above the branch is above all of its places. -/
theorem places_append (above more : List α) (b : Branch α) :
    places (above ++ more) b = (places above b).map (Place.under more) := by
  cases b with
  | mk a cs =>
    unfold places
    rw [List.map_cons, ← placesAll_append (a :: above) more cs]
    rfl

theorem placesAll_append (above more : List α) (bs : List (Branch α)) :
    placesAll (above ++ more) bs = (placesAll above bs).map (Place.under more) := by
  cases bs with
  | nil => rfl
  | cons b bs =>
    unfold placesAll
    rw [List.map_append, places_append above more b, placesAll_append above more bs]

end

mutual

/-- The labels above a place are in the branch, or above it. -/
theorem above_of_mem_places {above : List α} {b : Branch α} {q : Place α}
    (hq : q ∈ places above b) {a : α} (ha : a ∈ q.above) : a ∈ above ∨ a ∈ b.toList := by
  cases b with
  | mk c cs =>
    unfold places at hq
    unfold toList
    rcases List.mem_cons.1 hq with rfl | hq
    · exact Or.inl ha
    · rcases above_of_mem_placesAll hq ha with ha | ha
      · rcases List.mem_cons.1 ha with rfl | ha
        · exact Or.inr List.mem_cons_self
        · exact Or.inl ha
      · exact Or.inr (List.mem_cons_of_mem _ ha)

theorem above_of_mem_placesAll {above : List α} {bs : List (Branch α)} {q : Place α}
    (hq : q ∈ placesAll above bs) {a : α} (ha : a ∈ q.above) : a ∈ above ∨ a ∈ toListAll bs := by
  cases bs with
  | nil => cases hq
  | cons b bs =>
    unfold placesAll at hq
    unfold toListAll
    rw [List.mem_append]
    rcases List.mem_append.1 hq with hq | hq
    · exact (above_of_mem_places hq ha).imp_right Or.inl
    · exact (above_of_mem_placesAll hq ha).imp_right Or.inr

end

/-- What is above several branches is above all of their places, below labels of the branches. -/
theorem exists_above_of_mem_placesAll {above : List α} {bs : List (Branch α)} {q : Place α}
    (hq : q ∈ placesAll above bs) : ∃ zs, q.above = zs ++ above ∧ ∀ z ∈ zs, z ∈ toListAll bs := by
  rw [← List.nil_append above, placesAll_append] at hq
  obtain ⟨r, hr, rfl⟩ := List.mem_map.1 hq
  exact ⟨r.above, rfl, fun z hz => (above_of_mem_placesAll hr hz).resolve_left List.not_mem_nil⟩

mutual

/-- The places of a branch inside of another one are places of the other one. -/
theorem places_subset {above : List α} {b : Branch α} {q : Place α} (hq : q ∈ places above b) :
    places q.above q.branch ⊆ places above b := by
  cases b with
  | mk a cs =>
    unfold places at hq
    rcases List.mem_cons.1 hq with rfl | hq
    · exact List.Subset.refl _
    · rw [places.eq_def above (.mk a cs)]
      exact List.Subset.trans (placesAll_subset hq) (List.subset_cons_self _ _)

theorem placesAll_subset {above : List α} {bs : List (Branch α)} {q : Place α}
    (hq : q ∈ placesAll above bs) : places q.above q.branch ⊆ placesAll above bs := by
  cases bs with
  | nil => cases hq
  | cons b bs =>
    unfold placesAll at hq
    rw [placesAll.eq_def above (b :: bs)]
    rcases List.mem_append.1 hq with hq | hq
    · exact List.Subset.trans (places_subset hq) (List.subset_append_left _ _)
    · exact List.Subset.trans (placesAll_subset hq) (List.subset_append_right _ _)

end

mutual

/-- The labels of a branch inside of another one come one after the other in the other one. -/
theorem toList_infix_of_mem_places {above : List α} {b : Branch α} {q : Place α}
    (hq : q ∈ places above b) : q.branch.toList <:+: b.toList := by
  cases b with
  | mk a cs =>
    unfold places at hq
    rcases List.mem_cons.1 hq with rfl | hq
    · exact List.infix_rfl
    · rw [toList]
      exact List.infix_cons (toList_infix_of_mem_placesAll hq)

theorem toList_infix_of_mem_placesAll {above : List α} {bs : List (Branch α)} {q : Place α}
    (hq : q ∈ placesAll above bs) : q.branch.toList <:+: toListAll bs := by
  cases bs with
  | nil => cases hq
  | cons b bs =>
    unfold placesAll at hq
    rw [toListAll]
    rcases List.mem_append.1 hq with hq | hq
    · exact (toList_infix_of_mem_places hq).trans (List.prefix_append _ _).isInfix
    · exact (toList_infix_of_mem_placesAll hq).trans (List.suffix_append _ _).isInfix

end

theorem child_mem_places (above : List α) {b c : Branch α} (hc : c ∈ b.children) :
    ⟨b.label :: above, c⟩ ∈ places above b := by
  rw [places_eq, placesAll_eq]
  exact List.mem_cons_of_mem _ (List.mem_flatMap.2 ⟨c, hc, self_mem_places _ c⟩)

/-- The places below a place of a branch are below the branch. -/
theorem placesAll_children_subset {above : List α} {b : Branch α} {q : Place α}
    (hq : q ∈ places above b) :
    placesAll (q.label :: q.above) q.branch.children ⊆ placesAll (b.label :: above) b.children := by
  rw [places_eq] at hq
  rcases List.mem_cons.1 hq with rfl | hq
  · exact List.Subset.refl _
  · refine List.Subset.trans (fun r hr => ?_) (placesAll_subset hq)
    rw [places_eq]
    exact List.mem_cons_of_mem _ hr

/-- More is above a place below a branch than above the branch. -/
theorem above_ne_of_mem_placesAll {a : α} {above : List α} {bs : List (Branch α)} {q : Place α}
    (hq : q ∈ placesAll (a :: above) bs) : q.above ≠ above := by
  obtain ⟨zs, habove, -⟩ := exists_above_of_mem_placesAll hq
  intro heq
  have length := congrArg List.length (heq.symm.trans habove)
  simp at length
  omega

theorem toList_sublist_of_mem_children {b c : Branch α} (hc : c ∈ b.children) :
    c.toList.Sublist b.toList := by
  cases b with
  | mk a cs =>
    have sublist := (List.singleton_sublist.2 hc).flatMap toList
    rw [List.flatMap_singleton, ← toListAll_eq] at sublist
    exact sublist.cons a

/-! ## Cutting off branches -/

mutual

/-- The labels in pre-order, without the branches whose label fails. -/
def pruned (ok : α → Bool) : Branch α → List α
  | .mk a cs => if ok a then a :: prunedAll ok cs else []

/-- The labels of several branches, without the branches whose label fails. -/
def prunedAll (ok : α → Bool) : List (Branch α) → List α
  | [] => []
  | b :: bs => pruned ok b ++ prunedAll ok bs

end

mutual

theorem pruned_map (f : α → β) (ok : β → Bool) (b : Branch α) :
    (b.map f).pruned ok = (b.pruned (ok ∘ f)).map f := by
  cases b with
  | mk a cs =>
    unfold map pruned
    rw [prunedAll_mapAll f ok cs, Function.comp_apply]
    split <;> rfl

theorem prunedAll_mapAll (f : α → β) (ok : β → Bool) (bs : List (Branch α)) :
    prunedAll ok (mapAll f bs) = (prunedAll (ok ∘ f) bs).map f := by
  cases bs with
  | nil => rfl
  | cons b bs =>
    unfold mapAll prunedAll
    rw [List.map_append, pruned_map f ok b, prunedAll_mapAll f ok bs]

end

/-- Whether neither the label nor one above it fails. -/
def Place.passes (ok : α → Bool) (q : Place α) : Bool :=
  ok q.label && q.above.all ok

mutual

theorem filter_places_of_fail {ok : α → Bool} {above : List α} (fail : above.all ok = false)
    (b : Branch α) : (places above b).filter (Place.passes ok) = [] := by
  cases b with
  | mk a cs =>
    have below : (a :: above).all ok = false := by rw [List.all_cons, fail, Bool.and_false]
    unfold places
    rw [List.filter_cons, filter_placesAll_of_fail below cs, Place.passes, fail, Bool.and_false]
    rfl

theorem filter_placesAll_of_fail {ok : α → Bool} {above : List α} (fail : above.all ok = false)
    (bs : List (Branch α)) : (placesAll above bs).filter (Place.passes ok) = [] := by
  cases bs with
  | nil => rfl
  | cons b bs =>
    unfold placesAll
    rw [List.filter_append, filter_places_of_fail fail b, filter_placesAll_of_fail fail bs]
    rfl

end

mutual

/-- The labels that are left are those at the places where nothing fails. -/
theorem pruned_eq {ok : α → Bool} (above : List α) (pass : above.all ok = true) (b : Branch α) :
    b.pruned ok = ((places above b).filter (Place.passes ok)).map Place.label := by
  cases b with
  | mk a cs =>
    have self : Place.passes ok ⟨above, .mk a cs⟩ = ok a := by
      rw [Place.passes, pass, Bool.and_true]
      rfl
    unfold places pruned
    rw [List.filter_cons, self]
    cases hok : ok a with
    | true =>
      have below : (a :: above).all ok = true := by rw [List.all_cons, hok, pass]; rfl
      rw [prunedAll_eq (a :: above) below cs]
      rfl
    | false =>
      have below : (a :: above).all ok = false := by rw [List.all_cons, hok, Bool.false_and]
      rw [filter_placesAll_of_fail below cs]
      rfl

theorem prunedAll_eq {ok : α → Bool} (above : List α) (pass : above.all ok = true)
    (bs : List (Branch α)) :
    prunedAll ok bs = ((placesAll above bs).filter (Place.passes ok)).map Place.label := by
  cases bs with
  | nil => rfl
  | cons b bs =>
    unfold placesAll prunedAll
    rw [List.filter_append, List.map_append, pruned_eq above pass b, prunedAll_eq above pass bs]

end

theorem pruned_sublist (ok : α → Bool) (b : Branch α) : (b.pruned ok).Sublist b.toList := by
  rw [pruned_eq [] rfl, ← map_label_places []]
  exact List.filter_sublist.map _

mutual

/-- The branch without the branches below it whose label fails. -/
def trimmed (ok : α → Bool) : Branch α → Branch α
  | .mk a cs => .mk a (trimmedAll ok cs)

/-- Several branches, without those whose label fails and those below that do. -/
def trimmedAll (ok : α → Bool) : List (Branch α) → List (Branch α)
  | [] => []
  | b :: bs => if ok b.label then trimmed ok b :: trimmedAll ok bs else trimmedAll ok bs

end

@[simp] theorem label_trimmed (ok : α → Bool) (b : Branch α) : (b.trimmed ok).label = b.label := by
  cases b
  rfl

mutual

/-- A branch that is trimmed has the labels that are left when the others are cut off. -/
theorem toList_trimmed {ok : α → Bool} {b : Branch α} (pass : ok b.label = true) :
    (b.trimmed ok).toList = b.pruned ok := by
  cases b with
  | mk a cs =>
    have pass : ok a = true := pass
    rw [trimmed, toList, toListAll_trimmedAll ok cs, pruned, if_pos pass]

theorem toListAll_trimmedAll (ok : α → Bool) (bs : List (Branch α)) :
    toListAll (trimmedAll ok bs) = prunedAll ok bs := by
  cases bs with
  | nil => rfl
  | cons b bs =>
    unfold trimmedAll prunedAll
    split
    · next pass => rw [toListAll, toList_trimmed pass, toListAll_trimmedAll ok bs]
    · next fail =>
      have none : b.pruned ok = [] := by
        obtain ⟨a, cs⟩ := b
        rw [pruned]
        exact if_neg fail
      rw [none, List.nil_append, toListAll_trimmedAll ok bs]

end

end Branch

/-! ## Branches of a tree -/

namespace Tree

variable {t : Tree}

open Branch (Place places)

/-- A place in a branch of a tree holds the branch of its node, and the ancestors of the node are
above it. -/
theorem WellFormed.of_mem_places (h : t.WellFormed) {id : Nat} {hid : id < t.nodes.size}
    {q : Place Node} (hq : q ∈ places (t.ancestors id) (t.branchAt id hid)) :
    (∃ hk : q.label.id < t.nodes.size, q.branch = t.branchAt q.label.id hk) ∧
      q.above = t.ancestors q.label.id := by
  induction id, hid using branchAt.induct t with
  | case1 id hid ih =>
    have label : (t.branchAt id hid).label.id = id := by rw [label_branchAt, t.id_eq]
    rw [branchAt_eq, places, Branch.placesAll_eq, ← branchAt_eq hid] at hq
    rcases List.mem_cons.1 hq with rfl | hq
    · simp only [Place.label, label]
      exact ⟨⟨hid, trivial⟩, trivial⟩
    · obtain ⟨b, hb, hq⟩ := List.mem_flatMap.1 hq
      obtain ⟨c, hc, heq⟩ := List.mem_filterMap.1 hb
      unfold branch? at heq
      split at heq
      · obtain rfl := Option.some.inj heq
        refine ih c hc ?_
        rwa [ancestors_of_parent? hid (h.parent?_of_mem_children hid hc)]
      · cases heq

/-- The same place in a branch, below the ancestors of the branch. -/
theorem under_mem_places {id : Nat} {hid : id < t.nodes.size} {q : Place Node}
    (hq : q ∈ places [] (t.branchAt id hid)) :
    q.under (t.ancestors id) ∈ places (t.ancestors id) (t.branchAt id hid) := by
  rw [← List.nil_append (t.ancestors id), Branch.places_append]
  exact List.mem_map_of_mem hq

/-- A place in a branch of a tree holds the branch of its node, whatever is above it. -/
theorem WellFormed.branch_eq_of_mem_places (h : t.WellFormed) {id : Nat} {hid : id < t.nodes.size}
    {above : List Node} {q : Place Node} (hq : q ∈ places above (t.branchAt id hid)) :
    ∃ hk : q.label.id < t.nodes.size, q.branch = t.branchAt q.label.id hk := by
  rw [← List.nil_append above, Branch.places_append] at hq
  obtain ⟨r, hr, rfl⟩ := List.mem_map.1 hq
  exact (h.of_mem_places (under_mem_places hr)).1

/-- The ancestors of a node in a branch, as far as they are in it. -/
theorem WellFormed.ancestors_of_mem_places (h : t.WellFormed) {id : Nat} {hid : id < t.nodes.size}
    {q : Place Node} (hq : q ∈ places [] (t.branchAt id hid)) :
    t.ancestors q.label.id = q.above ++ t.ancestors id :=
  (h.of_mem_places (under_mem_places hq)).2.symm

/-- A node stands above a place in a branch if it is an ancestor in the branch. -/
theorem WellFormed.mem_above_iff (h : t.WellFormed) {id : Nat} {hid : id < t.nodes.size}
    {q : Place Node} (hq : q ∈ places [] (t.branchAt id hid)) {a : Node} :
    a ∈ q.above ↔ a ∈ t.ancestors q.label.id ∧ a ∈ t.descendants id := by
  rw [h.ancestors_of_mem_places hq, descendants_eq hid, List.mem_append]
  constructor
  · intro ha
    refine ⟨Or.inl ha, ?_⟩
    rcases Branch.above_of_mem_places hq ha with hnone | ha
    · cases hnone
    · exact ha
  · rintro ⟨ha | ha, hinside⟩
    · exact ha
    · -- an ancestor of the root of the branch comes before all of the branch
      have under := (h.under_of_mem_branchAt hid hinside).2
      exact absurd (lt_of_mem_ancestors ha) (Nat.not_lt.2 under.le)

theorem WellFormed.mem_pruned_branchAt (h : t.WellFormed) {id : Nat} (hid : id < t.nodes.size)
    {ok : Node → Bool} {n : Node} (hn : n ∈ t.descendants id) :
    n ∈ (t.branchAt id hid).pruned ok
      ↔ ok n = true ∧ ∀ a ∈ t.ancestors n.id, a ∈ t.descendants id → ok a = true := by
  rw [descendants_eq hid] at hn
  have passes {q : Place Node} (hq : q ∈ places [] (t.branchAt id hid)) :
      q.passes ok = true
        ↔ ok q.label = true
          ∧ ∀ a ∈ t.ancestors q.label.id, a ∈ t.descendants id → ok a = true := by
    rw [Place.passes, Bool.and_eq_true, List.all_eq_true]
    refine and_congr_right fun _ => ⟨fun hall a ha hin => ?_, fun hall a ha => ?_⟩
    · exact hall a ((h.mem_above_iff hq).2 ⟨ha, hin⟩)
    · obtain ⟨ha, hin⟩ := (h.mem_above_iff hq).1 ha
      exact hall a ha hin
  rw [Branch.pruned_eq [] rfl, List.mem_map]
  constructor
  · rintro ⟨q, hq, rfl⟩
    obtain ⟨hq, hpass⟩ := List.mem_filter.1 hq
    exact (passes hq).1 hpass
  · intro hpass
    rw [← Branch.map_label_places []] at hn
    obtain ⟨q, hq, rfl⟩ := List.mem_map.1 hn
    exact ⟨q, List.mem_filter.2 ⟨hq, (passes hq).2 hpass⟩, rfl⟩

/-- The nearest selector above a node is that of its platform container. -/
theorem selector?_platformContainer? (t : Tree) (id : Nat) :
    (t.platformContainer? id).bind (fun n => n.selector?)
      = (t.ancestors id).findSome? fun n => n.selector? := by
  rw [platformContainer?]
  induction t.ancestors id with
  | nil => rfl
  | cons n rest ih =>
    rw [List.find?_cons, List.findSome?_cons]
    cases hn : n.selector? with
    | none => simpa [hn] using ih
    | some selector => simp [hn]

end Tree

end FormDesign
