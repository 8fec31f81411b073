import FormDesign.Proofs.Tree.Built

/-!
# Copies of subtrees

A design that is laid out in a tree is read from there again as it was, and the walk over it meets
the nodes one after the other as they stand. So a tree gives back the design that it was made of,
and the copy of a subtree reads as the subtree does. Nothing else of the tree is changed by a copy
but the children of the node that it was put under.

* `Tree.Holds`: nodes that stand in a tree one after the other
* `Tree.exists_branch_of_holds`: the branch of a design that was laid out
* `Tree.Copied`: what comes of copying a subtree
* `Tree.copySubtree_faithful`: designs are given back, and subtrees are copied
-/

namespace FormDesign

/-! ## Counting nodes -/

namespace Branch

variable {α : Type}

mutual

theorem length_toList (b : Branch α) : b.toList.length = b.size := by
  cases b with
  | mk a cs => rw [toList, List.length_cons, length_toListAll cs, size, Nat.add_comm]

theorem length_toListAll (bs : List (Branch α)) : (toListAll bs).length = sizeAll bs := by
  cases bs with
  | nil => rfl
  | cons b bs => rw [toListAll, List.length_append, length_toList b, length_toListAll bs, sizeAll]

end

end Branch

theorem Design.map_id_lay (parent : Option Nat) (start : Nat) (b : Design) :
    (lay parent start b).map Node.id = List.range' start b.size := by
  refine List.ext_getElem (by simp [length_lay]) fun k hk _ => ?_
  rw [List.getElem_map, id_lay, List.getElem_range', Nat.one_mul]

namespace Tree

/-! ## Designs that are laid out in a tree -/

/-- The nodes stand in the tree one after the other, from a position on. -/
def Holds (t : Tree) (start : Nat) (ns : List Node) : Prop :=
  ∀ k (hk : k < ns.length), t.get? (start + k) = some ns[k]

variable {t : Tree} {start : Nat} {n : Node} {ns ms : List Node}

theorem holds_cons (h : t.Holds start (n :: ns)) :
    t.get? start = some n ∧ t.Holds (start + 1) ns := by
  refine ⟨h 0 (Nat.succ_pos _), fun k hk => ?_⟩
  rw [Nat.add_assoc, Nat.add_comm 1 k]
  exact h (k + 1) (Nat.succ_lt_succ hk)

theorem holds_append (h : t.Holds start (ns ++ ms)) :
    t.Holds start ns ∧ t.Holds (start + ns.length) ms := by
  constructor
  · intro k hk
    have both := h k (by rw [List.length_append]; omega)
    rwa [List.getElem_append_left hk] at both
  · intro k hk
    have both := h (ns.length + k) (by rw [List.length_append]; omega)
    rw [List.getElem_append_right (Nat.le_add_right _ _), ← Nat.add_assoc] at both
    simpa using both

/-- The branch at a node is made of the branches at its children. -/
theorem branch?_of_get? {id : Nat} (h : t.get? id = some n) :
    t.branch? id = some (.mk n (n.children.filterMap t.branch?)) := by
  obtain ⟨hid, rfl⟩ := Array.getElem?_eq_some_iff.1 h
  rw [branch?, dif_pos hid, branchAt_eq]

mutual

/-- Where a design was laid out, its branch has the laid out nodes in pre-order, and the elements of
the design. -/
theorem exists_branch_of_holds {parent : Option Nat} {start : Nat} {b : Design}
    (h : t.Holds start (Design.lay parent start b)) :
    ∃ bn, t.branch? start = some bn ∧ bn.toList = Design.lay parent start b ∧
      bn.map Node.toElement = b := by
  cases b with
  | mk e cs =>
    rw [Design.lay] at h ⊢
    obtain ⟨hroot, hrest⟩ := holds_cons h
    obtain ⟨hlist, hmap⟩ := filterMap_branch?_of_holds hrest
    refine ⟨_, branch?_of_get? hroot, ?_, ?_⟩
    · rw [Branch.toList, hlist]
    · rw [Branch.map, hmap]

/-- The same for several designs below one node. -/
theorem filterMap_branch?_of_holds {parent start : Nat} {bs : List Design}
    (h : t.Holds start (Design.layAll parent start bs)) :
    Branch.toListAll ((Design.starts start bs).filterMap t.branch?)
        = Design.layAll parent start bs ∧
      Branch.mapAll Node.toElement ((Design.starts start bs).filterMap t.branch?) = bs := by
  cases bs with
  | nil => exact ⟨rfl, rfl⟩
  | cons b bs =>
    rw [Design.layAll] at h ⊢
    obtain ⟨hfirst, hrest⟩ := holds_append h
    rw [Design.length_lay] at hrest
    obtain ⟨bn, hbn, hlist, hmap⟩ := exists_branch_of_holds hfirst
    obtain ⟨hlists, hmaps⟩ := filterMap_branch?_of_holds hrest
    rw [Design.starts, List.filterMap_cons_some hbn, Branch.toListAll, Branch.mapAll, hlist, hmap,
      hlists, hmaps]
    exact ⟨rfl, rfl⟩

end

theorem design_of_holds {parent : Option Nat} {b : Design}
    (h : t.Holds start (Design.lay parent start b)) : t.design start = .ok b := by
  obtain ⟨bn, hbn, -, hmap⟩ := exists_branch_of_holds h
  rw [design, hbn]
  exact congrArg Except.ok hmap

theorem descendants_of_holds {parent : Option Nat} {b : Design}
    (h : t.Holds start (Design.lay parent start b)) :
    t.descendants start = Design.lay parent start b := by
  obtain ⟨bn, hbn, hlist, -⟩ := exists_branch_of_holds h
  rw [descendants, hbn, Branch.visit_eq, ← hlist]
  exact List.append_nil _

theorem holds_ofDesign (b : Design) : (ofDesign b).Holds 0 (Design.lay none 0 b) := by
  intro k hk
  rw [Nat.zero_add, get?, ofDesign, List.getElem?_toArray, List.getElem?_eq_getElem hk]

/-- **A tree gives back the design that it was made of.** -/
theorem design_ofDesign (b : Design) : (ofDesign b).design root = .ok b :=
  design_of_holds (holds_ofDesign b)

/-! ## Growing -/

variable {parent : Nat} {b : Design}

theorem get?_attach_of_lt (hp : parent < t.size) {id : Nat} (hid : id < t.size) :
    (t.attach parent b hp).get? id = (t.get? id).map (t.grow parent) := by
  have hid' : id < t.nodes.toList.length := hid
  rw [get?, ← Array.getElem?_toList, toList_attach, List.getElem?_append_left (by simpa using hid'),
    List.getElem?_map, Array.getElem?_toList, get?]

theorem holds_attach (hp : parent < t.size) :
    (t.attach parent b hp).Holds t.size (Design.lay (some parent) t.size b) := by
  intro k hk
  have behind : (t.nodes.toList.map (t.grow parent)).length = t.size := by
    simp [size]
  rw [get?, ← Array.getElem?_toList, toList_attach,
    List.getElem?_append_right (by rw [behind]; exact Nat.le_add_right _ _), behind,
    Nat.add_sub_cancel_left, List.getElem?_eq_getElem hk]

/-! ## Copies -/

/-- A design that is taken out of a tree has an element for each node of the walk. -/
theorem exists_design {source : Tree} {id : Nat} (hid : id < source.size) :
    ∃ b : Design, source.design id = .ok b ∧ b.size = (source.descendants id).length := by
  have hid : id < source.nodes.size := hid
  refine ⟨(source.branchAt id hid).map Node.toElement, ?_, ?_⟩
  · rw [design, branch?, dif_pos hid]
  · rw [← Branch.length_toList, Branch.toList_map, List.length_map, descendants_eq hid]

theorem design_of_size_le {source : Tree} {id : Nat} (hid : source.size ≤ id) :
    source.design id = .error (.unknownNode id) := by
  have unknown : ¬id < source.nodes.size := Nat.not_lt.2 hid
  rw [design, branch?, dif_neg unknown]

/-- What comes of copying the subtree of `source` at `id` below `parent`: the position of the copy,
and the tree that has grown. -/
structure Copied (t source : Tree) (id parent new : Nat) (grown : Tree) : Prop where
  /-- The copy starts behind all that was there. -/
  new_eq : new = t.size
  /-- It is written down as the subtree is. -/
  design_eq : grown.design new = source.design id
  /-- It takes the next positions in pre-order, one for each node of the subtree. -/
  positions : (grown.descendants new).map Node.id
    = List.range' t.size (source.descendants id).length
  /-- There are no other new nodes. -/
  size_eq : grown.size = t.size + (source.descendants id).length
  /-- Its parent has it as the last child, and is otherwise as it was. -/
  parent_eq : grown.get? parent
    = (t.get? parent).map fun n => { n with children := n.children ++ [new] }
  parent?_eq : grown.parent? new = some parent
  /-- The other nodes are as they were. -/
  others : ∀ i < t.size, i ≠ parent → grown.get? i = t.get? i

/-- A design that stands for a subtree is put below a node. -/
theorem copied_attach {source : Tree} {id : Nat} (hb : source.design id = .ok b)
    (hsize : b.size = (source.descendants id).length) (hp : parent < t.size) :
    Copied t source id parent t.size (t.attach parent b hp) where
  new_eq := rfl
  design_eq := (design_of_holds (holds_attach hp)).trans hb.symm
  positions := by rw [descendants_of_holds (holds_attach hp), Design.map_id_lay, hsize]
  size_eq := (t.size_grown parent b).trans (congrArg (t.size + ·) hsize)
  parent_eq := by
    have old : t.get? parent = some t.nodes[parent] := Array.getElem?_eq_getElem hp
    rw [get?_attach_of_lt hp hp, old, Option.map_some, Option.map_some, grow,
      if_pos (t.id_eq parent hp), withChild]
  parent?_eq := by
    have held := holds_attach (b := b) hp
    obtain ⟨e, cs⟩ := b
    rw [Design.lay] at held
    rw [parent?, (holds_cons held).1, Option.bind_some]
  others i hi hne := by
    have old : t.get? i = some t.nodes[i] := Array.getElem?_eq_getElem hi
    rw [get?_attach_of_lt hp hi, old, Option.map_some, grow, if_neg (by rwa [t.id_eq i hi])]

/-- **Designs are given back, and subtrees are copied.** A tree gives back the design that it was
made of. Copying fails, and then changes nothing, if and only if one of the two nodes is missing;
else the copy reads as the subtree, and all but it and the children of its parent is as before. This
holds of any two trees, also where a subtree is copied into itself. -/
theorem copySubtree_faithful :
    (∀ b : Design, (ofDesign b).design root = .ok b) ∧
      ∀ (t source : Tree) (id parent : Nat),
        ((∃ unknown, t.copySubtree source id parent = .error (.unknownNode unknown))
            ↔ source.size ≤ id ∨ t.size ≤ parent) ∧
          (∀ fault, t.copySubtree source id parent = .error fault →
            t.after (t.copySubtree source id parent) = t) ∧
          (id < source.size → parent < t.size →
            ∃ new grown, t.copySubtree source id parent = .ok (new, grown) ∧
              Copied t source id parent new grown) := by
  refine ⟨design_ofDesign, fun t source id parent => ?_⟩
  have copied (hid : id < source.size) (hp : parent < t.size) :
      ∃ new grown, t.copySubtree source id parent = .ok (new, grown) ∧
        Copied t source id parent new grown := by
    obtain ⟨b, hb, hsize⟩ := exists_design hid
    refine ⟨t.size, t.attach parent b hp, ?_, copied_attach hb hsize hp⟩
    rw [copySubtree, hb]
    exact dif_pos hp
  refine ⟨⟨?_, ?_⟩, fun fault h => by rw [h, after], copied⟩
  · rintro ⟨unknown, h⟩
    by_contra hknown
    rw [not_or, Nat.not_le, Nat.not_le] at hknown
    obtain ⟨new, grown, hok, -⟩ := copied hknown.1 hknown.2
    cases hok.symm.trans h
  · intro h
    -- the subtree is looked for before its new parent
    by_cases hid : id < source.size
    · obtain ⟨b, hb, -⟩ := exists_design hid
      have hp : ¬parent < t.size := Nat.not_lt.2 (h.resolve_left (Nat.not_le.2 hid))
      refine ⟨parent, ?_⟩
      rw [copySubtree, hb]
      exact dif_neg hp
    · refine ⟨id, ?_⟩
      rw [copySubtree, design_of_size_le (Nat.le_of_not_lt hid)]
      rfl

/-- A project with one dialog. -/
def clickProject : Tree :=
  ofDesign (.mk (.ofKind .project) [clickDesign])

/-- The project is copied into its own dialog. -/
theorem copied_clickProject :
    ∃ grown, clickProject.copySubtree clickProject 0 1 = .ok (3, grown) ∧
      Copied clickProject clickProject 0 1 3 grown ∧
        (grown.nodes.map fun n => (n.parent, n.children))
          = #[(none, [1]), (some 0, [2, 3]), (some 1, []), (some 1, [4]), (some 3, [5]),
              (some 4, [])] := by
  have known : 0 < clickProject.size ∧ 1 < clickProject.size := by decide
  obtain ⟨new, grown, heq, copied⟩ :=
    (copySubtree_faithful.2 clickProject clickProject 0 1).2.2 known.1 known.2
  obtain rfl : new = 3 := copied.new_eq.trans (by decide)
  refine ⟨grown, heq, copied, ?_⟩
  have nodes : (clickProject.copySubtree clickProject 0 1).toOption.map (fun r =>
      r.2.nodes.map fun n => (n.parent, n.children)) = some #[(none, [1]), (some 0, [2, 3]),
        (some 1, []), (some 1, [4]), (some 3, [5]), (some 4, [])] := by
    with_unfolding_all rfl
  rw [heq] at nodes
  exact Option.some.inj nodes

end Tree

end FormDesign
