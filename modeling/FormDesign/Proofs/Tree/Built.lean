import FormDesign.Proofs.Tree.Forms
import Mathlib.Data.List.Sort

/-!
# The array of a tree

A tree is built from designs by the operations, also by some that fail. Whatever they are, its
array is in order: each node stands at its own position and after its parent, the children of a node
are the nodes with it as their parent, and a walk from the root meets every node once.

* `Tree.Built`: the trees that are built
* `Tree.WellFormed.perm_descendants`: the walk from the root
* `Tree.Built.inOrder`: what holds of the array
-/

namespace FormDesign

/-! ## Elements that are written down -/

namespace Element

/-- The elements that are written down property by property and event by event. -/
inductive Written : Element → Prop
  | ofKind (k : Kind) : Written (ofKind k)
  | setProp {e : Element} (h : Written e) (p : Property) (value : String) :
      Written (e.setProp p value)
  | setEvent {e : Element} (h : Written e) (name handler : String) :
      Written (e.setEvent name handler)

/-- The properties, each name at most once. -/
def PropsOnce (e : Element) : Prop :=
  (e.props.map Prod.fst).Nodup

/-- Setting a property adds its name at the end, unless it is there. -/
theorem map_fst_putProp (p : Property) (value : String) (props : List (Property × String)) :
    (putProp p value props).map Prod.fst
      = if p ∈ props.map Prod.fst then props.map Prod.fst else props.map Prod.fst ++ [p] := by
  induction props with
  | nil => rfl
  | cons prop rest ih =>
    obtain ⟨q, old⟩ := prop
    unfold putProp
    by_cases heq : q = p
    · simp [heq]
    · rw [if_neg heq, List.map_cons, ih]
      by_cases hm : p ∈ rest.map Prod.fst
      · simp [hm]
      · simp [hm, Ne.symm heq]

theorem PropsOnce.setProp {e : Element} (h : e.PropsOnce) (p : Property) (value : String) :
    (e.setProp p value).PropsOnce := by
  unfold PropsOnce Element.setProp
  rw [map_fst_putProp]
  split
  · exact h
  · next hnew =>
    refine List.nodup_append.2 ⟨h, List.nodup_singleton p, fun q hq r hr => ?_⟩
    rw [List.mem_singleton.1 hr]
    exact fun heq => hnew (heq ▸ hq)

/-- What is written down has each name once. -/
theorem Written.once {e : Element} (h : e.Written) : e.PropsOnce ∧ e.EventsOnce := by
  induction h with
  | ofKind k => exact ⟨List.nodup_nil, eventsOnce_ofKind k⟩
  | setProp _ p value ih => exact ⟨ih.1.setProp p value, ih.2.setProp p value⟩
  | setEvent _ name handler ih => exact ⟨ih.1, ih.2.setEvent name handler⟩

end Element

/-- A design of elements that are written down. -/
def Design.Written (b : Design) : Prop :=
  ∀ e ∈ b.toList, e.Written

theorem Design.Written.eventsOnce {b : Design} (h : b.Written) : b.EventsOnce :=
  fun e he => (h e he).once.2

/-! ## The walk from a node -/

/-- The walk with a list of pending branches meets the labels in pre-order. -/
theorem Branch.visit_eq {α : Type} (bs : List (Branch α)) : visit bs = toListAll bs := by
  fun_induction visit bs with
  | case1 => rfl
  | case2 a cs pending ih =>
    rw [ih, toListAll_eq, toListAll_eq, List.flatMap_append, List.flatMap_cons, toList,
      toListAll_eq, List.cons_append]

namespace Tree

theorem root_lt_size (t : Tree) : root < t.nodes.size :=
  t.size_pos

theorem map_id_nodes (t : Tree) : t.nodes.toList.map Node.id = List.range t.size := by
  refine List.ext_getElem (by simp [size]) fun i hi _ => ?_
  have hlt : i < t.nodes.size := by simpa using hi
  simp [t.id_eq i hlt]

theorem descendants_eq {t : Tree} {id : Nat} (hid : id < t.nodes.size) :
    t.descendants id = (t.branchAt id hid).toList := by
  rw [descendants, branch?, dif_pos hid, Branch.visit_eq]
  exact List.append_nil _

end Tree

/-! ## Laid out nodes -/

namespace Design

/-- The node has its parent among the nodes, and is one of its children there. -/
def Listed (nodes : List Node) (n : Node) : Prop :=
  ∃ m ∈ nodes, n.parent = some m.id ∧ n.id ∈ m.children

theorem Listed.mono {nodes more : List Node} {n : Node} (h : Listed nodes n) (sub : nodes ⊆ more) :
    Listed more n := by
  obtain ⟨m, hm, hn⟩ := h
  exact ⟨m, sub hm, hn⟩

/-- Nodes that keep their names and parents, and their children at least, stay listed. -/
theorem Listed.map {nodes : List Node} {n : Node} (h : Listed nodes n) {g : Node → Node}
    (id_eq : ∀ n, (g n).id = n.id) (parent_eq : ∀ n, (g n).parent = n.parent)
    (children : ∀ n, n.children ⊆ (g n).children) : Listed (nodes.map g) (g n) := by
  obtain ⟨m, hm, hp, hc⟩ := h
  refine ⟨g m, List.mem_map_of_mem hm, ?_, ?_⟩
  · rw [parent_eq, id_eq, hp]
  · rw [id_eq]
    exact children m hc

theorem sorted_starts (start : Nat) (bs : List Design) : (starts start bs).Pairwise (· < ·) := by
  induction bs generalizing start with
  | nil => exact List.Pairwise.nil
  | cons b bs ih =>
    refine List.pairwise_cons.2 ⟨fun c hc => ?_, ih _⟩
    have := (mem_starts hc).1
    have := b.size_pos
    omega

mutual

/-- A laid out node is the root of its design, or it is listed. -/
theorem listed_lay (parent : Option Nat) (start : Nat) (b : Design) {n : Node}
    (hn : n ∈ lay parent start b) :
    (n.id = start ∧ n.parent = parent) ∨ Listed (lay parent start b) n := by
  cases b with
  | mk e cs =>
    unfold lay at hn ⊢
    rcases List.mem_cons.1 hn with rfl | hn
    · exact Or.inl ⟨rfl, rfl⟩
    · rcases listed_layAll start (start + 1) cs hn with ⟨hid, hp⟩ | h
      · exact Or.inr ⟨_, List.mem_cons_self, hp, hid⟩
      · exact Or.inr (h.mono (List.subset_cons_self _ _))

theorem listed_layAll (parent start : Nat) (bs : List Design) {n : Node}
    (hn : n ∈ layAll parent start bs) :
    (n.id ∈ starts start bs ∧ n.parent = some parent) ∨ Listed (layAll parent start bs) n := by
  cases bs with
  | nil => cases hn
  | cons b bs =>
    unfold layAll at hn ⊢
    unfold starts
    rcases List.mem_append.1 hn with hn | hn
    · rcases listed_lay (some parent) start b hn with ⟨rfl, hp⟩ | h
      · exact Or.inl ⟨List.mem_cons_self, hp⟩
      · exact Or.inr (h.mono (List.subset_append_left _ _))
    · rcases listed_layAll parent (start + b.size) bs hn with ⟨hid, hp⟩ | h
      · exact Or.inl ⟨List.mem_cons_of_mem _ hid, hp⟩
      · exact Or.inr (h.mono (List.subset_append_right _ _))

end

mutual

theorem sorted_lay {parent : Option Nat} {start : Nat} {b : Design} {n : Node}
    (hn : n ∈ lay parent start b) : n.children.Pairwise (· < ·) := by
  cases b with
  | mk e cs =>
    unfold lay at hn
    rcases List.mem_cons.1 hn with rfl | hn
    · exact sorted_starts _ _
    · exact sorted_layAll hn

theorem sorted_layAll {parent start : Nat} {bs : List Design} {n : Node}
    (hn : n ∈ layAll parent start bs) : n.children.Pairwise (· < ·) := by
  cases bs with
  | nil => cases hn
  | cons b bs =>
    unfold layAll at hn
    rcases List.mem_append.1 hn with hn | hn
    · exact sorted_lay hn
    · exact sorted_layAll hn

end

end Design

/-! ## Trees -/

namespace Tree

/-- Every node but the root is listed by its parent, children are in the order of their positions,
and elements are written down. -/
structure Listed (t : Tree) : Prop where
  listed : ∀ n ∈ t.nodes, (n.id = root ∧ n.parent = none) ∨ Design.Listed t.nodes.toList n
  sorted : ∀ n ∈ t.nodes, n.children.Pairwise (· < ·)
  written : ∀ n ∈ t.nodes, n.toElement.Written

theorem listed_ofDesign {b : Design} (written : b.Written) : (ofDesign b).Listed where
  listed _ hn := Design.listed_lay none 0 b (List.mem_toArray.1 hn)
  sorted _ hn := Design.sorted_lay (List.mem_toArray.1 hn)
  written _ hn := written _ (Design.mem_lay (List.mem_toArray.1 hn)).1

theorem children_subset_grow (t : Tree) (parent : Nat) (n : Node) :
    n.children ⊆ (t.grow parent n).children := by
  unfold grow
  split
  · exact List.subset_append_left _ _
  · exact List.Subset.refl _

theorem Listed.attach {t : Tree} (h : t.Listed) {parent : Nat} {b : Design} (written : b.Written)
    (hp : parent < t.size) : (t.attach parent b hp).Listed where
  listed n hn := by
    have same := t.grow_same parent
    rw [toList_attach]
    rcases mem_attach hn with ⟨m, hm, rfl⟩ | hn
    · rcases h.listed m hm with ⟨hid, hparent⟩ | hlisted
      · exact Or.inl ⟨(same m).1.trans hid, (same m).2.1.trans hparent⟩
      · have old := hlisted.map (fun n => (same n).1) (fun n => (same n).2.1)
          (t.children_subset_grow parent)
        exact Or.inr (old.mono (List.subset_append_left _ _))
    · rcases Design.listed_lay (some parent) t.size b hn with ⟨hid, hparent⟩ | hlisted
      · -- the new child is listed by the node it was added to
        have hid' := t.id_eq parent hp
        have hmem : t.nodes[parent] ∈ t.nodes.toList :=
          Array.mem_toList_iff.2 (Array.getElem_mem hp)
        refine Or.inr ⟨t.grow parent t.nodes[parent],
          List.mem_append_left _ (List.mem_map_of_mem hmem), ?_, ?_⟩
        · rw [hparent, (same _).1, hid']
        · rw [grow, if_pos hid', hid]
          exact List.mem_append_right _ (List.mem_singleton_self _)
      · exact Or.inr (hlisted.mono (List.subset_append_right _ _))
  sorted n hn := by
    rcases mem_attach hn with ⟨m, hm, rfl⟩ | hn
    · unfold grow
      split
      · refine List.pairwise_append.2 ⟨h.sorted m hm, List.pairwise_singleton _ _, ?_⟩
        intro c hc d hd
        rw [List.mem_singleton.1 hd]
        exact ((t.linked m hm).children_lt c hc).2
      · exact h.sorted m hm
    · exact Design.sorted_lay hn
  written n hn := by
    rcases mem_attach hn with ⟨m, hm, rfl⟩ | hn
    · rw [(t.grow_same parent m).2.2]
      exact h.written m hm
    · exact written _ (Design.mem_lay hn).1

theorem Listed.setProp {t : Tree} (h : t.Listed) (id : Nat) (p : Property) (value : String) :
    (t.setProp id p value).Listed := by
  let set (n : Node) : Node :=
    if n.id = id then { n with toElement := n.toElement.setProp p value } else n
  have same (n : Node) :
      (set n).id = n.id ∧ (set n).parent = n.parent ∧ (set n).children = n.children := by
    simp only [set]
    split <;> exact ⟨rfl, rfl, rfl⟩
  have nodes : (t.setProp id p value).nodes = t.nodes.map set :=
    modify_eq_map t id fun n => { n with toElement := n.toElement.setProp p value }
  have old {n : Node} (hn : n ∈ (t.setProp id p value).nodes) : ∃ m ∈ t.nodes, set m = n := by
    rwa [nodes, Array.mem_map] at hn
  refine ⟨fun n hn => ?_, fun n hn => ?_, fun n hn => ?_⟩
  · obtain ⟨m, hm, rfl⟩ := old hn
    rcases h.listed m hm with ⟨hid, hparent⟩ | hlisted
    · exact Or.inl ⟨(same m).1.trans hid, (same m).2.1.trans hparent⟩
    · rw [nodes, Array.toList_map]
      exact Or.inr (hlisted.map (fun n => (same n).1) (fun n => (same n).2.1)
        fun n => (same n).2.2.symm ▸ List.Subset.refl _)
  · obtain ⟨m, hm, rfl⟩ := old hn
    rw [(same m).2.2]
    exact h.sorted m hm
  · obtain ⟨m, hm, rfl⟩ := old hn
    simp only [set]
    split
    · exact (h.written m hm).setProp p value
    · exact h.written m hm

/-! ## Trees that are built -/

/-- The tree after an operation that may fail. A failure leaves it as it was. -/
def after (t : Tree) (r : Except Fault (Nat × Tree)) : Tree :=
  match r with
  | .ok (_, grown) => grown
  | .error _ => t

/-- The trees that come up when a tree is built and changed, from designs that are written down. Any
of the operations may fail. -/
inductive Built : Tree → Prop
  | ofDesign {b : Design} (written : b.Written) : Built (Tree.ofDesign b)
  | add {t : Tree} (h : Built t) (parent : Nat) {b : Design} (written : b.Written) :
      Built (t.after (t.add parent b))
  | copySubtree {t source : Tree} (h : Built t) (hs : Built source) (id parent : Nat) :
      Built (t.after (t.copySubtree source id parent))
  | setProp {t : Tree} (h : Built t) (id : Nat) (p : Property) (value : String) :
      Built (t.setProp id p value)

/-- What every step of building keeps. -/
structure Kept (t : Tree) : Prop where
  wellFormed : t.WellFormed
  listed : t.Listed

theorem Kept.add {t : Tree} (h : t.Kept) (parent : Nat) {b : Design} (written : b.Written) :
    (t.after (t.add parent b)).Kept := by
  unfold Tree.add
  split
  · next hp => exact ⟨h.wellFormed.attach written.eventsOnce hp, h.listed.attach written hp⟩
  · exact h

theorem Kept.written_design {t : Tree} (h : t.Kept) {id : Nat} {b : Design}
    (hb : t.design id = .ok b) : b.Written := by
  intro e he
  obtain ⟨n, hn, rfl⟩ := h.wellFormed.exists_node_of_mem_design hb he
  exact h.listed.written n hn

theorem Built.kept {t : Tree} (h : t.Built) : t.Kept := by
  induction h with
  | ofDesign written => exact ⟨wellFormed_ofDesign written.eventsOnce, listed_ofDesign written⟩
  | add _ parent written ih => exact ih.add parent written
  | @copySubtree t source _ _ id parent ih ihs =>
    unfold Tree.copySubtree
    cases hb : source.design id with
    | error fault => exact ih
    | ok b => exact ih.add parent (ihs.written_design hb)
  | setProp _ id p value ih =>
    exact ⟨ih.wellFormed.setProp id p value, ih.listed.setProp id p value⟩

/-! ## The array -/

namespace Kept

variable {t : Tree} {n : Node}

theorem parent_eq_none (h : t.Kept) (hn : n ∈ t.nodes) : n.parent = none ↔ n.id = root := by
  constructor
  · intro hparent
    rcases h.listed.listed n hn with ⟨hid, -⟩ | ⟨m, -, hp, -⟩
    · exact hid
    · cases hparent.symm.trans hp
  · intro hid
    cases hparent : n.parent with
    | none => rfl
    | some p =>
      have hlt := (t.linked n hn).parent_lt p hparent
      rw [hid] at hlt
      exact absurd hlt (Nat.not_lt_zero p)

/-- The children of a node are the nodes that have it as their parent. -/
theorem mem_children (h : t.Kept) (hn : n ∈ t.nodes) {c : Nat} :
    c ∈ n.children ↔ t.parent? c = some n.id := by
  obtain ⟨i, hi, rfl⟩ := Array.mem_iff_getElem.1 hn
  rw [t.id_eq i hi]
  constructor
  · exact h.wellFormed.parent?_of_mem_children hi
  · intro hp
    obtain ⟨m, hm, hparent⟩ := Option.bind_eq_some_iff.1 hp
    have hmem : m ∈ t.nodes := by
      obtain ⟨hc, rfl⟩ := Array.getElem?_eq_some_iff.1 hm
      exact Array.getElem_mem hc
    rcases h.listed.listed m hmem with ⟨-, hnone⟩ | ⟨k, hk, hkp, hkc⟩
    · cases hnone.symm.trans hparent
    · -- the node that lists it is the one at the position of its parent
      obtain ⟨j, hj, rfl⟩ := Array.mem_iff_getElem.1 (Array.mem_toList_iff.1 hk)
      rw [hparent, t.id_eq j hj] at hkp
      obtain rfl := Option.some.inj hkp
      rwa [id_of_get? hm] at hkc

theorem children_eq (h : t.Kept) (hn : n ∈ t.nodes) :
    n.children = (List.range t.size).filter fun c => t.parent? c = some n.id := by
  have sorted : ((List.range t.size).filter fun c => t.parent? c = some n.id).Pairwise (· < ·) :=
    List.pairwise_lt_range.filter _
  refine (h.listed.sorted n hn).eq_of_mem_iff sorted fun c => ?_
  rw [List.mem_filter, List.mem_range, decide_eq_true_eq, h.mem_children hn]
  refine ⟨fun hp => ⟨?_, hp⟩, And.right⟩
  obtain ⟨m, hm, -⟩ := Option.bind_eq_some_iff.1 hp
  obtain ⟨hc, -⟩ := Array.getElem?_eq_some_iff.1 hm
  exact hc

/-- A node that has a node of a branch as its parent is in the branch. -/
theorem mem_branchAt_of_child (h : t.Kept) {k : Nat} (hk : k < t.nodes.size) {c : Nat}
    (hc : c < t.nodes.size) (hn : n ∈ (t.branchAt k hk).toList)
    (parent : t.parent? c = some n.id) : t.nodes[c] ∈ (t.branchAt k hk).toList := by
  induction k, hk using branchAt.induct t with
  | case1 k hk ih =>
    rw [branchAt_eq, Branch.toList, Branch.toListAll_eq] at hn ⊢
    rcases List.mem_cons.1 hn with rfl | hn
    · have hchild : c ∈ t.nodes[k].children := (h.mem_children (Array.getElem_mem hk)).2 parent
      refine List.mem_cons_of_mem _ (List.mem_flatMap.2 ⟨t.branchAt c hc, ?_, ?_⟩)
      · exact List.mem_filterMap.2 ⟨c, hchild, dif_pos hc⟩
      · rw [branchAt_eq, Branch.toList]
        exact List.mem_cons_self
    · obtain ⟨b, hb, hn⟩ := List.mem_flatMap.1 hn
      obtain ⟨d, hd, heq⟩ := List.mem_filterMap.1 hb
      unfold branch? at heq
      split at heq
      · obtain rfl := Option.some.inj heq
        exact List.mem_cons_of_mem _ (List.mem_flatMap.2 ⟨_, hb, ih d hd hn⟩)
      · cases heq

/-- What stands under a node is in its branch. -/
theorem mem_branchAt_of_under (h : t.Kept) {a x : Nat} (ha : a < t.nodes.size)
    (hx : x < t.nodes.size) (under : t.Under a x) : t.nodes[x] ∈ (t.branchAt a ha).toList := by
  induction under with
  | refl =>
    rw [branchAt_eq, Branch.toList]
    exact List.mem_cons_self
  | up parent _ ih =>
    have hp := lt_size_of_parent? parent
    refine h.mem_branchAt_of_child ha hx (ih hp) ?_
    rwa [t.id_eq _ hp]

theorem mem_branchAt_root (h : t.Kept) {i : Nat} (hi : i < t.nodes.size) :
    t.nodes[i] ∈ (t.branchAt root t.root_lt_size).toList := by
  -- going up from a node, the parents come to the root
  induction i using Nat.strongRecOn with
  | ind i ih =>
    cases hparent : t.nodes[i].parent with
    | none =>
      have hroot := (h.parent_eq_none (Array.getElem_mem hi)).1 hparent
      rw [t.id_eq i hi] at hroot
      subst hroot
      rw [branchAt_eq, Branch.toList]
      exact List.mem_cons_self
    | some p =>
      have hlt : p < i := t.id_eq i hi ▸ (t.linked _ (Array.getElem_mem hi)).parent_lt p hparent
      have hp : p < t.nodes.size := Nat.lt_trans hlt hi
      refine h.mem_branchAt_of_child t.root_lt_size hi (ih p hlt hp) ?_
      rw [t.id_eq p hp]
      simp [parent?, get?, hi, hparent]

/-- **The walk from the root meets every node once.** -/
theorem perm_descendants (h : t.Kept) : (t.descendants root).Perm t.nodes.toList := by
  rw [descendants_eq t.root_lt_size]
  have visited : (t.branchAt root t.root_lt_size).toList.Nodup :=
    List.Nodup.of_map Node.id (h.wellFormed.nodup_branchAt t.root_lt_size)
  have distinct : t.nodes.toList.Nodup := by
    refine List.Nodup.of_map Node.id ?_
    rw [t.map_id_nodes]
    exact List.nodup_range
  refine (List.perm_ext_iff_of_nodup visited distinct).2 fun n => ⟨fun hn => ?_, fun hn => ?_⟩
  · exact Array.mem_toList_iff.2 (h.wellFormed.under_of_mem_branchAt _ hn).1
  · obtain ⟨i, hi, rfl⟩ := Array.mem_iff_getElem.1 (Array.mem_toList_iff.1 hn)
    exact h.mem_branchAt_root hi

end Kept

/-- The array of a tree is in order. -/
structure InOrder (t : Tree) : Prop where
  id_eq : ∀ i (h : i < t.nodes.size), t.nodes[i].id = i
  parent_eq_none : ∀ n ∈ t.nodes, n.parent = none ↔ n.id = root
  parent_lt : ∀ n ∈ t.nodes, ∀ p, n.parent = some p → p < n.id
  children_eq : ∀ n ∈ t.nodes,
    n.children = (List.range t.size).filter fun c => t.parent? c = some n.id
  met_once : (t.descendants root).Perm t.nodes.toList
  names_once : ∀ n ∈ t.nodes, n.toElement.PropsOnce ∧ n.toElement.EventsOnce

/-- **The array of every tree that is built is in order.** -/
theorem Built.inOrder {t : Tree} (h : t.Built) : t.InOrder where
  id_eq := t.id_eq
  parent_eq_none _ hn := h.kept.parent_eq_none hn
  parent_lt n hn := (t.linked n hn).parent_lt
  children_eq _ hn := h.kept.children_eq hn
  met_once := h.kept.perm_descendants
  names_once n hn := (h.kept.listed.written n hn).once

/-! ## A dialog and its copy -/

/-- A dialog with a button, which is named twice. -/
def clickDesign : Design :=
  .mk ((Element.ofKind .dialog).setProp .className "Dlg")
    [.mk (((Element.ofKind .button).setProp .varName "m_yes").setProp .varName "m_ok") []]

/-- A project with the dialog, with a copy of it, and after a failure to add it once more. -/
def copiedProject : Tree :=
  let project := Tree.ofDesign (.mk (.ofKind .project) [clickDesign])
  let copied := project.after (project.copySubtree project 1 0)
  copied.after (copied.add 9 clickDesign)

theorem written_clickDesign : clickDesign.Written := by
  intro e he
  simp only [clickDesign, Branch.toList, Branch.toListAll, List.append_nil, List.mem_cons,
    List.not_mem_nil, or_false] at he
  rcases he with rfl | rfl
  · exact (Element.Written.ofKind _).setProp _ _
  · exact ((Element.Written.ofKind _).setProp _ _).setProp _ _

theorem built_copiedProject : copiedProject.Built := by
  have project : (Tree.ofDesign (.mk (.ofKind .project) [clickDesign])).Built := .ofDesign (by
    intro e he
    rcases List.mem_cons.1 he with rfl | he
    · exact .ofKind _
    · exact written_clickDesign e (by simpa [Branch.toListAll] using he))
  exact (project.copySubtree project 1 0).add 9 written_clickDesign

theorem copiedProject_inOrder :
    copiedProject.InOrder ∧
      (copiedProject.nodes.map fun n => (n.parent, n.children))
        = #[(none, [1, 3]), (some 0, [2]), (some 1, []), (some 0, [4]), (some 3, [])] :=
  ⟨Built.inOrder built_copiedProject, by with_unfolding_all rfl⟩

end Tree

end FormDesign
