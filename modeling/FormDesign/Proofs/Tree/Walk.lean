import FormDesign.Proofs.Tree.Built
import Mathlib.Logic.Function.Iterate

/-!
# Walks with a stack

The subtree at a node can be walked through with a stack of positions: the last one is taken from
the stack, and its children go there in reverse, so that the first child comes next. The walk ends
after as many rounds as the subtree has nodes, and has visited them in pre-order: a node, then the
subtrees at its children. They are the node itself and the nodes that have it above them.

* `Walk.step`: one round
* `Walk.iterate_step`: the rounds for a subtree, whatever else is on the stack
* `Tree.Built.mem_descendants_iff`: the nodes of a subtree by what is above them
* `Tree.Built.preOrder`: what holds of the subtree at a node
-/

namespace FormDesign

/-! ## Rounds of a walk -/

/-- Where an item on top of a stack is done with after a round for each thing that is listed for it,
some items are done with one after the other. -/
theorem iterate_stack {α β γ σ : Type} {round : σ → σ} {state : List α → List β → σ}
    {listed : α → List γ} {out : α → List β} {items : List α}
    (each : ∀ a ∈ items, ∀ stack found, round^[(listed a).length] (state (stack ++ [a]) found)
      = state stack (found ++ out a)) (stack : List α) (found : List β) :
    round^[(items.flatMap listed).length] (state (stack ++ items.reverse) found)
      = state stack (found ++ items.flatMap out) := by
  induction items generalizing found with
  | nil => simp
  | cons a rest ih =>
    obtain ⟨first, others⟩ := List.forall_mem_cons.1 each
    -- the first item is on top, and the rest is below it
    rw [List.flatMap_cons, List.length_append, Nat.add_comm, Function.iterate_add_apply,
      List.reverse_cons, ← List.append_assoc, first, ih others, List.flatMap_cons,
      List.append_assoc]

/-- A walk on its way: the positions to be visited, the next one last, and those visited. -/
structure Walk where
  stack : List Nat
  visited : List Nat

namespace Walk

/-- One round. A walk with nothing on its stack has ended. -/
def step (t : Tree) (w : Walk) : Walk :=
  match w.stack.getLast? with
  | none => w
  | some id =>
    { stack := w.stack.dropLast ++ ((t.get? id).toList.flatMap Node.children).reverse
      visited := w.visited ++ [id] }

variable {t : Tree} {stack visited : List Nat}

theorem step_concat {id : Nat} {n : Node} (hn : t.get? id = some n) :
    step t ⟨stack ++ [id], visited⟩ = ⟨stack ++ n.children.reverse, visited ++ [id]⟩ := by
  simp [step, hn]

/-- The rounds for the subtrees at some positions, when each is walked through by itself. -/
theorem iterate_step_reverse {ids : List Nat}
    (each : ∀ c ∈ ids, ∀ stack visited, (step t)^[(t.descendants c).length] ⟨stack ++ [c], visited⟩
      = ⟨stack, visited ++ (t.descendants c).map Node.id⟩) (stack visited : List Nat) :
    (step t)^[(ids.flatMap t.descendants).length] ⟨stack ++ ids.reverse, visited⟩
      = ⟨stack, visited ++ (ids.flatMap t.descendants).map Node.id⟩ := by
  rw [List.map_flatMap]
  exact iterate_stack each stack visited

end Walk

namespace Tree

variable {t : Tree} {id : Nat} {n : Node}

/-- The walk from a node meets the node, and then what is met from its children. -/
theorem descendants_eq_cons (hn : t.get? id = some n) :
    t.descendants id = n :: n.children.flatMap t.descendants := by
  obtain ⟨hid, rfl⟩ := Array.getElem?_eq_some_iff.1 hn
  have below (c : Nat) : t.descendants c = (t.branch? c).toList.flatMap Branch.toList := by
    rw [descendants, Branch.visit_eq, Branch.toListAll_eq]
  rw [descendants_eq hid, branchAt_eq, Branch.toList, Branch.toListAll_eq,
    List.filterMap_eq_flatMap_toList, List.flatMap_assoc, List.flatMap_congr fun c _ => below c]

end Tree

/-- **A subtree is walked through in as many rounds as it has nodes**, and the rest of the stack is
left as it was. -/
theorem Walk.iterate_step {t : Tree} {id : Nat} (hid : id < t.nodes.size)
    (stack visited : List Nat) :
    (step t)^[(t.descendants id).length] ⟨stack ++ [id], visited⟩
      = ⟨stack, visited ++ (t.descendants id).map Node.id⟩ := by
  induction id, hid using Tree.branchAt.induct t generalizing stack visited with
  | case1 id hid ih =>
    have hn : t.get? id = some t.nodes[id] := Array.getElem?_eq_getElem hid
    rw [Tree.descendants_eq_cons hn, List.length_cons, Function.iterate_succ_apply, step_concat hn,
      iterate_step_reverse fun c hc stack visited => ih c hc stack visited, List.map_cons,
      t.id_eq id hid, List.append_assoc, List.singleton_append]

namespace Tree

variable {t : Tree} {a x id : Nat} {n : Node}

/-! ## Below and above -/

/-- What stands under a node is the node itself, or has it among its ancestors. -/
theorem under_iff_mem_ancestors :
    t.Under a x ↔ x = a ∨ a ∈ (t.ancestors x).map Node.id := by
  constructor
  · intro under
    induction under with
    | refl => exact Or.inl rfl
    | @up x p parent _ ih =>
      have hp := lt_size_of_parent? parent
      rw [ancestors_of_parent? hp parent, List.map_cons, t.id_eq p hp]
      rcases ih with rfl | ih
      · exact Or.inr List.mem_cons_self
      · exact Or.inr (List.mem_cons_of_mem _ ih)
  · rintro (rfl | above)
    · exact .refl
    · obtain ⟨m, hm, rfl⟩ := List.mem_map.1 above
      exact under_of_mem_ancestors hm

/-- What stands under a node of the tree is in the tree. -/
theorem Under.lt_size (under : t.Under a x) (ha : a < t.nodes.size) : x < t.nodes.size := by
  cases under with
  | refl => exact ha
  | up parent _ =>
    obtain ⟨m, hm, -⟩ := Option.bind_eq_some_iff.1 parent
    exact (Array.getElem?_eq_some_iff.1 hm).1

theorem Kept.mem_descendants_iff (h : t.Kept) (ha : a < t.nodes.size) :
    x ∈ (t.descendants a).map Node.id ↔ t.Under a x := by
  rw [descendants_eq ha]
  constructor
  · intro hx
    obtain ⟨m, hm, rfl⟩ := List.mem_map.1 hx
    exact (h.wellFormed.under_of_mem_branchAt ha hm).2
  · intro under
    have hx := under.lt_size ha
    exact List.mem_map.2 ⟨_, h.mem_branchAt_of_under ha hx under, t.id_eq x hx⟩

/-! ## The subtree at a node -/

/-- The subtree at a node, as it is listed. -/
structure PreOrder (t : Tree) (id : Nat) (n : Node) : Prop where
  /-- The walk with a stack ends, after one round for each node, and has visited what is listed. -/
  walked : (Walk.step t)^[(t.descendants id).length] ⟨[id], []⟩
    = ⟨[], (t.descendants id).map Node.id⟩
  /-- The node comes first, and then what is listed for its children one after the other. -/
  recursive : t.descendants id = n :: n.children.flatMap t.descendants
  nodup : ((t.descendants id).map Node.id).Nodup
  /-- What is listed is the node itself and what has it above. -/
  mem_iff : ∀ m, m ∈ (t.descendants id).map Node.id ↔ m = id ∨ id ∈ (t.ancestors m).map Node.id

/-- **The walk with a stack lists a subtree in pre-order**, in every tree that is built and from
each of its nodes. -/
theorem Built.preOrder (h : t.Built) (hn : t.get? id = some n) : t.PreOrder id n := by
  obtain ⟨hid, -⟩ := Array.getElem?_eq_some_iff.1 hn
  exact
    { walked := Walk.iterate_step hid [] []
      recursive := descendants_eq_cons hn
      nodup := by
        rw [descendants_eq hid]
        exact h.kept.wellFormed.nodup_branchAt hid
      mem_iff := fun m => (h.kept.mem_descendants_iff hid).trans under_iff_mem_ancestors }

/-- The project with a dialog and its copy, after one more dialog was put into the first one. -/
def nestedProject : Tree :=
  copiedProject.after (copiedProject.add 1 clickDesign)

/-- The nodes that were added last are met before the copy. -/
theorem nestedProject_preOrder :
    ∃ n, nestedProject.get? root = some n ∧ nestedProject.PreOrder root n ∧
      (nestedProject.descendants root).map Node.id = [0, 1, 2, 5, 6, 3, 4] := by
  have built : nestedProject.Built := built_copiedProject.add 1 written_clickDesign
  have hroot : nestedProject.get? root = some nestedProject.rootNode :=
    Array.getElem?_eq_getElem nestedProject.size_pos
  refine ⟨_, hroot, Built.preOrder built hroot, ?_⟩
  rw [descendants_eq nestedProject.root_lt_size]
  with_unfolding_all rfl

end Tree

end FormDesign
