import FormDesign.Fault
import FormDesign.Tree.Node

/-!
# Trees

The nodes of a design in one array, which refer to each other by position. New nodes always go to
the end, so parents come before their children; this is what makes the walks up and down end.
-/

namespace FormDesign

/-! ## Laying out a design -/

namespace Design

/-- The positions of the children when the first of them stands at `start` and each one is followed
by its own descendants. -/
def starts (start : Nat) : List Design → List Nat
  | [] => []
  | b :: bs => start :: starts (start + b.size) bs

mutual

/-- The nodes of a design in pre-order, for positions from `start` on. -/
def lay (parent : Option Nat) (start : Nat) : Design → List Node
  | .mk e cs =>
    { e with id := start, parent, children := starts (start + 1) cs }
      :: layAll start (start + 1) cs

/-- The nodes of several designs below one parent. -/
def layAll (parent : Nat) (start : Nat) : List Design → List Node
  | [] => []
  | b :: bs => lay (some parent) start b ++ layAll parent (start + b.size) bs

end

mutual

theorem length_lay (parent : Option Nat) (start : Nat) (b : Design) :
    (lay parent start b).length = b.size := by
  cases b with
  | mk e cs => simp [lay, Branch.size, length_layAll start (start + 1) cs, Nat.add_comm]

theorem length_layAll (parent start : Nat) (bs : List Design) :
    (layAll parent start bs).length = Branch.sizeAll bs := by
  cases bs with
  | nil => simp [layAll, Branch.sizeAll]
  | cons b bs =>
    simp [layAll, Branch.sizeAll, length_lay (some parent) start b,
      length_layAll parent (start + b.size) bs]

end

theorem mem_starts {start c : Nat} {bs : List Design} (h : c ∈ starts start bs) :
    start ≤ c ∧ c < start + Branch.sizeAll bs := by
  induction bs generalizing start with
  | nil => simp [starts] at h
  | cons b bs ih =>
    have := b.size_pos
    simp only [starts, List.mem_cons] at h
    simp only [Branch.sizeAll]
    rcases h with rfl | h
    · omega
    · have := ih h
      omega

mutual

theorem id_lay (parent : Option Nat) (start : Nat) (b : Design) (k : Nat)
    (h : k < (lay parent start b).length) : (lay parent start b)[k].id = start + k := by
  cases b with
  | mk e cs =>
    cases k with
    | zero => simp [lay]
    | succ k =>
      have hk : k < (layAll start (start + 1) cs).length := by simpa [lay] using h
      have := id_layAll start (start + 1) cs k hk
      simp only [lay, List.getElem_cons_succ, this]
      omega

theorem id_layAll (parent start : Nat) (bs : List Design) (k : Nat)
    (h : k < (layAll parent start bs).length) :
    (layAll parent start bs)[k].id = start + k := by
  cases bs with
  | nil => simp [layAll] at h
  | cons b bs =>
    simp only [layAll]
    by_cases hk : k < (lay (some parent) start b).length
    · rw [List.getElem_append_left hk]
      exact id_lay (some parent) start b k hk
    · rw [List.getElem_append_right (by omega)]
      have hlen := length_lay (some parent) start b
      rw [id_layAll parent (start + b.size) bs _ _]
      omega

end

/-- A node whose children stand between itself and `limit`, and whose parent stands before it. -/
structure Linked (limit : Nat) (n : Node) : Prop where
  children_lt : ∀ c ∈ n.children, n.id < c ∧ c < limit
  parent_lt : ∀ p ∈ n.parent, p < n.id

theorem Linked.mono {limit bound : Nat} {n : Node} (h : Linked limit n) (le : limit ≤ bound) :
    Linked bound n :=
  ⟨fun c hc => ⟨(h.children_lt c hc).1, Nat.lt_of_lt_of_le (h.children_lt c hc).2 le⟩, h.parent_lt⟩

mutual

theorem linked_lay (parent : Option Nat) (start : Nat) (b : Design)
    (hp : ∀ p ∈ parent, p < start) : ∀ n ∈ lay parent start b, Linked (start + b.size) n := by
  cases b with
  | mk e cs =>
    intro n hn
    simp only [lay, List.mem_cons] at hn
    rcases hn with rfl | hn
    · refine ⟨fun c hc => ?_, hp⟩
      have := mem_starts hc
      simp only [Branch.size]
      omega
    · exact (linked_layAll start (start + 1) cs (by omega) n hn).mono (by
        simp only [Branch.size]
        omega)

theorem linked_layAll (parent start : Nat) (bs : List Design) (hp : parent < start) :
    ∀ n ∈ layAll parent start bs, Linked (start + Branch.sizeAll bs) n := by
  cases bs with
  | nil => simp [layAll]
  | cons b bs =>
    intro n hn
    simp only [layAll, List.mem_append] at hn
    simp only [Branch.sizeAll]
    rcases hn with hn | hn
    · exact (linked_lay (some parent) start b (by simpa using hp) n hn).mono (by omega)
    · exact (linked_layAll parent (start + b.size) bs (by omega) n hn).mono (by omega)

end

end Design

/-! ## The tree -/

/-- A design of at least one node. The root stands first. -/
structure Tree where
  nodes : Array Node
  size_pos : 0 < nodes.size
  id_eq : ∀ i (h : i < nodes.size), nodes[i].id = i
  linked : ∀ n ∈ nodes, Design.Linked nodes.size n

namespace Tree

/-- The position of the root. -/
def root : Nat := 0

/-- The number of nodes. -/
def size (t : Tree) : Nat := t.nodes.size

/-- The node at a position, if the tree reaches that far. -/
def get? (t : Tree) (id : Nat) : Option Node := t.nodes[id]?

theorem id_of_get? {t : Tree} {id : Nat} {n : Node} (h : t.get? id = some n) : n.id = id := by
  obtain ⟨hi, rfl⟩ := Array.getElem?_eq_some_iff.1 h
  exact t.id_eq id hi

theorem linked_of_get? {t : Tree} {id : Nat} {n : Node} (h : t.get? id = some n) :
    Design.Linked t.size n := by
  obtain ⟨hi, rfl⟩ := Array.getElem?_eq_some_iff.1 h
  exact t.linked _ (Array.getElem_mem hi)

/-- The node at a position, or the fault that there is none. -/
def find (t : Tree) (id : Nat) : Except Fault Node :=
  match t.get? id with
  | some n => .ok n
  | none => .error (.unknownNode id)

/-- The node at the root. -/
def rootNode (t : Tree) : Node :=
  have := t.size_pos
  t.nodes[0]

/-- The tree of a design. -/
def ofDesign (b : Design) : Tree where
  nodes := (Design.lay none 0 b).toArray
  size_pos := by
    have := b.size_pos
    simp [Design.length_lay, this]
  id_eq := by
    intro i h
    simpa using Design.id_lay none 0 b i (by simpa using h)
  linked := by
    intro n hn
    simpa [Design.length_lay] using Design.linked_lay none 0 b (by simp) n (by simpa using hn)

/-! ## Growing -/

/-- A node with one more child, the last. -/
def withChild (n : Node) (child : Nat) : Node :=
  { n with children := n.children ++ [child] }

/-- The nodes after a design was put at the end as the last child of `parent`. -/
def grown (t : Tree) (parent : Nat) (b : Design) : Array Node :=
  t.nodes.modify parent (withChild · t.size) ++ (Design.lay (some parent) t.size b).toArray

theorem size_grown (t : Tree) (parent : Nat) (b : Design) :
    (t.grown parent b).size = t.size + b.size := by
  simp [grown, size, Design.length_lay]

/-- Adds a design below `parent`, which must be a node of the tree. -/
def attach (t : Tree) (parent : Nat) (b : Design) (hp : parent < t.size) : Tree where
  nodes := t.grown parent b
  size_pos := by
    have := t.size_pos
    simp only [size_grown, size]
    omega
  id_eq := by
    intro i h
    simp only [grown]
    by_cases hi : i < t.size
    · rw [Array.getElem_append_left (by simpa [size] using hi)]
      rw [Array.getElem_modify]
      split <;> exact t.id_eq i hi
    · rw [Array.getElem_append_right (by rw [Array.size_modify]; exact Nat.le_of_not_lt hi)]
      rw [List.getElem_toArray, Design.id_lay, Array.size_modify]
      simp only [size] at *
      omega
  linked := by
    intro n hn
    have hb := b.size_pos
    simp only [size_grown]
    simp only [grown, Array.mem_append] at hn
    rcases hn with hn | hn
    · obtain ⟨i, hi, rfl⟩ := Array.mem_iff_getElem.1 hn
      simp only [Array.size_modify] at hi
      have old := t.linked _ (Array.getElem_mem hi)
      rw [Array.getElem_modify]
      split
      · rename_i heq
        refine ⟨fun c hc => ?_, old.parent_lt⟩
        simp only [withChild, List.mem_append, List.mem_singleton] at hc
        rcases hc with hc | rfl
        · have := old.children_lt c hc
          simp only [withChild, size] at *
          omega
        · have := t.id_eq i hi
          simp only [withChild, size] at *
          omega
      · exact old.mono (by simp only [size]; omega)
    · exact Design.linked_lay (some parent) t.size b (by simpa using hp) n (by simpa using hn)

/-- Adds a design as the last child of `parent`. Gives the position of its root with the new tree,
and fails when `parent` is no node of the tree. -/
def add (t : Tree) (parent : Nat) (b : Design) : Except Fault (Nat × Tree) :=
  if hp : parent < t.size then .ok (t.size, t.attach parent b hp) else .error (.unknownNode parent)

/-! ## Changing -/

/-- Sets a property of a node. A position outside the tree changes nothing. -/
def setProp (t : Tree) (id : Nat) (p : Property) (value : String) : Tree where
  nodes := t.nodes.modify id fun n => { n with toElement := n.toElement.setProp p value }
  size_pos := by simpa using t.size_pos
  id_eq := by
    intro i h
    rw [Array.getElem_modify]
    split <;> exact t.id_eq i (by simpa using h)
  linked := by
    intro n hn
    simp only [Array.size_modify]
    obtain ⟨i, hi, rfl⟩ := Array.mem_iff_getElem.1 hn
    simp only [Array.size_modify] at hi
    have old := t.linked _ (Array.getElem_mem hi)
    rw [Array.getElem_modify]
    split
    · exact ⟨old.children_lt, old.parent_lt⟩
    · exact old

end Tree

end FormDesign
