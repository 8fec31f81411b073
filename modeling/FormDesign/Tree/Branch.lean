/-!
# Branches

A labelled tree in which a node may have any number of children. Designs are written down as
branches, and the walks over a part of a design run on them by structural recursion.
-/

namespace FormDesign

inductive Branch (α : Type) where
  | mk (label : α) (children : List (Branch α))

namespace Branch

variable {α β : Type}

def label : Branch α → α
  | .mk a _ => a

def children : Branch α → List (Branch α)
  | .mk _ cs => cs

/-- The labels of the children. -/
def childLabels (b : Branch α) : List α :=
  b.children.map label

/-! ## Size -/

mutual

/-- The number of nodes. -/
def size : Branch α → Nat
  | .mk _ cs => 1 + sizeAll cs

/-- The number of nodes of several branches. -/
def sizeAll : List (Branch α) → Nat
  | [] => 0
  | b :: bs => size b + sizeAll bs

end

theorem size_pos (b : Branch α) : 0 < b.size := by
  cases b
  unfold size
  omega

theorem sizeAll_append (bs cs : List (Branch α)) :
    sizeAll (bs ++ cs) = sizeAll bs + sizeAll cs := by
  induction bs with
  | nil => simp [sizeAll]
  | cons b bs ih => simp [sizeAll, ih, Nat.add_assoc]

/-! ## Relabelling -/

mutual

/-- The same branch with every label changed by `f`. -/
def map (f : α → β) : Branch α → Branch β
  | .mk a cs => .mk (f a) (mapAll f cs)

/-- Several branches with every label changed by `f`. -/
def mapAll (f : α → β) : List (Branch α) → List (Branch β)
  | [] => []
  | b :: bs => map f b :: mapAll f bs

end

theorem mapAll_eq (f : α → β) (bs : List (Branch α)) : mapAll f bs = bs.map (map f) := by
  induction bs with
  | nil => rfl
  | cons b bs ih => simp [mapAll, ih]

/-! ## Listing the labels -/

mutual

/-- The labels in pre-order: a node, then its children one after the other. -/
def toList : Branch α → List α
  | .mk a cs => a :: toListAll cs

/-- The labels of several branches, one branch after the other. -/
def toListAll : List (Branch α) → List α
  | [] => []
  | b :: bs => toList b ++ toListAll bs

end

theorem toListAll_eq (bs : List (Branch α)) : toListAll bs = bs.flatMap toList := by
  induction bs with
  | nil => rfl
  | cons b bs ih => simp [toListAll, ih]

/-- The labels of the branches still to be visited, taking a node from the front and putting its
children in its place. -/
def visit : List (Branch α) → List α
  | [] => []
  | .mk a cs :: pending => a :: visit (cs ++ pending)
termination_by pending => sizeAll pending
decreasing_by
  simp only [sizeAll_append, sizeAll, size]
  omega

end Branch

end FormDesign
