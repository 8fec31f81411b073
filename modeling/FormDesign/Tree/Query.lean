import FormDesign.Tree.Basic

/-!
# Walking a tree

The branch below a node, the nodes above it, and what follows from them: the design that a subtree
was laid out from, the form and the platform container around a node, and the forms of a project.
-/

namespace FormDesign.Tree

/-! ## Downwards -/

/-- The subtree at a node. -/
def branchAt (t : Tree) (id : Nat) (h : id < t.nodes.size) : Branch Node :=
  .mk t.nodes[id] <| t.nodes[id].children.attach.map fun ⟨c, hc⟩ =>
    have lt := (t.linked _ (Array.getElem_mem h)).children_lt c hc
    t.branchAt c lt.2
termination_by t.nodes.size - id
decreasing_by
  have := t.id_eq id h
  omega

/-- The subtree at a node, if the tree reaches that far. -/
def branch? (t : Tree) (id : Nat) : Option (Branch Node) :=
  if h : id < t.nodes.size then some (t.branchAt id h) else none

/-- The whole tree. -/
def branch (t : Tree) : Branch Node :=
  t.branchAt root t.size_pos

/-- The nodes of the subtree at a node in pre-order, the node itself first. -/
def descendants (t : Tree) (id : Nat) : List Node :=
  Branch.visit (t.branch? id).toList

/-- The subtree at a node as it could be written down. -/
def design (t : Tree) (id : Nat) : Except Fault Design :=
  match t.branch? id with
  | some b => .ok (b.map Node.toElement)
  | none => .error (.unknownNode id)

/-- Copies a subtree of `source` to the end of the children of `parent`. -/
def copySubtree (t source : Tree) (id parent : Nat) : Except Fault (Nat × Tree) :=
  source.design id >>= t.add parent

/-! ## Upwards -/

/-- The nodes above a node, nearest first. -/
def ancestors (t : Tree) (id : Nat) : List Node :=
  match hn : t.get? id with
  | none => []
  | some n =>
    match hp : n.parent with
    | none => []
    | some p =>
      have _lt : p < id := id_of_get? hn ▸ (linked_of_get? hn).parent_lt p hp
      (t.get? p).toList ++ t.ancestors p
termination_by id

/-- The form that a node belongs to: itself, or the nearest form above. -/
def formOf? (t : Tree) (id : Nat) : Option Nat :=
  (((t.get? id).toList ++ t.ancestors id).find? (·.kind.isForm)).map Node.id

/-- The nearest node above that confines its contents to some platforms. -/
def platformContainer? (t : Tree) (id : Nat) : Option Node :=
  (t.ancestors id).find? (·.selector?.isSome)

/-! ## Forms of a project -/

mutual

/-- The positions of the forms and image lists in a branch, without looking below them. -/
def formsIn : Branch Node → List Nat
  | .mk n cs =>
    match n.kind.category with
    | .folder => formsInAll cs
    | .form | .images => [n.id]
    | _ => []

/-- The positions of the forms and image lists in several branches. -/
def formsInAll : List (Branch Node) → List Nat
  | [] => []
  | b :: bs => formsIn b ++ formsInAll bs

end

/-- Every form and image list below the root in tree order, also inside folders. -/
def forms (t : Tree) : List Nat :=
  formsInAll t.branch.children

/-- The image list of the project, a child of the root. -/
def imageList? (t : Tree) : Option Nat :=
  (t.branch.childLabels.find? fun n => n.kind == .images).map Node.id

end FormDesign.Tree
