import FormDesign.Code.Declaration
import FormDesign.Grouped
import FormDesign.Tree.Query

/-!
# Forms

A form taken out of its tree for generation: the branch below it with a variable name for every
node, and the nodes above it, which matter for the platforms they confine it to.
-/

namespace FormDesign

/-- A node with the name of its variable. -/
structure Item where
  node : Node
  /-- Empty for the form and for nodes outside of it. -/
  name : String
  deriving DecidableEq

namespace Item

def kind (i : Item) : Kind := i.node.kind

def element (i : Item) : Element := i.node.toElement

/-- A node without a variable. -/
def nameless (n : Node) : Item := { node := n, name := "" }

/-- The variable of the node. -/
def var (i : Item) : Var :=
  let isMember := (Access.of i.element).isMember
  { name := i.name, isMember, byValue := isMember && i.kind == .timer }

/-- Whether the node opens a context menu. What is below it belongs to the handler of the menu. -/
def isMenuBuilder (i : Item) : Bool :=
  i.kind == .contextMenuEvent

end Item

/-- An item together with those above it, nearest first. -/
structure Spot where
  item : Item
  above : List Item

namespace Spot

/-- The selector of the platforms a spot is confined to: its own, or else the nearest above. -/
def destination (s : Spot) : Option String :=
  (s.item :: s.above).findSome? fun i => i.element.selector?

end Spot

/-! ## Names of variables -/

/-- How often each base name was given to a node without a name. -/
abbrev NameCounts := List (String × Nat)

/-- The name for a node, with the counts after it. Nodes without a name are numbered from the second
of its base on. -/
def nextName (counts : NameCounts) (e : Element) : String × NameCounts :=
  if e.varName ≠ "" then (e.varName, counts)
  else
    let base := e.defaultVarName
    let n := (Sorted.get? base counts).getD 0 + 1
    (if n = 1 then base else base ++ toString n, Sorted.put base n counts)

mutual

/-- A branch with names for its nodes, in pre-order. -/
def nameBranch (counts : NameCounts) : Branch Node → Branch Item × NameCounts
  | .mk n cs =>
    let (name, counts) := nextName counts n.toElement
    let (children, counts) := nameBranches counts cs
    (.mk { node := n, name } children, counts)

/-- Several branches with names for their nodes, one branch after the other. -/
def nameBranches (counts : NameCounts) : List (Branch Node) → List (Branch Item) × NameCounts
  | [] => ([], counts)
  | b :: bs =>
    let (b, counts) := nameBranch counts b
    let (bs, counts) := nameBranches counts bs
    (b :: bs, counts)

end

/-! ## The form -/

/-- A form ready for generation. -/
structure Form where
  /-- The form's own node. -/
  node : Node
  /-- What is below the form. -/
  children : List (Branch Item)
  /-- The items above the form, nearest first. -/
  above : List Item

mutual

/-- The spots of a branch in pre-order. -/
def spotsOf (above : List Item) : Branch Item → List Spot
  | .mk i cs => { item := i, above } :: spotsOfAll (i :: above) cs

/-- The spots of several branches. -/
def spotsOfAll (above : List Item) : List (Branch Item) → List Spot
  | [] => []
  | b :: bs => spotsOf above b ++ spotsOfAll above bs

end

mutual

/-- The branches that open context menus with the items above them, in pre-order. -/
def menuBranchesIn (above : List Item) : Branch Item → List (List Item × Branch Item)
  | .mk i cs =>
    let inner := menuBranchesInAll (i :: above) cs
    if i.isMenuBuilder then (above, .mk i cs) :: inner else inner

/-- Those of several branches. -/
def menuBranchesInAll (above : List Item) : List (Branch Item) → List (List Item × Branch Item)
  | [] => []
  | b :: bs => menuBranchesIn above b ++ menuBranchesInAll above bs

end

namespace Form

/-- The form's own item. -/
def item (f : Form) : Item := .nameless f.node

/-- The form and what is below it. -/
def branch (f : Form) : Branch Item := .mk f.item f.children

/-- The path that the children of the form have above them. -/
def path (f : Form) : List Item := f.item :: f.above

def element (f : Form) : Element := f.node.toElement

/-- Every spot of the form in pre-order, the form itself first. -/
def spots (f : Form) : List Spot :=
  spotsOf f.above f.branch

/-- The spots below the form. -/
def innerSpots (f : Form) : List Spot :=
  spotsOfAll f.path f.children

/-- The elements of the form in pre-order, the form itself first. -/
def elements (f : Form) : List Element :=
  f.spots.map fun s => s.item.element

/-- The elements below the form. -/
def innerElements (f : Form) : List Element :=
  f.innerSpots.map fun s => s.item.element

/-- The branches that open context menus, in tree order, with the items above them. -/
def menuBranches (f : Form) : List (List Item × Branch Item) :=
  menuBranchesIn f.above f.branch

/-- The nodes that open a context menu, in tree order. -/
def menuBuilders (f : Form) : List Spot :=
  f.menuBranches.map fun (above, b) => { item := b.label, above }

/-- The form at a node of a tree. Any node but a form is refused. -/
def ofTree (t : Tree) (id : Nat) : Except Fault Form :=
  match t.branch? id with
  | none => .error (.unknownNode id)
  | some (.mk n cs) =>
    if n.kind.isForm then
      .ok
        { node := n
          children := (nameBranches [] cs).1
          above := (t.ancestors id).map .nameless }
    else .error (.notAForm n.kind)

/-! ## The generated class -/

/-- The name of the generated class. -/
def className (f : Form) : String := f.element.generatedClass

/-- The name of the output file without extension. -/
def baseFile (f : Form) : String := f.element.generatedFile

end Form

end FormDesign
