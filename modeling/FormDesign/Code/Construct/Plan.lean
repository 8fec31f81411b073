import FormDesign.Code.Construct.Create
import FormDesign.Image.Cache

/-!
# The plan of construction

The steps that create what is in a form, in pre-order: a node is created and told its settings, then
what is below it is created, and then the node is put into its parent. So a container is attached
when everything in it exists. The entries of a context menu are created in the handler of the menu.
-/

namespace FormDesign

namespace Kind

/-- Kinds whose nodes are created inside a form. -/
def hasConstruction (k : Kind) : Bool :=
  match k.category with
  | .project | .folder | .images | .form | .contextMenu => false
  | _ => true

end Kind

namespace Site

/-- Whether nodes of a kind can be created here. -/
def creates (s : Site) (k : Kind) : Bool :=
  s.dialect.supports k && k.hasConstruction

/-- A remark in place of a node that cannot be created. -/
def unsupported (s : Site) (i : Item) : List Step :=
  let message := i.element.describe ++ " cannot be generated for " ++ s.dialect.name
  [.stmt (.comment message), .warn message]

/-- Steps under the platforms that a node confines itself to. -/
def confined (i : Item) (body : List Step) : List Step :=
  match i.element.selector? with
  | some selector => [.within selector body]
  | none => body

mutual

/-- The steps for a node and what is below it. A node that opens a context menu takes none. -/
def planNode (s : Site) (above before : List Item) : Branch Item → List Step
  | .mk i cs =>
    let p : Place := { item := i, children := cs.map Branch.label, above, before }
    if i.isMenuBuilder then []
    else if s.creates i.kind then
      confined i (s.createNode p ++ s.planAll (i :: above) [] cs ++ s.finish p)
    else s.unsupported i

/-- The steps for siblings, where `before` holds those in front of them. -/
def planAll (s : Site) (above before : List Item) : List (Branch Item) → List Step
  | [] => []
  | b :: bs => s.planNode above before b ++ s.planAll above (b.label :: before) bs

end

end Site

namespace Form

/-- The place of construction for a form, given the images it embeds. -/
def site (f : Form) (d : Dialect) (images : List Asset) : Site :=
  { dialect := d, formKind := f.node.kind, embedded := images.map Asset.filename, inMenu := false }

/-- The steps of the constructor that create what is in the form. -/
def plan (f : Form) (d : Dialect) (images : List Asset) : List Step :=
  let s := f.site d images
  s.formSettings f.element ++ s.planAll f.path [] f.children ++ Site.formFinish f.element

/-- The steps that create the menu of a node that opens a context menu. -/
def menuPlan (f : Form) (d : Dialect) (images : List Asset) (above : List Item) :
    Branch Item → List Step
  | .mk i cs =>
    let s := { f.site d images with inMenu := true }
    .stmt (.create contextMenuVar (d.classToken "wxMenu" .core) [] none)
      :: s.planAll (i :: above) [] cs

end Form

end FormDesign
