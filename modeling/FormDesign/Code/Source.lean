import FormDesign.Code.Construct.Plan
import FormDesign.Dialect.Header
import FormDesign.Dialect.Picture
import FormDesign.Output

/-!
# Source code of a form

The files generated for a form in a dialect. What is known of the form is collected first; then the
body of its class is laid out; at last banner, imports, image data and class are put together. In
C++ a header goes with it.
-/

namespace FormDesign

/-- What was collected about a form. -/
structure Collected where
  events : EventTables
  includes : List String
  needs : ImageNeeds
  ids : IdTable
  members : MemberTable
  /-- The images that the form embeds, by array name. -/
  images : List Asset
  warnings : List String

namespace Form

/-- Collects what is known of a form, given the images found in it and the cache they are in. -/
def collected (f : Form) (d : Dialect) (t : ImageTable) (c : Cache) : Collected :=
  let members := f.members d
  { events := f.events.sort, includes := t.includes, needs := f.needs, ids := f.ids, members,
    images := t.embedded.assets c, warnings := t.warnings ++ members.warnings }

/-! ## Bindings -/

/-- The steps that bind the events of the constructor, the context menus last. -/
def bindSteps (f : Form) (events : EventTables) : List Step :=
  let bind (u : EventUse) := Step.bind (f.binding u)
  events.bound.common.map bind
    ++ (events.bound.bySelector.map fun (selector, uses) => .within selector (uses.map bind))
    ++ (f.menuBuilders.filterMap f.menuBinding?).map .bind

/-- The events that are bound in the handler of a context menu. -/
def menuEvents (events : EventTables) (builder : Item) : List EventUse :=
  events.inMenus.filter fun u => u.spot.above.any fun i => i.node.id == builder.node.id

/-- The steps of the method that shows a context menu. -/
def menuSteps (f : Form) (d : Dialect) (c : Collected) (above : List Item) (builder : Branch Item) :
    List Step :=
  f.menuPlan d c.images above builder
    ++ (menuEvents c.events builder.label).map fun u => .bind (f.binding u)

/-- The warnings for the handlers that the dialect cannot bind. -/
def bindWarnings (f : Form) (d : Dialect) (events : EventTables) : List String :=
  let inMenus := f.menuBuilders.flatMap fun builder => menuEvents events builder.item
  (events.bound.toList ++ inMenus).filterMap fun u => u.skipped? d

/-- The warnings that came up while the methods were planned, each once. -/
def planWarnings (f : Form) (d : Dialect) (c : Collected) : List String :=
  let menus := f.menuBranches.flatMap fun (above, b) => f.menuPlan d c.images above b
  firsts (Step.warningsAll (f.plan d c.images ++ menus))

/-! ## The class -/

/-- The declarations inside the class, where there is no header. -/
def declarations (d : Dialect) (c : Collected) : List Edit :=
  let lines := d.idDeclarations c.ids.bare c.ids.valued ++ c.members.lines
  if d = .cpp || lines = [] then [] else Edit.lines lines ++ [.gap]

/-- The statements that give validator variables their initial values. -/
def validatorInits (f : Form) (d : Dialect) : List String :=
  (f.elements.filterMap Element.validator?).filterMap d.validatorInit

/-- The steps of the constructor. -/
def constructorSteps (f : Form) (d : Dialect) (c : Collected) : List Step :=
  f.plan d c.images ++ [.gap] ++ f.bindSteps c.events

/-- The method that shows the context menu of a node. -/
def menuMethod (f : Form) (d : Dialect) (info : ClassInfo) (c : Collected) (above : List Item)
    (builder : Branch Item) : List Edit :=
  d.openMenu info (menuHandler { item := builder.label, above })
    ++ d.steps (f.menuSteps d c above builder)
    ++ d.closeMenu contextMenuVar

/-- The class generated for a form. -/
def classEdits (f : Form) (d : Dialect) (info : ClassInfo) (c : Collected) : List Edit :=
  d.openClass info
    ++ declarations d c
    ++ d.openConstructor info
    ++ Edit.lines (f.validatorInits d)
    ++ d.steps (f.constructorSteps d c)
    ++ d.closeConstructor
    ++ f.menuBranches.flatMap (fun (above, b) => f.menuMethod d info c above b)
    ++ d.handlerStubs info
    ++ d.closeClass info

/-! ## The files -/

/-- The helpers and the data of the images, empty when nothing of it is needed. -/
def imageText (d : Dialect) (c : Collected) : String :=
  if c.images.isEmpty && !c.needs.any then ""
  else Edit.render d.indentUnit (d.images c.images c.needs)

/-- The source file, given the text of the class. -/
def sourceEdits (d : Dialect) (info : ClassInfo) (i : Imports) (c : Collected) (body : String) :
    List Edit :=
  let preamble := d.preamble info
  let pictures := imageText d c
  d.banner
    ++ (if preamble = [] then [] else Edit.lines preamble ++ [.gap])
    ++ Edit.lines (d.imports i (pictures ++ body))
    ++ [.gap]
    ++ (if pictures = "" then []
      else [.line (Text.dropEndWhile (· == '\n') pictures), .gap])
    ++ [.line body]

/-- The output for a form about which everything was collected. -/
def output (f : Form) (d : Dialect) (o : Options) (c : Collected) : FormOutput :=
  let info := f.classInfo o c.events
  let i := f.imports d c.includes
  let body := Edit.render d.indentUnit (f.classEdits d info c)
  let source := Edit.render d.indentUnit (sourceEdits d info i c body)
  let files : List OutputFile :=
    match d with
    | .cpp =>
      let header := Edit.render d.indentUnit (Dialect.header info i c.ids c.members)
      [{ path := info.baseFile, extension := o.headerExt, content := header },
        { path := info.baseFile, extension := o.sourceExt, content := source }]
    | .python | .ruby | .perl =>
      [{ path := info.baseFile, extension := (Language.source d).extension, content := source }]
  { className := info.name, language := .source d, code := .needsWriting, files,
    warnings := firsts (c.warnings ++ f.bindWarnings d c.events ++ f.planWarnings d c) }

/-- Generates a form. The cache is what it is afterwards also when the images fail. -/
def generate (f : Form) (d : Dialect) (o : Options) (source : FileSource) (c : Cache) :
    Except Fault FormOutput × Cache :=
  match f.images source o.artDirectory c with
  | (.ok t, c) => (.ok (f.output d o (f.collected d t c)), c)
  | (.error fault, c) => (.error fault, c)

end Form

/-! ## Generation of a node -/

/-- Generates the node of a tree in a language of source code. Nodes that hold forms, and forms that
the dialect does not cover, are ignored. -/
def generateSource (t : Tree) (id : Nat) (l : Language) (o : Options) (source : FileSource)
    (c : Cache) : Except Fault FormOutput × Cache :=
  match t.get? id with
  | none => (.error (.unknownNode id), c)
  | some n =>
    if n.kind.isOutline then (.ok (.ignored n.className l []), c)
    else if !n.kind.isForm then (.error (.notAForm n.kind), c)
    else
      match l with
      | .resource => (.error (.noGenerator l), c)
      | .source d =>
        if !d.supports n.kind then
          let warning :=
            n.className ++ " (" ++ n.kind.name ++ ") cannot be generated for " ++ l.name
          (.ok (.ignored n.className l [warning]), c)
        else
          match Form.ofTree t id with
          | .error fault => (.error fault, c)
          | .ok f => f.generate d o source c

end FormDesign
