import FormDesign.Code.Statement
import FormDesign.Dialect.Literal
import FormDesign.Dialect.Name
import FormDesign.Identifier
import FormDesign.Image.ArrayName
import FormDesign.Text.Numeral

/-!
# Spelling of expressions and statements

How a dialect writes calls, new objects, pictures, constants, identifiers and whole statements.
-/

namespace FormDesign.Dialect

/-! ## Signs of the language -/

/-- How comments begin. -/
def commentStart : Dialect → String
  | .cpp => "//"
  | .python | .ruby | .perl => "#"

/-- What ends a statement. -/
def statementEnd : Dialect → String
  | .cpp | .perl => ";"
  | .python | .ruby => ""

/-- What stands between constants that are combined. -/
def constantSeparator : Dialect → String :=
  fun _ => "|"

def comment (d : Dialect) (text : String) : String :=
  d.commentStart ++ " " ++ text

/-! ## Objects and calls -/

/-- A new object of a class. -/
def newObject (d : Dialect) (token args : String) : String :=
  match d with
  | .cpp => "new " ++ token ++ "(" ++ args ++ ")"
  | .python => token ++ "(" ++ args ++ ")"
  | .ruby => if args = "" then token ++ ".new" else token ++ ".new(" ++ args ++ ")"
  | .perl => token ++ "->new(" ++ args ++ ")"

/-- A value that is not kept, such as a size. -/
def newValue (d : Dialect) (token args : String) : String :=
  match d with
  | .cpp => token ++ "(" ++ args ++ ")"
  | .python | .ruby | .perl => d.newObject token args

/-- A call of a method on the form, when there is no target, or on the target. -/
def methodCall (d : Dialect) (target : Option String) (byValue : Bool) (method args : String) :
    String :=
  match d with
  | .cpp =>
    let call := method ++ "(" ++ args ++ ")"
    match target with
    | none => call
    | some t => t ++ (if byValue then "." else "->") ++ call
  | .python => target.getD "self" ++ "." ++ method ++ "(" ++ args ++ ")"
  | .ruby =>
    let method := d.methodName method
    let call := if args = "" then method else method ++ "(" ++ args ++ ")"
    match target with
    | none => call
    | some t => t ++ "." ++ call
  | .perl => target.getD "$self" ++ "->" ++ method ++ "(" ++ args ++ ")"

/-! ## Pictures -/

/-- The namespace of the image helpers and data in C++. -/
def imageNamespace : String := "wxue_img"

/-- The data array of an image as it is referred to. -/
def arrayRef (d : Dialect) (image : ImageDescription) : String :=
  match d with
  | .cpp => imageNamespace ++ "::" ++ arrayName image.path
  | .python => arrayName image.path
  | .ruby => Text.upper (arrayName image.path)
  | .perl => "$" ++ arrayName image.path

/-- The default size of a vector drawing. -/
def svgSize (image : ImageDescription) : String :=
  let (width, height) := image.size.getD (16, 16)
  toString width ++ ", " ++ toString height

/-- A picture of the stock: its name and its client. -/
def artArgs (d : Dialect) (image : ImageDescription) : String :=
  let (id, client) := image.artParts
  d.constant id ++ ", " ++ d.constant (client.getD "wxART_OTHER")

/-- The expression for a bitmap. -/
def bitmap (d : Dialect) (image : ImageDescription) : String :=
  match d, image.kind with
  | .cpp, .embed | .cpp, .header =>
    let array := d.arrayRef image
    "wxBitmapBundle::FromBitmap(" ++ imageNamespace ++ "::image(" ++ array ++ ", sizeof(" ++ array
      ++ ")))"
  | .cpp, .svg =>
    let array := d.arrayRef image
    imageNamespace ++ "::bundle_svg(" ++ array ++ ", sizeof(" ++ array ++ "), wxSize("
      ++ svgSize image ++ "))"
  | .cpp, .art => "wxArtProvider::GetBitmapBundle(" ++ d.artArgs image ++ ")"
  | .cpp, .xpm => "wxBitmapBundle::FromBitmap(wxBitmap(" ++ arrayName image.path ++ "))"
  | .python, .embed =>
    "wx.BitmapBundle.FromBitmap(wx.Bitmap(_wxue_image(" ++ d.arrayRef image ++ ")))"
  | .python, .svg =>
    "wx.BitmapBundle.FromSVG(" ++ d.arrayRef image ++ ", wx.Size(" ++ svgSize image ++ "))"
  | .python, .art => "wx.ArtProvider.GetBitmapBundle(" ++ d.artArgs image ++ ")"
  | .python, .xpm | .python, .header =>
    "wx.BitmapBundle.FromBitmap(wx.Bitmap(" ++ d.textLiteral image.path
      ++ ", wx.BITMAP_TYPE_ANY))"
  | .ruby, .embed =>
    "Wx::BitmapBundle.new(Wx::Bitmap.new(wxue_image(" ++ d.arrayRef image ++ ")))"
  | .ruby, .svg =>
    "Wx::BitmapBundle.from_svg(" ++ d.arrayRef image ++ ", Wx::Size.new(" ++ svgSize image ++ "))"
  | .ruby, .art => "Wx::ArtProvider.get_bitmap_bundle(" ++ d.artArgs image ++ ")"
  | .ruby, .xpm | .ruby, .header =>
    "Wx::BitmapBundle.new(Wx::Bitmap.new(" ++ d.textLiteral image.path
      ++ ", Wx::BITMAP_TYPE_ANY))"
  | .perl, .embed => "Wx::Bitmap->new(wxue_image(" ++ d.arrayRef image ++ "))"
  | .perl, .svg => "wxNullBitmap"
  | .perl, .art => "Wx::ArtProvider::GetBitmap(" ++ d.artArgs image ++ ")"
  | .perl, .xpm | .perl, .header =>
    "Wx::Bitmap->new(" ++ d.textLiteral image.path ++ ", wxBITMAP_TYPE_ANY)"

/-- The expression for an animation. -/
def animation (d : Dialect) (image : ImageDescription) : String :=
  match d, image.kind with
  | .cpp, .embed | .cpp, .header =>
    let array := d.arrayRef image
    imageNamespace ++ "::animation(" ++ array ++ ", sizeof(" ++ array ++ "))"
  | .cpp, _ => "wxNullAnimation"
  | .python, .embed => "_wxue_animation(" ++ d.arrayRef image ++ ")"
  | .python, _ => "wx.adv.NullAnimation"
  | .ruby, .embed => "wxue_animation(" ++ d.arrayRef image ++ ")"
  | .ruby, _ => "Wx::NULL_ANIMATION"
  | .perl, .embed => "wxue_animation(" ++ d.arrayRef image ++ ")"
  | .perl, _ => "Wx::Animation->new()"

/-! ## Expressions -/

/-- A variable where it is used. -/
def varRef (d : Dialect) (v : Var) : String :=
  if v.isMember then d.memberRef v.name else d.localRef v.name

/-- Constants with bars between; whole numbers are copied. -/
def constants (d : Dialect) (value : String) : String :=
  Text.join d.constantSeparator <| (Text.fields '|' value).map fun part =>
    if (Text.Numeral.int64? part).isSome then part else d.constant part

/-- A window identifier. An empty one stands for any. -/
def identifier (d : Dialect) (id : String) : String :=
  if id = "" then d.constant "wxID_ANY"
  else if Text.startsWith id Identifier.stockStart then d.constant id
  else
    let name := match Text.cutAt? '=' id with
      | some (name, _) => name
      | none => id
    d.customId (Text.trim name)

/-- Whether an expression gives an object itself. -/
def isValueExpr : Expr → Bool
  | .bitmap _ | .animation _ | .size .. | .point .. => true
  | _ => false

/-- Whether the target of a call is an object itself instead of a pointer. -/
def isValueTarget : Target → Bool
  | .form => false
  | .var v => v.byValue
  | .result e => isValueExpr e

mutual

/-- The spelling of an expression. -/
def expr (d : Dialect) : Expr → String
  | .self => d.selfRef
  | .var v => d.varRef v
  | .text s => d.textLiteral s
  | .int n => toString n
  | .bool b => d.boolLiteral b
  | .const s => d.constants s
  | .id s => d.identifier s
  | .size w h => d.newValue (d.classToken "wxSize" .core) (toString w ++ ", " ++ toString h)
  | .point x y => d.newValue (d.classToken "wxPoint" .core) (toString x ++ ", " ++ toString y)
  | .bitmap image => d.bitmap image
  | .animation image => d.animation image
  | .raw s => s
  | .new className library args =>
    d.newObject (d.classToken className library) (Text.join ", " (d.exprs args))
  | .call target method args =>
    d.methodCall (d.target target) (isValueTarget target) method (Text.join ", " (d.exprs args))
  | .null => d.nullLiteral

/-- The spellings of several expressions. -/
def exprs (d : Dialect) : List Expr → List String
  | [] => []
  | e :: es => d.expr e :: d.exprs es

/-- The spelling of the target of a call; the form has none. -/
def target (d : Dialect) : Target → Option String
  | .form => none
  | .var v => some (d.varRef v)
  | .result e => some (d.expr e)

end

/-- Arguments with commas between. -/
def args (d : Dialect) (es : List Expr) : String :=
  Text.join ", " (d.exprs es)

/-! ## Statements -/

/-- A variable where an object is first put into it. -/
def varDeclaration (d : Dialect) (v : Var) : String :=
  if v.isMember then d.memberRef v.name else d.localDeclaration v.name

/-- The spelling of a statement. -/
def stmt (d : Dialect) : Stmt → String
  | .create v className es initMethod =>
    match initMethod, v.byValue && d.holdsByValue with
    | some method, true => v.name ++ "." ++ method ++ "(" ++ d.args es ++ ")" ++ d.statementEnd
    | _, _ => d.varDeclaration v ++ " = " ++ d.newObject className (d.args es) ++ d.statementEnd
  | .call target method es =>
    d.methodCall (d.target target) (isValueTarget target) method (d.args es) ++ d.statementEnd
  | .comment text => d.comment text

end FormDesign.Dialect
