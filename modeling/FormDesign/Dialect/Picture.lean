import FormDesign.Code.Needs
import FormDesign.Dialect.Block
import FormDesign.Image.Cache

/-!
# Image data in the dialects

The helper functions that turn embedded bytes into pictures, and the arrays that hold the bytes.
-/

namespace FormDesign

/-- A list cut into pieces of `n` items; only the last one may be shorter. -/
def rowsOf {α : Type} (n : Nat) (items : List α) : List (List α) :=
  match items with
  | [] => []
  | a :: rest => (a :: rest.take (n - 1)) :: rowsOf n (rest.drop (n - 1))
termination_by items.length
decreasing_by
  simp only [List.length_drop, List.length_cons]
  omega

/-- Bytes as decimal numbers with commas between, 24 on a line. -/
def byteRows (bytes : List UInt8) : List String :=
  (rowsOf 24 bytes).map fun row => Text.join "," (row.map fun b => toString b.toNat)

namespace Dialect

/-- The lines that define the data array of an image. -/
def imageData (d : Dialect) (a : Asset) : List String :=
  let rows := byteRows a.payload
  match d with
  | .cpp =>
    let row := fun (text, i) => "\t" ++ text ++ (if i + 1 < rows.length then "," else "")
    ["const unsigned char " ++ a.arrayName ++ "[" ++ toString a.payload.length ++ "] \x7b"]
      ++ rows.zipIdx.map row ++ ["\x7d;"]
  | .python =>
    [a.arrayName ++ " = bytes(["] ++ rows.map (fun row => "    " ++ row ++ ",") ++ ["])"]
  | .ruby =>
    [Text.upper a.arrayName ++ " = ["] ++ rows.map (fun row => "  " ++ row ++ ",")
      ++ ["].pack('C*').freeze"]
  | .perl =>
    ["my $" ++ a.arrayName ++ " = pack('C*',"] ++ rows.map (fun row => "    " ++ row ++ ",")
      ++ [");"]

/-- The helper that makes a bitmap of embedded bytes. -/
def imageHelper : Dialect → List String
  | .cpp =>
    ["wxImage image(const unsigned char* data, size_t size)",
      "\x7b",
      "\twxMemoryInputStream stream(data, size);",
      "\twxImage image;",
      "\timage.LoadFile(stream);",
      "\treturn image;",
      "\x7d",
      ""]
  | .python =>
    ["def _wxue_image(data):",
      "    return wx.Image(BytesIO(data))",
      ""]
  | .ruby =>
    ["def wxue_image(data)",
      "  Wx::Image.new(StringIO.new(data))",
      "end",
      ""]
  | .perl =>
    ["sub wxue_image \x7b",
      "    my ($data) = @_;",
      "    open(my $fh, '<', \\$data) or return wxNullImage;",
      "    return Wx::Image->new($fh, wxBITMAP_TYPE_ANY);",
      "\x7d",
      ""]

/-- The helper that makes a bitmap of an embedded drawing. Only C++ has one. -/
def svgHelper : Dialect → List String
  | .cpp =>
    ["wxBitmapBundle bundle_svg(const unsigned char* data, size_t size, wxSize def_size)",
      "\x7b",
      "\tstd::string svg(reinterpret_cast<const char*>(data), size);",
      "\treturn wxBitmapBundle::FromSVG(svg.c_str(), def_size);",
      "\x7d",
      ""]
  | .python | .ruby | .perl => []

/-- The helper that makes an animation of embedded bytes. -/
def animationHelper : Dialect → List String
  | .cpp =>
    ["wxAnimation animation(const unsigned char* data, size_t size)",
      "\x7b",
      "\twxMemoryInputStream stream(data, size);",
      "\twxAnimation animation;",
      "\tanimation.Load(stream);",
      "\treturn animation;",
      "\x7d",
      ""]
  | .python =>
    ["def _wxue_animation(data):",
      "    animation = wx.adv.Animation()",
      "    animation.Load(BytesIO(data))",
      "    return animation",
      ""]
  | .ruby =>
    ["def wxue_animation(data)",
      "  animation = Wx::Animation.new",
      "  animation.load(StringIO.new(data))",
      "  animation",
      "end",
      ""]
  | .perl =>
    ["sub wxue_animation \x7b",
      "    my ($data) = @_;",
      "    my $animation = Wx::Animation->new();",
      "    open(my $fh, '<', \\$data) or return $animation;",
      "    $animation->Load($fh);",
      "    return $animation;",
      "\x7d",
      ""]

/-- Whether the needs call for the helper for bitmaps. In C++ it also serves generated headers. -/
def needsImageHelper (d : Dialect) (needs : ImageNeeds) : Bool :=
  needs.image || (d == .cpp && needs.header)

/-- The helper functions that the images of a form need. -/
def imageHelpers (d : Dialect) (needs : ImageNeeds) : List String :=
  (if d.needsImageHelper needs then d.imageHelper else [])
    ++ (if needs.svg then d.svgHelper else [])
    ++ (if needs.animation then d.animationHelper else [])

/-- The helpers and the data of every embedded image. C++ keeps them in a namespace of their own. -/
def images (d : Dialect) (assets : List Asset) (needs : ImageNeeds) : List Edit :=
  let helpers := d.imageHelpers needs
  match d with
  | .cpp =>
    if assets.isEmpty && helpers.isEmpty then []
    else
      [.line ("namespace " ++ imageNamespace), .line "\x7b", .indent]
        ++ Edit.lines helpers
        ++ assets.flatMap (fun a => Edit.lines (d.imageData a) ++ [.gap])
        ++ [.trim, .unindent, .line ("\x7d  // namespace " ++ imageNamespace), .gap]
  | .python | .ruby | .perl =>
    Edit.lines helpers ++ [.gap] ++ assets.flatMap (fun a => Edit.lines (d.imageData a)) ++ [.gap]

end Dialect

end FormDesign
