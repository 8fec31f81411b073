import FormDesign.Xml.Print

/-!
# Reading XML

A plain reader of documents. It goes through a document character by character and keeps what it has
found so far. The five predefined entities are resolved in texts and in the values of attributes,
and nothing else is changed there. An element with child nodes has no text, and only white space
stands between its children. An element without child nodes has the text between its tags, be it
empty; only an element of one tag has none. Processing instructions, such as the declaration, are
passed over.

Nothing is read from a document with tags that do not match, with another entity, or with text
beside child nodes.

* `Xml.isName`: the names of elements and attributes
* `Xml.unescape?`: the entities
* `Xml.Builder`: the elements that are open, with their nodes so far
* `Xml.Reader.step`: what one character does
* `Xml.read`: the nodes at the top of a document
-/

namespace FormDesign

namespace Xml

/-! ## Characters -/

/-- The codes that a name may start with. -/
def nameStarts : List (Nat × Nat) :=
  [(0x3A, 0x3A), (0x41, 0x5A), (0x5F, 0x5F), (0x61, 0x7A), (0xC0, 0xD6), (0xD8, 0xF6),
    (0xF8, 0x2FF), (0x370, 0x37D), (0x37F, 0x1FFF), (0x200C, 0x200D), (0x2070, 0x218F),
    (0x2C00, 0x2FEF), (0x3001, 0xD7FF), (0xF900, 0xFDCF), (0xFDF0, 0xFFFD), (0x10000, 0xEFFFF)]

/-- The codes that a name may go on with, besides those that it may start with. -/
def nameMarks : List (Nat × Nat) :=
  [(0x2D, 0x2E), (0x30, 0x39), (0xB7, 0xB7), (0x300, 0x36F), (0x203F, 0x2040)]

/-- Whether the code of a character is in one of the ranges. -/
def isAmong (ranges : List (Nat × Nat)) (c : Char) : Bool :=
  ranges.any fun (low, high) => low ≤ c.toNat && c.toNat ≤ high

def isNameStart (c : Char) : Bool := isAmong nameStarts c

def isNameChar (c : Char) : Bool := isNameStart c || isAmong nameMarks c

/-- Whether a text is the name of an element or an attribute. -/
def isName (s : String) : Bool :=
  match s.toList with
  | [] => false
  | c :: rest => isNameStart c && rest.all isNameChar

def isSpace (c : Char) : Bool := c == ' ' || c == '\t' || c == '\n' || c == '\r'

/-! ## Entities -/

/-- A text without its entities, if they are among the five predefined ones. -/
def unescape? : List Char → Option (List Char)
  | [] => some []
  | '&' :: 'l' :: 't' :: ';' :: rest => (unescape? rest).map ('<' :: ·)
  | '&' :: 'g' :: 't' :: ';' :: rest => (unescape? rest).map ('>' :: ·)
  | '&' :: 'a' :: 'm' :: 'p' :: ';' :: rest => (unescape? rest).map ('&' :: ·)
  | '&' :: 'a' :: 'p' :: 'o' :: 's' :: ';' :: rest => (unescape? rest).map ('\x27' :: ·)
  | '&' :: 'q' :: 'u' :: 'o' :: 't' :: ';' :: rest => (unescape? rest).map ('"' :: ·)
  | '&' :: _ => none
  | c :: rest => (unescape? rest).map (c :: ·)

/-! ## Building nodes -/

/-- What stands between two tags: all the text, and the nodes in their order. -/
structure Content where
  text : List Char
  nodes : List Xml

/-- The text and the children of an element with this content. Text between children is none of the
document when it is white space, and otherwise there is no such element. -/
def Content.close? (c : Content) : Option (Option String × List Xml) :=
  if c.nodes.isEmpty then some (some (String.ofList c.text), [])
  else if c.text.all isSpace then some (none, c.nodes)
  else none

/-- A start tag. -/
structure StartTag where
  name : String
  attributes : List (String × String)

/-- The elements that are open, from the innermost, each with what stands before it, and what was
found in the innermost one. -/
structure Builder where
  frames : List (StartTag × Content)
  content : Content

namespace Builder

def empty : Builder := { frames := [], content := { text := [], nodes := [] } }

def addText (b : Builder) (text : List Char) : Builder :=
  { b with content := { b.content with text := b.content.text ++ text } }

def addNode (b : Builder) (x : Xml) : Builder :=
  { b with content := { b.content with nodes := b.content.nodes ++ [x] } }

/-- Opens an element. -/
def openTag (b : Builder) (t : StartTag) : Builder :=
  { frames := (t, b.content) :: b.frames, content := { text := [], nodes := [] } }

/-- Closes the innermost element, which has to have this name. -/
def closeTag? (b : Builder) (name : String) : Option Builder :=
  match b.frames with
  | [] => none
  | (t, outer) :: frames =>
    if t.name = name then
      b.content.close?.map fun (text, children) =>
        ({ frames, content := outer } : Builder).addNode
          (.element t.name t.attributes text children)
    else none

/-- The nodes of a document that ends here. -/
def finish? (b : Builder) : Option (List Xml) :=
  if b.frames.isEmpty && b.content.text.all isSpace then some b.content.nodes else none

end Builder

/-! ## Reading characters -/

/-- Where in a document a character stands. -/
inductive Mode
  /-- In a text, of which `run` was read. -/
  | text (run : List Char)
  /-- Behind an opening angle bracket. -/
  | markup
  /-- In a processing instruction, behind a question mark or not. -/
  | instruction (closing : Bool)
  /-- Before a comment, behind its first dash or not. -/
  | declaration (dash : Bool)
  | comment (text : List Char)
  /-- In a comment behind a dash. -/
  | commentDash (text : List Char)
  /-- In a comment behind two dashes. -/
  | commentEnd (text : List Char)
  /-- In the name of a start tag. -/
  | tagName (name : List Char)
  /-- Between the attributes of a start tag. -/
  | tag (t : StartTag)
  /-- In the name of an attribute. -/
  | key (t : StartTag) (name : List Char)
  /-- Behind the equals sign of an attribute. -/
  | equals (t : StartTag) (name : String)
  /-- In the value of an attribute. -/
  | value (t : StartTag) (name : String) (quote : Char) (run : List Char)
  /-- Behind the slash of an element of one tag. -/
  | single (t : StartTag)
  /-- In the name of an end tag. -/
  | endName (name : List Char)

/-- What was built, and where the reader is. -/
structure Reader where
  builder : Builder
  mode : Mode

namespace Reader

/-- A reader before a document. -/
def start : Reader := { builder := .empty, mode := .text [] }

/-- What a character between the attributes of a start tag does. -/
def stepTag (b : Builder) (t : StartTag) (c : Char) : Option Reader :=
  if isNameStart c then some ⟨b, .key t [c]⟩
  else if isSpace c then some ⟨b, .tag t⟩
  else if c = '>' then some ⟨b.openTag t, .text []⟩
  else if c = '/' then some ⟨b, .single t⟩
  else none

/-- What a character does. -/
def step (r : Reader) (c : Char) : Option Reader :=
  let b := r.builder
  match r.mode with
  | .text run =>
    if c = '<' then (unescape? run).map fun text => ⟨b.addText text, .markup⟩
    else some ⟨b, .text (run ++ [c])⟩
  | .markup =>
    if isNameStart c then some ⟨b, .tagName [c]⟩
    else if c = '/' then some ⟨b, .endName []⟩
    else if c = '!' then some ⟨b, .declaration false⟩
    else if c = '?' then some ⟨b, .instruction false⟩
    else none
  | .instruction closing =>
    if closing && c == '>' then some ⟨b, .text []⟩ else some ⟨b, .instruction (c == '?')⟩
  | .declaration dash =>
    if c = '-' then some ⟨b, if dash then .comment [] else .declaration true⟩ else none
  | .comment text => some ⟨b, if c = '-' then .commentDash text else .comment (text ++ [c])⟩
  | .commentDash text =>
    some ⟨b, if c = '-' then .commentEnd text else .comment (text ++ ['-', c])⟩
  | .commentEnd text =>
    if c = '>' then some ⟨b.addNode (.comment (String.ofList text)), .text []⟩ else none
  | .tagName name =>
    if isNameChar c then some ⟨b, .tagName (name ++ [c])⟩
    else stepTag b { name := String.ofList name, attributes := [] } c
  | .tag t => stepTag b t c
  | .key t name =>
    if isNameChar c then some ⟨b, .key t (name ++ [c])⟩
    else if c = '=' then some ⟨b, .equals t (String.ofList name)⟩
    else none
  | .equals t name =>
    if c = '"' ∨ c = '\x27' then some ⟨b, .value t name c []⟩ else none
  | .value t name quote run =>
    if c = quote then
      (unescape? run).map fun value =>
        ⟨b, .tag { t with attributes := t.attributes ++ [(name, String.ofList value)] }⟩
    else some ⟨b, .value t name quote (run ++ [c])⟩
  | .single t =>
    if c = '>' then some ⟨b.addNode (.element t.name t.attributes none []), .text []⟩ else none
  | .endName name =>
    if c = '>' then (b.closeTag? (String.ofList name)).map fun b => ⟨b, .text []⟩
    else some ⟨b, .endName (name ++ [c])⟩

/-- The nodes of a document that ends here. -/
def finish? (r : Reader) : Option (List Xml) :=
  match r.mode with
  | .text run => (unescape? run).bind fun text => (r.builder.addText text).finish?
  | _ => none

end Reader

/-- The nodes at the top of a document. -/
def read (s : String) : Option (List Xml) :=
  (s.toList.foldlM Reader.step .start).bind Reader.finish?

/-- White space between children goes, and entities and empty texts are seen. -/
example : read "<a k=\"1 &lt; 2\">\n <b/> <c></c><!-- - --></a>"
    = some [.element "a" [("k", "1 < 2")] none
        [.element "b" [] none [], .element "c" [] (some "") [], .comment " - "]] := by
  rfl

end Xml

end FormDesign
