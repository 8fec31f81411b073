import FormDesign.Text.Numeral
import FormDesign.Text.Split
import FormDesign.Tree.Node

/-!
# Composite values

Property texts that hold more than one value: pairs of numbers for positions and sizes, lists of
choices, and flags spread over several properties.
-/

namespace FormDesign

/-! ## Pairs -/

/-- A pair of numbers with a comma between, in brackets or not. -/
def pair? (text : String) : Option (Int × Int) :=
  let inner := Text.dropEndWhile (· == ']') (Text.dropWhile (· == '[') (Text.trim text))
  match Text.cutAt? ',' inner with
  | none => none
  | some (first, second) =>
    match number? first, number? second with
    | some a, some b => some (a, b)
    | _, _ => none

/-- A pair that is there and is not the default, which has -1 on both sides. -/
def givenPair? (text : String) : Option (Int × Int) :=
  (pair? text).filter (· ≠ (-1, -1))

/-! ## Choices -/

namespace Text.Chars

mutual

/-- The quoted texts, outside of the quotes. -/
def unquoted : List Char → List (List Char)
  | [] => []
  | c :: rest => if c = '"' then quotedText [] rest else unquoted rest

/-- The quoted texts inside of quotes, where `text` holds what was read of the first, backwards. A
backslash takes the next character as it is. -/
def quotedText (text : List Char) : List Char → List (List Char)
  | [] => []
  | ['\\'] => []
  | '\\' :: c :: rest => quotedText (c :: text) rest
  | c :: rest => if c = '"' then text.reverse :: unquoted rest else quotedText (c :: text) rest

end

end Text.Chars

/-- The items of a list of choices: the quoted texts, or when there is no quote the fields between
semicolons. -/
def choices (text : String) : List String :=
  if text.toList.contains '"' then (Text.Chars.unquoted text.toList).map String.ofList
  else Text.fields ';' text

/-! ## Flags -/

/-- The flags of several texts, with bars between. -/
def joinFlags (texts : List String) : String :=
  Text.join "|" (texts.flatMap (Text.fields '|'))

namespace Element

/-- The window style, after flags that the kind implies. -/
def style (e : Element) (implied : String) : String :=
  joinFlags [implied, e.text .style, e.text .windowStyle]

/-- How a sizer places the node. -/
def sizerFlags (e : Element) : String :=
  joinFlags [e.text .alignment, e.text .borders, e.text .flags]

/-- The border around the node in a sizer. -/
def borderSize (e : Element) : Int :=
  if e.hasProp .borderSize then e.int .borderSize else 5

end Element

end FormDesign
