/-!
# JSON texts

A strict reader for JSON. It keeps the order of the members of an object and repeated names, which
the reader of the options looks at. A string whose escapes leave half of a surrogate pair has no
value, so that it can be passed over where nobody asks for it.
-/

namespace FormDesign

inductive Json
  | null
  | bool (b : Bool)
  | number
  | string (s : Option String)
  | array (items : List Json)
  | object (members : List (Option String × Json))

namespace Json

/-! ## Characters -/

/-- White space between tokens. -/
def isSpace (c : Char) : Bool :=
  c == ' ' || c == '\t' || c == '\n' || c == '\r'

def skipSpace (s : List Char) : List Char :=
  s.dropWhile isSpace

/-- The value of a hexadecimal digit. -/
def hexDigit? (c : Char) : Option Nat :=
  if c.isDigit then some (c.toNat - '0'.toNat)
  else if 'a' ≤ c ∧ c ≤ 'f' then some (c.toNat - 'a'.toNat + 10)
  else if 'A' ≤ c ∧ c ≤ 'F' then some (c.toNat - 'A'.toNat + 10)
  else none

/-- The value of four hexadecimal digits. -/
def hex4? (a b c d : Char) : Option Nat :=
  match hexDigit? a, hexDigit? b, hexDigit? c, hexDigit? d with
  | some a, some b, some c, some d => some (((a * 16 + b) * 16 + c) * 16 + d)
  | _, _, _, _ => none

/-- The character of an escape with one letter. -/
def escape? : Char → Option Char
  | '"' => some '"'
  | '\\' => some '\\'
  | '/' => some '/'
  | 'b' => some '\x08'
  | 'f' => some '\x0c'
  | 'n' => some '\n'
  | 'r' => some '\r'
  | 't' => some '\t'
  | _ => none

/-! ## Strings -/

/-- The UTF-16 units of a string up to its closing quote, and the text after the quote. -/
def units? : List Char → Option (List Nat × List Char)
  | [] => none
  | '"' :: rest => some ([], rest)
  | '\\' :: 'u' :: a :: b :: c :: d :: rest =>
    match hex4? a b c d with
    | none => none
    | some unit => (units? rest).map fun (units, after) => (unit :: units, after)
  | '\\' :: e :: rest =>
    match escape? e with
    | none => none
    | some c => (units? rest).map fun (units, after) => (c.toNat :: units, after)
  | c :: rest =>
    if c.toNat < 0x20 || c == '\\' then none
    else
      (units? rest).map fun (units, after) =>
        if c.toNat < 0x10000 then (c.toNat :: units, after)
        else
          let n := c.toNat - 0x10000
          ((0xD800 + n / 0x400) :: (0xDC00 + n % 0x400) :: units, after)

/-- The characters of UTF-16 units, unless half of a pair stands alone. -/
def ofUnits? : List Nat → Option (List Char)
  | [] => some []
  | u :: rest =>
    if 0xD800 ≤ u ∧ u < 0xDC00 then
      match rest with
      | v :: more =>
        if 0xDC00 ≤ v ∧ v < 0xE000 then
          (ofUnits? more).map (Char.ofNat (0x10000 + (u - 0xD800) * 0x400 + (v - 0xDC00)) :: ·)
        else none
      | [] => none
    else if 0xDC00 ≤ u ∧ u < 0xE000 then none
    else (ofUnits? rest).map (Char.ofNat u :: ·)

/-- A string whose opening quote was read. -/
def string? (s : List Char) : Option (Option String × List Char) :=
  (units? s).map fun (units, rest) => ((ofUnits? units).map String.ofList, rest)

/-! ## Numbers -/

/-- The text after one digit or more. -/
def digits? (s : List Char) : Option (List Char) :=
  match s with
  | c :: rest => if c.isDigit then some (rest.dropWhile Char.isDigit) else none
  | [] => none

/-- The text after a fraction, if there is one. -/
def fraction? : List Char → Option (List Char)
  | '.' :: rest => digits? rest
  | s => some s

/-- The text after an exponent, if there is one. -/
def exponent? : List Char → Option (List Char)
  | c :: rest =>
    if c = 'e' ∨ c = 'E' then
      match rest with
      | '+' :: more => digits? more
      | '-' :: more => digits? more
      | more => digits? more
    else some (c :: rest)
  | [] => some []

/-- The text after a number without its sign. A zero in front stands alone. -/
def unsigned? : List Char → Option (List Char)
  | '0' :: rest => if rest.head?.any Char.isDigit then none else fraction? rest >>= exponent?
  | s => digits? s >>= fraction? >>= exponent?

/-! ## Values -/

/-- The text after a word. -/
def word? (word : String) (s : List Char) : Option (List Char) :=
  if word.toList.isPrefixOf s then some (s.drop word.length) else none

mutual

/-- A value at the start of a text, and the text after it. The fuel bounds the number of calls, of
which no text needs more than two for each character. -/
def value? : Nat → List Char → Option (Json × List Char)
  | 0, _ => none
  | fuel + 1, s =>
    match skipSpace s with
    | [] => none
    | 'n' :: rest => (word? "ull" rest).map fun after => (.null, after)
    | 't' :: rest => (word? "rue" rest).map fun after => (.bool true, after)
    | 'f' :: rest => (word? "alse" rest).map fun after => (.bool false, after)
    | '"' :: rest => (string? rest).map fun (text, after) => (.string text, after)
    | '[' :: rest =>
      match skipSpace rest with
      | ']' :: after => some (.array [], after)
      | _ => (items? fuel rest).map fun (items, after) => (.array items, after)
    | '\x7b' :: rest =>
      match skipSpace rest with
      | '\x7d' :: after => some (.object [], after)
      | _ => (members? fuel rest).map fun (members, after) => (.object members, after)
    | '-' :: rest => (unsigned? rest).map fun after => (.number, after)
    | c :: rest => (unsigned? (c :: rest)).map fun after => (.number, after)

/-- The items of an array from its first value to the closing bracket. -/
def items? : Nat → List Char → Option (List Json × List Char)
  | 0, _ => none
  | fuel + 1, s =>
    match value? fuel s with
    | none => none
    | some (item, rest) =>
      match skipSpace rest with
      | ']' :: after => some ([item], after)
      | ',' :: more => (items? fuel more).map fun (items, after) => (item :: items, after)
      | _ => none

/-- The members of an object from its first name to the closing brace. -/
def members? : Nat → List Char → Option (List (Option String × Json) × List Char)
  | 0, _ => none
  | fuel + 1, s =>
    match skipSpace s with
    | '"' :: rest =>
      match string? rest with
      | none => none
      | some (name, rest) =>
        match skipSpace rest with
        | ':' :: rest =>
          match value? fuel rest with
          | none => none
          | some (member, rest) =>
            match skipSpace rest with
            | '\x7d' :: after => some ([(name, member)], after)
            | ',' :: more =>
              (members? fuel more).map fun (members, after) => ((name, member) :: members, after)
            | _ => none
        | _ => none
    | _ => none

end

/-- The value of a text that holds nothing else. -/
def parse? (s : String) : Option Json :=
  match value? (2 * s.length + 2) s.toList with
  | some (value, rest) => if (skipSpace rest).isEmpty then some value else none
  | none => none

end Json

end FormDesign
