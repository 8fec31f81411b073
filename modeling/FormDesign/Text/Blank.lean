/-!
# Blank characters

Which characters count as white space, and trimming. The class is the Unicode property
`White_Space`, so it also holds the no-break space and the ideographic space, but not the
zero-width ones.
-/

namespace FormDesign.Text

/-- Unicode white space. -/
def isBlank (c : Char) : Bool :=
  let n := c.toNat
  (0x09 ≤ n && n ≤ 0x0D) || n == 0x20 || n == 0x85 || n == 0xA0 || n == 0x1680
    || (0x2000 ≤ n && n ≤ 0x200A) || n == 0x2028 || n == 0x2029 || n == 0x202F
    || n == 0x205F || n == 0x3000

/-! ## Dropping from the ends -/

namespace Chars

/-- Removes the characters at the end that satisfy `p`. -/
def dropEndWhile (p : Char → Bool) (s : List Char) : List Char :=
  (s.reverse.dropWhile p).reverse

def trimStart (s : List Char) : List Char :=
  s.dropWhile isBlank

def trimEnd (s : List Char) : List Char :=
  dropEndWhile isBlank s

def trim (s : List Char) : List Char :=
  trimEnd (trimStart s)

end Chars

def trimStart (s : String) : String :=
  String.ofList (Chars.trimStart s.toList)

def trim (s : String) : String :=
  String.ofList (Chars.trim s.toList)

/-- Removes the characters `p` from the start of a text. -/
def dropWhile (p : Char → Bool) (s : String) : String :=
  String.ofList (s.toList.dropWhile p)

/-- Removes the characters `p` from the end of a text. -/
def dropEndWhile (p : Char → Bool) (s : String) : String :=
  String.ofList (Chars.dropEndWhile p s.toList)

end FormDesign.Text
