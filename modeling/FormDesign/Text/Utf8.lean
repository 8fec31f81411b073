/-!
# Decoding UTF-8

Bytes as text, where what is no text shows as the replacement character: one for each longest run of
bytes that begins a character but does not finish it, and one for each byte that begins none.
-/

namespace FormDesign.Text.Utf8

/-- The character that stands for bytes that are no text. -/
def replacement : Char := '\uFFFD'

/-- The ranges of the bytes that follow a first byte, empty where no byte may follow. -/
def tails (first : UInt8) : List (UInt8 × UInt8) :=
  let tail : UInt8 × UInt8 := (0x80, 0xBF)
  if first < 0xC2 then []
  else if first < 0xE0 then [tail]
  else if first = 0xE0 then [(0xA0, 0xBF), tail]
  else if first = 0xED then [(0x80, 0x9F), tail]
  else if first < 0xF0 then [tail, tail]
  else if first = 0xF0 then [(0x90, 0xBF), tail, tail]
  else if first < 0xF4 then [tail, tail, tail]
  else if first = 0xF4 then [(0x80, 0x8F), tail, tail]
  else []

/-- The bytes in front that lie in the ranges, one after the other. -/
def follow : List (UInt8 × UInt8) → List UInt8 → List UInt8
  | (low, high) :: ranges, b :: rest => if low ≤ b && b ≤ high then b :: follow ranges rest else []
  | _, _ => []

/-- The number that some bytes of a character stand for. The first byte keeps the bits that its
length leaves free. -/
def value (first : UInt8) (tail : List UInt8) : Nat :=
  let start := first.toNat % Nat.pow 2 (6 - tail.length)
  tail.foldl (fun n b => n * 64 + b.toNat % 64) start

/-- The characters of some bytes. -/
def chars : List UInt8 → List Char
  | [] => []
  | first :: rest =>
    if first < 0x80 then Char.ofNat first.toNat :: chars rest
    else
      let ranges := tails first
      let tail := follow ranges rest
      let c :=
        if ranges ≠ [] && tail.length = ranges.length then Char.ofNat (value first tail)
        else replacement
      c :: chars (rest.drop tail.length)
termination_by bytes => bytes.length
decreasing_by
  all_goals simp only [List.length_cons, List.length_drop]; omega

/-- The text of some bytes. -/
def decode (bytes : List UInt8) : String :=
  String.ofList (chars bytes)

end FormDesign.Text.Utf8
