/-!
# Decimal numerals

Reading whole numbers: an optional sign, then ASCII digits and nothing else. A value outside the
word it is meant for is refused.
-/

namespace FormDesign.Text.Numeral

/-- The value of a run of digits, continuing from `acc`. -/
def digits? (acc : Nat) : List Char → Option Nat
  | [] => some acc
  | c :: rest =>
    if c.isDigit then digits? (10 * acc + (c.toNat - '0'.toNat)) rest else none

/-- A signed numeral of any size. -/
def integer? : List Char → Option Int
  | [] => none
  | ['+'] => none
  | ['-'] => none
  | '+' :: rest => (digits? 0 rest).map Int.ofNat
  | '-' :: rest => (digits? 0 rest).map fun n => -(Int.ofNat n)
  | s => (digits? 0 s).map Int.ofNat

/-- The value if it fits a signed word of `bits` bits. -/
def fits (bits : Nat) (n : Int) : Option Int :=
  if -Int.pow 2 (bits - 1) ≤ n ∧ n < Int.pow 2 (bits - 1) then some n else none

/-- A numeral whose value fits a signed word of `bits` bits. -/
def word? (bits : Nat) (s : String) : Option Int :=
  integer? s.toList >>= fits bits

/-- A 64-bit numeral. -/
def int64? (s : String) : Option Int := word? 64 s

/-- A 32-bit numeral. -/
def int32? (s : String) : Option Int := word? 32 s

end FormDesign.Text.Numeral
