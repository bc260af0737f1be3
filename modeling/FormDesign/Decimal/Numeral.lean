import FormDesign.Decimal.Shortest

/-!
# Decimal numerals

A number as it is written: sign, whole part, fraction and exponent. A `Style` says how a double is
laid out as a numeral; its digits are always the fewest that read back as the same double.
-/

namespace FormDesign.Decimal

/-- A number in decimal digits. An empty fraction is not written, and neither is its point. -/
structure Numeral where
  negative : Bool
  whole : List Char
  fraction : List Char
  /-- Sign and digits of the exponent; `true` stands for a minus sign. -/
  exponent : Option (Bool × List Char)
  deriving DecidableEq

namespace Numeral

/-- The sign and the digits of an exponent; the sign is always written. -/
def exponentChars : Option (Bool × List Char) → List Char
  | none => []
  | some (negative, digits) => 'e' :: (if negative then '-' else '+') :: digits

/-- The characters of a numeral. -/
def chars (n : Numeral) : List Char :=
  (if n.negative then ['-'] else []) ++ n.whole ++
    (if n.fraction = [] then [] else '.' :: n.fraction) ++ exponentChars n.exponent

/-- The text of a numeral. -/
def text (n : Numeral) : String :=
  String.ofList n.chars

/-- The numeral of an integer. -/
def ofInt (n : Int) : Numeral where
  negative := n < 0
  whole := Nat.toDigits 10 n.natAbs
  fraction := []
  exponent := none

end Numeral

/-- How a double is laid out. -/
structure Style where
  /-- Which of two equally near shortest decimals is written. -/
  tie : Tie
  /-- The decimal exponents of the leading digit for which no exponent is written. -/
  positional : Int → Bool
  /-- The fraction of a number that has none. -/
  wholeFraction : List Char

namespace Style

/-- `n · 10 ^ e` without an exponent. -/
def positionalNumeral (style : Style) (negative : Bool) (n : Nat) (e : Int) : Numeral :=
  let digits := Nat.toDigits 10 n
  let point := digits.length + e
  if 0 ≤ e then
    { negative, whole := digits ++ List.replicate e.toNat '0', fraction := style.wholeFraction,
      exponent := none }
  else if 0 < point then
    { negative, whole := digits.take point.toNat, fraction := digits.drop point.toNat,
      exponent := none }
  else
    { negative, whole := ['0'], fraction := List.replicate (-point).toNat '0' ++ digits,
      exponent := none }

/-- `n · 10 ^ e` with one digit before the point and an exponent. -/
def scientificNumeral (negative : Bool) (n : Nat) (e : Int) : Numeral :=
  let digits := Nat.toDigits 10 n
  let leading := digits.length - 1 + e
  { negative, whole := digits.take 1, fraction := digits.drop 1,
    exponent := some (leading < 0, Nat.toDigits 10 leading.natAbs) }

/-- The numeral of a finite double. -/
def numeral (style : Style) (x : Float) : Numeral :=
  let bits := x.toBits.toNat
  let negative := decide (signWeight ≤ bits)
  match Binary.ofBits? (bits % signWeight) with
  | none => { negative, whole := ['0'], fraction := style.wholeFraction, exponent := none }
  | some magnitude =>
    let (n, e) := magnitude.shortest style.tie
    if style.positional ((Nat.toDigits 10 n).length - 1 + e) then
      style.positionalNumeral negative n e
    else scientificNumeral negative n e

end Style

/-- Plain numbers never have an exponent, a whole number has no fraction, and of two equally near
decimals the larger is written. -/
def plain : Style where
  tie := .up
  positional := fun _ => true
  wholeFraction := []

/-- The plain text of any double. -/
def plainText (x : Float) : String :=
  if x.isNaN then "NaN"
  else if x.isInf then (if 0 < x then "inf" else "-inf")
  else (plain.numeral x).text

end FormDesign.Decimal
