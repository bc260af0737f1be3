/-!
# Shortest decimals

A binary floating point number stands for every real that rounds to it. Among the decimals in that
interval this module picks one with the fewest digits, and of those the nearest to the number, by
exact arithmetic on natural numbers.

A positive finite number is `mantissa · 2 ^ exponent`. The interval reaches half way to its
neighbours; the one below is closer when the mantissa is the least of its binade. The ends belong to
it exactly when the mantissa is even. A decimal `n · 10 ^ e` is a point of the grid of exponent `e`,
and the coarsest grid that meets the interval has the decimals with the fewest digits. If a point of
a grid lies in the interval, so does one of the two points next to the number, so only those are
tried.
-/

namespace FormDesign.Decimal

/-- Which of two equally near decimals is taken: the one with the even last digit, or the larger. -/
inductive Tie
  | even
  | up
  deriving DecidableEq

/-- A positive finite binary number `mantissa · 2 ^ exponent`. -/
structure Binary where
  mantissa : Nat
  exponent : Int
  /-- Whether the neighbour below is half as far away as the one above. -/
  closerBelow : Bool

/-- The weight of the sign bit of a double. -/
def signWeight : Nat := 0x8000000000000000

/-- The weight of the lowest bit of the exponent of a double, which is also the bit of the mantissa
that is not stored. -/
def exponentWeight : Nat := 0x10000000000000

/-- The magnitude that the low 63 bits of a double encode, if it is finite and not zero. -/
def Binary.ofBits? (bits : Nat) : Option Binary :=
  let fraction : Nat := bits % exponentWeight
  let biased : Nat := bits / exponentWeight % 2048
  if biased = 2047 then none
  else if biased = 0 then
    if fraction = 0 then none else some ⟨fraction, -1074, false⟩
  else some ⟨exponentWeight + fraction, (biased : Int) - 1075, fraction = 0 && 1 < biased⟩

namespace Binary

/-- The factor that brings quarters of the last binary place to the common scale of this number and
the grid of exponent `e`. -/
def quarterScale (x : Binary) (e : Int) : Nat :=
  Nat.pow 2 (x.exponent - 2).toNat * Nat.pow 10 (-e).toNat

/-- The factor that brings points of the grid of exponent `e` to the common scale. -/
def gridScale (x : Binary) (e : Int) : Nat :=
  Nat.pow 2 (2 - x.exponent).toNat * Nat.pow 10 e.toNat

/-- The lower end of the interval, in quarters of the last binary place. -/
def lower (x : Binary) : Nat :=
  4 * x.mantissa - (if x.closerBelow then 1 else 2)

/-- The upper end of the interval, in quarters of the last binary place. -/
def upper (x : Binary) : Nat :=
  4 * x.mantissa + 2

/-- Whether `n · 10 ^ e` rounds to this number. -/
def covers (x : Binary) (e : Int) (n : Nat) : Bool :=
  let point := n * x.gridScale e
  let low := x.lower * x.quarterScale e
  let high := x.upper * x.quarterScale e
  if x.mantissa % 2 = 0 then low ≤ point && point ≤ high else low < point && point < high

/-- The point of the grid of exponent `e` that stands for this number, if one rounds to it. -/
def onGrid? (tie : Tie) (x : Binary) (e : Int) : Option Nat :=
  let scaled := 4 * x.mantissa * x.quarterScale e
  let below := scaled / x.gridScale e
  let above := below + 1
  match x.covers e below, x.covers e above with
  | true, true =>
    let toBelow := scaled - below * x.gridScale e
    let toAbove := above * x.gridScale e - scaled
    if toBelow < toAbove then some below
    else if toAbove < toBelow then some above
    else match tie with
      | .even => some (if below % 2 = 0 then below else above)
      | .up => some above
  | true, false => some below
  | false, true => some above
  | false, false => none

/-- An exponent whose power of ten is at least twice this number. -/
def topExponent (x : Binary) : Int :=
  (x.mantissa.log2 + 1 + x.exponent) * 30103 / 100000 + 2

/-- The shortest decimal `n · 10 ^ e` that rounds to this number, as `(n, e)`. Grids are tried from
the coarsest down; at the latest the one on which the number has seventeen digits meets the
interval. -/
def shortest (tie : Tie) (x : Binary) : Nat × Int :=
  let exponents := (List.range 24).map fun (i : Nat) => x.topExponent - i
  (exponents.findSome? fun e => (x.onGrid? tie e).map fun n => (n, e)).getD (0, 0)

end Binary

end FormDesign.Decimal
