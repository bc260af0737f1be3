import FormDesign.Json.Token

/-!
# The tree of a JSON text

What a text says as far as it goes. A text that is not JSON has a tree too: the tree breaks off
where the text does, and the place tells a reader what to object to. Readers walk a tree in the
order of the text, so the first thing that is wrong for a reader, in the text or in its shape, is
what it reports.

* `Tree.ofTokens` builds the tree of a token list.
* `Tree.ofValue` is the tree of a value that is written out in full.
-/

namespace FormDesign.Json

/-- How a list or an object ends. -/
inductive Ending
  /-- With its bracket. -/
  | closed
  /-- The text ends where a comma or the bracket should stand. -/
  | unclosed
  /-- Something other than a comma or the bracket stands there. -/
  | unseparated
  /-- The bracket follows a comma. -/
  | danglingComma
  /-- The text ends after a comma between members. -/
  | danglingEnd
  /-- A member begins with something other than a string. -/
  | unkeyed
  deriving DecidableEq

/-- The tree of a text. -/
inductive Tree
  | null
  | bool (b : Bool)
  | number (n : Decimal.Numeral)
  | string (s : StringToken)
  | array (items : List Tree) (ending : Ending)
  | object (members : List (StringToken × Tree)) (ending : Ending)
  /-- A word or a number that breaks off: how a reader objects to it, and one that passes over
  it. -/
  | broken (reading skipping : Fault)
  /-- There is no value where one should be. -/
  | missing (fault : Fault)

instance : Inhabited Tree := ⟨.null⟩

/-! ## Leaves -/

/-- The text of a string: its pieces, with code units above U+FFFF taken in pairs. -/
def StringToken.read (s : StringToken) : Except Fault String :=
  String.ofList <$> readPieces s.pieces
where
  /-- The fault of the ending, if it is one. -/
  finish : Except Fault (List Char) :=
    match s.ending with
    | .closed => .ok []
    | .cut => .error (.cut .string)
    | .control => .error (.malformed .controlCharacter)
    | .badEscape | .badUnit => .error (.malformed .escape)
  /-- The fault of the ending where the second unit of a pair should stand. -/
  finishPair : Fault :=
    match s.ending with
    | .cut => .cut .string
    | .badUnit => .malformed .escape
    | .closed | .control | .badEscape => .malformed .unfinishedSurrogate
  readPieces : List Piece → Except Fault (List Char)
    | [] => finish
    | .char c :: rest => (c :: ·) <$> readPieces rest
    | .unit u :: rest =>
      if 0xDC00 ≤ u ∧ u < 0xE000 then .error (.malformed .loneSurrogate)
      else if 0xD800 ≤ u ∧ u < 0xDC00 then
        match rest with
        | [] => .error finishPair
        | .char _ :: _ => .error (.malformed .unfinishedSurrogate)
        | .unit v :: rest =>
          if 0xDC00 ≤ v ∧ v < 0xE000 then
            (Char.ofNat (0x10000 + (u - 0xD800) * 0x400 + (v - 0xDC00)) :: ·) <$> readPieces rest
          else .error (.malformed .loneSurrogate)
      else (Char.ofNat u :: ·) <$> readPieces rest

/-- Passing over a string: pairs of code units are not looked at. -/
def StringToken.skip (s : StringToken) : Except Fault Unit :=
  match s.ending with
  | .closed => .ok ()
  | .cut => .error (.cut .string)
  | .control => .error (.malformed .controlCharacter)
  | .badEscape | .badUnit => .error (.malformed .escape)

/-- The largest significand that is kept while digits are read. -/
def significandLimit : Nat := 0xFFFFFFFFFFFFFFFF

/-- A significand with one more digit. -/
def pushDigit (significand : Nat) (digit : Char) : Nat :=
  significand * 10 + (digit.toNat - '0'.toNat)

/-- The significand of the digits before the point, and how many digits at their end are dropped. -/
def wholeDigits (significand : Nat) : List Char → Nat × Nat
  | [] => (significand, 0)
  | digit :: digits =>
    if pushDigit significand digit ≤ significandLimit then
      wholeDigits (pushDigit significand digit) digits
    else (significand, digits.length + 1)

/-- The significand with the digits after the point, and how many of them it holds. -/
def fractionDigits (significand taken : Nat) : List Char → Nat × Nat
  | [] => (significand, taken)
  | digit :: digits =>
    if pushDigit significand digit ≤ significandLimit then
      fractionDigits (pushDigit significand digit) (taken + 1) digits
    else (significand, taken)

/-- The double near `significand · 10 ^ exponent`, by one multiplication or one or two divisions. -/
def scaleByPowerOfTen (significand : Nat) (exponent : Int) : Except Fault Float :=
  let f := Float.ofNat significand
  let power (k : Nat) : Float := Float.ofScientific 1 false k
  -- The largest power of ten that is a double is the 308th; beyond it, division takes two steps.
  if 0 ≤ exponent then
    if exponent ≤ 308 then
      let scaled := f * power exponent.toNat
      if scaled.isInf then .error (.malformed .numberRange) else .ok scaled
    else if significand = 0 then .ok f
    else .error (.malformed .numberRange)
  else if -308 ≤ exponent then .ok (f / power (-exponent).toNat)
  else if -616 ≤ exponent then .ok (f / power 308 / power (-exponent - 308).toNat)
  else .ok 0

/-- The largest exponent that is still calculated with. -/
def exponentLimit : Nat := 0x7FFFFFFF

/-- The largest magnitude of a negative integer. -/
def negativeLimit : Nat := 0x8000000000000000

/-- The number that a numeral stands for. Without point and exponent it is an integer if it fits
into 64 bits, the sign included, and is not a negative zero; otherwise it is a double. -/
def readNumeral (n : Decimal.Numeral) : Except Fault Number :=
  let (whole, dropped) := wholeDigits 0 n.whole
  let (significand, taken) := fractionDigits whole 0 n.fraction
  let shift : Int := (dropped : Int) - (taken : Int)
  let signed (x : Float) : Number := .float (if n.negative then -x else x)
  match n.exponent with
  | some (negative, digits) =>
    let exponent := Nat.ofDigitChars 10 digits 0
    if exponentLimit < exponent then
      -- Such a number is zero or too large, whatever its digits are.
      if significand ≠ 0 ∧ ¬ negative then .error (.malformed .numberRange) else .ok (signed 0)
    else
      signed <$>
        scaleByPowerOfTen significand (shift + if negative then -(exponent : Int) else exponent)
  | none =>
    if n.fraction = [] ∧ dropped = 0 then
      if ¬ n.negative then .ok (.int whole)
      else if 0 < whole ∧ whole ≤ negativeLimit then .ok (.int (-(whole : Int)))
      else .ok (signed (Float.ofNat whole))
    else signed <$> scaleByPowerOfTen significand shift

namespace Tree

/-! ## From tokens -/

/-- How a list or an object goes on: with something more, or it has ended. -/
inductive Next
  | more (rest : List Token)
  | stop (ending : Ending) (rest : List Token)

/-- How a list goes on after its bracket. -/
def atFirstItem : List Token → Next
  | [] => .stop .unclosed []
  | .closeArray :: rest => .stop .closed rest
  | ts => .more ts

/-- How a list goes on after an item. -/
def afterItem : List Token → Next
  | [] => .stop .unclosed []
  | .closeArray :: rest => .stop .closed rest
  | .comma :: .closeArray :: rest => .stop .danglingComma rest
  | .comma :: rest => .more rest
  | ts => .stop .unseparated ts

/-- How an object goes on after its bracket. -/
def atFirstMember : List Token → Next
  | [] => .stop .unclosed []
  | .closeObject :: rest => .stop .closed rest
  | ts => .more ts

/-- How an object goes on after a member. -/
def afterMember : List Token → Next
  | [] => .stop .unclosed []
  | .closeObject :: rest => .stop .closed rest
  | .comma :: .closeObject :: rest => .stop .danglingComma rest
  | .comma :: rest => .more rest
  | ts => .stop .unseparated ts

/-- The tokens after the colon that follows a key. -/
def afterKey : List Token → Except Fault (List Token)
  | .colon :: rest => .ok rest
  | [] => .error (.cut .object)
  | _ => .error (.malformed .colon)

/-- The items of a list or the members of an object, how they end, and the tokens that follow. -/
structure Listing (α : Type) where
  content : List α
  ending : Ending
  rest : List Token

/-- Puts an item or a member before the others. -/
def Listing.cons {α : Type} (a : α) (l : Listing α) : Listing α :=
  { l with content := a :: l.content }

mutual

/-- The tree that begins the tokens, and the tokens that follow it. -/
def build : Nat → List Token → Tree × List Token
  | 0, ts => (.missing (.cut .value), ts)
  | _ + 1, [] => (.missing (.cut .value), [])
  | fuel + 1, t :: ts =>
    match t with
    | .word .null => (.null, ts)
    | .word .true => (.bool true, ts)
    | .word .false => (.bool false, ts)
    | .number n => (.number n, ts)
    | .string s => (.string s, ts)
    | .broken reading skipping => (.broken reading skipping, ts)
    | .openArray =>
      match atFirstItem ts with
      | .stop ending rest => (.array [] ending, rest)
      | .more ts =>
        let l := buildItems fuel ts
        (.array l.content l.ending, l.rest)
    | .openObject =>
      match atFirstMember ts with
      | .stop ending rest => (.object [] ending, rest)
      | .more ts =>
        let l := buildMembers fuel ts
        (.object l.content l.ending, l.rest)
    | .closeArray | .closeObject | .colon | .comma | .stray =>
      (.missing (.malformed .value), t :: ts)

/-- The items from the next one on. -/
def buildItems : Nat → List Token → Listing Tree
  | 0, ts => ⟨[], .unclosed, ts⟩
  | fuel + 1, ts =>
    let item := build fuel ts
    match afterItem item.2 with
    | .stop ending rest => ⟨[item.1], ending, rest⟩
    | .more rest => (buildItems fuel rest).cons item.1

/-- The members from the next one on. -/
def buildMembers : Nat → List Token → Listing (StringToken × Tree)
  | 0, ts => ⟨[], .unclosed, ts⟩
  | _ + 1, [] => ⟨[], .danglingEnd, []⟩
  | fuel + 1, .string key :: ts =>
    match afterKey ts with
    | .error fault => ⟨[(key, .missing fault)], .unseparated, ts⟩
    | .ok rest =>
      let value := build fuel rest
      match afterMember value.2 with
      | .stop ending rest => ⟨[(key, value.1)], ending, rest⟩
      | .more rest => (buildMembers fuel rest).cons (key, value.1)
  | _ + 1, t :: ts => ⟨[], .unkeyed, t :: ts⟩

end

/-- The tree of a token list, and the tokens that follow it. Every step passes a token or goes on
from a list to its first item, so twice as many steps as tokens suffice. -/
def ofTokens (ts : List Token) : Tree × List Token :=
  build (2 * ts.length + 1) ts

/-! ## From values -/

/-- The numeral that a number is written as. -/
def numeralOf : Number → Decimal.Numeral
  | .int n => .ofInt n
  | .float x => numberStyle.numeral x

mutual

/-- The tree of the text of a value. A double that is not finite has no numeral and is written as
null. -/
def ofValue : Value → Tree
  | .null => .null
  | .bool b => .bool b
  | .number (.int n) => .number (numeralOf (.int n))
  | .number (.float x) => if x.isFinite then .number (numeralOf (.float x)) else .null
  | .string s => .string (.ofString s)
  | .array items => .array (ofItems items) .closed
  | .object members => .object (ofMembers members) .closed

/-- The trees of items. -/
def ofItems : List Value → List Tree
  | [] => []
  | item :: items => ofValue item :: ofItems items

/-- The trees of members. -/
def ofMembers : List (String × Value) → List (StringToken × Tree)
  | [] => []
  | (key, value) :: members => (.ofString key, ofValue value) :: ofMembers members

end

/-! ## What stands in a tree -/

/-- What a reader finds, or objects to, that has no use for what stands here. -/
def found : Tree → Except Fault Found
  | .null => .ok .null
  | .bool b => .ok (.boolean b)
  | .number n => Found.number <$> readNumeral n
  | .string s => Found.string <$> s.read
  | .array _ _ => .ok .sequence
  | .object _ _ => .ok .map
  | .broken reading _ => .error reading
  | .missing fault => .error fault

/-- The fault of a tree that is not what `expected` names. -/
def mismatch (t : Tree) (expected : String) : Fault :=
  match t.found with
  | .ok found => .wrongType found expected
  | .error fault => fault

end Tree

namespace Ending

/-- The fault of the end of a list for a reader of its items. -/
def readList : Ending → Except Fault Unit
  | closed => .ok ()
  | unclosed => .error (.cut .list)
  | danglingComma => .error (.malformed .trailingComma)
  | _ => .error (.malformed .listEnd)

/-- The fault of the end of a list for a reader that passes over it. -/
def skipList : Ending → Except Fault Unit
  | closed => .ok ()
  | unclosed => .error (.cut .list)
  | danglingComma => .error (.malformed .value)
  | _ => .error (.malformed .listEnd)

/-- The fault of the end of a list for a reader that wants no further item. -/
def endList : Ending → Except Fault Unit
  | closed => .ok ()
  | unclosed => .error (.cut .list)
  | danglingComma => .error (.malformed .trailingComma)
  | _ => .error (.malformed .trailingCharacters)

/-- The fault of the end of an object for a reader of its members. -/
def readObject : Ending → Except Fault Unit
  | closed => .ok ()
  | unclosed => .error (.cut .object)
  | unseparated => .error (.malformed .objectEnd)
  | danglingComma => .error (.malformed .trailingComma)
  | danglingEnd => .error (.cut .value)
  | unkeyed => .error (.malformed .key)

/-- The fault of the end of an object for a reader that passes over it. -/
def skipObject : Ending → Except Fault Unit
  | closed => .ok ()
  | unclosed | danglingEnd => .error (.cut .object)
  | unseparated => .error (.malformed .objectEnd)
  | danglingComma | unkeyed => .error (.malformed .key)

end Ending

end FormDesign.Json
