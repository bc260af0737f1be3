import FormDesign.Json.Fault

/-!
# Tokens of a JSON text

A text is cut into brackets, separators, words, numbers and strings. A token that is not well formed
ends the list, because nothing after it is ever looked at; what is wrong with it is part of the
token. A string keeps its `\u` escapes as the code units they name, since whether these pair up
matters only to a reader that wants the string and not to one that passes over it.

* `tokens` cuts a text, `Token.chars` writes a token.
-/

namespace FormDesign.Json

/-- A word of the language. -/
inductive Word
  | null
  | true
  | false
  deriving DecidableEq

/-- One step of a string: a character, or a code unit given by its number. -/
inductive Piece
  | char (c : Char)
  | unit (u : Nat)
  deriving DecidableEq

/-- How a string ends. -/
inductive StringEnd
  | closed
  /-- The text ends inside the string. -/
  | cut
  /-- A control character stands in the string. -/
  | control
  /-- A backslash precedes a character that it cannot. -/
  | badEscape
  /-- The number of a code unit is not four hexadecimal digits. -/
  | badUnit
  deriving DecidableEq

/-- A string as it is written. -/
structure StringToken where
  pieces : List Piece
  ending : StringEnd
  deriving DecidableEq

/-- The smallest parts of a text that mean something. -/
inductive Token
  | openArray
  | closeArray
  | openObject
  | closeObject
  | colon
  | comma
  | word (w : Word)
  | number (n : Decimal.Numeral)
  | string (s : StringToken)
  /-- A word or a number that breaks off: how a reader objects to it, and one that passes over
  it. -/
  | broken (reading skipping : Fault)
  /-- A character that begins no token. -/
  | stray

/-! ## Strings -/

/-- The value of a hexadecimal digit. -/
def hexDigit? (c : Char) : Option Nat :=
  if c.isDigit then some (c.toNat - '0'.toNat)
  else if 'a' ≤ c && c ≤ 'f' then some (c.toNat - 'a'.toNat + 10)
  else if 'A' ≤ c && c ≤ 'F' then some (c.toNat - 'A'.toNat + 10)
  else none

/-- The code unit that four hexadecimal digits name. -/
def unit? (a b c d : Char) : Option Nat := do
  let a ← hexDigit? a
  let b ← hexDigit? b
  let c ← hexDigit? c
  let d ← hexDigit? d
  return ((a * 16 + b) * 16 + c) * 16 + d

/-- What a backslash followed by `c` stands for. -/
def escaped? (c : Char) : Option Char :=
  match c with
  | '"' => some '"'
  | '\\' => some '\\'
  | '/' => some '/'
  | 'b' => some '\x08'
  | 'f' => some '\x0c'
  | 'n' => some '\n'
  | 'r' => some '\r'
  | 't' => some '\t'
  | _ => none

/-- Puts a piece before the rest of a string. -/
def StringToken.cons (piece : Piece) (s : StringToken) : StringToken :=
  { s with pieces := piece :: s.pieces }

/-- Whether fewer than four bytes are left. -/
def fewBytes (cs : List Char) : Bool :=
  (String.ofList (cs.take 4)).utf8ByteSize < 4

/-- The string whose opening quote has been passed, and what follows it. -/
def scanString : List Char → StringToken × List Char
  | [] => (⟨[], .cut⟩, [])
  | c :: cs =>
    if c = '"' then (⟨[], .closed⟩, cs)
    else if c = '\\' then
      match cs with
      | [] => (⟨[], .cut⟩, [])
      | e :: cs =>
        if e = 'u' then
          match cs with
          | h₁ :: h₂ :: h₃ :: h₄ :: rest =>
            -- Four bytes are looked at together, so that a text with fewer has ended before they
            -- are judged.
            match unit? h₁ h₂ h₃ h₄ with
            | some u =>
              let (s, rest) := scanString rest
              (s.cons (.unit u), rest)
            | none => (⟨[], if fewBytes cs then .cut else .badUnit⟩, cs)
          | _ => (⟨[], if fewBytes cs then .cut else .badUnit⟩, cs)
        else
          match escaped? e with
          | some e =>
            let (s, rest) := scanString cs
            (s.cons (.char e), rest)
          | none => (⟨[], .badEscape⟩, cs)
    else if c.toNat < 0x20 then (⟨[], .control⟩, cs)
    else
      let (s, rest) := scanString cs
      (s.cons (.char c), rest)

/-- A quote ends a string. -/
@[simp]
theorem scanString_quote (cs : List Char) : scanString ('"' :: cs) = (⟨[], .closed⟩, cs) := by
  rw [scanString.eq_def]
  simp

/-- A letter behind a backslash stands for a character. -/
theorem scanString_escape {e c : Char} (h : escaped? e = some c) (cs : List Char) :
    scanString ('\\' :: e :: cs) = ((scanString cs).1.cons (.char c), (scanString cs).2) := by
  have hu : e ≠ 'u' := by
    rintro rfl
    simp [escaped?] at h
  rw [scanString.eq_def]
  simp [h, hu]

/-- Four digits behind a backslash and a `u` stand for a unit. -/
theorem scanString_unit {a b c d : Char} {u : Nat} (h : unit? a b c d = some u) (cs : List Char) :
    scanString ('\\' :: 'u' :: a :: b :: c :: d :: cs) =
      ((scanString cs).1.cons (.unit u), (scanString cs).2) := by
  rw [scanString.eq_def]
  simp [h]

/-- Any other character that is no control character stands for itself. -/
theorem scanString_char {c : Char} (hq : c ≠ '"') (hb : c ≠ '\\') (hc : ¬c.toNat < 0x20)
    (cs : List Char) :
    scanString (c :: cs) = ((scanString cs).1.cons (.char c), (scanString cs).2) := by
  rw [scanString.eq_def]
  simp [hq, hb, hc]

/-! ## Numbers and words -/

/-- A number that breaks off before `cs`, where a digit should stand. -/
def brokenNumber (cs : List Char) : Token :=
  .broken (if cs = [] then .cut .value else .malformed .number) (.malformed .number)

/-- The exponent of a number whose other parts have been read. -/
def scanExponent (n : Decimal.Numeral) (cs : List Char) : Token × List Char :=
  match cs with
  | [] => (.number n, [])
  | c :: rest =>
    if c = 'e' || c = 'E' then
      let (negative, rest) := match rest with
        | '-' :: rest => (true, rest)
        | '+' :: rest => (false, rest)
        | _ => (false, rest)
      match rest.span Char.isDigit with
      | ([], after) => (brokenNumber after, after)
      | (digits, after) => (.number { n with exponent := some (negative, digits) }, after)
    else (.number n, cs)

/-- The fraction and the exponent of a number whose whole part has been read. -/
def scanFraction (n : Decimal.Numeral) (cs : List Char) : Token × List Char :=
  match cs with
  | '.' :: rest =>
    match rest.span Char.isDigit with
    | ([], after) => (brokenNumber after, after)
    | (digits, after) => scanExponent { n with fraction := digits } after
  | _ => scanExponent n cs

/-- The number that begins after its sign. A whole part longer than one digit does not begin with a
zero. -/
def scanNumber (negative : Bool) (cs : List Char) : Token × List Char :=
  match cs.span Char.isDigit with
  | ([], after) => (brokenNumber after, after)
  -- A zero is the whole part by itself.
  | ('0' :: _ :: _, after) => (.broken (.malformed .number) (.malformed .number), after)
  | (digits, after) => scanFraction ⟨negative, digits, [], none⟩ after

/-- The word whose first letter has been passed, given the letters that must follow. -/
def scanWord (w : Word) : List Char → List Char → Token × List Char
  | [], cs => (.word w, cs)
  | _ :: _, [] => (.broken (.cut .value) (.cut .value), [])
  | l :: ls, c :: cs =>
    if c = l then scanWord w ls cs else (.broken (.malformed .literal) (.malformed .literal), cs)

/-! ## Texts -/

/-- The characters that may stand between tokens. -/
def isSpacing (c : Char) : Bool :=
  c = ' ' || c = '\t' || c = '\n' || c = '\r'

/-- The token that begins with `c`, and what follows it. -/
def scanToken (c : Char) (cs : List Char) : Token × List Char :=
  -- Braces are given by their numbers, 7b and 7d.
  if c = '[' then (.openArray, cs)
  else if c = ']' then (.closeArray, cs)
  else if c = '\x7b' then (.openObject, cs)
  else if c = '\x7d' then (.closeObject, cs)
  else if c = ':' then (.colon, cs)
  else if c = ',' then (.comma, cs)
  else if c = '"' then
    let (s, rest) := scanString cs
    (.string s, rest)
  else if c = '-' then scanNumber true cs
  else if c.isDigit then scanNumber false (c :: cs)
  else if c = 'n' then scanWord .null ['u', 'l', 'l'] cs
  else if c = 't' then scanWord .true ['r', 'u', 'e'] cs
  else if c = 'f' then scanWord .false ['a', 'l', 's', 'e'] cs
  else (.stray, cs)

/-- Whether nothing after this token is looked at. -/
def Token.isLast : Token → Bool
  | .broken _ _ => true
  | .stray => true
  | .string s => s.ending ≠ .closed
  | _ => false

/-- The tokens of `cs`, of which there are at most `fuel`, blanks counted. -/
def scan : Nat → List Char → List Token
  | 0, _ => []
  | _ + 1, [] => []
  | fuel + 1, c :: cs =>
    if isSpacing c then scan fuel cs
    else
      let (token, rest) := scanToken c cs
      token :: if token.isLast then [] else scan fuel rest

/-- The tokens of a text. -/
def tokens (text : String) : List Token :=
  let cs := text.toList
  scan cs.length cs

/-! ## Writing tokens -/

/-- The letters of a word. -/
def Word.chars : Word → List Char
  | .null => ['n', 'u', 'l', 'l']
  | .true => ['t', 'r', 'u', 'e']
  | .false => ['f', 'a', 'l', 's', 'e']

/-- The letter that stands for `c` behind a backslash, for characters that are written in this
way. -/
def shortEscape? (c : Char) : Option Char :=
  if c = '"' then some '"'
  else if c = '\\' then some '\\'
  else if c = '\x08' then some 'b'
  else if c = '\x0c' then some 'f'
  else if c = '\n' then some 'n'
  else if c = '\r' then some 'r'
  else if c = '\t' then some 't'
  else none

/-- A letter that is written for a character is read as that character. -/
theorem escaped?_of_shortEscape? {c e : Char} (h : shortEscape? c = some e) :
    escaped? e = some c := by
  unfold shortEscape? at h
  grind [escaped?]

/-- The characters that a piece is written as. A code unit is given by four hexadecimal digits. -/
def Piece.chars : Piece → List Char
  | .char c =>
    match shortEscape? c with
    | some e => ['\\', e]
    | none => [c]
  | .unit u => '\\' :: 'u' :: (Nat.toDigits 16 u).leftpad 4 '0'

/-- The token of a string. Control characters without a letter of their own are given by number. -/
def StringToken.ofString (s : String) : StringToken where
  pieces := s.toList.map fun c =>
    if c.toNat < 0x20 ∧ shortEscape? c = none then .unit c.toNat else .char c
  ending := .closed

/-- The characters of a string, from quote to quote. -/
def StringToken.chars (s : StringToken) : List Char :=
  '"' :: s.pieces.flatMap Piece.chars ++ ['"']

/-- The characters of a token that is well formed. -/
def Token.chars : Token → List Char
  | .openArray => ['[']
  | .closeArray => [']']
  | .openObject => ['\x7b']
  | .closeObject => ['\x7d']
  | .colon => [':']
  | .comma => [',']
  | .word w => w.chars
  | .number n => n.chars
  | .string s => s.chars
  | .broken _ _ => []
  | .stray => []

end FormDesign.Json
