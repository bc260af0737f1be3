import FormDesign.Json.Print
import FormDesign.Proofs.Decimal.Grammar
import Mathlib.Data.List.TakeDrop

/-!
# Scanning what has been written

A text that is written token by token, with blanks between some of the tokens, is cut into the same
tokens again. Only a number takes in what follows it, so a number has to be followed by something
that cannot go on with it; every other token shows its own end.

## Main definitions

* `EndsNumber`: characters that do not go on with a number in front of them;
* `Token.IsWritten`: a token that stands for something and is written in full;
* `Legible`: written tokens and blanks, with no number run into what follows it.

## Main results

* `scanString_chars`, `scanNumber_chars`: strings and numbers are found as they are written;
* `scanToken_chars`: a written token is found at the head of a text;
* `tokens_of_legible`: the tokens of a legible text are those that have been written;
* `read_ofString`: the text of a string is found again in its token.
-/

namespace FormDesign.Json

/-! ## Strings -/

/-- The piece that a character of a string is written as. -/
def Piece.ofChar (c : Char) : Piece :=
  if c.toNat < 0x20 ∧ shortEscape? c = none then .unit c.toNat else .char c

theorem StringToken.ofString_eq (s : String) :
    StringToken.ofString s = ⟨s.toList.map Piece.ofChar, .closed⟩ := rfl

/-- A code unit of a control character is read from the four digits that it is written with. -/
theorem exists_chars_unit {u : Nat} (h : u < 0x20) :
    ∃ a b c d, (Piece.unit u).chars = ['\\', 'u', a, b, c, d] ∧ unit? a b c d = some u := by
  have hAll : ∀ u : Fin 0x20, ∃ a b c d,
      (Piece.unit u.val).chars = ['\\', 'u', a, b, c, d] ∧ unit? a b c d = some u.val := by
    intro u
    -- the first two digits of so small a unit are zeros
    refine ⟨'0', '0', (Nat.toDigits 16 (u.val / 16))[0]!, (Nat.toDigits 16 (u.val % 16))[0]!, ?_⟩
    revert u
    decide
  exact hAll ⟨u, h⟩

/-- A character without a letter of its own behind a backslash is neither a quote nor a
backslash. -/
theorem ne_of_shortEscape?_eq_none {c : Char} (h : shortEscape? c = none) :
    c ≠ '"' ∧ c ≠ '\\' := by
  constructor
  · rintro rfl
    exact absurd h (by decide)
  · rintro rfl
    exact absurd h (by decide)

/-- One character of a string is found as it is written. -/
theorem scanString_ofChar (c : Char) (rest : List Char) :
    scanString ((Piece.ofChar c).chars ++ rest) =
      ((scanString rest).1.cons (Piece.ofChar c), (scanString rest).2) := by
  by_cases hUnit : c.toNat < 0x20 ∧ shortEscape? c = none
  · -- a control character without a letter is written as its code unit
    obtain ⟨a₁, a₂, a₃, a₄, hChars, hRead⟩ := exists_chars_unit hUnit.1
    rw [Piece.ofChar, if_pos hUnit, hChars]
    exact scanString_unit hRead rest
  · rw [Piece.ofChar, if_neg hUnit, Piece.chars]
    cases hShort : shortEscape? c with
    | some e => exact scanString_escape (escaped?_of_shortEscape? hShort) rest
    | none =>
      obtain ⟨hQuote, hBackslash⟩ := ne_of_shortEscape?_eq_none hShort
      exact scanString_char hQuote hBackslash (fun hSmall => hUnit ⟨hSmall, hShort⟩) rest

/-- A string is found as it is written, up to its closing quote. -/
theorem scanString_chars (s : String) (rest : List Char) :
    scanString ((StringToken.ofString s).pieces.flatMap Piece.chars ++ '"' :: rest) =
      (StringToken.ofString s, rest) := by
  rw [StringToken.ofString_eq]
  induction s.toList with
  | nil => exact scanString_quote rest
  | cons c cs ih =>
    dsimp only at ih ⊢
    rw [List.map_cons, List.flatMap_cons, List.append_assoc, scanString_ofChar, ih]
    rfl

/-- The text of a string is found again in its token. -/
theorem read_ofString (s : String) : (StringToken.ofString s).read = .ok s := by
  have hPieces : ∀ cs : List Char,
      StringToken.read.readPieces ⟨s.toList.map Piece.ofChar, .closed⟩ (cs.map Piece.ofChar) =
        .ok cs := by
    intro cs
    induction cs with
    | nil => rfl
    | cons c cs ih =>
      rw [List.map_cons]
      by_cases hUnit : c.toNat < 0x20 ∧ shortEscape? c = none
      · -- a control character is far below the units that come in pairs
        have hSmall := hUnit.1
        rw [Piece.ofChar, if_pos hUnit, StringToken.read.readPieces.eq_def]
        dsimp only
        rw [if_neg (by omega), if_neg (by omega), ih, Char.ofNat_toNat]
        rfl
      · rw [Piece.ofChar, if_neg hUnit]
        change (c :: ·) <$> StringToken.read.readPieces _ (cs.map Piece.ofChar) = _
        rw [ih]
        rfl
  rw [StringToken.ofString_eq, StringToken.read, hPieces]
  exact congrArg Except.ok (String.ofList_toList ..)

/-! ## Numbers -/

/-- The characters do not go on with a number in front of them. -/
def EndsNumber (cs : List Char) : Prop :=
  ∀ c ∈ cs.head?, c.isDigit = false ∧ c ≠ '.' ∧ c ≠ 'e' ∧ c ≠ 'E'

theorem endsNumber_nil : EndsNumber [] :=
  fun _ h => nomatch h

theorem endsNumber_cons {c : Char} (h : c.isDigit = false ∧ c ≠ '.' ∧ c ≠ 'e' ∧ c ≠ 'E')
    (cs : List Char) : EndsNumber (c :: cs) := by
  intro c' hc'
  cases Option.some.inj hc'
  exact h

/-- Digits are told from what follows them. -/
theorem span_digits {digits rest : List Char} (hDigits : ∀ c ∈ digits, c.isDigit = true)
    (hRest : ∀ c ∈ rest.head?, c.isDigit = false) :
    (digits ++ rest).span Char.isDigit = (digits, rest) := by
  rw [List.span_eq_takeWhile_dropWhile, List.takeWhile_append_of_pos hDigits,
    List.dropWhile_append_of_pos hDigits]
  cases rest with
  | nil => simp
  | cons c rest =>
    have hc := hRest c rfl
    rw [List.takeWhile_cons_of_neg (by simp [hc]), List.dropWhile_cons_of_neg (by simp [hc]),
      List.append_nil]

section

variable {n : Decimal.Numeral} {rest : List Char}

theorem scanExponent_of_endsNumber (h : EndsNumber rest) :
    scanExponent n rest = (.number n, rest) := by
  cases rest with
  | nil => rfl
  | cons c rest =>
    obtain ⟨-, -, hLower, hUpper⟩ := h c rfl
    simp [scanExponent, hLower, hUpper]

/-- The exponent of a number is found as it is written. -/
theorem scanExponent_chars (exponent : Option (Bool × List Char))
    (hNone : n.exponent = none)
    (hDigits : ∀ negative digits, exponent = some (negative, digits) →
      digits ≠ [] ∧ ∀ c ∈ digits, c.isDigit = true)
    (h : EndsNumber rest) :
    scanExponent n (Decimal.Numeral.exponentChars exponent ++ rest) =
      (.number { n with exponent }, rest) := by
  match exponent with
  | none =>
    have hSame : { n with exponent := none } = n := by rw [← hNone]
    rw [hSame]
    exact scanExponent_of_endsNumber h
  | some (negative, digits) =>
    obtain ⟨hNonempty, hAll⟩ := hDigits negative digits rfl
    have hSpan := span_digits hAll fun c hc => (h c hc).1
    obtain ⟨first, others, rfl⟩ := List.exists_cons_of_ne_nil hNonempty
    rw [List.cons_append] at hSpan
    cases negative with
    | true =>
      simp [Decimal.Numeral.exponentChars, scanExponent, hSpan, -List.span_eq_takeWhile_dropWhile]
    | false =>
      simp [Decimal.Numeral.exponentChars, scanExponent, hSpan, -List.span_eq_takeWhile_dropWhile]

/-- What may follow the fraction of a number does not go on with its digits. -/
theorem isDigit_head?_exponentChars (exponent : Option (Bool × List Char)) (h : EndsNumber rest) :
    ∀ c ∈ (Decimal.Numeral.exponentChars exponent ++ rest).head?, c.isDigit = false ∧ c ≠ '.' := by
  cases exponent with
  | none => exact fun c hc => ⟨(h c hc).1, (h c hc).2.1⟩
  | some exponent =>
    intro c hc
    cases Option.some.inj hc
    decide

/-- The fraction and the exponent of a number are found as they are written. -/
theorem scanFraction_chars {fraction : List Char} (exponent : Option (Bool × List Char))
    (hPlain : n.fraction = [] ∧ n.exponent = none)
    (hFraction : ∀ c ∈ fraction, c.isDigit = true)
    (hDigits : ∀ negative digits, exponent = some (negative, digits) →
      digits ≠ [] ∧ ∀ c ∈ digits, c.isDigit = true)
    (h : EndsNumber rest) :
    scanFraction n ((if fraction = [] then [] else '.' :: fraction) ++
        (Decimal.Numeral.exponentChars exponent ++ rest)) =
      (.number { n with fraction, exponent }, rest) := by
  have hNext := isDigit_head?_exponentChars exponent h
  by_cases hNone : fraction = []
  · -- without a point the exponent follows at once
    subst hNone
    have hExponent := scanExponent_chars exponent hPlain.2 hDigits h
    rw [if_pos rfl, List.nil_append, ← hPlain.1, ← hExponent]
    unfold scanFraction
    split
    · next heq =>
      rw [heq] at hNext
      exact absurd rfl (hNext '.' rfl).2
    · rfl
  · -- the digits behind the point end where the exponent or what follows begins
    have hSpan := span_digits hFraction fun c hc => (hNext c hc).1
    rw [if_neg hNone, List.cons_append, scanFraction, hSpan]
    obtain ⟨first, others, rfl⟩ := List.exists_cons_of_ne_nil hNone
    exact scanExponent_chars exponent hPlain.2 hDigits h

/-- The digits of a number are found as they are written. -/
theorem scanNumber_chars (hProper : n.IsProper) (h : EndsNumber rest) :
    scanNumber n.negative (n.whole ++ ((if n.fraction = [] then [] else '.' :: n.fraction) ++
        (Decimal.Numeral.exponentChars n.exponent ++ rest))) = (.number n, rest) := by
  have hNext : ∀ c ∈ ((if n.fraction = [] then [] else '.' :: n.fraction) ++
      (Decimal.Numeral.exponentChars n.exponent ++ rest)).head?, c.isDigit = false := by
    split
    · exact fun c hc => (isDigit_head?_exponentChars n.exponent h c hc).1
    · intro c hc
      cases Option.some.inj hc
      decide
  have hFraction := scanFraction_chars (n := ⟨n.negative, n.whole, [], none⟩) n.exponent
    ⟨rfl, rfl⟩ hProper.fraction_digits hProper.exponent_digits h
  obtain ⟨first, others, hWhole, hZero⟩ := hProper.whole_shape
  rw [scanNumber, span_digits hProper.whole_digits hNext]
  split
  · next heq =>
    rw [hWhole] at heq
    cases heq
  · next heq =>
    -- a zero stands alone, so this is not the case
    rw [hWhole] at heq
    obtain ⟨heq, -⟩ := Prod.mk.inj heq
    obtain ⟨rfl, rfl⟩ := List.cons.inj heq
    exact absurd (hZero rfl) (List.cons_ne_nil _ _)
  · next heq =>
    obtain ⟨rfl, rfl⟩ := Prod.mk.inj heq
    exact hFraction

end

/-! ## Tokens -/

/-- A token that stands for something and is written in full. -/
def Token.IsWritten : Token → Prop
  | .number n => n.IsProper
  | .string s => ∃ text, s = .ofString text
  | .broken _ _ | .stray => False
  | _ => True

/-- The first character of a number begins nothing else. -/
theorem scanToken_digit {c : Char} (h : c.isDigit = true) (cs : List Char) :
    scanToken c cs = scanNumber false (c :: cs) := by
  have hNe : ∀ d : Char, d.isDigit = false → c ≠ d := by
    rintro d hd rfl
    rw [h] at hd
    cases hd
  rw [scanToken, if_neg (hNe _ rfl), if_neg (hNe _ rfl), if_neg (hNe _ rfl), if_neg (hNe _ rfl),
    if_neg (hNe _ rfl), if_neg (hNe _ rfl), if_neg (hNe _ rfl), if_neg (hNe _ rfl), if_pos h]

/-- A written token begins with a character that is no blank. -/
theorem Token.IsWritten.exists_chars_eq_cons {t : Token} (h : t.IsWritten) :
    ∃ c cs, t.chars = c :: cs ∧ isSpacing c = false := by
  cases t with
  | number n =>
    obtain ⟨first, others, hWhole, -⟩ := h.whole_shape
    have hDigit : first.isDigit = true :=
      h.whole_digits first (hWhole ▸ List.mem_cons_self ..)
    have hNoBlank : isSpacing first = false := by
      rw [Bool.eq_false_iff]
      intro hBlank
      simp only [isSpacing, Bool.or_eq_true, decide_eq_true_eq] at hBlank
      rcases hBlank with ((rfl | rfl) | rfl) | rfl
      all_goals exact absurd hDigit (by decide)
    rw [chars, Decimal.Numeral.chars, hWhole]
    cases n.negative with
    | true => exact ⟨'-', _, rfl, by decide⟩
    | false => exact ⟨first, _, rfl, hNoBlank⟩
  | word w => cases w <;> exact ⟨_, _, rfl, by decide⟩
  | string s => exact ⟨'"', _, rfl, by decide⟩
  | broken reading skipping => exact h.elim
  | stray => exact h.elim
  | _ => exact ⟨_, _, rfl, by decide⟩

/-- A number is found at the head of a text. -/
theorem scanToken_number {n : Decimal.Numeral} (hProper : n.IsProper) {c : Char}
    {cs rest : List Char} (hChars : n.chars = c :: cs) (hRest : EndsNumber rest) :
    scanToken c (cs ++ rest) = (.number n, rest) := by
  have hScan := scanNumber_chars hProper hRest
  have hWritten : n.chars ++ rest = c :: (cs ++ rest) := by rw [hChars, List.cons_append]
  rw [Decimal.Numeral.chars, List.append_assoc, List.append_assoc, List.append_assoc] at hWritten
  cases hSign : n.negative with
  | true =>
    -- the sign tells that a number follows
    rw [hSign, if_pos rfl] at hWritten
    obtain ⟨rfl, hBehind⟩ := List.cons.inj hWritten
    rw [hSign] at hScan
    rw [← hBehind]
    exact hScan
  | false =>
    -- the first digit is part of the number
    rw [hSign, if_neg Bool.false_ne_true, List.nil_append] at hWritten
    rw [hSign, hWritten] at hScan
    obtain ⟨first, others, hWhole, -⟩ := hProper.whole_shape
    have hFirst : c = first := by
      rw [hWhole] at hWritten
      exact (List.cons.inj hWritten).1.symm
    have hDigit : c.isDigit = true :=
      hProper.whole_digits c (hWhole ▸ hFirst ▸ List.mem_cons_self ..)
    rw [scanToken_digit hDigit, hScan]

/-- A written token is found at the head of a text. -/
theorem scanToken_chars {t : Token} (h : t.IsWritten) {c : Char} {cs rest : List Char}
    (hChars : t.chars = c :: cs) (hRest : ∀ n, t = .number n → EndsNumber rest) :
    scanToken c (cs ++ rest) = (t, rest) := by
  cases t with
  | number n => exact scanToken_number h hChars (hRest n rfl)
  | word w =>
    cases w
    all_goals
      obtain ⟨rfl, rfl⟩ := List.cons.inj hChars
      simp [scanToken, scanWord]
  | string s =>
    obtain ⟨text, rfl⟩ := h
    obtain ⟨rfl, hPieces⟩ := List.cons.inj hChars
    have hScan := scanString_chars text rest
    have hCs : cs ++ rest =
        (StringToken.ofString text).pieces.flatMap Piece.chars ++ '"' :: rest := by
      rw [← hPieces]
      exact List.append_assoc ..
    rw [hCs]
    simp [scanToken, hScan]
  | broken reading skipping => exact h.elim
  | stray => exact h.elim
  | _ =>
    obtain ⟨rfl, rfl⟩ := List.cons.inj hChars
    simp [scanToken]

theorem Token.IsWritten.isLast_eq_false {t : Token} (h : t.IsWritten) : t.isLast = false := by
  cases t with
  | string s =>
    obtain ⟨text, rfl⟩ := h
    rfl
  | broken reading skipping => exact h.elim
  | stray => exact h.elim
  | _ => rfl

/-! ## Texts -/

/-- The token that is written, if it is one and not blanks. -/
def Lexeme.token? : Lexeme → Option Token
  | token t => some t
  | blank _ => none

/-- Written tokens and blanks, with no number run into what follows it. -/
inductive Legible : List Lexeme → Prop
  | nil : Legible []
  | blank {cs : List Char} {lexemes : List Lexeme} (spacing : ∀ c ∈ cs, isSpacing c = true)
      (rest : Legible lexemes) : Legible (.blank cs :: lexemes)
  -- only a number has to be kept apart from what follows it
  | token {t : Token} {lexemes : List Lexeme} (written : t.IsWritten)
      (apart : ∀ n, t = .number n → EndsNumber (lexemes.flatMap Lexeme.chars))
      (rest : Legible lexemes) : Legible (.token t :: lexemes)

/-- Blanks are passed over, one step for each. -/
theorem scan_blanks {cs : List Char} (h : ∀ c ∈ cs, isSpacing c = true) (fuel : Nat)
    (rest : List Char) : scan (cs.length + fuel) (cs ++ rest) = scan fuel rest := by
  induction cs with
  | nil => rw [List.length_nil, Nat.zero_add, List.nil_append]
  | cons c cs ih =>
    obtain ⟨hFirst, hOthers⟩ := List.forall_mem_cons.1 h
    rw [List.length_cons, Nat.succ_add, List.cons_append, scan, if_pos hFirst, ih hOthers]

/-- A legible text is cut into the tokens that have been written. -/
theorem scan_of_legible {lexemes : List Lexeme} (h : Legible lexemes) {fuel : Nat}
    (hFuel : (lexemes.flatMap Lexeme.chars).length ≤ fuel) :
    scan fuel (lexemes.flatMap Lexeme.chars) = lexemes.filterMap Lexeme.token? := by
  induction h generalizing fuel with
  | nil => cases fuel <;> rfl
  | @blank cs lexemes spacing rest ih =>
    rw [List.flatMap_cons, Lexeme.chars, List.length_append] at hFuel
    obtain ⟨fuel, rfl⟩ : ∃ k, fuel = cs.length + k := ⟨fuel - cs.length, by omega⟩
    rw [List.flatMap_cons, Lexeme.chars, scan_blanks spacing, ih (by omega)]
    rfl
  | @token t lexemes written apart rest ih =>
    -- one step is taken for the whole token, which has a character at least
    obtain ⟨c, cs, hChars, hNoBlank⟩ := written.exists_chars_eq_cons
    rw [List.flatMap_cons, Lexeme.chars, hChars, List.cons_append, List.length_cons,
      List.length_append] at hFuel
    obtain ⟨fuel, rfl⟩ : ∃ k, fuel = k + 1 := ⟨fuel - 1, by omega⟩
    rw [List.flatMap_cons, Lexeme.chars, hChars, List.cons_append, scan,
      if_neg (by simp [hNoBlank]), scanToken_chars written hChars apart]
    dsimp only
    rw [written.isLast_eq_false, if_neg Bool.false_ne_true, ih (by omega)]
    rfl

/-- The tokens of a legible text are those that have been written. -/
theorem tokens_of_legible {lexemes : List Lexeme} (h : Legible lexemes) :
    tokens (String.ofList (lexemes.flatMap Lexeme.chars)) = lexemes.filterMap Lexeme.token? := by
  rw [tokens, String.toList_ofList]
  exact scan_of_legible h (Nat.le_refl _)

end FormDesign.Json
