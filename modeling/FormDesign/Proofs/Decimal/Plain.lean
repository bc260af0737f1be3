import FormDesign.Decimal.Numeral
import FormDesign.Proofs.Xml.Escape

/-!
# The characters of plain numbers

A number in plain digits is made of digits, a sign and a point, or it is one of the words for what
is not finite. So there is nothing in it that would be escaped.

## Main results

* `mem_chars_plain`: the characters of a plain numeral;
* `mem_plainText`: the characters of a number as it is written in a document;
* `isPlain_plainText`: there is nothing in it to escape.
-/

namespace FormDesign.Decimal

/-- The characters of plain numerals. -/
def IsPlainChar (c : Char) : Prop :=
  c.isDigit = true ∨ c = '-' ∨ c = '.'

instance (c : Char) : Decidable (IsPlainChar c) :=
  inferInstanceAs (Decidable (_ ∨ _ ∨ _))

theorem isPlainChar_of_mem_digits {n : Nat} {c : Char} (h : c ∈ Nat.toDigits 10 n) :
    IsPlainChar c :=
  .inl (Nat.isDigit_of_mem_toDigits (by decide) (by decide) h)

theorem isPlainChar_of_mem_zeros {n : Nat} {c : Char} (h : c ∈ List.replicate n '0') :
    IsPlainChar c := by
  rw [List.eq_of_mem_replicate h]
  exact .inl (by decide)

/-- A numeral without an exponent is made of plain characters if its digits are. -/
theorem Numeral.isPlainChar_of_mem_chars {n : Numeral} (hExponent : n.exponent = none)
    (hWhole : ∀ c ∈ n.whole, IsPlainChar c) (hFraction : ∀ c ∈ n.fraction, IsPlainChar c) :
    ∀ c ∈ n.chars, IsPlainChar c := by
  intro c hc
  simp only [chars, hExponent, exponentChars, List.append_nil, List.mem_append] at hc
  rcases hc with (hSign | hWholeMem) | hFractionMem
  · split at hSign
    · exact .inr (.inl (List.mem_singleton.1 hSign))
    · exact absurd hSign List.not_mem_nil
  · exact hWhole c hWholeMem
  · split at hFractionMem
    · exact absurd hFractionMem List.not_mem_nil
    · rcases List.mem_cons.1 hFractionMem with rfl | hMem
      · exact .inr (.inr rfl)
      · exact hFraction c hMem

/-- A numeral without an exponent has digits, a point and a sign alone. -/
theorem mem_chars_positional (negative : Bool) (n : Nat) (e : Int) :
    ∀ c ∈ (plain.positionalNumeral negative n e).chars, IsPlainChar c := by
  have digits : ∀ c ∈ Nat.toDigits 10 n, IsPlainChar c := fun c => isPlainChar_of_mem_digits
  unfold Style.positionalNumeral
  dsimp only
  split_ifs
  · refine Numeral.isPlainChar_of_mem_chars rfl ?_ ?_
    · exact List.forall_mem_append.2 ⟨digits, fun c => isPlainChar_of_mem_zeros⟩
    · exact fun c hc => absurd hc List.not_mem_nil
  · refine Numeral.isPlainChar_of_mem_chars rfl ?_ ?_
    · exact fun c hc => digits c (List.mem_of_mem_take hc)
    · exact fun c hc => digits c (List.mem_of_mem_drop hc)
  · refine Numeral.isPlainChar_of_mem_chars rfl ?_ ?_
    · exact List.forall_mem_singleton.2 (.inl (by decide))
    · exact List.forall_mem_append.2 ⟨fun c => isPlainChar_of_mem_zeros, digits⟩

/-- The characters of a plain numeral. -/
theorem mem_chars_plain (x : Float) : ∀ c ∈ (plain.numeral x).chars, IsPlainChar c := by
  unfold Style.numeral
  dsimp only
  split
  · refine Numeral.isPlainChar_of_mem_chars rfl ?_ ?_
    · exact List.forall_mem_singleton.2 (.inl (by decide))
    · exact fun c hc => absurd hc List.not_mem_nil
  · exact mem_chars_positional _ _ _

/-- The characters of numbers, those of the words for what is not finite among them. -/
def IsNumberChar (c : Char) : Prop :=
  IsPlainChar c ∨ c.isAlpha = true

instance (c : Char) : Decidable (IsNumberChar c) :=
  inferInstanceAs (Decidable (_ ∨ _))

/-- The characters of a number as it is written in a document. -/
theorem mem_plainText (x : Float) : ∀ c ∈ (plainText x).toList, IsNumberChar c := by
  have hWord : ∀ word : String, word.toList.all (fun c => decide (IsNumberChar c)) = true →
      ∀ c ∈ word.toList, IsNumberChar c :=
    fun word h c hc => of_decide_eq_true (List.all_eq_true.1 h c hc)
  unfold plainText
  split_ifs
  · exact hWord "NaN" (by decide)
  · exact hWord "inf" (by decide)
  · exact hWord "-inf" (by decide)
  · intro c hc
    rw [Numeral.text, String.toList_ofList] at hc
    exact .inl (mem_chars_plain x c hc)

/-- No character of a number is reserved. -/
theorem IsNumberChar.not_isReserved {c : Char} (h : IsNumberChar c) :
    Xml.isReserved c = false := by
  rw [Bool.eq_false_iff]
  intro hReserved
  rcases Xml.eq_of_isReserved hReserved with rfl | rfl | rfl | rfl
  all_goals exact absurd h (by decide)

/-- A number as it is written in a document has nothing to escape. -/
theorem isPlain_plainText (x : Float) : Xml.IsPlain (plainText x) :=
  fun c hc => (mem_plainText x c hc).not_isReserved

end FormDesign.Decimal
