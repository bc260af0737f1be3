import FormDesign.Decimal.Numeral
import Mathlib.Tactic.SplitIfs

/-!
# Numerals that may be read back

A numeral can be read back when digits stand wherever the grammar of numbers wants them, and the
whole part has no zero before other digits. The numerals that numbers are written as are all of
this kind. For doubles this rests on the search for the shortest decimal: what it finds rounds to
the number, and zero does not.

## Main definitions

* `Numeral.IsProper`: a numeral that the grammar of numbers allows.

## Main results

* `Binary.covers_of_onGrid?_eq_some`: a decimal that is found rounds to the number;
* `Binary.shortest_ne_zero`: the shortest decimal of a number other than zero has a digit that is
  not zero;
* `isProper_ofInt`, `isProper_numeral`: the numerals of integers and of doubles are proper.
-/

namespace FormDesign.Decimal

/-- The digits of a numeral stand where the grammar of numbers wants them. -/
structure Numeral.IsProper (n : Numeral) : Prop where
  whole_digits : ∀ c ∈ n.whole, c.isDigit = true
  /-- A zero is the whole part by itself. -/
  whole_shape : ∃ first rest, n.whole = first :: rest ∧ (first = '0' → rest = [])
  fraction_digits : ∀ c ∈ n.fraction, c.isDigit = true
  exponent_digits : ∀ negative digits, n.exponent = some (negative, digits) →
    digits ≠ [] ∧ ∀ c ∈ digits, c.isDigit = true

/-! ## Digits -/

theorem isDigit_of_mem_toDigits {n : Nat} {c : Char} (h : c ∈ Nat.toDigits 10 n) :
    c.isDigit = true :=
  Nat.isDigit_of_mem_toDigits (by decide) (by decide) h

/-- The digits of a natural number do not begin with a zero, unless they are that zero. -/
theorem exists_toDigits_eq_cons (n : Nat) :
    ∃ first rest, Nat.toDigits 10 n = first :: rest ∧ (first = '0' → n = 0) := by
  induction n using Nat.strongRecOn with
  | ind n ih =>
    rcases Nat.lt_or_ge n 10 with hSmall | hLarge
    · exact ⟨n.digitChar, [], Nat.toDigits_of_lt_base hSmall, Nat.digitChar_eq_zero.1⟩
    · -- the last digit is put behind those of the quotient, which is not zero
      obtain ⟨first, rest, hDigits, hZero⟩ := ih (n / 10) (by omega)
      refine ⟨first, rest ++ [(n % 10).digitChar], ?_, fun h => ?_⟩
      · rw [Nat.toDigits_of_base_le (by decide) hLarge, hDigits, List.cons_append]
      · have := hZero h
        omega

theorem digits_of_mem_replicate {n : Nat} {c : Char} (h : c ∈ List.replicate n '0') :
    c.isDigit = true := by
  rw [List.eq_of_mem_replicate h]
  decide

/-! ## Shortest decimals -/

namespace Binary

variable {x : Binary} {tie : Tie} {e : Int} {n : Nat}

/-- A point of a grid that is found for a number rounds to it. -/
theorem covers_of_onGrid?_eq_some (h : x.onGrid? tie e = some n) : x.covers e n = true := by
  unfold onGrid? at h
  dsimp only at h
  split at h
  · next hBelow hAbove =>
    -- both neighbours round to the number, and one of them is taken
    split_ifs at h
    · exact Option.some.inj h ▸ hBelow
    · exact Option.some.inj h ▸ hAbove
    · cases tie with
      | even => exact Option.some.inj h ▸ hBelow
      | up => exact Option.some.inj h ▸ hAbove
    · cases tie with
      | even => exact Option.some.inj h ▸ hAbove
      | up => exact Option.some.inj h ▸ hAbove
  · next hBelow _ => exact Option.some.inj h ▸ hBelow
  · next _ hAbove => exact Option.some.inj h ▸ hAbove
  · cases h

/-- Zero does not round to a number that is not zero. -/
theorem covers_zero (hMantissa : 0 < x.mantissa) (e : Int) : x.covers e 0 = false := by
  have hLower : 0 < x.lower := by
    unfold lower
    split <;> omega
  have hScale : 0 < x.quarterScale e :=
    Nat.mul_pos (Nat.pow_pos (by decide)) (Nat.pow_pos (by decide))
  have hLow : 0 < x.lower * x.quarterScale e := Nat.mul_pos hLower hScale
  unfold covers
  dsimp only
  rw [Nat.zero_mul]
  split
  · simp
    omega
  · simp

/-- The shortest decimal of a number that is not zero is not zero either, unless none is found. -/
theorem shortest_ne_zero (tie : Tie) (hMantissa : 0 < x.mantissa) :
    (x.shortest tie).1 ≠ 0 ∨ x.shortest tie = (0, 0) := by
  unfold shortest
  dsimp only
  cases hFound : List.findSome? (fun e => (x.onGrid? tie e).map fun n => (n, e))
      ((List.range 24).map fun (i : Nat) => x.topExponent - i) with
  | none => exact .inr rfl
  | some found =>
    obtain ⟨e, -, hGrid⟩ := List.exists_of_findSome?_eq_some hFound
    obtain ⟨n, hOnGrid, rfl⟩ := Option.map_eq_some_iff.1 hGrid
    -- a zero that is found would have to round to the number
    left
    rintro rfl
    have hCovers := covers_of_onGrid?_eq_some hOnGrid
    rw [covers_zero hMantissa] at hCovers
    cases hCovers

/-- The magnitude of a double that is not zero has a mantissa that is not zero. -/
theorem mantissa_pos_of_ofBits? {bits : Nat} (h : ofBits? bits = some x) : 0 < x.mantissa := by
  unfold ofBits? at h
  dsimp only at h
  split_ifs at h with hInfinite hTiny hZero
  · cases Option.some.inj h
    exact Nat.pos_of_ne_zero hZero
  · -- the leading bit is not stored, but always set
    cases Option.some.inj h
    exact Nat.add_pos_left (by decide) _

end Binary

/-! ## Written numbers -/

/-- The numeral of an integer is proper. -/
theorem isProper_ofInt (n : Int) : (Numeral.ofInt n).IsProper where
  whole_digits := fun _ => isDigit_of_mem_toDigits
  whole_shape := by
    obtain ⟨first, rest, hDigits, hZero⟩ := exists_toDigits_eq_cons n.natAbs
    refine ⟨first, rest, hDigits, fun h => ?_⟩
    rw [hZero h] at hDigits
    exact (List.cons.inj hDigits).2.symm
  fraction_digits := fun _ h => absurd h List.not_mem_nil
  exponent_digits := fun _ _ h => nomatch h

namespace Style

variable {style : Style}

/-- The whole part of `n · 10 ^ e` has zeros behind its digits only where `n` is not zero. -/
theorem isProper_positionalNumeral (hFraction : ∀ c ∈ style.wholeFraction, c.isDigit = true)
    (negative : Bool) {n : Nat} {e : Int} (h : n ≠ 0 ∨ e ≤ 0) :
    (style.positionalNumeral negative n e).IsProper := by
  obtain ⟨first, rest, hDigits, hZero⟩ := exists_toDigits_eq_cons n
  unfold positionalNumeral
  dsimp only
  split_ifs with hWhole hPoint
  · refine ⟨?_, ?_, hFraction, fun _ _ h => nomatch h⟩
    · exact List.forall_mem_append.2
        ⟨fun _ => isDigit_of_mem_toDigits, fun _ => digits_of_mem_replicate⟩
    · refine ⟨first, rest ++ List.replicate e.toNat '0', ?_, fun hFirst => ?_⟩
      · rw [hDigits, List.cons_append]
      · -- nothing follows a zero, as the exponent is zero too
        have hn := hZero hFirst
        have he : e.toNat = 0 := by
          have := h.resolve_left (not_not_intro hn)
          omega
        rw [hn] at hDigits
        rw [he, ← (List.cons.inj hDigits).2]
        rfl
  · -- the point stands behind the first digit or later, so that the whole part begins with it
    have hLength : (Nat.toDigits 10 n).length = rest.length + 1 := by rw [hDigits]; rfl
    obtain ⟨k, hk⟩ : ∃ k, (((Nat.toDigits 10 n).length : Int) + e).toNat = k + 1 :=
      Nat.exists_eq_succ_of_ne_zero (by omega)
    refine ⟨?_, ?_, ?_, fun _ _ h => nomatch h⟩
    · exact fun c hc => isDigit_of_mem_toDigits (List.mem_of_mem_take hc)
    · refine ⟨first, rest.take k, ?_, fun hFirst => ?_⟩
      · dsimp only
        rw [hk, hDigits, List.take_succ_cons]
      · rw [hZero hFirst] at hDigits
        rw [← (List.cons.inj hDigits).2]
        exact List.take_nil
    · exact fun c hc => isDigit_of_mem_toDigits (List.mem_of_mem_drop hc)
  · -- all digits stand behind the point, and a zero before it
    refine ⟨List.forall_mem_singleton.2 (by decide), ⟨'0', [], rfl, fun _ => rfl⟩, ?_,
      fun _ _ h => nomatch h⟩
    exact List.forall_mem_append.2
      ⟨fun _ => digits_of_mem_replicate, fun _ => isDigit_of_mem_toDigits⟩

/-- A numeral with an exponent has one digit as its whole part. -/
theorem isProper_scientificNumeral (negative : Bool) (n : Nat) (e : Int) :
    (scientificNumeral negative n e).IsProper := by
  obtain ⟨first, rest, hDigits, -⟩ := exists_toDigits_eq_cons n
  refine ⟨?_, ?_, ?_, ?_⟩
  · exact fun c hc => isDigit_of_mem_toDigits (List.mem_of_mem_take hc)
  · refine ⟨first, [], ?_, fun _ => rfl⟩
    change (Nat.toDigits 10 n).take 1 = [first]
    rw [hDigits]
    rfl
  · exact fun c hc => isDigit_of_mem_toDigits (List.mem_of_mem_drop hc)
  · rintro negative digits h
    obtain ⟨-, rfl⟩ := Prod.mk.inj (Option.some.inj h)
    exact ⟨Nat.toDigits_ne_nil, fun _ => isDigit_of_mem_toDigits⟩

/-- The numeral of a double is proper. -/
theorem isProper_numeral (hFraction : ∀ c ∈ style.wholeFraction, c.isDigit = true) (x : Float) :
    (style.numeral x).IsProper := by
  unfold numeral
  dsimp only
  split
  · exact ⟨List.forall_mem_singleton.2 (by decide), ⟨'0', [], rfl, fun _ => rfl⟩, hFraction,
      fun _ _ h => nomatch h⟩
  · next magnitude hMagnitude =>
    have hShortest := Binary.shortest_ne_zero style.tie (Binary.mantissa_pos_of_ofBits? hMagnitude)
    split
    · -- where no decimal is found the exponent is zero as well
      refine isProper_positionalNumeral hFraction _ ?_
      exact hShortest.imp_right fun h => Int.le_of_eq (congrArg Prod.snd h)
    · exact isProper_scientificNumeral _ _ _

end Style

end FormDesign.Decimal
