import Mathlib.Data.List.Basic

/-!
# The order of texts

Texts are ordered by their characters. A text is kept as bytes, one to four for each character, in
such a way that the order of the bytes is the same.

## Main definitions

* `Text.bytes`: the bytes of a text in UTF-8.

## Main results

* `Text.bytes_lt_bytes_iff`: texts are ordered as their bytes are.
-/

namespace FormDesign.Text

/-- The bytes of a text in UTF-8. -/
def bytes (s : String) : List UInt8 :=
  s.toUTF8.data.toList

theorem bytes_eq_flatMap (s : String) : bytes s = s.toList.flatMap String.utf8EncodeChar := by
  rw [bytes, String.toUTF8_eq_toByteArray, ← String.utf8Encode_toList, List.utf8Encode,
    List.data_toByteArray]

/-! ## Characters -/

/-- The first digit to base 64 in which numbers differ decides which is less. -/
theorem digits_lt {v w : Nat} (h : v < w) :
    v / 262144 < w / 262144 ∨ v / 262144 = w / 262144 ∧
      (v / 4096 % 64 < w / 4096 % 64 ∨ v / 4096 % 64 = w / 4096 % 64 ∧
        (v / 64 % 64 < w / 64 % 64 ∨ v / 64 % 64 = w / 64 % 64 ∧ v % 64 < w % 64)) := by
  have hDigits : ∀ n : Nat, n = 262144 * (n / 262144) + 4096 * (n / 4096 % 64) +
      64 * (n / 64 % 64) + n % 64 := fun n => by omega
  omega

/-- A lesser character begins with lesser bytes, whatever follows. -/
theorem utf8EncodeChar_append_lt {c d : Char} (h : c < d) (s t : List UInt8) :
    String.utf8EncodeChar c ++ s < String.utf8EncodeChar d ++ t := by
  have hLess : c.val.toNat < d.val.toNat := h
  have hMost : d.val.toNat < 1114112 := by
    rcases d.valid with hLow | ⟨-, hHigh⟩
    · exact Nat.lt_trans hLow (by decide)
    · exact hHigh
  have hDigits := digits_lt hLess
  -- the first of four bytes has room for what is left of a character, the others for a digit
  have hFirst : ∀ n < 1114112, (n / 262144 % 8 + 240) % 2 ^ 8 = n / 262144 + 240 :=
    fun n _ => by omega
  have hNext : ∀ n, (n % 64 + 128) % 2 ^ 8 = n % 64 + 128 := fun n => by omega
  unfold String.utf8EncodeChar
  generalize c.val.toNat = v at *
  generalize d.val.toNat = w at *
  dsimp only
  -- a character with fewer bytes has a lesser first one; with as many, the digits decide
  split_ifs <;>
    simp only [List.cons_append, List.nil_append, List.cons_lt_cons_iff, UInt8.lt_iff_toNat_lt,
      ← UInt8.toNat_inj, UInt8.toNat_ofNat', hNext, hFirst w hMost,
      hFirst v (Nat.lt_trans hLess hMost)] <;>
    omega

/-! ## Texts -/

/-- Lesser characters have lesser bytes. -/
theorem flatMap_utf8EncodeChar_lt {cs ds : List Char} (h : cs < ds) :
    cs.flatMap String.utf8EncodeChar < ds.flatMap String.utf8EncodeChar := by
  induction cs generalizing ds with
  | nil =>
    cases ds with
    | nil => exact absurd h (List.lt_irrefl [])
    | cons d ds =>
      obtain ⟨b, bs, hBytes⟩ := List.exists_cons_of_ne_nil (String.utf8EncodeChar_ne_nil (c := d))
      rw [List.flatMap_nil, List.flatMap_cons, hBytes, List.cons_append]
      exact List.nil_lt_cons _ _
  | cons c cs ih =>
    cases ds with
    | nil => exact absurd h (List.not_lt_nil _)
    | cons d ds =>
      rw [List.flatMap_cons, List.flatMap_cons]
      obtain hLess | ⟨rfl, hRest⟩ := List.cons_lt_cons_iff.1 h
      · exact utf8EncodeChar_append_lt hLess _ _
      · exact List.append_left_lt (ih hRest)

/-- Texts are ordered as their bytes are. -/
theorem bytes_lt_bytes_iff {s t : String} : bytes s < bytes t ↔ s < t := by
  have hMono : ∀ {s t : String}, s < t → bytes s < bytes t := fun h => by
    rw [bytes_eq_flatMap, bytes_eq_flatMap]
    exact flatMap_utf8EncodeChar_lt (String.lt_iff.1 h)
  refine ⟨fun h => ?_, hMono⟩
  by_contra hNot
  obtain hLess | rfl := Std.le_iff_lt_or_eq.1 (String.not_lt.1 hNot)
  · exact List.lt_asymm h (hMono hLess)
  · exact List.lt_irrefl _ h

end FormDesign.Text
