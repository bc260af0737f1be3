import FormDesign.Xml.Escape
import Mathlib.Tactic.Common

/-!
# Escaped texts

Escaping goes character by character, so it distributes over concatenation, and a reader that
knows the four entities gets the text back in one pass. An escaped text can stand in markup: it
holds no angle bracket and no quote, and every ampersand in it begins an entity.

## Main definitions

* `unescape`: the text that a text with entities stands for;
* `AmpersandsEscaped`, `IsText`, `IsValue`: what may stand between tags and between quotes.

## Main results

* `escape_append`, `escape_of_isPlain`;
* `unescape_escape`;
* `isValue_escape`, `isText_escape`;
* `escape_eq_self_iff`, `escaped?_eq_none_iff`: the texts that stay as they are;
* `escape_reversible`: the laws of escaping together.
-/

namespace FormDesign.Xml

/-! ## Escaping and concatenation -/

/-- Texts may be escaped in parts. -/
theorem escape_append (s t : String) : escape (s ++ t) = escape s ++ escape t := by
  apply String.toList_injective
  simp only [toList_escape, String.toList_append, List.flatMap_append]

theorem eq_of_isReserved {c : Char} (h : isReserved c = true) :
    c = '&' ∨ c = '<' ∨ c = '>' ∨ c = '"' := by
  simpa [isReserved, or_assoc] using h

/-- A text in which nothing has to be escaped. -/
def IsPlain (text : String) : Prop :=
  ∀ c ∈ text.toList, isReserved c = false

-- Named, as an instance may also be found that goes through all characters there are.
instance (text : String) : Decidable (IsPlain text) :=
  List.decidableBAll (isReserved · = false) text.toList

/-- A plain text is left as it is. -/
theorem escape_of_isPlain {text : String} (h : IsPlain text) : escape text = text := by
  apply String.toList_injective
  rw [toList_escape]
  unfold IsPlain at h
  generalize text.toList = cs at h
  induction cs with
  | nil => rfl
  | cons c cs ih =>
    rw [List.flatMap_cons, escapeChar_of_not_isReserved (h c (List.mem_cons_self ..)),
      ih fun d hd => h d (List.mem_cons_of_mem _ hd), List.singleton_append]

theorem isPlain_append {s t : String} (hs : IsPlain s) (ht : IsPlain t) : IsPlain (s ++ t) := by
  intro c hc
  rw [String.toList_append, List.mem_append] at hc
  exact hc.elim (hs c) (ht c)

/-! ## Reading entities -/

/-- The characters that characters with entities stand for, read from left to right. -/
def unescapeChars : List Char → List Char
  | '&' :: 'a' :: 'm' :: 'p' :: ';' :: rest => '&' :: unescapeChars rest
  | '&' :: 'l' :: 't' :: ';' :: rest => '<' :: unescapeChars rest
  | '&' :: 'g' :: 't' :: ';' :: rest => '>' :: unescapeChars rest
  | '&' :: 'q' :: 'u' :: 'o' :: 't' :: ';' :: rest => '"' :: unescapeChars rest
  | c :: rest => c :: unescapeChars rest
  | [] => []

/-- The text that a text with entities stands for. -/
def unescape (text : String) : String :=
  String.ofList (unescapeChars text.toList)

/-- Only an ampersand begins an entity. -/
theorem unescapeChars_cons {c : Char} (h : c ≠ '&') (rest : List Char) :
    unescapeChars (c :: rest) = c :: unescapeChars rest := by
  conv_lhs => unfold unescapeChars
  split <;> simp_all

/-- Whatever a character is written as, it is read back, and reading goes on behind it. -/
theorem unescapeChars_escapeChar (c : Char) (rest : List Char) :
    unescapeChars (escapeChar c ++ rest) = c :: unescapeChars rest := by
  unfold escapeChar
  split_ifs with hAmp hLess hGreater hQuote
  · rw [hAmp]; rfl
  · rw [hLess]; rfl
  · rw [hGreater]; rfl
  · rw [hQuote]; rfl
  · exact unescapeChars_cons hAmp rest

/-- Reading the entities of an escaped text gives the text back. -/
theorem unescape_escape (text : String) : unescape (escape text) = text := by
  rw [unescape, toList_escape]
  conv_rhs => rw [← String.ofList_toList (s := text)]
  congr 1
  generalize text.toList = cs
  induction cs with
  | nil => rfl
  | cons c cs ih => rw [List.flatMap_cons, unescapeChars_escapeChar, ih]

/-- Different texts are escaped differently. -/
theorem escape_injective {s t : String} (h : escape s = escape t) : s = t := by
  rw [← unescape_escape s, h, unescape_escape]

/-! ## What may stand in markup -/

/-- The entities, one for each reserved character. -/
def entities : List (List Char) :=
  [['&', 'a', 'm', 'p', ';'], ['&', 'l', 't', ';'], ['&', 'g', 't', ';'],
    ['&', 'q', 'u', 'o', 't', ';']]

/-- Every ampersand is the first character of an entity. -/
def AmpersandsEscaped : List Char → Prop
  | [] => True
  | c :: rest => (c = '&' → ∃ entity ∈ entities, entity <+: c :: rest) ∧ AmpersandsEscaped rest

instance decidableAmpersandsEscaped : ∀ cs, Decidable (AmpersandsEscaped cs)
  | [] => inferInstanceAs (Decidable True)
  | c :: rest =>
    have := decidableAmpersandsEscaped rest
    inferInstanceAs (Decidable ((c = '&' → ∃ entity ∈ entities, entity <+: c :: rest) ∧ _))

/-- Characters that may stand between tags. -/
def IsText (text : String) : Prop :=
  '<' ∉ text.toList ∧ AmpersandsEscaped text.toList

/-- Characters that may stand between the quotes of an attribute. -/
def IsValue (text : String) : Prop :=
  '<' ∉ text.toList ∧ '"' ∉ text.toList ∧ AmpersandsEscaped text.toList

instance (text : String) : Decidable (IsText text) :=
  inferInstanceAs (Decidable (_ ∧ _))

instance (text : String) : Decidable (IsValue text) :=
  inferInstanceAs (Decidable (_ ∧ _ ∧ _))

/-- What follows an entity does not unmake it. -/
theorem ampersandsEscaped_append {a b : List Char} (ha : AmpersandsEscaped a)
    (hb : AmpersandsEscaped b) : AmpersandsEscaped (a ++ b) := by
  induction a with
  | nil => exact hb
  | cons c a ih =>
    refine ⟨fun hc => ?_, ih ha.2⟩
    obtain ⟨entity, hEntity, hPrefix⟩ := ha.1 hc
    exact ⟨entity, hEntity, List.prefix_append_of_prefix hPrefix⟩

theorem ampersandsEscaped_escapeChar (c : Char) : AmpersandsEscaped (escapeChar c) := by
  unfold escapeChar
  split_ifs with hAmp
  · simp [AmpersandsEscaped, entities]
  · simp [AmpersandsEscaped, entities]
  · simp [AmpersandsEscaped, entities]
  · simp [AmpersandsEscaped, entities]
  · simp [AmpersandsEscaped, hAmp]

/-- In an escaped text every ampersand begins an entity. -/
theorem ampersandsEscaped_escape (text : String) : AmpersandsEscaped (escape text).toList := by
  rw [toList_escape]
  induction text.toList with
  | nil => trivial
  | cons c cs ih =>
    rw [List.flatMap_cons]
    exact ampersandsEscaped_append (ampersandsEscaped_escapeChar c) ih

/-- Of the reserved characters only the ampersand is used to write a character. -/
theorem eq_ampersand_or_not_isReserved (d : Char) :
    ∀ c ∈ escapeChar d, c = '&' ∨ isReserved c = false := by
  unfold escapeChar
  split_ifs with hAmp hLess hGreater hQuote
  · simp [isReserved]
  · simp [isReserved]
  · simp [isReserved]
  · simp [isReserved]
  · intro c hc
    rw [List.mem_singleton.1 hc]
    simp [isReserved, hAmp, hLess, hGreater, hQuote]

/-- Of the reserved characters an escaped text has the ampersand alone. -/
theorem mem_escape {text : String} {c : Char} (h : c ∈ (escape text).toList) :
    c = '&' ∨ isReserved c = false := by
  rw [toList_escape, List.mem_flatMap] at h
  obtain ⟨d, -, hd⟩ := h
  exact eq_ampersand_or_not_isReserved d c hd

/-- An escaped text can stand between the quotes of an attribute. -/
theorem isValue_escape (text : String) : IsValue (escape text) := by
  refine ⟨fun h => ?_, fun h => ?_, ampersandsEscaped_escape text⟩
  · exact absurd (mem_escape h) (by decide)
  · exact absurd (mem_escape h) (by decide)

/-- What can stand in a value can stand in a text. -/
theorem IsValue.isText {text : String} (h : IsValue text) : IsText text :=
  ⟨h.1, h.2.2⟩

/-- An escaped text can stand between tags. -/
theorem isText_escape (text : String) : IsText (escape text) :=
  (isValue_escape text).isText

/-! ## Texts that stay as they are -/

/-- Escaping is writing out, also where a text is borrowed and nothing is written. -/
theorem escape_eq_writeOut (text : String) : escape text = writeOut text := by
  apply String.toList_injective
  rw [toList_escape, writeOut, String.toList_ofList]

/-- There is nothing to escape in a plain text, and in no other. -/
theorem escaped?_eq_none_iff {text : String} : escaped? text = none ↔ IsPlain text := by
  have hNeeds : needsEscape text = false ↔ IsPlain text := by
    simp only [needsEscape, List.any_eq_false, Bool.not_eq_true, IsPlain]
  rw [← hNeeds, escaped?]
  cases needsEscape text <;> simp

/-- An entity is longer than the character that it stands for. -/
theorem one_lt_length_escapeChar {c : Char} (h : isReserved c = true) :
    1 < (escapeChar c).length := by
  rcases eq_of_isReserved h with rfl | rfl | rfl | rfl <;> decide

theorem one_le_length_escapeChar (c : Char) : 1 ≤ (escapeChar c).length := by
  by_cases h : isReserved c = true
  · exact Nat.le_of_lt (one_lt_length_escapeChar h)
  · rw [escapeChar_of_not_isReserved (Bool.eq_false_iff.2 h)]
    exact Nat.le_refl 1

theorem length_le_length_flatMap_escapeChar (cs : List Char) :
    cs.length ≤ (cs.flatMap escapeChar).length := by
  induction cs with
  | nil => exact Nat.le_refl 0
  | cons c cs ih =>
    have hFirst := one_le_length_escapeChar c
    rw [List.flatMap_cons, List.length_append, List.length_cons]
    omega

/-- Characters that become no more when they are written out are not reserved. -/
theorem isReserved_eq_false_of_length_flatMap {cs : List Char}
    (h : (cs.flatMap escapeChar).length = cs.length) : ∀ c ∈ cs, isReserved c = false := by
  induction cs with
  | nil => exact List.forall_mem_nil _
  | cons c cs ih =>
    -- neither the first character nor the others become fewer, so neither become more
    have hFirst := one_le_length_escapeChar c
    have hOthers := length_le_length_flatMap_escapeChar cs
    rw [List.flatMap_cons, List.length_append, List.length_cons] at h
    refine List.forall_mem_cons.2 ⟨Bool.eq_false_iff.2 fun hReserved => ?_, ih (by omega)⟩
    have hLonger := one_lt_length_escapeChar hReserved
    omega

/-- A text is left as it is exactly when it is plain. -/
theorem escape_eq_self_iff {text : String} : escape text = text ↔ IsPlain text := by
  constructor
  · intro h
    apply isReserved_eq_false_of_length_flatMap
    rw [← toList_escape, h]
  · exact escape_of_isPlain

/-- Reading the entities of an escaped text in one pass gives the text back, so different texts are
escaped differently, those among them that look escaped already. An escaped text holds no angle
bracket and no quote, and each ampersand in it begins an entity. Texts may be escaped in parts. A
text stays as it is exactly when no character in it is reserved, which is when it is borrowed, and
then writing it out would have made the same. -/
theorem escape_reversible :
    (∀ text, unescape (escape text) = text) ∧
    (∀ s t, escape s = escape t ↔ s = t) ∧
    (∀ text, '<' ∉ (escape text).toList ∧ '>' ∉ (escape text).toList ∧
      '"' ∉ (escape text).toList ∧ AmpersandsEscaped (escape text).toList) ∧
    (∀ s t, escape (s ++ t) = escape s ++ escape t) ∧
    (∀ text, (escape text = text ↔ IsPlain text) ∧ (IsPlain text ↔ escaped? text = none)) ∧
    ∀ text, escape text = writeOut text ∧ (escaped? text = none ↔ text = writeOut text) := by
  refine ⟨unescape_escape, fun s t => ⟨escape_injective, congrArg escape⟩, fun text => ?_,
    escape_append, fun text => ⟨escape_eq_self_iff, escaped?_eq_none_iff.symm⟩,
    fun text => ⟨escape_eq_writeOut text, ?_⟩⟩
  · obtain ⟨hLess, hQuote, hAmpersands⟩ := isValue_escape text
    exact ⟨hLess, fun h => absurd (mem_escape h) (by decide), hQuote, hAmpersands⟩
  · rw [escaped?_eq_none_iff, ← escape_eq_self_iff, escape_eq_writeOut, eq_comm]

example : escape "&lt; <" = "&amp;lt; &lt;" ∧ escaped? ". != 'x'" = none := by decide

end FormDesign.Xml
