import FormDesign.Proofs.Document.Scope
import FormDesign.Proofs.Outline.WellFormed
import Mathlib.Data.List.Nodup
import Std.Data.String.ToNat

/-!
# Wordings

A wording is a place of a form where a text may be given: the label of a group, the label and the
hint of a question, and the texts of its choices. The wordings of an outline are listed in the
order in which a reader of the form meets them, whether or not a text is given there. The text of a
choice is always shown, and any other text is shown when it says something in some language.

## Main definitions

* `Wording`, `Outline.wordings`, `Form.wordings`;
* `Wording.IsShown`, `Form.shown`: the wordings whose texts are shown;
* `Wording.key`: the key of a wording, made of the path of its owner and of its role.

## Main results

* `isBlank_eq_false_iff`: a text that is not blank says something in some language;
* `key_injective`: the key determines the owner and the role;
* `nodup_keys_wordings`: no two wordings of a form have the same key;
* `map_own_wordings`: the wordings of a form are the texts that may be given in it, in order.
-/

namespace FormDesign

/-! ## Texts that say something -/

namespace LocalizedText

variable {t : LocalizedText}

theorem get_of_mem {entry : String × String} (h : entry ∈ t.entries) :
    t.get entry.1 = entry.2 := by
  obtain ⟨entries, ascending⟩ := t
  have hFind : (entries.find? fun e => e.1 = entry.1) = some entry := by
    induction entries with
    | nil => exact absurd h List.not_mem_nil
    | cons e entries ih =>
      obtain ⟨hFirst, hRest⟩ := List.pairwise_cons.1 ascending
      rcases List.mem_cons.1 h with rfl | h
      · exact List.find?_cons_of_pos (decide_eq_true rfl)
      · -- the languages ascend, so an earlier entry is not of the same language
        have hNe : e.1 ≠ entry.1 := fun hEq => String.lt_irrefl _ (hEq ▸ hFirst entry h)
        rw [List.find?_cons_of_neg (by simpa using hNe)]
        exact ih hRest h
  rw [get, hFind]

/-- A text says nothing in a language for which none is given. -/
theorem get_of_not_mem {language : String} (h : language ∉ t.languages) :
    t.get language = "" := by
  have hFind : (t.entries.find? fun e => e.1 = language) = none := by
    rw [List.find?_eq_none]
    intro entry hEntry hEq
    exact h (List.mem_map.2 ⟨entry, hEntry, of_decide_eq_true hEq⟩)
  rw [get, hFind]

/-- A text that is not blank says something in some language. -/
theorem isBlank_eq_false_iff : t.isBlank = false ↔ ∃ language, t.get language ≠ "" := by
  rw [isBlank, List.all_eq_false]
  constructor
  · rintro ⟨entry, hEntry, hText⟩
    refine ⟨entry.1, ?_⟩
    rw [get_of_mem hEntry]
    simpa using hText
  · rintro ⟨language, hText⟩
    have hMem : language ∈ t.languages := by
      by_contra hNot
      exact hText (get_of_not_mem hNot)
    obtain ⟨entry, hEntry, rfl⟩ := List.mem_map.1 hMem
    rw [get_of_mem hEntry] at hText
    exact ⟨entry, hEntry, by simpa using hText⟩

end LocalizedText

theorem isSome_visible?_iff {text : Option LocalizedText} :
    (visible? text).isSome = true ↔ ∃ t ∈ text, ∃ language, t.get language ≠ "" := by
  cases text with
  | none => simp [visible?]
  | some t => simp [visible?, ← LocalizedText.isBlank_eq_false_iff, Option.filter]

/-! ## Roles -/

/-- What a text is to the control that it belongs to. -/
inductive Role
  | label
  | hint
  | choice (index : Nat)
  deriving DecidableEq

namespace Role

/-- The element of the body that shows a text in this role. -/
def element : Role → String
  | label | choice _ => "label"
  | hint => "hint"

/-- How the role is written in a key. -/
def word : Role → String
  | label => "label"
  | hint => "hint"
  | choice index => s!"option{index}"

/-- Whether the text belongs to a choice. -/
def isChoice : Role → Bool
  | choice _ => true
  | label | hint => false

theorem word_choice (index : Nat) : (choice index).word = "option" ++ Nat.repr index := rfl

/-- The word of a role holds no colon. -/
theorem colon_not_mem_word (role : Role) : ':' ∉ role.word.toList := by
  cases role with
  | label | hint => decide
  | choice index =>
    rw [word_choice, String.toList_append, List.mem_append, not_or]
    refine ⟨by decide, fun hMem => ?_⟩
    rw [Nat.toList_repr] at hMem
    exact absurd (Nat.isDigit_of_mem_toDigits (by decide) (by decide) hMem) (by decide)

/-- The word of a choice differs from any that does not begin as it does. -/
theorem word_choice_ne {index : Nat} {word : String} (h : word.toList.head? ≠ some 'o') :
    (choice index).word ≠ word := by
  rintro rfl
  exact h (by rw [word_choice, String.toList_append]; rfl)

theorem word_injective {a b : Role} (h : a.word = b.word) : a = b := by
  cases a with
  | label =>
    cases b with
    | label => rfl
    | hint => exact absurd h (by decide)
    | choice index => exact absurd h.symm (word_choice_ne (by decide))
  | hint =>
    cases b with
    | label => exact absurd h (by decide)
    | hint => rfl
    | choice index => exact absurd h.symm (word_choice_ne (by decide))
  | choice index =>
    cases b with
    | label | hint => exact absurd h (word_choice_ne (by decide))
    | choice other =>
      rw [word_choice, word_choice] at h
      rw [Nat.repr_injective ((String.append_right_inj _).1 h)]

end Role

/-! ## Wordings -/

/-- A place of a form where a text may be given. -/
structure Wording where
  /-- The names of the groups around the control, the outermost first. -/
  above : List String
  /-- The name of the control that the text belongs to. -/
  name : String
  role : Role
  text : Option LocalizedText

namespace Wording

/-- The wording as it is seen from outside a group. -/
def inGroup (group : String) (w : Wording) : Wording :=
  { w with above := group :: w.above }

/-- The names that lead to the control that the text belongs to. -/
def names (w : Wording) : List String :=
  w.above ++ [w.name]

/-- The control that the text belongs to, by the names that lead to it, and the role of the text. -/
def spot (w : Wording) : List String × Role :=
  (w.names, w.role)

/-- What the text says; where no text is given, nothing in any language. -/
def said (w : Wording) : LocalizedText :=
  w.text.getD .empty

/-- Whether the text is shown: always if it is that of a choice, and otherwise if one is given and
says something in some language. -/
def IsShown (w : Wording) : Prop :=
  w.role.isChoice = true ∨ ∃ t ∈ w.text, ∃ language, t.get language ≠ ""

theorem isShown_iff {w : Wording} :
    (w.role.isChoice || (visible? w.text).isSome) = true ↔ w.IsShown := by
  rw [Bool.or_eq_true, isSome_visible?_iff, IsShown]

instance (w : Wording) : Decidable w.IsShown :=
  decidable_of_iff _ isShown_iff

/-- The key of the text in a form with this instance root. -/
def key (root : String) (w : Wording) : String :=
  pathOf (root :: w.names) ++ ":" ++ w.role.word

end Wording

/-- No path of names holds a colon. -/
theorem colon_not_mem_pathOf {names : List String}
    (h : ∀ name ∈ names, Text.isName name = true) : ':' ∉ (pathOf names).toList := by
  rw [toList_pathOf, List.mem_flatMap]
  rintro ⟨name, hName, hMem⟩
  rcases List.mem_cons.1 hMem with hSlash | hMem
  · exact absurd hSlash (by decide)
  · exact Text.not_mem_of_isName (h name hName) (by decide) hMem

/-- The key of a text determines the control that it belongs to and its role. -/
theorem Wording.key_injective {root : String} (hRoot : Text.isName root = true) {v w : Wording}
    (hv : ∀ name ∈ v.names, Text.isName name = true)
    (hw : ∀ name ∈ w.names, Text.isName name = true) (h : v.key root = w.key root) :
    v.names = w.names ∧ v.role = w.role := by
  -- only the colon before the role stands in a key, so taking the key apart there gives both parts
  have segments_key : ∀ u : Wording, (∀ name ∈ u.names, Text.isName name = true) →
      Text.segmentsOf ':' (u.key root).toList =
        [(pathOf (root :: u.names)).toList, u.role.word.toList] := by
    intro u hu
    have hPath := colon_not_mem_pathOf (List.forall_mem_cons.2 ⟨hRoot, hu⟩)
    rw [key, String.toList_append, String.toList_append, List.append_assoc]
    exact (Text.segmentsOf_append hPath _).trans
      (congrArg _ (Text.segmentsOf_of_not_mem u.role.colon_not_mem_word))
  have hSegments := segments_key v hv
  rw [h, segments_key w hw, List.cons.injEq, List.cons.injEq] at hSegments
  obtain ⟨hPath, hWord, -⟩ := hSegments
  have slash : ∀ u : Wording, (∀ name ∈ u.names, Text.isName name = true) →
      ∀ name ∈ root :: u.names, '/' ∉ name.toList := by
    intro u hu
    refine List.forall_mem_cons.2 ⟨Text.not_mem_of_isName hRoot (by decide), fun name hName => ?_⟩
    exact Text.not_mem_of_isName (hu name hName) (by decide)
  have hNames := pathOf_injective (slash w hw) (slash v hv) (String.toList_injective hPath)
  exact ⟨(List.cons.inj hNames).2.symm, (Role.word_injective (String.toList_injective hWord)).symm⟩

/-! ## Wordings of outlines -/

/-- The wordings of a question: its label, its hint and its choices. -/
def Field.wordings (field : Field) (input : Input) : List Wording :=
  [⟨[], field.name, .label, field.label⟩, ⟨[], field.name, .hint, field.hint⟩] ++
    input.choices.zipIdx.map fun (choice, index) =>
      ⟨[], field.name, .choice index, some choice.text⟩

namespace Outline

/-- The wordings of an outline, the label of a group before those inside the group. -/
def wordings : Outline → List Wording
  | done => []
  | question _ field input rest => field.wordings input ++ rest.wordings
  | group name label inside rest =>
    ⟨[], name, .label, label⟩ :: (inside.wordings.map (Wording.inGroup name) ++ rest.wordings)

end Outline

/-- A question has one wording in each of its roles. -/
theorem Field.map_spot_wordings (field : Field) (input : Input) :
    (field.wordings input).map Wording.spot =
      (.label :: .hint :: (List.range' 0 input.choices.length).map Role.choice).map
        fun role => ([field.name], role) := by
  rw [wordings, ← List.zipIdx_map_snd 0 input.choices]
  simp only [List.map_append, List.map_cons, List.map_map]
  rfl

namespace Outline

variable {o : Outline}

theorem map_spot_wordings_group (name : String) (label : Option LocalizedText)
    (inside rest : Outline) :
    (group name label inside rest).wordings.map Wording.spot =
      ([name], .label) :: ((inside.wordings.map Wording.spot).map (fun s => (name :: s.1, s.2)) ++
        rest.wordings.map Wording.spot) := by
  rw [wordings, List.map_cons, List.map_append, List.map_map, List.map_map]
  rfl

/-- Every wording belongs to a member. -/
theorem fst_mem_paths {spot : List String × Role} (h : spot ∈ o.wordings.map Wording.spot) :
    spot.1 ∈ o.paths := by
  induction o generalizing spot with
  | done => exact absurd h List.not_mem_nil
  | question conditions field input rest ih =>
    rw [wordings, List.map_append, Field.map_spot_wordings] at h
    rcases List.mem_append.1 h with h | h
    · obtain ⟨role, -, rfl⟩ := List.mem_map.1 h
      exact List.mem_cons_self ..
    · exact List.mem_cons_of_mem _ (ih h)
  | group name label inside rest ihInside ihRest =>
    rw [map_spot_wordings_group] at h
    rcases List.mem_cons.1 h with rfl | h
    · exact List.mem_cons_self ..
    · refine List.mem_cons_of_mem _ (List.mem_append.2 ?_)
      rcases List.mem_append.1 h with h | h
      · obtain ⟨inner, hInner, rfl⟩ := List.mem_map.1 h
        exact .inl (List.mem_map_of_mem (ihInside hInner))
      · exact .inr (ihRest h)

/-- No control has two wordings in one role. -/
theorem nodup_spots (hWell : o.WellFormed) : (o.wordings.map Wording.spot).Nodup := by
  induction o with
  | done => exact List.nodup_nil
  | question conditions field input rest ih =>
    obtain ⟨-, hLater, -, hRest⟩ := hWell
    have hRoles : (Role.label :: .hint ::
        (List.range' 0 input.choices.length).map Role.choice).Nodup := by
      have hChoices : ((List.range' 0 input.choices.length).map Role.choice).Nodup :=
        List.Nodup.map (fun a b => Role.choice.inj) List.nodup_range'
      simp [hChoices]
    rw [wordings, List.map_append, Field.map_spot_wordings]
    refine List.Nodup.append (hRoles.map fun a b h => (Prod.mk.inj h).2) (ih hRest) ?_
    -- the wordings of the question and the later ones differ in the first name on the way
    intro spot hOwn hOther
    obtain ⟨role, -, rfl⟩ := List.mem_map.1 hOwn
    exact not_mem_paths_of_not_mem_names hLater [] (fst_mem_paths hOther)
  | group name label inside rest ihInside ihRest =>
    obtain ⟨-, hLater, hInside, hRest⟩ := hWell
    have hFree : ∀ (names : List String) (role : Role),
        (name :: names, role) ∉ rest.wordings.map Wording.spot := fun names role h =>
      not_mem_paths_of_not_mem_names hLater names (fst_mem_paths h)
    rw [map_spot_wordings_group]
    refine List.nodup_cons.2 ⟨?_, List.Nodup.append ?_ (ihRest hRest) ?_⟩
    · -- The label of a group belongs to the group, and other texts inside to members of it.
      rw [List.mem_append, not_or]
      refine ⟨fun hMem => ?_, hFree [] .label⟩
      obtain ⟨inner, hInner, hEq⟩ := List.mem_map.1 hMem
      obtain ⟨head, -, others, hNames⟩ := exists_head_of_mem_paths (fst_mem_paths hInner)
      rw [hNames] at hEq
      exact absurd (List.cons.inj (Prod.mk.inj hEq).1).2 (List.cons_ne_nil _ _)
    · refine (ihInside hInside).map fun a b h => ?_
      obtain ⟨hNames, hRole⟩ := Prod.mk.inj h
      exact Prod.ext (List.cons.inj hNames).2 hRole
    · intro spot hSpot hOther
      obtain ⟨inner, -, rfl⟩ := List.mem_map.1 hSpot
      exact hFree inner.1 inner.2 hOther

/-- No two wordings of a well-formed outline have the same key. -/
theorem nodup_keys_wordings {root : String} (hRoot : Text.isName root = true)
    (hWell : o.WellFormed) : (o.wordings.map (Wording.key root)).Nodup := by
  have hNames : ∀ w ∈ o.wordings, ∀ name ∈ w.names, Text.isName name = true := fun w hw =>
    isName_of_mem_paths hWell w.names (fst_mem_paths (List.mem_map_of_mem hw))
  have hSpots : o.wordings.Pairwise fun v w => v.spot ≠ w.spot :=
    List.pairwise_map.1 (nodup_spots hWell)
  rw [List.Nodup, List.pairwise_map]
  refine hSpots.imp_of_mem fun {v w} hv hw hNe hKey => hNe ?_
  obtain ⟨hSame, hRole⟩ := Wording.key_injective hRoot (hNames v hv) (hNames w hw) hKey
  exact Prod.ext hSame hRole

end Outline

/-- The wordings of a form, in the order in which a reader meets them. -/
def Form.wordings (form : Form) : List Wording :=
  form.outline.wordings

/-! ## Texts of forms -/

/-- The text of a wording, its role, and the name of the control that it belongs to. -/
def Wording.own (w : Wording) : String × Role × Option LocalizedText :=
  (w.name, w.role, w.text)

/-- The texts that may be given in a form, in order: the label of each group, and the label, the
hint and the choices of each question. -/
def Form.texts (form : Form) : List (String × Role × Option LocalizedText) :=
  form.gather (fun field input => (field.wordings input).map Wording.own)
    (fun name label => [(name, .label, label)])

theorem Outline.map_own_wordings_eq_gather (o : Outline) :
    o.wordings.map Wording.own =
      o.gather (fun field input => (field.wordings input).map Wording.own)
        (fun name label => [(name, .label, label)]) := by
  induction o with
  | done => rfl
  | question conditions field input rest ih =>
    rw [gather, ← ih, wordings, List.map_append]
  | group name label inside rest ihInside ihRest =>
    rw [gather, ← ihInside, ← ihRest, wordings, List.map_cons, List.map_append, List.map_map]
    rfl

/-- The wordings of a form are the texts that may be given in it, in order. -/
theorem map_own_wordings (form : Form) : form.wordings.map Wording.own = form.texts := by
  rw [Form.wordings, Outline.map_own_wordings_eq_gather, gather_outline, Form.texts]

/-- The wordings whose texts are shown. -/
def Form.shown (form : Form) : List Wording :=
  form.wordings.filter (·.IsShown)

end FormDesign
