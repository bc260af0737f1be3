import FormDesign.Proofs.Document.Gates

/-!
# Bounds that pass the check

The check of a form refuses bounds whose minimum is above their maximum. Among doubles this is not
to say that the minimum is at most the maximum: one that is not a number is neither above nor below
anything, itself included. Bounds that pass the check are ordered exactly when both are numbers.

## Main definitions

* `Bounds.IsOrdered`, `Bounds.IsNumeric`: the minimum is at most the maximum, and both are numbers;
* `blankRangeForm`: a form with a minimum that is not a number.

## Main results

* `Decimal.not_gt_iff`: what it says of doubles that the one is not above the other;
* `check_orders_bounds`: which bounds of a form that passes its check are ordered;
* `unordered_blankRangeForm`: bounds that pass the check and are not ordered.
-/

namespace FormDesign

open Xml (escape)

/-! ## The order of doubles -/

namespace Decimal

open Float.Model (UnpackedFloat)

/-- Two doubles cannot be compared exactly when one of them is not a number. -/
theorem compare_eq_none_iff (a b : UnpackedFloat) :
    a.compare b = none ↔ a.isNaN = true ∨ b.isNaN = true := by
  have hNumbers : ∀ order : Ordering, some order = none ↔ false = true ∨ false = true := by
    intro order
    simp
  -- what is compared, if anything, depends on the constructors and on the signs
  rcases a with (_ | _) | _ | (_ | _) | ⟨_ | _, m, e, _⟩ <;>
    rcases b with (_ | _) | _ | (_ | _) | ⟨_ | _, m', e', _⟩ <;>
    first
    | exact hNumbers _
    | exact iff_of_true rfl (.inl rfl)
    | exact iff_of_true rfl (.inr rfl)

/-- Magnitudes are compared by their exponents first, in either direction. -/
theorem compare_then_swap (e e' : Int) (m m' : Nat) :
    (compare e' e).then (compare m' m) = ((compare e e').then (compare m m')).swap := by
  rw [Ordering.swap_then, Int.compare_swap, Nat.compare_swap]

theorem compare_swap (a b : UnpackedFloat) : b.compare a = (a.compare b).map Ordering.swap := by
  -- only two finite doubles with the same sign are compared by what they hold
  rcases a with (_ | _) | _ | (_ | _) | ⟨_ | _, m, e, _⟩ <;>
    rcases b with (_ | _) | _ | (_ | _) | ⟨_ | _, m', e', _⟩ <;> try rfl
  · exact congrArg (fun order => some order.swap) (compare_then_swap e e' m m')
  · exact congrArg some (compare_then_swap e e' m m')

section

variable (x y : Float)

theorem lt_iff : x < y ↔ x.toModel.unpack.compare y.toModel.unpack = some .lt := by
  change Float.lt x y = true ↔ _
  rw [Float.lt, decide_eq_true_iff]
  exact beq_iff_eq

theorem le_iff :
    x ≤ y ↔ (x.toModel.unpack.compare y.toModel.unpack).any Ordering.isLE = true := by
  change Float.le x y = true ↔ _
  rw [Float.le, decide_eq_true_iff]
  exact Iff.rfl

theorem gt_iff : x > y ↔ x.toModel.unpack.compare y.toModel.unpack = some .gt := by
  -- the same comparison, read from the other side
  rw [gt_iff_lt, lt_iff, compare_swap]
  cases x.toModel.unpack.compare y.toModel.unpack with
  | none => decide
  | some order => cases order <;> decide

theorem not_comparable_iff : x.toModel.unpack.compare y.toModel.unpack = none ↔
    x.isNaN = true ∨ y.isNaN = true :=
  compare_eq_none_iff x.toModel.unpack y.toModel.unpack

/-- A double that is not above another is at most the other, or one of the two is not a number. -/
theorem not_gt_iff : ¬ x > y ↔ x ≤ y ∨ x.isNaN = true ∨ y.isNaN = true := by
  rw [gt_iff, le_iff, ← not_comparable_iff]
  cases x.toModel.unpack.compare y.toModel.unpack with
  | none => decide
  | some order => cases order <;> decide

/-- Doubles that are in one order or the other are numbers, and numbers are. -/
theorem le_or_le_iff : x ≤ y ∨ y ≤ x ↔ x.isNaN = false ∧ y.isNaN = false := by
  rw [← not_iff_not, not_and_or, Bool.not_eq_false, Bool.not_eq_false, ← not_comparable_iff, le_iff,
    le_iff, compare_swap x.toModel.unpack]
  cases x.toModel.unpack.compare y.toModel.unpack with
  | none => decide
  | some order => cases order <;> decide

end

end Decimal

/-! ## Bounds -/

namespace Bounds

/-- The minimum is at most the maximum. -/
def IsOrdered (b : Bounds) : Prop :=
  b.min ≤ b.max

/-- Both bounds are numbers, which infinities are too. -/
def IsNumeric (b : Bounds) : Prop :=
  b.min.isNaN = false ∧ b.max.isNaN = false

/-- Bounds that are in order are ordered exactly when they are numbers. -/
theorem isOrdered_iff {b : Bounds} (h : ¬ b.min > b.max) : b.IsOrdered ↔ b.IsNumeric := by
  constructor
  · intro hOrdered
    exact (Decimal.le_or_le_iff b.min b.max).1 (.inl hOrdered)
  · rintro ⟨hMin, hMax⟩
    rcases (Decimal.not_gt_iff b.min b.max).1 h with hOrdered | hNaN | hNaN
    · exact hOrdered
    · exact absurd (hMin.symm.trans hNaN) (by decide)
    · exact absurd (hMax.symm.trans hNaN) (by decide)

end Bounds

/-! ## Forms -/

/-- The bounds at every site of a well-formed outline are in order. -/
theorem Outline.inOrder_sites {o : Outline} (h : o.WellFormed) :
    ∀ s ∈ o.sites, InOrder s.input.bounds? := by
  induction o with
  | done => exact List.forall_mem_nil _
  | question conditions field input rest ih =>
    obtain ⟨-, -, hOwn, hRest⟩ := h
    rw [sites, List.forall_mem_cons, List.forall_mem_map]
    exact ⟨hOwn, ih hRest⟩
  | group name label inside rest ihInside ihRest =>
    obtain ⟨-, -, hInside, hRest⟩ := h
    rw [sites, List.forall_mem_append, List.forall_mem_map, List.forall_mem_map]
    exact ⟨ihInside hInside, ihRest hRest⟩

/-- So are those of every leaf of a form that passes its check. -/
theorem inOrder_leaves {form : Form} (h : form.check = .ok ()) :
    ∀ leaf ∈ form.leaves, InOrder leaf.input.bounds? := by
  intro leaf hLeaf
  -- leaves and sites list the same questions, and the check speaks of sites
  have hInputs : List.Forall₂ (fun (leaf : Leaf) (s : Site) => leaf.input = s.input) form.leaves
      (form.sites.map id) :=
    forall₂_leaves_map_sites form fun _ _ hSame => congrArg Leaf.input hSame
  rw [List.map_id] at hInputs
  obtain ⟨s, hs, hInput⟩ := exists_of_forall₂ hInputs hLeaf
  rw [hInput]
  exact Outline.inOrder_sites (check_eq_ok_iff.1 h) s hs

/-- The clause for the bounds of a leaf comes first in the constraint of its bind. -/
theorem Leaf.constraintClauses_of_bounds {leaf : Leaf} {b : Bounds}
    (h : leaf.input.bounds? = some b) : leaf.constraintClauses =
      escape b.clause :: leaf.field.constraint.toList.map escape := by
  rw [constraintClauses, ← leaf.map_escape_bounds, h]
  rfl

/-- In a form that passes its check, at every depth, a minimum is at most its maximum exactly when
both are numbers. And when the form is compiled, each of these bounds is written as the first clause
of the constraint of its question, where one is comparable to the other exactly when both are
numbers. -/
theorem check_orders_bounds {form : Form} (h : form.check = .ok ()) :
    (∀ leaf ∈ form.leaves, ∀ b ∈ leaf.input.bounds?, b.IsOrdered ↔ b.IsNumeric) ∧
    ∀ (options : Options) (doc : Xml.Node), form.compile options = .ok doc →
      List.Forall₂ (fun leaf bind => ∀ b ∈ leaf.input.bounds?,
        IsJoined (bind.attrs.get? "constraint")
          (escape b.clause :: leaf.field.constraint.toList.map escape) ∧
        (b.min ≤ b.max ∨ b.max ≤ b.min ↔ b.IsNumeric))
      form.leaves (Document.binds doc) := by
  refine ⟨fun leaf hLeaf b hb => b.isOrdered_iff (inOrder_leaves h leaf hLeaf b hb), ?_⟩
  intro options doc hCompile
  obtain ⟨-, -, rfl⟩ := compile_eq_ok_iff.1 hCompile
  rw [Document.binds_documentWith]
  apply forall₂_leaves_map_sites form
  intro leaf s hSame b hb
  refine ⟨?_, Decimal.le_or_le_iff b.min b.max⟩
  rw [← Leaf.constraintClauses_of_bounds hb]
  exact (isGated_bind _ hSame).constraint

theorem gatedForm_orders_bounds : gatedForm.check = .ok () ∧ (Bounds.mk 0 10).IsOrdered ∧
    ∃ bind ∈ Document.binds (gatedForm.documentWith escape .default),
      IsJoined (bind.attrs.get? "constraint") [". &gt; 0 and . &lt; 10", ". != 5"] := by
  have hCheck : gatedForm.check = .ok () := by decide +kernel
  obtain ⟨hOrdered, hEmitted⟩ := check_orders_bounds hCheck
  have hCompile : gatedForm.compile .default = .ok (gatedForm.documentWith escape .default) := rfl
  obtain ⟨leaf, hLeaf, hBounds, hConstraint⟩ : ∃ leaf ∈ gatedForm.leaves,
      leaf.input.bounds? = some ⟨0, 10⟩ ∧ leaf.field.constraint = some ". != 5" :=
    ⟨_, List.mem_cons_self .., rfl, rfl⟩
  have hNumeric : (Bounds.mk 0 10).IsNumeric := by
    constructor <;> decide +kernel
  obtain ⟨bind, hBind, hJoined⟩ := exists_of_forall₂ (hEmitted _ _ hCompile) hLeaf
  have hClauses := (hJoined ⟨0, 10⟩ hBounds).1
  have hEscaped : escape (Bounds.mk 0 10).clause = ". &gt; 0 and . &lt; 10" := by decide +kernel
  have hOwn : escape ". != 5" = ". != 5" := by decide +kernel
  rw [hEscaped, hConstraint, Option.toList_some, List.map_singleton, hOwn] at hClauses
  exact ⟨hCheck, (hOrdered leaf hLeaf ⟨0, 10⟩ hBounds).2 hNumeric, bind, hBind, hClauses⟩

/-- A form with a question whose minimum is not a number. -/
def blankRangeForm : Form where
  title := "T"
  controls := [.question (Field.named "n") (.numeric .integer (some ⟨0 / 0, 5⟩))]

/-- The check lets the bounds through, which are not ordered either way, and they are written into
the document. -/
theorem unordered_blankRangeForm :
    blankRangeForm.check = .ok () ∧
    (∃ leaf ∈ blankRangeForm.leaves, ∃ b ∈ leaf.input.bounds?, ¬ b.IsOrdered ∧ ¬ b.max ≤ b.min) ∧
    ∃ doc, blankRangeForm.compile .default = .ok doc ∧
      (Document.binds doc).map (·.attrs.get? "constraint") =
        [some "(. &gt; NaN and . &lt; 5)"] := by
  have hCheck : blankRangeForm.check = .ok () := by decide +kernel
  refine ⟨hCheck, ⟨_, List.mem_cons_self .., _, rfl, ?_, ?_⟩, _,
    compile_eq_ok_iff.2 ⟨rfl, check_eq_ok_iff.1 hCheck, rfl⟩, ?_⟩
  · change ¬ (0 / 0 : Float) ≤ 5
    decide +kernel
  · change ¬ (5 : Float) ≤ 0 / 0
    decide +kernel
  · decide +kernel

end FormDesign
