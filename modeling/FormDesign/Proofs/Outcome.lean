import Mathlib.Data.List.Forall2
import Mathlib.Tactic.SplitIfs

/-!
# Steps that may fail

A computation that may fail succeeds when each of its steps does. Where it does not matter why a
computation fails, only its answer is kept, as an option.

## Main results

* `bind_eq_ok_iff`, `map_eq_ok_iff`, `mapError_eq_ok_iff`, `mapM_eq_ok_iff`: success, step by step;
* `mapM_eq_ite`: steps that all fail alike;
* `toOption_bind`, `toOption_mapM_congr`: answers, step by step;
* `rel_bind`, `rel_mapM_replace`: related answers, step by step.
-/

namespace FormDesign

variable {ε α β γ δ : Type}

theorem bind_eq_ok_iff {x : Except ε α} {f : α → Except ε β} {b : β} :
    (x >>= f) = .ok b ↔ ∃ a, x = .ok a ∧ f a = .ok b := by
  cases x with
  | error e => simp [bind, Except.bind]
  | ok a => simp [bind, Except.bind]

theorem map_eq_ok_iff {x : Except ε α} {f : α → β} {b : β} :
    f <$> x = .ok b ↔ ∃ a, x = .ok a ∧ f a = b := by
  cases x with
  | error e => simp [Functor.map, Except.map]
  | ok a => simp [Functor.map, Except.map]

theorem mapError_eq_ok_iff {x : Except ε α} {f : ε → δ} {a : α} :
    x.mapError f = .ok a ↔ x = .ok a := by
  cases x with
  | error e => simp [Except.mapError]
  | ok b => simp [Except.mapError]

@[simp]
theorem ok_bind (a : α) (f : α → Except ε β) : (Except.ok a >>= f) = f a := rfl

/-! ## Lists -/

/-- A list of steps succeeds when every step does. -/
theorem mapM_eq_ok_iff {f : α → Except ε β} {as : List α} {bs : List β} :
    as.mapM f = .ok bs ↔ List.Forall₂ (fun a b => f a = .ok b) as bs := by
  induction as generalizing bs with
  | nil =>
    rw [List.mapM_nil, List.forall₂_nil_left_iff]
    exact ⟨fun h => (Except.ok.inj h).symm, fun h => h ▸ rfl⟩
  | cons a as ih =>
    rw [List.mapM_cons]
    simp only [bind_eq_ok_iff, List.forall₂_cons_left_iff, ih]
    constructor
    · rintro ⟨b, hb, bs', hbs, h⟩
      exact ⟨b, bs', hb, hbs, (Except.ok.inj h).symm⟩
    · rintro ⟨b, bs', hb, hbs, rfl⟩
      exact ⟨b, hb, bs', hbs, rfl⟩

/-- A list of steps that succeed. -/
theorem mapM_eq_ok_map {f : α → Except ε β} {g : α → β} {as : List α}
    (h : ∀ a ∈ as, f a = .ok (g a)) : as.mapM f = .ok (as.map g) := by
  rw [mapM_eq_ok_iff, List.forall₂_map_right_iff, List.forall₂_same]
  exact h

/-- A list of steps of which each succeeds succeeds. -/
theorem exists_mapM_eq_ok {f : α → Except ε β} {as : List α} (h : ∀ a ∈ as, ∃ b, f a = .ok b) :
    ∃ bs, as.mapM f = .ok bs := by
  induction as with
  | nil => exact ⟨[], rfl⟩
  | cons a as ih =>
    obtain ⟨⟨b, hFirst⟩, hOthers⟩ := List.forall_mem_cons.1 h
    obtain ⟨bs, hRest⟩ := ih hOthers
    exact ⟨b :: bs, by rw [List.mapM_cons, hFirst, ok_bind, hRest]; rfl⟩

/-- What is related pairwise to a list has for each of its elements one that is related to it. -/
theorem exists_of_forall₂ {R : α → β → Prop} {as : List α} {bs : List β}
    (h : List.Forall₂ R as bs) {a : α} (ha : a ∈ as) : ∃ b ∈ bs, R a b := by
  induction h with
  | nil => exact absurd ha List.not_mem_nil
  | @cons a' b as bs hFirst _ ih =>
    rcases List.mem_cons.1 ha with rfl | ha
    · exact ⟨b, List.mem_cons_self .., hFirst⟩
    · obtain ⟨b', hb', hR⟩ := ih ha
      exact ⟨b', List.mem_cons_of_mem _ hb', hR⟩

/-- What is related pairwise to a list has an element at each index that is related to the one
there. -/
theorem exists_getElem?_of_forall₂ {R : α → β → Prop} {as : List α} {bs : List β}
    (h : List.Forall₂ R as bs) {i : Nat} {a : α} (ha : as[i]? = some a) :
    ∃ b, bs[i]? = some b ∧ R a b := by
  induction h generalizing i with
  | nil => exact nomatch ha
  | @cons a' b as bs hFirst _ ih =>
    cases i with
    | zero => exact ⟨b, rfl, Option.some.inj ha ▸ hFirst⟩
    | succ i => exact ih ha

/-- Pairwise relations compose. -/
theorem forall₂_trans {R : α → α → Prop} {as bs cs : List α} (hR : ∀ a b c, R a b → R b c → R a c)
    (hab : List.Forall₂ R as bs) (hbc : List.Forall₂ R bs cs) : List.Forall₂ R as cs := by
  induction hab generalizing cs with
  | nil => exact hbc
  | cons hFirst _ ih =>
    cases hbc with
    | cons hSecond hbc => exact .cons (hR _ _ _ hFirst hSecond) (ih hbc)

/-- Each answer of a list of steps is that of one of them. -/
theorem exists_of_mem_mapM {f : α → Except ε β} {as : List α} {bs : List β}
    (h : as.mapM f = .ok bs) {b : β} (hb : b ∈ bs) : ∃ a ∈ as, f a = .ok b :=
  exists_of_forall₂ (mapM_eq_ok_iff.1 h).flip hb

/-- Where all steps that fail do so alike, a list of steps fails like them. -/
theorem mapM_eq_ite {f : α → Except ε β} {g : α → β} {p : α → Prop} [DecidablePred p] {e : ε}
    {as : List α} (h : ∀ a ∈ as, f a = if p a then .ok (g a) else .error e) :
    as.mapM f = if ∀ a ∈ as, p a then .ok (as.map g) else .error e := by
  induction as with
  | nil => rfl
  | cons a as ih =>
    obtain ⟨hFirst, hOthers⟩ := List.forall_mem_cons.1 h
    rw [List.mapM_cons, hFirst, ih hOthers]
    simp only [List.forall_mem_cons]
    split_ifs <;> first | rfl | tauto

/-! ## Answers -/

theorem toOption_eq_some_iff {x : Except ε α} {a : α} : x.toOption = some a ↔ x = .ok a := by
  cases x with
  | error e => simp [Except.toOption]
  | ok b => simp [Except.toOption]

theorem toOption_bind (x : Except ε α) (f : α → Except ε β) :
    (x >>= f).toOption = x.toOption.bind fun a => (f a).toOption := by
  cases x <;> rfl

theorem toOption_map (x : Except ε α) (f : α → β) : (f <$> x).toOption = x.toOption.map f := by
  cases x <;> rfl

/-- Lists of steps have the same answers when the steps do. -/
theorem toOption_mapM_congr {f : α → Except ε γ} {g : β → Except ε γ} {as : List α} {bs : List β}
    (h : List.Forall₂ (fun a b => (f a).toOption = (g b).toOption) as bs) :
    (as.mapM f).toOption = (bs.mapM g).toOption := by
  induction h with
  | nil => rfl
  | cons hFirst _ ih =>
    rw [List.mapM_cons, List.mapM_cons, toOption_bind, toOption_bind, hFirst]
    simp only [toOption_bind, ih]

/-- What a list of steps answers is the same when each step answers the same wherever the steps
before it may lead. -/
theorem foldlM_congr_of_keeps {P : β → Prop} {f g : β → α → Option β} {as : List α}
    (hKeeps : ∀ a ∈ as, ∀ b b', P b → f b a = some b' → P b')
    (h : ∀ a ∈ as, ∀ b, P b → f b a = g b a) {b : β} (hb : P b) :
    as.foldlM f b = as.foldlM g b := by
  induction as generalizing b with
  | nil => rfl
  | cons a as ih =>
    obtain ⟨hKeepsFirst, hKeepsOthers⟩ := List.forall_mem_cons.1 hKeeps
    obtain ⟨hFirst, hOthers⟩ := List.forall_mem_cons.1 h
    rw [List.foldlM_cons, List.foldlM_cons, ← hFirst b hb]
    cases hStep : f b a with
    | none => rfl
    | some b' => exact ih hKeepsOthers hOthers (hKeepsFirst b b' hb hStep)

/-- What a list of steps answers is the same when each step answers the same. -/
theorem foldlM_congr {f g : β → α → Option β} {as : List α}
    (h : ∀ a ∈ as, ∀ b, f b a = g b a) (b : β) : as.foldlM f b = as.foldlM g b :=
  foldlM_congr_of_keeps (P := fun _ => True) (fun _ _ _ _ _ _ => trivial)
    (fun a ha b _ => h a ha b) trivial

/-! ## Related answers -/

/-- Answers are related when they come of related answers in related ways. -/
theorem rel_bind {R : α → β → Prop} {S : γ → δ → Prop} {x : Option α} {y : Option β}
    {f : α → Option γ} {g : β → Option δ} (h : Option.Rel R x y)
    (hNext : ∀ a b, x = some a → R a b → Option.Rel S (f a) (g b)) :
    Option.Rel S (x.bind f) (y.bind g) := by
  cases h with
  | some h => exact hNext _ _ rfl h
  | none => exact .none

/-- Answers that are made of related answers in related ways are related. -/
theorem rel_map {R : α → β → Prop} {S : γ → δ → Prop} {x : Option α} {y : Option β}
    {f : α → γ} {g : β → δ} (h : Option.Rel R x y)
    (hNext : ∀ a b, x = some a → R a b → S (f a) (g b)) :
    Option.Rel S (x.map f) (y.map g) := by
  cases h with
  | some h => exact .some (hNext _ _ rfl h)
  | none => exact .none

/-- An answer is related to itself. -/
theorem rel_eq (x : Option α) : Option.Rel Eq x x := by
  cases x with
  | some a => exact .some rfl
  | none => exact .none

/-- Answers are related in the other order when what is related is. -/
theorem rel_symm {R : α → α → Prop} (hR : ∀ a b, R a b → R b a) {x y : Option α}
    (h : Option.Rel R x y) : Option.Rel R y x := by
  cases h with
  | some h => exact .some (hR _ _ h)
  | none => exact .none

/-- Answers that are made alike of related answers are the same. -/
theorem bind_eq_of_rel {R : α → β → Prop} {x : Option α} {y : Option β} {f : α → Option γ}
    {g : β → Option γ} (h : Option.Rel R x y) (hNext : ∀ a b, R a b → f a = g b) :
    x.bind f = y.bind g := by
  cases h with
  | some h => exact hNext _ _ h
  | none => rfl

theorem toOption_mapM_singleton (f : α → Except ε β) (a : α) :
    ([a].mapM f).toOption = (f a).toOption.map fun b => [b] := by
  rw [List.mapM_cons, List.mapM_nil]
  exact toOption_map (f a) fun b => [b]

/-- Lists of steps that differ in some steps have related answers when those have. -/
theorem rel_mapM_replace {f : α → Except ε β} {R : List β → List β → Prop}
    {said said' : List α} (h : Option.Rel R (said.mapM f).toOption (said'.mapM f).toOption)
    (before after : List α) :
    Option.Rel (fun bs bs' => ∃ first cs cs' later, before.mapM f = .ok first ∧
        after.mapM f = .ok later ∧ R cs cs' ∧ bs = first ++ (cs ++ later) ∧
          bs' = first ++ (cs' ++ later))
      ((before ++ (said ++ after)).mapM f).toOption
      ((before ++ (said' ++ after)).mapM f).toOption := by
  have hSplit : ∀ said : List α, ((before ++ (said ++ after)).mapM f).toOption =
      (before.mapM f).toOption.bind fun first => (said.mapM f).toOption.bind fun cs =>
        (after.mapM f).toOption.map fun later => first ++ (cs ++ later) := fun said => by
    rw [List.mapM_append, List.mapM_append]
    cases before.mapM f <;> cases said.mapM f <;> cases after.mapM f <;> rfl
  rw [hSplit, hSplit]
  refine rel_bind (rel_eq _) fun first _ hFirst hSame => ?_
  subst hSame
  refine rel_bind h fun cs cs' _ hSaid => ?_
  refine rel_map (rel_eq _) fun later _ hLater hSame => ?_
  subst hSame
  exact ⟨first, cs, cs', later, toOption_eq_some_iff.1 hFirst, toOption_eq_some_iff.1 hLater,
    hSaid, rfl, rfl⟩

end FormDesign
