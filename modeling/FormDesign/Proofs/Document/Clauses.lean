import FormDesign.Proofs.Document.Gates
import Mathlib.Data.List.Infix

/-!
# Clauses in an attribute

Clauses are joined in one attribute, each in parentheses, and a clause may hold parentheses and the
words between clauses itself. As long as the parentheses of every clause are balanced, those that
are put around it can be told from its own: they are the ones that no other is open around. So the
clauses can be read from the attribute, and no two lists of clauses are joined to the same text.

## Main definitions

* `IsBalanced`: a text in which parentheses are closed as they were opened;
* `clausesFrom`, `clausesOf`: a reader of clauses that counts the parentheses which are open.

## Main results

* `isBalanced_escape_iff`: balance is the same before and after escaping;
* `conjunction_append`: clauses may be joined in parts;
* `clausesFrom_append`: reading balanced characters leaves as many parentheses open as before;
* `clausesOf_conjunction`: the reader gets back the clauses that were joined;
* `joined_clauses_readable`: all of this, also for what the compiler writes.
-/

namespace FormDesign

open Xml (Node escape)

/-! ## Balance -/

/-- Nowhere in the text have more parentheses been closed than opened, and in all of it as many
are closed as opened. -/
def IsBalanced (text : String) : Prop :=
  (∀ start, start <+: text.toList → start.count ')' ≤ start.count '(') ∧
    text.toList.count '(' = text.toList.count ')'

instance (text : String) : Decidable (IsBalanced text) :=
  have : Decidable (∀ start ∈ text.toList.inits, start.count ')' ≤ start.count '(') :=
    List.decidableBAll (fun start => start.count ')' ≤ start.count '(') text.toList.inits
  decidable_of_iff ((∀ start ∈ text.toList.inits, start.count ')' ≤ start.count '(') ∧
    text.toList.count '(' = text.toList.count ')') <| by
    simp only [List.mem_inits, IsBalanced]

/-- Whether a character is a parenthesis. -/
def isParenthesis (c : Char) : Bool :=
  c = '(' || c = ')'

/-- Only the parentheses of a text matter for its balance. -/
theorem isBalanced_of_filter_eq {s t : String}
    (h : s.toList.filter isParenthesis = t.toList.filter isParenthesis) (hs : IsBalanced s) :
    IsBalanced t := by
  have hOpen : ∀ cs : List Char, (cs.filter isParenthesis).count '(' = cs.count '(' :=
    fun cs => List.count_filter (by decide)
  have hClose : ∀ cs : List Char, (cs.filter isParenthesis).count ')' = cs.count ')' :=
    fun cs => List.count_filter (by decide)
  constructor
  · intro start hStart
    -- the parentheses at the start of one text are those at some start of the other
    have hPrefix : start.filter isParenthesis <+: s.toList.filter isParenthesis :=
      h ▸ hStart.filter isParenthesis
    obtain ⟨start', hStart', hSame⟩ := List.prefix_filter_iff.1 hPrefix
    have hCounts := hs.1 start' hStart'
    rwa [← hOpen start', ← hClose start', ← hSame, hOpen, hClose] at hCounts
  · have hCounts := hs.2
    rwa [← hOpen s.toList, ← hClose s.toList, h, hOpen, hClose] at hCounts

/-- A character is escaped without parentheses being added or lost. -/
theorem filter_isParenthesis_escapeChar (c : Char) :
    (Xml.escapeChar c).filter isParenthesis = [c].filter isParenthesis := by
  by_cases h : Xml.isReserved c = true
  · rcases Xml.eq_of_isReserved h with rfl | rfl | rfl | rfl <;> decide
  · rw [Xml.escapeChar_of_not_isReserved (Bool.eq_false_iff.2 h)]

/-- Escaping neither adds a parenthesis nor takes one away. -/
theorem filter_isParenthesis_escape (text : String) :
    (escape text).toList.filter isParenthesis = text.toList.filter isParenthesis := by
  rw [Xml.toList_escape, List.filter_flatMap]
  simp only [filter_isParenthesis_escapeChar]
  rw [← List.filter_flatMap, List.flatMap_singleton']

/-- An escaped text is balanced exactly when the text is. -/
theorem isBalanced_escape_iff {text : String} : IsBalanced (escape text) ↔ IsBalanced text :=
  ⟨isBalanced_of_filter_eq (filter_isParenthesis_escape text),
    isBalanced_of_filter_eq (filter_isParenthesis_escape text).symm⟩

/-- A text without parentheses is balanced. -/
theorem isBalanced_of_filter_eq_nil {text : String} (h : text.toList.filter isParenthesis = []) :
    IsBalanced text := by
  have hNone : "".toList.filter isParenthesis = text.toList.filter isParenthesis := h.symm
  exact isBalanced_of_filter_eq hNone (by decide)

/-! ## Clauses joined in parts -/

/-- Joined clauses stand in parentheses, the first and the last of which are at the ends. -/
theorem conjunction_eq_some {clauses : List String} (h : clauses ≠ []) :
    conjunction clauses = some ("(" ++ ") and (".intercalate clauses ++ ")") :=
  if_neg h

/-- Two lists of clauses may be joined each by itself and then with the word between clauses. -/
theorem conjunction_append {a b : List String} (ha : a ≠ []) (hb : b ≠ []) :
    ∃ s t, conjunction a = some s ∧ conjunction b = some t ∧
      conjunction (a ++ b) = some (s ++ " and " ++ t) := by
  refine ⟨_, _, conjunction_eq_some ha, conjunction_eq_some hb, ?_⟩
  have hBetween : ") and (" = ")" ++ " and " ++ "(" := by decide
  rw [conjunction_eq_some (List.append_ne_nil_of_left_ne_nil ha b),
    String.intercalate_append_of_ne_nil ha hb]
  generalize ") and (".intercalate a = first
  generalize ") and (".intercalate b = later
  rw [hBetween]
  simp only [String.append_assoc]

/-! ## Reading clauses -/

/-- The clauses that are read from here on, where `depth` parentheses are open and `clause` is what
has been read since the outermost of them was opened. -/
def clausesFrom : Nat → List Char → List Char → List (List Char)
  | _, _, [] => []
  | 0, _, c :: cs => if c = '(' then clausesFrom 1 [] cs else clausesFrom 0 [] cs
  | depth + 1, clause, c :: cs =>
    if c = '(' then clausesFrom (depth + 2) (clause ++ [c]) cs
    else if c = ')' then
      if depth = 0 then clause :: clausesFrom 0 [] cs else clausesFrom depth (clause ++ [c]) cs
    else clausesFrom (depth + 1) (clause ++ [c]) cs

/-- The clauses that are read from an attribute. -/
def clausesOf : Option String → List String
  | none => []
  | some text => (clausesFrom 0 [] text.toList).map String.ofList

/-- Characters that close no more parentheses than are open inside a clause belong to the clause,
and the parentheses that they leave open are counted behind them. -/
theorem clausesFrom_append {cs : List Char} {depth : Nat} (clause rest : List Char)
    (h : ∀ start, start <+: cs → start.count ')' ≤ depth + start.count '(') :
    clausesFrom (depth + 1) clause (cs ++ rest) =
      clausesFrom (depth + cs.count '(' - cs.count ')' + 1) (clause ++ cs) rest := by
  -- characters inside a clause open and close, so the depth has to be any
  induction cs generalizing depth clause with
  | nil => rw [List.append_nil]; rfl
  | cons c cs ih =>
    have hFirst := h [c] (List.cons_prefix_cons.2 ⟨rfl, List.nil_prefix⟩)
    have hOthers : ∀ start, start <+: cs →
        (c :: start).count ')' ≤ depth + (c :: start).count '(' :=
      fun start hStart => h (c :: start) (List.cons_prefix_cons.2 ⟨rfl, hStart⟩)
    have hClause : ∀ others, clause ++ [c] ++ others = clause ++ c :: others := fun others => by
      rw [List.append_assoc, List.singleton_append]
    rw [List.cons_append, clausesFrom]
    split_ifs with hOpen hClose hOutermost
    · -- one more is open for the characters behind it
      subst hOpen
      simp only [List.count_cons_self, List.count_cons_of_ne (by decide : '(' ≠ ')')] at hOthers ⊢
      rw [ih (clause ++ ['(']) fun start hStart => by have := hOthers start hStart; omega, hClause,
        show depth + 1 + cs.count '(' = depth + (cs.count '(' + 1) by omega]
    · -- the parenthesis around the clause cannot be closed here
      subst hClose hOutermost
      exact absurd hFirst (by decide)
    · -- a parenthesis of the clause itself, and one fewer is open behind it
      subst hClose
      obtain ⟨inner, rfl⟩ := Nat.exists_eq_succ_of_ne_zero hOutermost
      simp only [List.count_cons_self, List.count_cons_of_ne (by decide : ')' ≠ '(')] at hOthers ⊢
      rw [ih (clause ++ [')']) fun start hStart => by have := hOthers start hStart; omega, hClause,
        show inner + cs.count '(' - cs.count ')' =
          inner.succ + cs.count '(' - (cs.count ')' + 1) by omega]
    · simp only [List.count_cons_of_ne hOpen, List.count_cons_of_ne hClose] at hOthers ⊢
      rw [ih (clause ++ [c]) hOthers, hClause]

/-- A balanced clause between parentheses is read as one clause, whatever comes behind it. -/
theorem clausesFrom_parenthesized {clause : String} (h : IsBalanced clause) (rest : List Char) :
    clausesFrom 0 [] (("(" ++ clause ++ ")").toList ++ rest) =
      clause.toList :: clausesFrom 0 [] rest := by
  have hChars : ("(" ++ clause ++ ")").toList ++ rest = '(' :: (clause.toList ++ ')' :: rest) := by
    simp
  have hInside : ∀ start, start <+: clause.toList → start.count ')' ≤ 0 + start.count '(' :=
    fun start hStart => (h.1 start hStart).trans (Nat.le_add_left _ 0)
  have hDepth : 0 + clause.toList.count '(' - clause.toList.count ')' = 0 := by
    have hClosed := h.2
    omega
  rw [hChars, clausesFrom, if_pos rfl, clausesFrom_append [] (')' :: rest) hInside, hDepth,
    List.nil_append, clausesFrom, if_neg (by decide), if_pos rfl, if_pos rfl]

/-- The clauses that have been joined are read again, if each of them is balanced. -/
theorem clausesOf_conjunction {clauses : List String}
    (h : ∀ clause ∈ clauses, IsBalanced clause) : clausesOf (conjunction clauses) = clauses := by
  induction clauses with
  | nil => rfl
  | cons clause clauses ih =>
    obtain ⟨hClause, hOthers⟩ := List.forall_mem_cons.1 h
    have hSingle : conjunction [clause] = some ("(" ++ clause ++ ")") := by
      rw [conjunction_eq_some (List.cons_ne_nil _ _), String.intercalate_singleton]
    -- only where another clause follows is there a word behind this one
    by_cases hLast : clauses = []
    · have hRead := clausesFrom_parenthesized hClause []
      rw [List.append_nil] at hRead
      rw [hLast, hSingle, clausesOf, hRead, List.map_cons, String.ofList_toList]
      rfl
    · obtain ⟨s, t, hs, ht, hJoined⟩ := conjunction_append (List.cons_ne_nil clause []) hLast
      obtain rfl := Option.some.inj (hSingle.symm.trans hs)
      have hOthersRead : (clausesFrom 0 [] t.toList).map String.ofList = clauses := by
        have hRead := ih hOthers
        rwa [ht] at hRead
      -- between two clauses there is nothing that opens a parenthesis
      have hBetween : clausesFrom 0 [] (" and ".toList ++ t.toList) = clausesFrom 0 [] t.toList :=
        rfl
      rw [← List.singleton_append, hJoined, clausesOf, String.append_assoc, String.toList_append,
        clausesFrom_parenthesized hClause, String.toList_append, hBetween, List.map_cons,
        String.ofList_toList, hOthersRead, List.singleton_append]

/-- Balanced clauses are told apart when they have been joined. -/
theorem conjunction_eq_iff {a b : List String} (ha : ∀ clause ∈ a, IsBalanced clause)
    (hb : ∀ clause ∈ b, IsBalanced clause) : conjunction a = conjunction b ↔ a = b := by
  refine ⟨fun h => ?_, congrArg conjunction⟩
  rw [← clausesOf_conjunction ha, h, clausesOf_conjunction hb]

/-! ## Clauses of questions -/

/-- A number as it is written in a clause holds no parenthesis. -/
theorem filter_isParenthesis_plainText (x : Float) :
    (Decimal.plainText x).toList.filter isParenthesis = [] := by
  rw [List.filter_eq_nil_iff]
  intro c hc hParenthesis
  have hNumber := Decimal.mem_plainText x c hc
  rw [isParenthesis, Bool.or_eq_true, decide_eq_true_eq, decide_eq_true_eq] at hParenthesis
  rcases hParenthesis with rfl | rfl
  all_goals exact absurd hNumber (by decide)

/-- The clause of bounds has no parenthesis. -/
theorem Bounds.isBalanced_clause (b : Bounds) : IsBalanced b.clause := by
  have hClause : b.clause = ". > " ++ Decimal.plainText b.min ++ " and . < " ++
      Decimal.plainText b.max := rfl
  apply isBalanced_of_filter_eq_nil
  rw [hClause]
  simp only [String.toList_append, List.filter_append, filter_isParenthesis_plainText]
  decide

namespace Leaf

variable {leaf : Leaf}

/-- The clauses that say when a leaf is asked, as they were entered. -/
def enteredRelevance (leaf : Leaf) : List String :=
  leaf.gates ++ leaf.field.relevance.toList

/-- The clauses that an answer to a leaf must satisfy, before they are escaped: the one for its
bounds, and its own as it was entered. -/
def enteredConstraint (leaf : Leaf) : List String :=
  leaf.field.constraintClauses leaf.input

/-- The conditions of a leaf are those that were entered, escaped. -/
theorem map_escape_enteredRelevance (leaf : Leaf) :
    leaf.enteredRelevance.map escape = leaf.relevanceClauses :=
  List.map_append

/-- The constraints of a leaf are its bounds and what was entered, escaped. -/
theorem map_escape_enteredConstraint (leaf : Leaf) :
    leaf.enteredConstraint.map escape = leaf.constraintClauses := by
  rw [enteredConstraint, Field.constraintClauses, List.map_append, leaf.map_escape_bounds,
    constraintClauses]

/-- The clause for the bounds is balanced whatever the bounds are. -/
theorem isBalanced_enteredConstraint
    (h : ∀ clause ∈ leaf.field.constraint.toList, IsBalanced clause) :
    ∀ clause ∈ leaf.enteredConstraint, IsBalanced clause := by
  rw [enteredConstraint, Field.constraintClauses, List.forall_mem_append]
  refine ⟨fun clause hClause => ?_, h⟩
  obtain ⟨b, -, rfl⟩ := Option.map_eq_some_iff.1 (Option.mem_toList.1 hClause)
  exact b.isBalanced_clause

end Leaf

/-! ## Joined clauses in documents -/

/-- Clauses are joined in one way. -/
theorem IsJoined.eq_conjunction {value : Option String} {clauses : List String}
    (h : IsJoined value clauses) : value = conjunction clauses :=
  Option.ext fun text => (h text).trans (isJoined_conjunction clauses text).symm

/-- Balanced clauses that have been escaped and joined are read as they were escaped. -/
theorem clausesOf_conjunction_map_escape {clauses : List String}
    (h : ∀ clause ∈ clauses, IsBalanced clause) :
    clausesOf (conjunction (clauses.map escape)) = clauses.map escape :=
  clausesOf_conjunction <| List.forall_mem_map.2 fun clause hClause =>
    isBalanced_escape_iff.2 (h clause hClause)

/-- Clauses from which the same is read once they have been escaped are the same. -/
theorem eq_of_clausesOf {value : Option String} {a b : List String}
    (ha : clausesOf value = a.map escape) (hb : clausesOf value = b.map escape) : a = b :=
  List.map_injective_iff.2 (fun _ _ => Xml.escape_injective) (ha.symm.trans hb)

/-- Balanced clauses are told apart when they have been escaped and joined. -/
theorem conjunction_map_escape_eq_iff {a b : List String} (ha : ∀ clause ∈ a, IsBalanced clause)
    (hb : ∀ clause ∈ b, IsBalanced clause) :
    conjunction (a.map escape) = conjunction (b.map escape) ↔ a = b := by
  refine ⟨fun h => ?_, fun h => by rw [h]⟩
  have hRead := clausesOf_conjunction_map_escape ha
  rw [h] at hRead
  exact eq_of_clausesOf hRead (clausesOf_conjunction_map_escape hb)

namespace Document

/-- A bind from which the clauses of a leaf can be read, as far as they are balanced. -/
structure IsReadable (leaf : Leaf) (bind : Node) : Prop where
  relevant : (∀ clause ∈ leaf.enteredRelevance, IsBalanced clause) →
    clausesOf (bind.attrs.get? "relevant") = leaf.enteredRelevance.map escape
  constraint : (∀ clause ∈ leaf.field.constraint.toList, IsBalanced clause) →
    clausesOf (bind.attrs.get? "constraint") = leaf.enteredConstraint.map escape

/-- Binds that differ wherever their leaves have other clauses, as far as these are balanced. -/
structure TellApart (leaf leaf' : Leaf) (bind bind' : Node) : Prop where
  relevant : (∀ clause ∈ leaf.enteredRelevance, IsBalanced clause) →
    (∀ clause ∈ leaf'.enteredRelevance, IsBalanced clause) →
    bind.attrs.get? "relevant" = bind'.attrs.get? "relevant" →
    leaf.enteredRelevance = leaf'.enteredRelevance
  constraint : (∀ clause ∈ leaf.field.constraint.toList, IsBalanced clause) →
    (∀ clause ∈ leaf'.field.constraint.toList, IsBalanced clause) →
    bind.attrs.get? "constraint" = bind'.attrs.get? "constraint" →
    leaf.enteredConstraint = leaf'.enteredConstraint

/-- From the attributes of a bind the clauses of its leaf can be read. -/
theorem IsGated.isReadable {leaf : Leaf} {bind : Node} (h : IsGated leaf bind) :
    IsReadable leaf bind where
  relevant hBalanced := by
    rw [h.relevant.eq_conjunction, ← leaf.map_escape_enteredRelevance]
    exact clausesOf_conjunction_map_escape hBalanced
  constraint hBalanced := by
    rw [h.constraint.eq_conjunction, ← leaf.map_escape_enteredConstraint]
    exact clausesOf_conjunction_map_escape (Leaf.isBalanced_enteredConstraint hBalanced)

/-- Binds that are alike have leaves with the same clauses, if these are balanced. -/
theorem IsReadable.tellApart {leaf leaf' : Leaf} {bind bind' : Node} (h : IsReadable leaf bind)
    (h' : IsReadable leaf' bind') : TellApart leaf leaf' bind bind' where
  relevant hBalanced hBalanced' hSame :=
    eq_of_clausesOf (h.relevant hBalanced) (hSame ▸ h'.relevant hBalanced')
  constraint hBalanced hBalanced' hSame :=
    eq_of_clausesOf (h.constraint hBalanced) (hSame ▸ h'.constraint hBalanced')

/-- The clauses of every leaf can be read from its bind. -/
theorem isReadable_leaves {form : Form} {options : Options} {doc : Node}
    (h : form.compile options = .ok doc) : List.Forall₂ IsReadable form.leaves (binds doc) :=
  forall₂_leaves_binds h fun _ _ hLeaf => (isGated_bind _ hLeaf).isReadable

end Document

/-- Balanced clauses that have been joined can be read again, so no two lists of them are joined to
the same text, and lists are joined in parts. Escaping changes no balance, so this is so for clauses
as they are entered too, and the binds of documents tell which clauses their questions were entered
with. -/
theorem joined_clauses_readable :
    (∀ a b : List String, (∀ clause ∈ a, IsBalanced clause) → (∀ clause ∈ b, IsBalanced clause) →
      clausesOf (conjunction a) = a ∧ (conjunction a = conjunction b ↔ a = b) ∧
        (conjunction (a.map escape) = conjunction (b.map escape) ↔ a = b)) ∧
    (∀ a b : List String, a ≠ [] → b ≠ [] →
      ∃ s t, conjunction a = some s ∧ conjunction b = some t ∧
        conjunction (a ++ b) = some (s ++ " and " ++ t)) ∧
    (∀ text, IsBalanced (escape text) ↔ IsBalanced text) ∧
    ∀ {form : Form} {options : Options} {doc : Node}, form.compile options = .ok doc →
      List.Forall₂ Document.IsReadable form.leaves (Document.binds doc) ∧
        ∀ {form' : Form} {options' : Options} {doc' : Node}, form'.compile options' = .ok doc' →
          ∀ leaf bind leaf' bind', (leaf, bind) ∈ form.leaves.zip (Document.binds doc) →
            (leaf', bind') ∈ form'.leaves.zip (Document.binds doc') →
            Document.TellApart leaf leaf' bind bind' := by
  refine ⟨fun a b ha hb => ?_, fun a b => conjunction_append, fun text => isBalanced_escape_iff, ?_⟩
  · exact ⟨clausesOf_conjunction ha, conjunction_eq_iff ha hb, conjunction_map_escape_eq_iff ha hb⟩
  · intro form options doc h
    refine ⟨Document.isReadable_leaves h, ?_⟩
    intro form' options' doc' h' leaf bind leaf' bind' hMem hMem'
    have hReadable := (List.forall₂_iff_zip.1 (Document.isReadable_leaves h)).2 hMem
    have hReadable' := (List.forall₂_iff_zip.1 (Document.isReadable_leaves h')).2 hMem'
    exact hReadable.tellApart hReadable'

/-- A question under two arms, and one under a single arm that has the conditions of both. -/
def guardedForm : Form where
  title := "Guarded"
  controls := [
    .branch none [
      ⟨["(a) and (b)", " "], [
        .branch none [
          ⟨["not(c < 1)"], [
            .question { Field.named "q" with relevance := some "d", constraint := some "f(.)" }
              (.numeric .integer (some ⟨0, 10⟩))]⟩]]⟩,
      ⟨["(a) and (b)", "not(c < 1)"], [
        .question { Field.named "r" with relevance := some "d" } .date]⟩]]

/-- Clauses that hold parentheses, and the word that joins clauses, are told apart. -/
theorem joined_clauses_readable_guarded :
    let clauses := ["(a) and (b)", "not(c < 1)", "d"]
    let others := ["a", "b", "not(c < 1) and d"]
    let doc := guardedForm.documentWith escape .default
    (∀ clause ∈ clauses, IsBalanced clause) ∧ (∀ clause ∈ others, IsBalanced clause) ∧
      conjunction clauses ≠ conjunction others ∧ clausesOf (conjunction clauses) = clauses ∧
      (∃ s t, conjunction clauses = some s ∧ conjunction others = some t ∧
        conjunction (clauses ++ others) = some (s ++ " and " ++ t)) ∧
      guardedForm.compile Options.default = .ok doc ∧
      ∃ leaf bind leaf' bind', (leaf, bind) ∈ guardedForm.leaves.zip (Document.binds doc) ∧
        (leaf', bind') ∈ guardedForm.leaves.zip (Document.binds doc) ∧
        bind.attrs.get? "relevant" = some "((a) and (b)) and (not(c &lt; 1)) and (d)" ∧
        clausesOf (bind.attrs.get? "relevant") = clauses.map escape ∧
        clausesOf (bind.attrs.get? "constraint") = [". &gt; 0 and . &lt; 10", "f(.)"] ∧
        bind.attrs.get? "relevant" = bind'.attrs.get? "relevant" ∧
        leaf.enteredRelevance = leaf'.enteredRelevance := by
  intro clauses others doc
  obtain ⟨hRead, hAppend, -, hDocuments⟩ := joined_clauses_readable
  have hClauses : ∀ clause ∈ clauses, IsBalanced clause := by decide
  have hOthers : ∀ clause ∈ others, IsBalanced clause := by decide
  obtain ⟨hClausesOf, hSame, -⟩ := hRead clauses others hClauses hOthers
  have hCompile : guardedForm.compile Options.default = .ok doc := rfl
  obtain ⟨hReadable, hApart⟩ := hDocuments hCompile
  have hFirst : (guardedForm.leaves[0], (Document.binds doc)[0]) ∈
      guardedForm.leaves.zip (Document.binds doc) := List.mem_of_getElem? (i := 0) rfl
  have hSecond : (guardedForm.leaves[1], (Document.binds doc)[1]) ∈
      guardedForm.leaves.zip (Document.binds doc) := List.mem_of_getElem? (i := 1) rfl
  have hBind := (List.forall₂_iff_zip.1 hReadable).2 hFirst
  have hConstraint := hBind.constraint (by decide)
  refine ⟨hClauses, hOthers, fun h => absurd (hSame.1 h) (by decide), hClausesOf,
    hAppend clauses others (by decide) (by decide), hCompile, _, _, _, _, hFirst, hSecond,
    by decide +kernel, hBind.relevant hClauses, ?_, by decide +kernel, ?_⟩
  · rw [hConstraint]
    decide +kernel
  · exact (hApart hCompile _ _ _ _ hFirst hSecond).relevant hClauses hClauses (by decide +kernel)

/-- Clauses that are not balanced can run into each other. -/
example : conjunction ["a) and (b"] = conjunction ["a", "b"] := by decide

end FormDesign
