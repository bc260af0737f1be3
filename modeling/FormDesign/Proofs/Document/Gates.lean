import FormDesign.Proofs.Document.Escaping
import FormDesign.Proofs.Outline.Leaves

/-!
# Gates of questions

The bind of a question says when the question is asked and which answers it takes. Its clauses
are those of the arms around the question, from the outermost inwards, and then its own. Clauses
are handed down while a form is compiled, through groups and into arms. What is shown here is that
they arrive at the questions inside, all of them and in order, and at no other question: the
gates of a leaf are a function of the leaf.

## Main definitions

* `Leaf.relevanceClauses`, `Leaf.constraintClauses`: the clauses of a leaf, as they are written;
* `IsJoined`: an attribute in which clauses are joined;
* `Document.IsGated`: a bind whose attributes say what the leaf does;
* `Leaf.SameGate`: leaves that are asked alike, wherever they stand.

## Main results

* `Field.hasEntries_bind`: the attributes of a bind, with their keys and in their order;
* `isGated_bind`: the bind of a site is gated as its leaf says;
* `compile_gates_leaves`: every bind is gated as its own leaf says, and nothing else matters.
-/

namespace FormDesign

open Xml (Node escape)
open Xml.Attributes (given)

/-! ## Clauses -/

/-- An attribute that holds clauses, each in parentheses and with a word between them, and that is
not there when there are none. -/
def IsJoined (value : Option String) (clauses : List String) : Prop :=
  ∀ text, value = some text ↔
    clauses ≠ [] ∧ text = "(" ++ ") and (".intercalate clauses ++ ")"

theorem isJoined_conjunction (clauses : List String) : IsJoined (conjunction clauses) clauses := by
  intro text
  by_cases hEmpty : clauses = []
  · simp [conjunction, hEmpty]
  · simp [conjunction, hEmpty, eq_comm]

/-- An attribute that is there, with this value, exactly when a flag is set. -/
def IsFlag (value : Option String) (flag : Bool) : Prop :=
  ∀ text, value = some text ↔ flag = true ∧ text = "true()"

theorem isFlag_ite (flag : Bool) : IsFlag (if flag then some "true()" else none) flag := by
  intro text
  cases flag with
  | false => simp
  | true => simp [eq_comm]

namespace Leaf

/-- The clauses that say when a leaf is asked: the conditions around it that are not blank, the
outermost first, and its own. -/
def relevanceClauses (leaf : Leaf) : List String :=
  leaf.gates.map escape ++ leaf.field.relevance.toList.map escape

/-- The clause for the bounds of a length or of a number. -/
def boundsClauses (leaf : Leaf) : List String :=
  match leaf.input with
  | .text (some b) | .numeric _ (some b) =>
    [s!". &gt; {Decimal.plainText b.min} and . &lt; {Decimal.plainText b.max}"]
  | _ => []

/-- The clauses that an answer to a leaf must satisfy: its bounds, and its own constraint. -/
def constraintClauses (leaf : Leaf) : List String :=
  leaf.boundsClauses ++ leaf.field.constraint.toList.map escape

/-- Leaves that are asked alike: under the same conditions that count, with the same flags and
expressions, for the same input. Their names, texts, groups and destinations may differ. -/
structure SameGate (a b : Leaf) : Prop where
  gates : a.gates = b.gates
  input : a.input = b.input
  readOnly : a.field.readOnly = b.field.readOnly
  required : a.field.required = b.field.required
  relevance : a.field.relevance = b.field.relevance
  constraint : a.field.constraint = b.field.constraint

/-- The attributes of a bind behind the path that it names. -/
def gateEntries (leaf : Leaf) : List (String × String) :=
  given "type" leaf.input.bindType? ++
    given "readonly" (if leaf.field.readOnly then some "true()" else none) ++
    given "required" (if leaf.field.required then some "true()" else none) ++
    given "relevant" (conjunction leaf.relevanceClauses) ++
    given "constraint" (conjunction leaf.constraintClauses)

theorem SameGate.gateEntries_eq {a b : Leaf} (h : a.SameGate b) :
    a.gateEntries = b.gateEntries := by
  have hRelevance : a.relevanceClauses = b.relevanceClauses := by
    rw [relevanceClauses, relevanceClauses, h.gates, h.relevance]
  have hConstraint : a.constraintClauses = b.constraintClauses := by
    rw [constraintClauses, constraintClauses, boundsClauses, boundsClauses, h.input, h.constraint]
  rw [gateEntries, gateEntries, h.input, h.readOnly, h.required, hRelevance, hConstraint]

end Leaf

/-! ## Binds -/

namespace Document

/-- The keys that a bind may have, in their order. -/
def bindKeys : List String :=
  ["nodeset", "type", "readonly", "required", "relevant", "constraint"]

/-- A bind whose attributes say what the leaf does. -/
structure IsGated (leaf : Leaf) (bind : Node) : Prop where
  relevant : IsJoined (bind.attrs.get? "relevant") leaf.relevanceClauses
  constraint : IsJoined (bind.attrs.get? "constraint") leaf.constraintClauses
  readonly : IsFlag (bind.attrs.get? "readonly") leaf.field.readOnly
  required : IsFlag (bind.attrs.get? "required") leaf.field.required
  keys : bind.attrs.keys.Sublist bindKeys

end Document

namespace Field

variable (quote : String → String) (scope : Scope) (field : Field) (input : Input)

/-- The attributes of a bind: the path that it names, and behind it those that the question has, in
the order of the keys. -/
theorem hasEntries_bind :
    (field.bind quote scope input).HasEntries Document.bindKeys
      ([("nodeset", field.nodeset quote scope)] ++ given "type" input.bindType? ++
        given "readonly" (if field.readOnly then some "true()" else none) ++
        given "required" (if field.required then some "true()" else none) ++
        given "relevant" (conjunction ((field.relevanceClauses scope).map quote)) ++
        given "constraint" (conjunction ((field.constraintClauses input).map quote))) := by
  have hNew : "nodeset" ∉ ([] : List String) := List.not_mem_nil
  have hNodeset := (Node.hasEntries_empty "bind").attr? hNew (some (field.nodeset quote scope))
  -- each key is set once, so every attribute comes behind those before it
  exact ((((hNodeset.attr? (by decide) _).attr? (by decide) _).attr? (by decide) _).attr?
    (by decide) _).attr? (by decide) _

theorem get?_readonly_bind : (field.bind quote scope input).attrs.get? "readonly" =
    if field.readOnly then some "true()" else none := by
  simp [bind, Node.get?_attr?, Xml.Attributes.get?_set, Node.get?_empty]

theorem get?_required_bind : (field.bind quote scope input).attrs.get? "required" =
    if field.required then some "true()" else none := by
  simp [bind, Node.get?_attr?, Xml.Attributes.get?_set, Node.get?_empty]

end Field

/-- The bounds of an input make the clause of its leaf. -/
theorem Leaf.map_escape_bounds (leaf : Leaf) :
    ((leaf.input.bounds?.map Bounds.clause).toList).map escape = leaf.boundsClauses := by
  unfold boundsClauses
  cases leaf.input with
  | text length =>
    cases length with
    | none => rfl
    | some b => exact congrArg (fun clause => [clause]) b.escape_clause
  | numeric kind range =>
    cases range with
    | none => rfl
    | some b => exact congrArg (fun clause => [clause]) b.escape_clause
  | date | location | media | selectOne | selectMany => rfl

section

variable {leaf : Leaf} {s : Site} (outer : Scope)

/-- The conditions that have been handed down to a site are the gates of its leaf. -/
theorem map_escape_relevanceClauses (h : leaf.under [] = s.leaf) :
    (s.field.relevanceClauses (s.scope outer)).map escape = leaf.relevanceClauses := by
  have hConditions : leaf.gates = s.conditions := congrArg Leaf.conditions h
  have hField : leaf.field = s.field := congrArg Leaf.field h
  rw [Leaf.relevanceClauses, hConditions, hField, ← List.map_append]
  rfl

/-- What an answer at a site must satisfy is what its leaf says. -/
theorem map_escape_constraintClauses (h : leaf.under [] = s.leaf) :
    (s.field.constraintClauses s.input).map escape = leaf.constraintClauses := by
  have hField : s.field = leaf.field := (congrArg Leaf.field h).symm
  have hInput : s.input = leaf.input := (congrArg Leaf.input h).symm
  rw [hField, hInput, Field.constraintClauses, List.map_append, leaf.map_escape_bounds,
    Leaf.constraintClauses]

/-- Behind the path that it names, the bind of a site has what its leaf says and nothing else. -/
theorem entries_bind (h : leaf.under [] = s.leaf) :
    (s.field.bind escape (s.scope outer) s.input).attrs.entries =
      ("nodeset", s.field.nodeset escape (s.scope outer)) :: leaf.gateEntries := by
  have hField : leaf.field = s.field := congrArg Leaf.field h
  have hInput : leaf.input = s.input := congrArg Leaf.input h
  have hEntries := Field.hasEntries_bind escape (s.scope outer) s.field s.input
  rw [hEntries.entries_eq, map_escape_relevanceClauses outer h, map_escape_constraintClauses h,
    Leaf.gateEntries, hField, hInput]
  rfl

/-- The bind of a site is gated as its leaf says. -/
theorem isGated_bind (h : leaf.under [] = s.leaf) :
    Document.IsGated leaf (s.field.bind escape (s.scope outer) s.input) := by
  have hField : leaf.field = s.field := congrArg Leaf.field h
  refine ⟨?_, ?_, ?_, ?_, ?_⟩
  · rw [Field.get?_relevant_bind, map_escape_relevanceClauses outer h]
    exact isJoined_conjunction _
  · rw [Field.get?_constraint_bind, map_escape_constraintClauses h]
    exact isJoined_conjunction _
  · rw [Field.get?_readonly_bind, hField]
    exact isFlag_ite _
  · rw [Field.get?_required_bind, hField]
    exact isFlag_ite _
  · have hEntries := Field.hasEntries_bind escape (s.scope outer) s.field s.input
    rw [Xml.Attributes.keys, hEntries.entries_eq]
    exact hEntries.keys_sublist

end

/-! ## Documents -/

/-- What holds of every leaf and of the bind of its site holds of the leaves of a form and of the
binds of its document, in the same order. -/
theorem forall₂_leaves_binds {P : Leaf → Node → Prop} {form : Form} {options : Options}
    {doc : Node} (h : form.compile options = .ok doc)
    (hSite : ∀ (leaf : Leaf) (s : Site), leaf.under [] = s.leaf →
      P leaf (s.field.bind escape (s.scope (.top options.instanceRoot)) s.input)) :
    List.Forall₂ P form.leaves (Document.binds doc) := by
  obtain ⟨-, -, rfl⟩ := compile_eq_ok_iff.1 h
  rw [Document.binds_documentWith]
  exact forall₂_leaves_map_sites form hSite

/-- Behind the path that it names, the bind of a leaf has what the leaf says and nothing else. -/
theorem tail_entries_of_mem_zip {form : Form} {options : Options} {doc : Node}
    (h : form.compile options = .ok doc) {leaf : Leaf} {bind : Node}
    (hMem : (leaf, bind) ∈ form.leaves.zip (Document.binds doc)) :
    bind.attrs.entries.tail = leaf.gateEntries := by
  have hTails : List.Forall₂
      (fun (leaf : Leaf) (bind : Node) => bind.attrs.entries.tail = leaf.gateEntries)
      form.leaves (Document.binds doc) := by
    apply forall₂_leaves_binds h
    intro leaf s hLeaf
    rw [entries_bind _ hLeaf, List.tail_cons]
  exact (List.forall₂_iff_zip.1 hTails).2 hMem

/-- The bind of each leaf says when the leaf is asked, by the conditions of the arms around it and
by its own relevance, and which answers it takes, by its bounds and its own constraint. And whatever
else there is in a form or in the options, leaves that are asked alike have binds that differ at
most in the path that they name. -/
theorem compile_gates_leaves {form : Form} {options : Options} {doc : Node}
    (h : form.compile options = .ok doc) :
    List.Forall₂ Document.IsGated form.leaves (Document.binds doc) ∧
      ∀ {form' : Form} {options' : Options} {doc' : Node}, form'.compile options' = .ok doc' →
        ∀ leaf bind leaf' bind', (leaf, bind) ∈ form.leaves.zip (Document.binds doc) →
          (leaf', bind') ∈ form'.leaves.zip (Document.binds doc') → leaf.SameGate leaf' →
          bind.attrs.entries.tail = bind'.attrs.entries.tail := by
  constructor
  · obtain ⟨-, -, rfl⟩ := compile_eq_ok_iff.1 h
    rw [Document.binds_documentWith]
    exact forall₂_leaves_map_sites form fun leaf s hLeaf => isGated_bind _ hLeaf
  · intro form' options' doc' h' leaf bind leaf' bind' hMem hMem' hSame
    rw [tail_entries_of_mem_zip h hMem, tail_entries_of_mem_zip h' hMem', hSame.gateEntries_eq]

/-- A question under two arms with a group between them, a question in the arm beside, and one
behind the branch that is asked like it. -/
def gatedForm : Form where
  title := "Gated"
  controls := [
    .branch none [
      ⟨["a = 1", " "], [
        .group "g" none [
          .branch none [
            ⟨["b < 2"], [
              .question { Field.named "q" with
                required := true, relevance := some "c", constraint := some ". != 5" }
                (.numeric .integer (some ⟨0, 10⟩))]⟩]]]⟩,
      ⟨[], [.question (Field.named "r") .date]⟩],
    .question (Field.named "s") .date]

theorem gatedForm_gates_leaves :
    let doc := gatedForm.documentWith escape .default
    gatedForm.compile Options.default = .ok doc ∧
      gatedForm.leaves.map Leaf.relevanceClauses = [["a = 1", "b &lt; 2", "c"], [], []] ∧
      gatedForm.leaves.map Leaf.constraintClauses =
        [[". &gt; 0 and . &lt; 10", ". != 5"], [], []] ∧
      List.Forall₂ Document.IsGated gatedForm.leaves (Document.binds doc) ∧
      ∃ bind bind',
        (⟨[], [], Field.named "r", .date⟩, bind) ∈ gatedForm.leaves.zip (Document.binds doc) ∧
        (⟨[], [], Field.named "s", .date⟩, bind') ∈ gatedForm.leaves.zip (Document.binds doc) ∧
        bind.attrs.entries.tail = bind'.attrs.entries.tail := by
  have hCompile : gatedForm.compile Options.default =
      .ok (gatedForm.documentWith escape .default) := rfl
  obtain ⟨hGated, hAlike⟩ := compile_gates_leaves hCompile
  let bindOf (name : String) : Node := (Field.named name).bind escape (.top "data") .date
  have hArm : (⟨[], [], Field.named "r", .date⟩, bindOf "r") ∈
      gatedForm.leaves.zip (Document.binds (gatedForm.documentWith escape .default)) :=
    List.mem_of_getElem? (i := 1) rfl
  have hBehind : (⟨[], [], Field.named "s", .date⟩, bindOf "s") ∈
      gatedForm.leaves.zip (Document.binds (gatedForm.documentWith escape .default)) :=
    List.mem_of_getElem? (i := 2) rfl
  refine ⟨hCompile, by decide +kernel, by decide +kernel, hGated, _, _, hArm, hBehind, ?_⟩
  exact hAlike hCompile _ _ _ _ hArm hBehind ⟨rfl, rfl, rfl, rfl, rfl, rfl⟩

end FormDesign
