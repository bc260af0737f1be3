import FormDesign.Command
import FormDesign.Proofs.Document.Parts
import FormDesign.Proofs.Form.RoundTrip
import FormDesign.Proofs.Xml.Codec

/-!
# Documents that are read again

A document is written as JSON with two brackets for each element on the way down, so that the
groups of a form add up: past a number of groups inside one another the document opens more
brackets than a reader follows, although the form itself could be read.

## Main definitions

* `Form.nesting`: how many groups of a form stand inside one another.

## Main results

* `nesting_outline`: branches add nothing to how groups stand inside one another;
* `depth_documentWith_le_iff`: how many brackets the document of a form opens inside one another;
* `compile_readable`: which documents are read again.
-/

namespace FormDesign

open Xml (Node)

/-! ## Groups inside one another -/

namespace Control

mutual

/-- How many groups of a control stand inside one another. -/
def nesting : Control → Nat
  | group _ _ children => nestingAll children + 1
  | branch _ arms => nestingArms arms
  | question _ _ => 0

/-- How many groups of controls stand inside one another. -/
def nestingAll : List Control → Nat
  | [] => 0
  | control :: controls => max (nesting control) (nestingAll controls)

/-- How many groups of the controls of arms stand inside one another. -/
def nestingArms : List (Arm Control) → Nat
  | [] => 0
  | ⟨_, children⟩ :: arms => max (nestingAll children) (nestingArms arms)

end

end Control

/-- How many groups of a form stand inside one another. -/
def Form.nesting (form : Form) : Nat :=
  Control.nestingAll form.controls

/-- How many groups of an outline stand inside one another. What stands behind a group is not
inside. -/
def Outline.nesting : Outline → Nat
  | done => 0
  | question _ _ _ rest => rest.nesting
  | group _ _ inside rest => max (inside.nesting + 1) rest.nesting

mutual

theorem nesting_control (conditions : List String) (rest : Outline) : ∀ control : Control,
    (control.outline conditions rest).nesting = max control.nesting rest.nesting
  | .group name label children => by
    rw [Control.outline, Outline.nesting, Control.nesting, nesting_controls, Outline.nesting,
      Nat.max_zero]
  | .branch _ arms => by
    rw [Control.outline, Control.nesting]
    exact nesting_arms conditions rest arms
  | .question field input => by
    rw [Control.outline, Outline.nesting, Control.nesting, Nat.zero_max]

theorem nesting_controls (conditions : List String) (rest : Outline) :
    ∀ controls : List Control, (Control.outlines conditions rest controls).nesting =
      max (Control.nestingAll controls) rest.nesting
  | [] => by rw [Control.outlines, Control.nestingAll, Nat.zero_max]
  | control :: controls => by
    rw [Control.outlines, Control.nestingAll, nesting_control, nesting_controls, Nat.max_assoc]

theorem nesting_arms (conditions : List String) (rest : Outline) :
    ∀ arms : List (Arm Control), (Control.armOutlines conditions rest arms).nesting =
      max (Control.nestingArms arms) rest.nesting
  | [] => by rw [Control.armOutlines, Control.nestingArms, Nat.zero_max]
  | ⟨_, children⟩ :: arms => by
    rw [Control.armOutlines, Control.nestingArms, nesting_controls, nesting_arms, Nat.max_assoc]

end

/-- Branches add nothing to how groups stand inside one another. -/
theorem nesting_outline (form : Form) : form.outline.nesting = form.nesting := by
  rw [Form.outline, nesting_controls, Outline.nesting, Nat.max_zero, Form.nesting]

/-! ## Brackets of elements -/

namespace Xml.Node

/-- An element nests two brackets deeper than its children, which is room for its attributes. -/
theorem depth_toValue_le_add_two_iff {node : Node} {room : Nat} :
    node.toValue.depth ≤ room + 2 ↔ ∀ child ∈ node.children, child.toValue.depth ≤ room := by
  rw [depth_toValue_le_succ_iff, and_iff_right (.inr (Nat.succ_pos room))]
  -- one bracket is that of the element, and one that of its list of children
  cases node with
  | empty name attrs =>
    exact iff_of_true (List.forall_mem_nil _) (List.forall_mem_nil _)
  | text name attrs value =>
    exact iff_of_true (List.forall_mem_singleton.2 (Nat.zero_le _)) (List.forall_mem_nil _)
  | parent name attrs children =>
    rw [content, List.forall_mem_singleton, Json.Value.depth_array_le_iff, List.forall_mem_map]
    rfl

/-- An element without children opens two brackets at most. -/
theorem depth_toValue_le_two {node : Node} (h : node.children = []) : node.toValue.depth ≤ 2 := by
  rw [← Nat.zero_add 2, depth_toValue_le_add_two_iff, h]
  exact List.forall_mem_nil _

/-- An element without attributes opens one bracket when it is empty. -/
theorem depth_toValue_empty (name : String) : (empty name .empty).toValue.depth = 1 := by
  rw [toValue]
  rfl

/-- An element without attributes opens one bracket when it holds a text. -/
theorem depth_toValue_text (name value : String) : (text name .empty value).toValue.depth = 1 := by
  rw [toValue]
  rfl

end Xml.Node

open Xml.Node (depth_toValue_le_add_two_iff depth_toValue_le_two depth_toValue_empty
  depth_toValue_text)

/-! ## Brackets of fragments -/

section

variable (quote : String → String)

theorem Caption.depth_node_le (c : Caption) : (c.node quote).toValue.depth ≤ 2 :=
  depth_toValue_le_two (Node.children_attr ..)

namespace Field

theorem depth_bind_le (scope : Scope) (field : Field) (input : Input) :
    (field.bind quote scope input).toValue.depth ≤ 2 := by
  -- a bind has attributes only
  refine depth_toValue_le_two ?_
  simp only [bind, Node.children_attr?, Node.children_attr]
  rfl

theorem depth_bodyNode_le (refs : BodyRefs) (scope : Scope) (field : Field) (input : Input) :
    (field.bodyNode quote refs scope input).toValue.depth ≤ 6 := by
  refine depth_toValue_le_add_two_iff.2 ?_
  rw [children_bodyNode]
  intro child hChild
  rcases List.mem_append.1 hChild with hCaption | hChoice
  · obtain ⟨c, -, rfl⟩ := List.mem_map.1 hCaption
    exact Nat.le_trans (c.depth_node_le quote) (by decide)
  · obtain ⟨⟨choice, index⟩, -, rfl⟩ := List.mem_map.1 hChoice
    -- the element of a choice holds its caption and its value
    refine depth_toValue_le_add_two_iff.2 (List.forall_mem_cons.2 ⟨?_, ?_⟩)
    · exact Caption.depth_node_le quote _
    · rw [List.forall_mem_singleton, depth_toValue_text]
      decide

end Field

namespace Outline

variable (refs : BodyRefs)

/-- The elements of the instance nest as the groups do. -/
theorem depth_inst_le_iff (scope : Scope) (o : Outline) (n : Nat) :
    (∀ node ∈ (o.fragment quote refs scope).inst, node.toValue.depth ≤ 2 * n + 1) ↔
      o.nesting ≤ n := by
  induction o generalizing scope n with
  | done => exact iff_of_true (List.forall_mem_nil _) (Nat.zero_le n)
  | question conditions field input rest ih =>
    have hQuestion : (Node.empty field.name .empty).toValue.depth ≤ 2 * n + 1 := by
      rw [depth_toValue_empty]
      omega
    rw [fragment, Fragment.inst_append, List.forall_mem_append, ih, nesting]
    exact and_iff_right (List.forall_mem_singleton.2 hQuestion)
  | group name label inside rest ihInside ihRest =>
    have hGroup : (Node.parent name .empty
        (inside.fragment quote refs (scope.group name)).inst).toValue.depth ≤ 2 * n + 1 ↔
          inside.nesting + 1 ≤ n := by
      cases n with
      | zero =>
        -- an element with a list of children opens two brackets
        refine iff_of_false (fun hDepth => ?_) (Nat.not_succ_le_zero _)
        rw [Node.toValue_eq_object, Json.Value.depth_object_le_iff] at hDepth
        exact Json.Value.not_depth_array_le_zero _
          (hDepth ("children", _) (List.mem_append_right _ (List.mem_singleton_self _)))
      | succ n =>
        -- a group takes two brackets of what is allowed
        rw [Nat.add_le_add_iff_right, ← ihInside (scope.group name) n]
        exact depth_toValue_le_add_two_iff
    rw [fragment, Fragment.inst_append, List.forall_mem_append, ihRest, nesting, Nat.max_le,
      ← hGroup]
    exact and_congr_left' List.forall_mem_singleton

/-- The elements of the body nest as the groups do, and captions and choices go deeper. -/
theorem depth_body_le (scope : Scope) {o : Outline} {n : Nat} (h : o.nesting ≤ n) :
    ∀ node ∈ (o.fragment quote refs scope).body, node.toValue.depth ≤ 2 * n + 6 := by
  induction o generalizing scope n with
  | done => exact List.forall_mem_nil _
  | question conditions field input rest ih =>
    rw [fragment, Fragment.body_append, List.forall_mem_append]
    refine ⟨List.forall_mem_singleton.2 ?_, ih scope h⟩
    exact Nat.le_trans (field.depth_bodyNode_le quote refs _ input) (by omega)
  | group name label inside rest ihInside ihRest =>
    rw [nesting, Nat.max_le] at h
    obtain ⟨m, rfl⟩ : ∃ m, n = m + 1 := ⟨n - 1, by omega⟩
    rw [fragment, Fragment.body_append, List.forall_mem_append]
    refine ⟨List.forall_mem_singleton.2 ?_, ihRest scope h.2⟩
    refine depth_toValue_le_add_two_iff.2 (List.forall_mem_append.2 ⟨?_, ?_⟩)
    -- the label of the group, and what is inside it
    · intro node hNode
      obtain ⟨c, -, rfl⟩ := List.mem_map.1 hNode
      exact Nat.le_trans (c.depth_node_le quote) (by omega)
    · exact ihInside (scope.group name) (Nat.le_of_succ_le_succ h.1)

theorem depth_binds_le (scope : Scope) (o : Outline) :
    ∀ node ∈ (o.fragment quote refs scope).binds, node.toValue.depth ≤ 2 := by
  rw [binds_eq_map_sites, List.forall_mem_map]
  exact fun s _ => s.field.depth_bind_le quote _ s.input

end Outline

/-- The translations of a form open the same brackets whatever is translated. -/
theorem Fragment.depth_itext_le (f : Fragment) (options : Options) :
    (f.translations quote options).itext.toValue.depth ≤ 7 := by
  rw [itext_translations]
  -- translations hold languages, these hold entries, and an entry holds its text
  refine depth_toValue_le_add_two_iff.2 fun block hBlock => ?_
  obtain ⟨language, -, rfl⟩ := List.mem_map.1 hBlock
  refine depth_toValue_le_add_two_iff.2 ?_
  rw [Translations.block, Translations.translation, Node.children_attr]
  intro entry hEntry
  obtain ⟨e, -, rfl⟩ := List.mem_map.1 hEntry
  refine depth_toValue_le_add_two_iff.2 ?_
  rw [Translations.entry, Node.children_attr]
  exact List.forall_mem_singleton.2 (Nat.le_of_eq (depth_toValue_text ..))

/-! ## Brackets of documents -/

/-- A document nests as its instance and its body do: binds and translations are never deeper than
an instance with a group. -/
theorem Fragment.depth_document_le_iff (f : Fragment) (title : String) (options : Options) {n : Nat}
    (hn : 1 ≤ n) (hBinds : ∀ node ∈ f.binds, node.toValue.depth ≤ 2) :
    (f.document quote title options).toValue.depth ≤ 2 * n + 11 ↔
      (∀ node ∈ f.inst, node.toValue.depth ≤ 2 * n + 1) ∧
        ∀ node ∈ f.body, node.toValue.depth ≤ 2 * n + 7 := by
  -- outwards from the elements of the instance, each element around them takes two brackets
  have hRoot : (f.instanceRoot quote options).toValue.depth ≤ 2 * n + 3 ↔
      ∀ node ∈ f.inst, node.toValue.depth ≤ 2 * n + 1 := by
    rw [depth_toValue_le_add_two_iff, children_instanceRoot]
  have hInstance : (Node.parent "instance" .empty
      [f.instanceRoot quote options]).toValue.depth ≤ 2 * n + 5 ↔
        ∀ node ∈ f.inst, node.toValue.depth ≤ 2 * n + 1 := by
    rw [depth_toValue_le_add_two_iff, ← hRoot]
    exact List.forall_mem_singleton
  have hModel : (f.model quote options).toValue.depth ≤ 2 * n + 7 ↔
      ∀ node ∈ f.inst, node.toValue.depth ≤ 2 * n + 1 := by
    have hOthers : ∀ node ∈ (f.translations quote options).itext :: f.binds,
        node.toValue.depth ≤ 2 * n + 5 :=
      List.forall_mem_cons.2 ⟨Nat.le_trans (f.depth_itext_le quote options) (by omega),
        fun node hNode => Nat.le_trans (hBinds node hNode) (by omega)⟩
    rw [depth_toValue_le_add_two_iff, ← hInstance]
    exact List.forall_mem_cons.trans (and_iff_left hOthers)
  have hHead : (Node.parent "h:head" .empty [.text "h:title" .empty (quote title),
      f.model quote options]).toValue.depth ≤ 2 * n + 9 ↔
        ∀ node ∈ f.inst, node.toValue.depth ≤ 2 * n + 1 := by
    have hTitle : (Node.text "h:title" .empty (quote title)).toValue.depth ≤ 2 * n + 7 := by
      rw [depth_toValue_text]
      omega
    rw [depth_toValue_le_add_two_iff, ← hModel, Node.children, List.forall_mem_cons,
      List.forall_mem_singleton]
    exact and_iff_right hTitle
  have hBody : (Node.parent "h:body" .empty f.body).toValue.depth ≤ 2 * n + 9 ↔
      ∀ node ∈ f.body, node.toValue.depth ≤ 2 * n + 7 := depth_toValue_le_add_two_iff
  rw [depth_toValue_le_add_two_iff, ← hHead, ← hBody]
  exact List.forall_mem_cons.trans (and_congr_right' List.forall_mem_singleton)

/-- The document of a form opens brackets inside one another: two for each group around another, and
eleven for what is around the groups and in them. -/
theorem depth_documentWith_le_iff (form : Form) (options : Options) {n : Nat} (hn : 1 ≤ n) :
    (form.documentWith quote options).toValue.depth ≤ 2 * n + 11 ↔ form.nesting ≤ n := by
  rw [Form.documentWith, Fragment.depth_document_le_iff quote _ _ _ hn (by
    rw [fragment_outline]
    exact Outline.depth_binds_le quote _ _ _), fragment_outline, Outline.depth_inst_le_iff,
    nesting_outline]
  -- the body starts less deep than the instance, which makes up for captions and choices
  refine and_iff_left_of_imp fun hNesting node hNode => ?_
  have hOutline : form.outline.nesting ≤ n := nesting_outline form ▸ hNesting
  exact Nat.le_succ_of_le (Outline.depth_body_le quote _ _ hOutline node hNode)

end

/-! ## Reading documents -/

namespace Xml.Node

/-- An element is read again from any layout, also with line breaks behind it. -/
theorem ofJson_print_append (layout : Json.Layout) (node : Node) {blanks : List Char}
    (hBlanks : ∀ c ∈ blanks, Json.isSpacing c = true) :
    ofJson (node.toValue.print layout ++ String.ofList blanks) =
      if node.toValue.depth ≤ Json.maxRoom then .ok node else .error (.malformed .tooDeep) := by
  rw [ofJson, Json.readText_print_append _ layout _ hBlanks, read_toValue]

end Xml.Node

/-- A form with at most 58 groups inside one another is compiled to a document that is read again
from its JSON, whether written without blanks, indented or as a build prints it, so that it still
renders as the text that the form is compiled to. With more groups inside one another the JSON is
refused for its depth. -/
theorem compile_readable {form : Form} {options : Options} {doc : Node}
    (h : form.compile options = .ok doc) :
    (form.nesting ≤ 58 →
      Node.ofJson doc.toValue.compact = .ok doc ∧ Node.ofJson doc.toValue.pretty = .ok doc ∧
        Node.ofJson (Command.Format.json.text doc) = .ok doc ∧
        form.compileToText options = .ok doc.render) ∧
    (58 < form.nesting →
      Node.ofJson doc.toValue.compact = .error (.malformed .tooDeep) ∧
        Node.ofJson doc.toValue.pretty = .error (.malformed .tooDeep) ∧
        Node.ofJson (Command.Format.json.text doc) = .error (.malformed .tooDeep)) := by
  have hText : form.compileToText options = .ok doc.render := by
    rw [Form.compileToText, h]
    rfl
  obtain ⟨-, -, rfl⟩ := compile_eq_ok_iff.1 h
  have hDepth : (form.documentWith Xml.escape options).toValue.depth ≤ Json.maxRoom ↔
      form.nesting ≤ 58 :=
    depth_documentWith_le_iff (n := 58) Xml.escape form options (by decide)
  -- of the document only its depth counts from here on
  generalize form.documentWith Xml.escape options = doc at h hText hDepth
  have hCompact := Node.ofJson_print .compact doc
  have hPretty := Node.ofJson_print .indented doc
  -- a build ends the text with a line break
  have hBreak : ∀ c ∈ ['\n'], Json.isSpacing c = true := List.forall_mem_singleton.2 rfl
  have hOutput := Node.ofJson_print_append .indented doc hBreak
  refine ⟨fun hNesting => ?_, fun hNesting => ?_⟩
  · rw [if_pos (hDepth.2 hNesting)] at hCompact hPretty hOutput
    exact ⟨hCompact, hPretty, hOutput, hText⟩
  · rw [if_neg (mt hDepth.1 (Nat.not_le.2 hNesting))] at hCompact hPretty hOutput
    exact ⟨hCompact, hPretty, hOutput⟩

/-! ## Forms of groups inside one another -/

/-- Groups inside one another, with nothing else in them. -/
def Control.nested : Nat → List Control
  | 0 => []
  | n + 1 => [.group "g" none (nested n)]

/-- A form of groups inside one another. -/
def Form.nested (n : Nat) : Form where
  title := "Nested"
  controls := Control.nested n

theorem Form.nesting_nested (n : Nat) : (Form.nested n).nesting = n := by
  change Control.nestingAll (Control.nested n) = n
  induction n with
  | zero => rfl
  | succ n ih =>
    rw [Control.nested, Control.nestingAll, Control.nesting, ih, Control.nestingAll, Nat.max_zero]

theorem Form.compile_nested (n : Nat) : (Form.nested n).compile .default =
    .ok ((Form.nested n).documentWith Xml.escape .default) := by
  have hName : ∀ path, checkName path [] .group "g" = .ok () := fun path => by
    have hBlank : Text.isBlank "g" = false := by decide +kernel
    have hIsName : Text.isName "g" = true := by decide +kernel
    rw [checkName, hBlank, hIsName]
    rfl
  have hCheck : ∀ path, ∃ taken, Control.checkAll path [] (Control.nested n) = .ok taken := by
    induction n with
    | zero => exact fun _ => ⟨[], rfl⟩
    | succ n ih =>
      intro path
      have hScope : ∀ name : String, ∃ taken,
          Control.checkAll s!"{path}/{name}" [] (Control.nested n) = .ok taken := fun _ => ih _
      obtain ⟨taken, hInside⟩ := hScope "g"
      refine ⟨["g"], ?_⟩
      rw [Control.nested, Control.checkAll, Control.check, hName, ok_bind, hInside]
      rfl
  obtain ⟨taken, hControls⟩ := hCheck ""
  have hForm : (Form.nested n).check = .ok () := by
    rw [Form.check]
    change (Control.checkAll "" [] (Control.nested n) >>= fun _ => .ok ()) = .ok ()
    rw [hControls]
    rfl
  have hOptions : Options.default.check = .ok () := by decide +kernel
  exact compile_eq_ok_iff.2 ⟨hOptions, check_eq_ok_iff.1 hForm, rfl⟩

/-- A form of groups is read again from its text where groups may be that deep. -/
theorem Form.ofJson_nested {n : Nat} (h : n ≤ 62) :
    Form.ofJson (Form.nested n).toValue.compact = .ok (Form.nested n) := by
  have hWithin : ∀ c ∈ Control.withinAll (Control.nested n), c.IsNormal ∧ c.bounds? = none := by
    clear h
    induction n with
    | zero => exact List.forall_mem_nil _
    | succ n ih =>
      rw [Control.nested, Control.withinAll, Control.within, Control.withinAll, List.append_nil]
      have hLabel : ∀ t ∈ (none : Option LocalizedText), t.SaysSomething :=
        fun t ht => absurd ht (Option.not_mem_none t)
      exact List.forall_mem_cons.2 ⟨⟨hLabel, rfl⟩, ih⟩
  have hItems : Json.Value.depthItems (Control.toValues (Control.nested n)) = 2 * n := by
    clear h hWithin
    induction n with
    | zero => rfl
    | succ n ih =>
      rw [Control.nested, Control.toValues, Control.toValue]
      simp only [Control.toValues, Control.tagMember, memberOf, Option.map_none, List.cons_append,
        List.nil_append, Json.Value.depthItems, Json.Value.depth, Json.Value.depthMembers, ih]
      omega
  refine Form.ofJson_compact (fun c hc => (hWithin c hc).1) (fun c hc b hb => ?_) ?_
  · rw [(hWithin c hc).2] at hb
    exact absurd hb (Option.not_mem_none b)
  · simp only [Form.toValue, Form.nested, Json.Value.depth, Json.Value.depthMembers, hItems]
    change _ ≤ 127
    omega

theorem compile_readable_nested :
    (Form.nested 58).compile .default = .ok ((Form.nested 58).documentWith Xml.escape .default) ∧
      Node.ofJson (Command.Format.json.text ((Form.nested 58).documentWith Xml.escape .default)) =
        .ok ((Form.nested 58).documentWith Xml.escape .default) ∧
      Node.ofJson (Command.Format.json.text ((Form.nested 60).documentWith Xml.escape .default)) =
        .error (.malformed .tooDeep) := by
  have hFits : (Form.nested 58).nesting ≤ 58 := Nat.le_of_eq (Form.nesting_nested 58)
  have hPast : 58 < (Form.nested 60).nesting := by
    rw [Form.nesting_nested]
    decide
  obtain ⟨-, -, hRead, -⟩ := (compile_readable (Form.compile_nested 58)).1 hFits
  obtain ⟨-, -, hRefused⟩ := (compile_readable (Form.compile_nested 60)).2 hPast
  exact ⟨Form.compile_nested 58, hRead, hRefused⟩

/-- A form of 59 groups inside one another is read and compiled, but its document is not read
again. -/
theorem nested_not_readable :
    Form.ofJson (Form.nested 59).toValue.compact = .ok (Form.nested 59) ∧
      (Form.nested 59).compile .default =
        .ok ((Form.nested 59).documentWith Xml.escape .default) ∧
      Node.ofJson ((Form.nested 59).documentWith Xml.escape .default).toValue.compact =
        .error (.malformed .tooDeep) := by
  have hDepth : ¬ ((Form.nested 59).documentWith Xml.escape .default).toValue.depth ≤
      Json.maxRoom := by
    rw [Json.maxRoom, depth_documentWith_le_iff (n := 58) Xml.escape _ _ (by decide),
      Form.nesting_nested]
    decide
  exact ⟨Form.ofJson_nested (by decide), Form.compile_nested 59,
    (Node.ofJson_print .compact _).trans (if_neg hDepth)⟩

end FormDesign
