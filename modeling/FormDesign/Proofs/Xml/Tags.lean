import FormDesign.Proofs.Xml.Elements
import FormDesign.Proofs.Xml.Escape
import FormDesign.Text.Blank
import FormDesign.Xml.Render

/-!
# Tags in a text

A reader of markup that knows nothing of the tree behind a text: it goes through the characters
one by one, and answers the tags that it comes across. On the text of a tree whose names, values
and texts can stand in markup, it finds the tags of the tree and no others, in order, each with
its own attributes. So nothing that stands in a value or in a text is taken for a tag, for the
end of a value or for an attribute.

## Main definitions

* `Node.IsMarkup`: an element whose name, attributes and text can stand in markup;
* `Node.tags`: the tags of a tree, in order;
* `tagsOf?`: the tags that the reader finds in a text.

## Main results

* `tagsOf?_render`: the reader finds the tags of a tree in its text.
-/

namespace FormDesign.Xml

/-- A name that can stand in a tag. -/
def IsMarkupName (name : String) : Prop :=
  name ≠ "" ∧ ∀ c ∈ name.toList, Text.isSpace c = false ∧ c ∉ ['<', '>', '&', '"', '/', '=']

instance (name : String) : Decidable (IsMarkupName name) :=
  @instDecidableAnd _ _ _ (List.decidableBAll _ name.toList)

/-- Attributes whose names and values can stand in a tag. -/
def Attributes.IsMarkup (attrs : Attributes) : Prop :=
  ∀ entry ∈ attrs.entries, IsMarkupName entry.1 ∧ IsValue entry.2

instance (attrs : Attributes) : Decidable attrs.IsMarkup :=
  inferInstanceAs (Decidable (∀ entry ∈ attrs.entries, _ ∧ _))

/-- An element whose own name, attributes and text can stand in markup. -/
structure Node.IsMarkup (node : Node) : Prop where
  name : IsMarkupName node.name
  attrs : node.attrs.IsMarkup
  text : ∀ value ∈ node.value?, IsText value

/-- A tree in which every element can stand in markup, given that those inside can. -/
theorem Node.isMarkup_parent {name : String} {attrs : Attributes} {children : List Node}
    (hName : IsMarkupName name) (hAttrs : attrs.IsMarkup)
    (hChildren : ∀ child ∈ children, ∀ n ∈ child.elements, n.IsMarkup) :
    ∀ n ∈ (parent name attrs children).elements, n.IsMarkup :=
  forall_elements_iff.2 ⟨⟨hName, hAttrs, fun _ hValue => nomatch hValue⟩, hChildren⟩

/-- A tag: the beginning of an element, its end, or an element without content. -/
inductive Tag
  | opening (name : String) (attrs : List (String × String))
  | closing (name : String)
  | single (name : String) (attrs : List (String × String))
  deriving DecidableEq

namespace Node

mutual

/-- The tags of a tree, in order. -/
def tags : Node → List Tag
  | empty name attrs => [.single name attrs.entries]
  | text name attrs _ => [.opening name attrs.entries, .closing name]
  | parent name attrs children => .opening name attrs.entries :: tagsAll children ++ [.closing name]

/-- The tags of trees, one tree after another. -/
def tagsAll : List Node → List Tag
  | [] => []
  | node :: nodes => tags node ++ tagsAll nodes

end

end Node

/-! ## The reader -/

/-- Where the reader stands. Names and values are collected character by character. -/
inductive Reading
  | outside
  /-- In the name of an opening tag. -/
  | opening (read : List Char)
  /-- In the name of a closing tag. -/
  | closing (read : List Char)
  /-- Behind the name of an element or the value of an attribute. -/
  | behind (element : String) (attrs : List (String × String))
  /-- In the name of an attribute. -/
  | key (element : String) (attrs : List (String × String)) (read : List Char)
  /-- Between the name of an attribute and its value. -/
  | equals (element : String) (attrs : List (String × String)) (name : String)
  /-- In the value of an attribute. -/
  | value (element : String) (attrs : List (String × String)) (name : String) (read : List Char)
  /-- Behind the slash of an element without content. -/
  | slash (element : String) (attrs : List (String × String))

namespace Reading

/-- What follows the name of an element or the value of an attribute. -/
def stepBehind (element : String) (attrs : List (String × String)) (c : Char) :
    Option (Reading × List Tag) :=
  if c = ' ' then some (key element attrs [], [])
  else if c = '>' then some (outside, [.opening element attrs])
  else if c = '/' then some (slash element attrs, [])
  else none

/-- Reads one character: where the reader stands then, and the tag that has come to its end. -/
def step : Reading → Char → Option (Reading × List Tag)
  | outside, c => if c = '<' then some (opening [], []) else some (outside, [])
  | opening read, c =>
    if read = [] ∧ c = '/' then some (closing [], [])
    else if c ∈ [' ', '>', '/'] then stepBehind (String.ofList read) [] c
    else some (opening (read ++ [c]), [])
  | closing read, c =>
    if c = '>' then some (outside, [.closing (String.ofList read)])
    else some (closing (read ++ [c]), [])
  | behind element attrs, c => stepBehind element attrs c
  | key element attrs read, c =>
    if c = '=' then some (equals element attrs (String.ofList read), [])
    else some (key element attrs (read ++ [c]), [])
  | equals element attrs name, c =>
    if c = '"' then some (value element attrs name [], []) else none
  | value element attrs name read, c =>
    if c = '"' then some (behind element (attrs ++ [(name, String.ofList read)]), [])
    else some (value element attrs name (read ++ [c]), [])
  | slash element attrs, c => if c = '>' then some (outside, [.single element attrs]) else none

/-- Reads characters to their end, which must not lie inside a tag. -/
def run : Reading → List Char → Option (List Tag)
  | outside, [] => some []
  | _, [] => none
  | state, c :: cs =>
    match state.step c with
    | some (next, tags) => (next.run cs).map (tags ++ ·)
    | none => none

/-- One step of a run. -/
theorem run_cons {state : Reading} (next : Reading) (tags : List Tag) {c : Char}
    (h : state.step c = some (next, tags)) (cs : List Char) :
    state.run (c :: cs) = (next.run cs).map (tags ++ ·) := by
  rw [run, h]

/-- A step at which no tag comes to its end. -/
theorem run_cons_nil {state : Reading} (next : Reading) {c : Char}
    (h : state.step c = some (next, [])) (cs : List Char) :
    state.run (c :: cs) = next.run cs := by
  rw [run_cons next [] h]
  simp

/-- Characters that the reader only collects. -/
theorem run_collect (state : List Char → Reading) {cs : List Char}
    (h : ∀ c ∈ cs, ∀ read, (state read).step c = some (state (read ++ [c]), []))
    (read rest : List Char) :
    (state read).run (cs ++ rest) = (state (read ++ cs)).run rest := by
  induction cs generalizing read with
  | nil => rw [List.nil_append, List.append_nil]
  | cons c cs ih =>
    rw [List.cons_append, run_cons_nil _ (h c (List.mem_cons_self ..) read),
      ih fun d hd => h d (List.mem_cons_of_mem _ hd)]
    simp

/-! ## Reading what is rendered -/

/-- The reader passes over a text. -/
theorem run_text {cs : List Char} (h : '<' ∉ cs) (rest : List Char) :
    outside.run (cs ++ rest) = outside.run rest := by
  refine run_collect (fun _ => outside) (fun c hc _ => ?_) [] rest
  have hc : c ≠ '<' := fun e => h (e ▸ hc)
  rw [step, if_neg hc]

variable {element : String} (attrs : List (String × String))

/-- The reader collects one attribute. -/
theorem run_attribute {name text : String} (hName : IsMarkupName name) (hText : IsValue text)
    (rest : List Char) :
    (behind element attrs).run
        (' ' :: (name.toList ++ '=' :: '"' :: (text.toList ++ '"' :: rest))) =
      (behind element (attrs ++ [(name, text)])).run rest := by
  have hKey : ∀ c ∈ name.toList, ∀ read, (key element attrs read).step c =
      some (key element attrs (read ++ [c]), []) := by
    intro c hc read
    have hEquals : c ≠ '=' := fun e => (hName.2 c hc).2 (by simp [e])
    rw [step, if_neg hEquals]
  have hValue : ∀ c ∈ text.toList, ∀ read, (value element attrs name read).step c =
      some (value element attrs name (read ++ [c]), []) := by
    intro c hc read
    have hQuote : c ≠ '"' := fun e => hText.2.1 (e ▸ hc)
    rw [step, if_neg hQuote]
  rw [run_cons_nil (key element attrs []) (by simp [step, stepBehind]),
    run_collect (key element attrs) hKey,
    run_cons_nil (equals element attrs name) (by simp [step]),
    run_cons_nil (value element attrs name []) (by simp [step]),
    run_collect (value element attrs name) hValue,
    run_cons_nil (behind element (attrs ++ [(name, text)])) (by simp [step])]

/-- The reader collects all attributes of an element. -/
theorem run_attributes {entries : List (String × String)}
    (h : ∀ entry ∈ entries, IsMarkupName entry.1 ∧ IsValue entry.2) (rest : List Char) :
    (behind element attrs).run
        ((String.join (entries.map fun e => " " ++ e.1 ++ "=\"" ++ e.2 ++ "\"")).toList ++ rest) =
      (behind element (attrs ++ entries)).run rest := by
  induction entries generalizing attrs with
  | nil => simp
  | cons entry entries ih =>
    obtain ⟨hName, hValue⟩ := h entry (List.mem_cons_self ..)
    have hRest := ih (attrs ++ [entry]) fun e he => h e (List.mem_cons_of_mem _ he)
    rw [List.append_assoc, List.singleton_append] at hRest
    rw [← hRest, ← run_attribute attrs hName hValue]
    simp [String.toList_append]

/-- The first character behind the name of an element ends the name. -/
theorem exists_behind_name (attrs : Attributes) {c : Char} (hc : c ∈ ['>', '/'])
    (rest : List Char) :
    ∃ d ∈ [' ', '>', '/'], ∃ cs, attrs.render.toList ++ c :: rest = d :: cs := by
  unfold Attributes.render
  cases attrs.entries with
  | nil => exact ⟨c, List.mem_cons_of_mem _ hc, rest, by simp⟩
  | cons entry entries => exact ⟨' ', List.mem_cons_self .., _, by simp [String.toList_append]; rfl⟩

/-- The reader collects the name and the attributes of a tag. -/
theorem run_tagStart {name : String} {attrs : Attributes} (hName : IsMarkupName name)
    (hAttrs : attrs.IsMarkup) {c : Char} (hc : c ∈ ['>', '/']) (rest : List Char) :
    outside.run ((Node.tagStart name attrs).toList ++ c :: rest) =
      (behind name attrs.entries).run (c :: rest) := by
  have hOpening : ∀ d ∈ name.toList, ∀ read, (opening read).step d =
      some (opening (read ++ [d]), []) := by
    intro d hd read
    obtain ⟨hSpace, hOther⟩ := hName.2 d hd
    have hBlank : d ≠ ' ' := by
      rintro rfl
      exact absurd hSpace (by decide)
    simp only [List.mem_cons, List.not_mem_nil, or_false, not_or] at hOther
    simp [step, hOther, hBlank]
  have hNonempty : name.toList ≠ [] := by
    intro hNil
    exact hName.1 (String.toList_injective hNil)
  have hBehind : ∀ d ∈ [' ', '>', '/'], ∀ cs, (opening name.toList).run (d :: cs) =
      (behind name []).run (d :: cs) := by
    intro d hd cs
    have hStep : (opening name.toList).step d = (behind name []).step d := by
      rw [step, if_neg fun e => hNonempty e.1, if_pos hd, String.ofList_toList, step]
    rw [run, run, hStep]
  -- the name ends at the first blank, slash or angle bracket, where the attributes are read
  obtain ⟨d, hd, cs, hRest⟩ := exists_behind_name attrs hc rest
  calc outside.run ((Node.tagStart name attrs).toList ++ c :: rest)
      = outside.run ('<' :: (name.toList ++ d :: cs)) := by
        rw [← hRest]
        simp [Node.tagStart, String.toList_append]
    _ = (opening name.toList).run (d :: cs) := by
        rw [run_cons_nil (opening []) rfl, run_collect opening hOpening, List.nil_append]
    _ = (behind name []).run (attrs.render.toList ++ c :: rest) := by
        rw [hBehind d hd, hRest]
    _ = (behind name attrs.entries).run (c :: rest) :=
        run_attributes [] hAttrs (c :: rest)

/-- The reader finds an opening tag with its attributes. -/
theorem run_opening {name : String} {attrs : Attributes} (hName : IsMarkupName name)
    (hAttrs : attrs.IsMarkup) (rest : List Char) :
    outside.run ((Node.tagStart name attrs).toList ++ '>' :: rest) =
      (outside.run rest).map ([.opening name attrs.entries] ++ ·) := by
  rw [run_tagStart hName hAttrs (by simp), run_cons outside [.opening name attrs.entries] rfl]

/-- The reader finds an element without content, with its attributes. -/
theorem run_single {name : String} {attrs : Attributes} (hName : IsMarkupName name)
    (hAttrs : attrs.IsMarkup) (rest : List Char) :
    outside.run ((Node.tagStart name attrs).toList ++ '/' :: '>' :: rest) =
      (outside.run rest).map ([.single name attrs.entries] ++ ·) := by
  rw [run_tagStart hName hAttrs (by simp),
    run_cons_nil (slash name attrs.entries) rfl, run_cons outside [.single name attrs.entries] rfl]

/-- The reader finds a closing tag. -/
theorem run_closing {name : String} (h : IsMarkupName name) (rest : List Char) :
    outside.run ('<' :: '/' :: (name.toList ++ '>' :: rest)) =
      (outside.run rest).map ([.closing name] ++ ·) := by
  have hClosing : ∀ c ∈ name.toList, ∀ read, (closing read).step c =
      some (closing (read ++ [c]), []) := by
    intro c hc read
    have hAngle : c ≠ '>' := fun e => (h.2 c hc).2 (by simp [e])
    rw [step, if_neg hAngle]
  rw [run_cons_nil (opening []) rfl, run_cons_nil (closing []) rfl,
    run_collect closing hClosing, List.nil_append,
    run_cons outside [.closing name] (by simp [step])]

/-- The blanks at the beginning of a line hold no tag. -/
theorem run_indent (depth : Nat) (rest : List Char) :
    outside.run ((indent depth).toList ++ rest) = outside.run rest :=
  run_text (by simp [indent]) rest

theorem run_newline (rest : List Char) : outside.run ('\n' :: rest) = outside.run rest :=
  run_cons_nil outside rfl rest

end Reading

/-- The tags that the reader finds in a text, if the text does not end inside a tag. -/
def tagsOf? (text : String) : Option (List Tag) :=
  Reading.outside.run text.toList

namespace Node

/-- If the reader finds the tags of every tree in its lines, it finds those of all in order. -/
theorem run_renderAll {nodes : List Node} {depth : Nat}
    (h : ∀ node ∈ nodes, ∀ rest, Reading.outside.run ((node.renderAt depth).toList ++ rest) =
      (Reading.outside.run rest).map (node.tags ++ ·)) (rest : List Char) :
    Reading.outside.run ((renderAll depth nodes).toList ++ rest) =
      (Reading.outside.run rest).map (tagsAll nodes ++ ·) := by
  induction nodes with
  | nil => simp [renderAll, tagsAll]
  | cons node nodes ih =>
    rw [renderAll, String.toList_append, List.append_assoc, h node (List.mem_cons_self ..),
      ih fun n hn => h n (List.mem_cons_of_mem _ hn), Option.map_map, tagsAll]
    simp [Function.comp_def]

/-- The reader finds the tags of a tree in its lines, whatever follows them. -/
theorem run_renderAt (node : Node) (h : ∀ n ∈ node.elements, n.IsMarkup) (depth : Nat)
    (rest : List Char) :
    Reading.outside.run ((node.renderAt depth).toList ++ rest) =
      (Reading.outside.run rest).map (node.tags ++ ·) := by
  -- what is rendered around a name, as characters that the reader takes one by one
  have hSingle : "/>\n".toList = ['/', '>', '\n'] := rfl
  have hEnd : ">\n".toList = ['>', '\n'] := rfl
  have hAngle : ">".toList = ['>'] := rfl
  have hClose : "</".toList = ['<', '/'] := rfl
  induction node using inductionOn generalizing depth rest with
  | empty name attrs =>
    have hOwn : (empty name attrs).IsMarkup := h _ (by simp)
    have hName : IsMarkupName name := hOwn.name
    have hAttrs : attrs.IsMarkup := hOwn.attrs
    simp only [renderAt, String.toList_append, List.append_assoc, hSingle, List.cons_append,
      List.nil_append]
    rw [Reading.run_indent, Reading.run_single hName hAttrs, Reading.run_newline]
    rfl
  | text name attrs value =>
    have hOwn : (text name attrs value).IsMarkup := h _ (by simp)
    have hName : IsMarkupName name := hOwn.name
    have hAttrs : attrs.IsMarkup := hOwn.attrs
    have hText : '<' ∉ value.toList := (hOwn.text value rfl).1
    simp only [renderAt, String.toList_append, List.append_assoc, hEnd, hAngle, hClose,
      List.cons_append, List.nil_append]
    rw [Reading.run_indent, Reading.run_opening hName hAttrs, Reading.run_text hText,
      Reading.run_closing hName, Reading.run_newline, Option.map_map]
    rfl
  | parent name attrs children ih =>
    have hOwn : (parent name attrs children).IsMarkup := h _ (by simp)
    have hName : IsMarkupName name := hOwn.name
    have hAttrs : attrs.IsMarkup := hOwn.attrs
    -- each child stands in lines of its own, one step deeper
    have hChildren : ∀ child ∈ children, ∀ rest,
        Reading.outside.run ((child.renderAt (depth + 1)).toList ++ rest) =
          (Reading.outside.run rest).map (child.tags ++ ·) := by
      intro child hChild rest
      exact ih child hChild (fun n hn => h n (mem_elements_of_mem_children hChild hn)) _ rest
    simp only [renderAt, String.toList_append, List.append_assoc, hEnd, hClose, List.cons_append,
      List.nil_append]
    rw [Reading.run_indent, Reading.run_opening hName hAttrs, Reading.run_newline,
      run_renderAll hChildren, Reading.run_indent, Reading.run_closing hName,
      Reading.run_newline, Option.map_map, Option.map_map, tags]
    simp [Function.comp_def]

/-- In the text of a tree the reader finds the tags of the tree and no others. -/
theorem tagsOf?_render {node : Node} (h : ∀ n ∈ node.elements, n.IsMarkup) :
    tagsOf? node.render = some node.tags := by
  have hRun := node.run_renderAt h 0 []
  rw [List.append_nil] at hRun
  rw [tagsOf?, render, hRun, Reading.run, Option.map_some, List.append_nil]

end Node

end FormDesign.Xml
