import FormDesign.Proofs.Json.Record
import FormDesign.Proofs.Json.Text
import FormDesign.Proofs.Json.Whole
import FormDesign.Proofs.Xml.Elements
import FormDesign.Xml.Codec

/-!
# Elements that are written and read

An element that is written as JSON is read again as the same element, unless its text opens more
brackets inside one another than a reader follows. What has been read never does: it is written with
no more brackets than it was read from.

## Main definitions

* `Node.content`: the members that an element adds to its name and its attributes;
* `ReadBack`: a value is read as what it is written from, unless it nests too deeply.

## Main results

* `Attributes.ofList_entries`: attributes that are set again in their order;
* `Node.read_toValue`: an element that is written is read again, or nests too deeply;
* `Node.depth_toValue_le_of_read`: an element that has been read does not nest too deeply;
* `Node.codec_lossless`: both for texts.
-/

namespace FormDesign.Xml

open Json (Value Tree Fault Record maxRoom)

namespace Attributes

/-- Entries with new keys are set behind the others, in their order. -/
theorem entries_foldl_set {pairs : List (String × String)} {attrs : Attributes}
    (h : ((attrs.entries ++ pairs).map Prod.fst).Nodup) :
    (pairs.foldl (fun attrs pair => attrs.set pair.1 pair.2) attrs).entries =
      attrs.entries ++ pairs := by
  induction pairs generalizing attrs with
  | nil => exact (List.append_nil _).symm
  | cons pair pairs ih =>
    have hNew : pair.1 ∉ attrs.entries.map Prod.fst := by
      rw [List.map_append, List.map_cons, List.nodup_append] at h
      exact fun hMem => h.2.2 _ hMem _ (List.mem_cons_self ..) rfl
    have hSet : (attrs.set pair.1 pair.2).entries = attrs.entries ++ [pair] :=
      setEntry_of_not_mem hNew pair.2
    have hRest : attrs.entries ++ pair :: pairs = (attrs.set pair.1 pair.2).entries ++ pairs := by
      rw [hSet, List.append_assoc, List.singleton_append]
    rw [hRest] at h ⊢
    exact ih h

/-- Attributes that are set again in their order are the same. -/
theorem ofList_entries (attrs : Attributes) : ofList attrs.entries = attrs :=
  eq_of_entries_eq (entries_foldl_set attrs.nodup)

theorem depth_toValue_le_iff {attrs : Attributes} {room : Nat} :
    attrs.toValue.depth ≤ room ↔ 0 < room := by
  cases room with
  | zero => exact iff_of_false (Value.not_depth_object_le_zero _) (Nat.lt_irrefl 0)
  | succ room =>
    refine iff_of_true (Value.depth_object_le_iff.2 fun member hMember => ?_) (Nat.succ_pos room)
    obtain ⟨entry, -, rfl⟩ := List.mem_map.1 hMember
    exact Nat.zero_le room

/-- Attributes that are written are read again where a bracket may be opened. -/
theorem read_toValue (attrs : Attributes) (room : Nat) :
    read room (.ofValue attrs.toValue) =
      if 0 < room then .ok attrs else .error (.malformed .tooDeep) := by
  rw [toValue, Tree.ofValue_object, List.map_map]
  cases room with
  | zero => rfl
  | succ room =>
    rw [if_pos (Nat.succ_pos room), read, Tree.entriesAs, List.mapM_map, mapM_eq_ok_map (g := id)]
    · rw [List.map_id]
      exact congrArg Except.ok attrs.ofList_entries
    · intro entry _
      simp only [Function.comp_apply, Json.read_ofString, Tree.ofValue_string, Tree.text,
        Tree.textAs, ok_bind]
      rfl

theorem eq_empty_of_isEmpty {attrs : Attributes} (h : attrs.isEmpty = true) : attrs = .empty :=
  eq_of_entries_eq (List.isEmpty_iff.1 h)

end Attributes

namespace Node

theorem toValues_eq_map (nodes : List Node) : toValues nodes = nodes.map toValue := by
  induction nodes with
  | nil => rfl
  | cons node nodes ih => rw [toValues, ih, List.map_cons]

/-- The members that an element adds to its name and its attributes. -/
def content : Node → List (String × Value)
  | empty _ _ => []
  | text _ _ value => [("val", .string value)]
  | parent _ _ children => [("children", .array (children.map toValue))]

theorem toValue_eq_object (node : Node) :
    node.toValue = .object (head node.name node.attrs ++ node.content) := by
  cases node with
  | empty name attrs =>
    rw [toValue]
    exact congrArg Value.object (List.append_nil _).symm
  | text name attrs value => rw [toValue]; rfl
  | parent name attrs children => rw [toValue, toValues_eq_map]; rfl

/-! ## Depth -/

theorem depth_head_le_iff {name : String} {attrs : Attributes} {room : Nat} :
    (∀ member ∈ head name attrs, member.2.depth ≤ room) ↔ attrs.isEmpty = true ∨ 0 < room := by
  rw [head, List.forall_mem_cons]
  split_ifs with hAttrs
  · simp [hAttrs, Value.depth]
  · simp [hAttrs, Value.depth, Attributes.depth_toValue_le_iff]

/-- An element nests as deep as its attributes and its content, and one bracket deeper. -/
theorem depth_toValue_le_succ_iff {node : Node} {room : Nat} :
    node.toValue.depth ≤ room + 1 ↔
      (node.attrs.isEmpty = true ∨ 0 < room) ∧ ∀ member ∈ node.content, member.2.depth ≤ room := by
  rw [toValue_eq_object, Value.depth_object_le_iff, List.forall_mem_append, depth_head_le_iff]

/-! ## Reading what has been written -/

theorem read_succ (room : Nat) (t : Tree) :
    read (room + 1) t = (t.recordOf (record (Tree.list read room) room) >>= Parts.node) := by
  cases room <;> rfl

/-- A member as it stands in a text. -/
def written (member : String × Value) : Except Fault String × Tree :=
  (.ok member.1, .ofValue member.2)

/-- An object is read member by member. -/
theorem read_succ_object (room : Nat) (members : List (String × Value)) :
    read (room + 1) (.ofValue (.object members)) =
      ((record (Tree.list read room) room).keyed Tree.skip (members.map written) (.ok ()) >>=
        Parts.node) := by
  have hMembers : written = (fun member : Json.StringToken × Tree => (member.1.read, member.2)) ∘
      fun member : String × Value => (Json.StringToken.ofString member.1, Tree.ofValue member.2) :=
    funext fun member => congrArg (·, Tree.ofValue member.2) (Json.read_ofString member.1).symm
  rw [read_succ, Tree.ofValue_object, Tree.recordOf, List.map_map, hMembers]
  rfl

/-- The parts that make up an element. -/
def parts : Node → Parts
  | empty name attrs => ⟨name, attrs, none, none⟩
  | text name attrs value => ⟨name, attrs, some value, none⟩
  | parent name attrs children => ⟨name, attrs, none, some children⟩

@[simp]
theorem node_parts (node : Node) : node.parts.node = .ok node := by
  cases node <;> rfl

/-- A value is read as what it is written from, unless more brackets are open inside one another
than may be. -/
def ReadBack {α : Type} (read : Tree → Except Fault α) (room : Nat) (v : Value) (a : α) : Prop :=
  read (.ofValue v) = if v.depth ≤ room then .ok a else .error (.malformed .tooDeep)

section Members

variable {children : Tree → Except Fault (List Node)} {room : Nat} {given : List String}

/-- The name is read, whatever parts there are. -/
theorem fillMembers_name (name : String) (hNew : "name" ∉ given) (parts : Parts)
    (rest : List (Except Fault String × Tree)) :
    (record children room).fillMembers Tree.skip given parts
        (written ("name", .string name) :: rest) =
      (record children room).fillMembers Tree.skip ("name" :: given) { parts with name } rest := by
  have hName : Tree.text (.ofValue (.string name)) = .ok name := by
    rw [Tree.ofValue_string]
    exact Json.read_ofString name
  rw [written, Record.fillMembers_cons_of_not_mem rfl hNew]
  dsimp only [Json.Slot.mandatory, Json.Slot.optional]
  rw [hName]
  rfl

/-- So is the text inside. -/
theorem fillMembers_val (value : String) (hNew : "val" ∉ given) (parts : Parts)
    (rest : List (Except Fault String × Tree)) :
    (record children room).fillMembers Tree.skip given parts
        (written ("val", .string value) :: rest) =
      (record children room).fillMembers Tree.skip ("val" :: given)
        { parts with value := some value } rest := by
  have hValue : Tree.orNull Tree.text (.ofValue (.string value)) = .ok (some value) := by
    rw [Tree.ofValue_string, Tree.orNull, Tree.text, Tree.textAs, Json.read_ofString]
    · rfl
    · intro hNull
      cases hNull
  rw [written, Record.fillMembers_cons_of_not_mem rfl hNew]
  dsimp only [Json.Slot.optional]
  rw [hValue]
  rfl

/-- Attributes are read where a bracket may be opened. -/
theorem fillMembers_attrs (name : String) (attrs : Attributes) (hNew : "attrs" ∉ given)
    (rest : List (Except Fault String × Tree)) :
    (record children room).fillMembers Tree.skip given ⟨name, .empty, none, none⟩
        (written ("attrs", attrs.toValue) :: rest) =
      if 0 < room then
        (record children room).fillMembers Tree.skip ("attrs" :: given) ⟨name, attrs, none, none⟩
          rest
      else .error (.malformed .tooDeep) := by
  rw [written, Record.fillMembers_cons_of_not_mem rfl hNew]
  dsimp only [Json.Slot.optional]
  rw [Attributes.read_toValue]
  split_ifs <;> rfl

/-- The content is read last, and where it has children they are read with the room that is left. -/
theorem fillMembers_content (given : List String) (node : Node) (hVal : "val" ∉ given)
    (hChildren : "children" ∉ given)
    (hRead : ReadBack children room (.array (node.children.map toValue)) node.children) :
    (record children room).fillMembers Tree.skip given ⟨node.name, node.attrs, none, none⟩
        (node.content.map written) =
      if ∀ member ∈ node.content, member.2.depth ≤ room then
        .ok (node.content.map Prod.fst ++ given, node.parts)
      else .error (.malformed .tooDeep) := by
  cases node with
  | empty name attrs => rfl
  | text name attrs value =>
    have hDepth : ∀ member ∈ (text name attrs value).content, member.2.depth ≤ room :=
      List.forall_mem_singleton.2 (Nat.zero_le room)
    rw [if_pos hDepth, content, List.map_singleton, fillMembers_val _ hVal]
    rfl
  | parent name attrs nodes =>
    have hNodes : Tree.orNull children (.ofValue (.array (nodes.map toValue))) =
        some <$> children (.ofValue (.array (nodes.map toValue))) := by
      rw [Tree.ofValue_array]
      rfl
    have hDepth : (∀ member ∈ (parent name attrs nodes).content, member.2.depth ≤ room) ↔
        (Value.array (nodes.map toValue)).depth ≤ room := List.forall_mem_singleton
    simp only [hDepth]
    rw [content, List.map_singleton, written, Record.fillMembers_cons_of_not_mem rfl hChildren]
    dsimp only [Json.Slot.optional]
    have hList : children (.ofValue (.array (nodes.map toValue))) =
        if (Value.array (nodes.map toValue)).depth ≤ room then .ok nodes
        else .error (.malformed .tooDeep) := hRead
    rw [hNodes, hList]
    by_cases hFits : (Value.array (nodes.map toValue)).depth ≤ room
    · rw [if_pos hFits, if_pos hFits]
      rfl
    · rw [if_neg hFits, if_neg hFits]
      rfl

/-- The members of an element are read as its parts. -/
theorem exists_fillMembers_members (node : Node)
    (hRead : ReadBack children room (.array (node.children.map toValue)) node.children) :
    ∃ given, "name" ∈ given ∧
      (record children room).fillMembers Tree.skip [] (record children room).blank
          ((head node.name node.attrs ++ node.content).map written) =
        if (node.attrs.isEmpty = true ∨ 0 < room) ∧
            ∀ member ∈ node.content, member.2.depth ≤ room then
          .ok (given, node.parts)
        else .error (.malformed .tooDeep) := by
  have hBlank : { (record children room).blank with name := node.name } =
      ⟨node.name, .empty, none, none⟩ := rfl
  -- attributes are written only where there are some
  by_cases hAttrs : node.attrs.isEmpty = true
  · refine ⟨node.content.map Prod.fst ++ ["name"], by simp, ?_⟩
    have hContent := fillMembers_content ["name"] node (by decide) (by decide) hRead
    simp only [hAttrs, true_or, true_and]
    rw [← hContent, head, if_pos hAttrs, List.singleton_append, List.map_cons,
      fillMembers_name _ List.not_mem_nil, hBlank, Attributes.eq_empty_of_isEmpty hAttrs]
  · refine ⟨node.content.map Prod.fst ++ ["attrs", "name"], by simp, ?_⟩
    have hContent := fillMembers_content ["attrs", "name"] node (by decide) (by decide) hRead
    rw [head, if_neg hAttrs, List.cons_append, List.singleton_append, List.map_cons,
      List.map_cons, fillMembers_name _ List.not_mem_nil, hBlank,
      fillMembers_attrs _ _ (by decide), hContent]
    by_cases hRoom : 0 < room
    · simp only [hRoom, or_true, true_and, if_true]
    · simp only [hAttrs, hRoom, Bool.false_eq_true, or_self, false_and, if_false]

end Members

/-- An object is read as the element that its parts make up, if its name is given. -/
theorem read_of_fillMembers {room : Nat} {members : List (String × Value)} {given : List String}
    {node : Node} (hName : "name" ∈ given)
    (hFill : (record (Tree.list read room) room).fillMembers Tree.skip []
      (record (Tree.list read room) room).blank (members.map written) = .ok (given, node.parts)) :
    read (room + 1) (.ofValue (.object members)) = .ok node := by
  have hGiven : (record (Tree.list read room) room).checkGiven given = .ok () := by
    rw [Record.checkGiven_eq_ok_iff]
    simp [record, Json.Slot.mandatory, Json.Slot.optional, hName]
  rw [read_succ_object, Record.keyed, hFill, ok_bind]
  dsimp only
  rw [ok_bind, hGiven]
  exact node_parts node

/-- A list of elements is read with the room that is left, if each of them is. -/
theorem list_read_toValues {nodes : List Node}
    (h : ∀ node ∈ nodes, ∀ room, ReadBack (read room) room node.toValue node) (room : Nat) :
    ReadBack (Tree.list read room) room (.array (nodes.map toValue)) nodes := by
  rw [ReadBack, Tree.ofValue_array, List.map_map]
  cases room with
  | zero => exact (if_neg (Value.not_depth_array_le_zero _)).symm
  | succ room =>
    have hItems : (nodes.map (Tree.ofValue ∘ toValue)).mapM (read room) =
        if ∀ node ∈ nodes, node.toValue.depth ≤ room then .ok (nodes.map id)
        else .error (.malformed .tooDeep) := by
      rw [List.mapM_map]
      exact mapM_eq_ite fun node hNode => h node hNode room
    have hDepth : (Value.array (nodes.map toValue)).depth ≤ room + 1 ↔
        ∀ node ∈ nodes, node.toValue.depth ≤ room := by
      rw [Value.depth_array_le_iff, List.forall_mem_map]
    simp only [hDepth]
    rw [Tree.list, Tree.listOf, hItems, List.map_id]
    split_ifs <;> rfl

/-- An element is read again when its children are. -/
theorem read_toValue_of_children (node : Node)
    (h : ∀ child ∈ node.children, ∀ room, ReadBack (read room) room child.toValue child)
    (room : Nat) : ReadBack (read room) room node.toValue node := by
  cases room with
  | zero =>
    rw [ReadBack, toValue_eq_object, Tree.ofValue_object]
    exact (if_neg (Value.not_depth_object_le_zero _)).symm
  | succ room =>
    obtain ⟨given, hName, hFill⟩ := exists_fillMembers_members node (list_read_toValues h room)
    simp only [ReadBack, depth_toValue_le_succ_iff]
    rw [toValue_eq_object]
    split_ifs at hFill ⊢
    · exact read_of_fillMembers hName hFill
    · rw [read_succ_object, Record.keyed, hFill]
      rfl

/-- An element that is written is read again, unless it nests too deeply. -/
theorem read_toValue (node : Node) (room : Nat) : ReadBack (read room) room node.toValue node := by
  induction node using inductionOn generalizing room with
  | empty name attrs =>
    exact read_toValue_of_children (empty name attrs) (fun _ h => absurd h List.not_mem_nil) room
  | text name attrs value =>
    exact read_toValue_of_children (text name attrs value) (fun _ h => absurd h List.not_mem_nil)
      room
  | parent name attrs children ih =>
    exact read_toValue_of_children (parent name attrs children) ih room

/-! ## Writing what has been read -/

/-- Whether the parts of an element, written without bracket around them, nest at most `room`
deep. -/
structure Parts.Fits (room : Nat) (parts : Parts) : Prop where
  attrs : parts.attrs.isEmpty = true ∨ 0 < room
  children : ∀ children ∈ parts.children, (Value.array (children.map toValue)).depth ≤ room

theorem Parts.Fits.depth_toValue_le {room : Nat} {parts : Parts} (h : parts.Fits room) {node : Node}
    (hNode : parts.node = .ok node) : node.toValue.depth ≤ room + 1 := by
  obtain ⟨name, attrs, value, children⟩ := parts
  rw [depth_toValue_le_succ_iff]
  -- text and children together make up no element
  cases value with
  | none =>
    cases children with
    | none =>
      obtain rfl := Except.ok.inj hNode
      exact ⟨h.attrs, fun _ h => absurd h List.not_mem_nil⟩
    | some children =>
      obtain rfl := Except.ok.inj hNode
      exact ⟨h.attrs, List.forall_mem_singleton.2 (h.children children rfl)⟩
  | some value =>
    cases children with
    | none =>
      obtain rfl := Except.ok.inj hNode
      exact ⟨h.attrs, List.forall_mem_singleton.2 (Nat.zero_le room)⟩
    | some children => exact nomatch hNode

/-- What has been read where null might stand has been read. -/
theorem eq_ok_of_orNull {α : Type} {read : Tree → Except Fault α} {t : Tree} {a : α}
    (h : Tree.orNull read t = .ok (some a)) : read t = .ok a := by
  cases t with
  | null => exact nomatch h
  | _ =>
    obtain ⟨a', hRead, ha⟩ := map_eq_ok_iff.1 h
    exact hRead.trans (congrArg Except.ok (Option.some.inj ha))

/-- The attributes that are read nest no deeper than allowed. -/
theorem isEmpty_or_of_read_attributes {room : Nat} {t : Tree} {attrs : Attributes}
    (h : Attributes.read room t = .ok attrs) : attrs.isEmpty = true ∨ 0 < room := by
  cases room with
  | zero => cases t <;> exact nomatch h
  | succ room => exact .inr (Nat.succ_pos room)

/-- The elements that are read from a list nest no deeper than allowed, if each of them does. -/
theorem depth_toValues_le_of_list {room : Nat}
    (h : ∀ inner < room, ∀ {t : Tree} {node : Node}, read inner t = .ok node →
      node.toValue.depth ≤ inner) {t : Tree} {nodes : List Node}
    (hRead : Tree.list read room t = .ok nodes) :
    (Value.array (nodes.map toValue)).depth ≤ room := by
  obtain ⟨inner, items, rfl, rfl, hItems⟩ := Json.Tree.exists_of_list hRead
  rw [Value.depth_array_le_iff, List.forall_mem_map]
  intro node hNode
  obtain ⟨item, -, hItem⟩ := exists_of_forall₂ hItems.flip hNode
  exact h inner (Nat.lt_succ_self inner) hItem

/-- What has been read as an element nests no deeper than allowed when it is written. -/
theorem depth_toValue_le_of_read {room : Nat} {t : Tree} {node : Node}
    (h : read room t = .ok node) : node.toValue.depth ≤ room := by
  induction room using Nat.strongRecOn generalizing t node with
  | ind room ih =>
    cases room with
    | zero => cases t <;> exact nomatch h
    | succ room =>
      rw [read_succ] at h
      obtain ⟨parts, hRecord, hNode⟩ := bind_eq_ok_iff.1 h
      have hFits : parts.Fits room := by
        refine Json.Tree.recordOf_invariant (fun s hs c parts parts' hParts hFill => ?_)
          ⟨.inl rfl, nofun⟩ hRecord
        simp only [record, List.mem_cons, List.not_mem_nil, or_false] at hs
        -- the name, the attributes, the text and the children, each of which keeps the others
        rcases hs with rfl | rfl | rfl | rfl <;>
          obtain ⟨read, hRead, hFill⟩ := bind_eq_ok_iff.1 hFill <;>
          obtain rfl := Except.ok.inj hFill
        · exact ⟨hParts.attrs, hParts.children⟩
        · exact ⟨isEmpty_or_of_read_attributes hRead, hParts.children⟩
        · exact ⟨hParts.attrs, hParts.children⟩
        · refine ⟨hParts.attrs, fun nodes hNodes => ?_⟩
          obtain rfl : read = some nodes := hNodes
          exact depth_toValues_le_of_list (fun inner hInner => ih inner (Nat.lt_succ_of_lt hInner))
            (eq_ok_of_orNull hRead)
      exact hFits.depth_toValue_le hNode

/-! ## Texts -/

/-- An element that is written is read again, in every layout, unless it nests too deeply. -/
theorem ofJson_print (layout : Json.Layout) (node : Node) :
    ofJson (node.toValue.print layout) =
      if node.toValue.depth ≤ maxRoom then .ok node else .error (.malformed .tooDeep) := by
  rw [ofJson, Json.readText_print, read_toValue]

/-- An element that is written, with or without line breaks, is read again if its text opens no more
brackets inside one another than a reader follows; and this is so for every element that has been
read from a text, of whatever nesting. -/
theorem codec_lossless :
    (∀ node : Node, node.toValue.depth ≤ maxRoom →
      ofJson node.toValue.compact = .ok node ∧ ofJson node.toValue.pretty = .ok node) ∧
    ∀ (text : String) (node : Node), ofJson text = .ok node →
      ofJson node.toValue.compact = .ok node ∧ ofJson node.toValue.pretty = .ok node := by
  have hWritten : ∀ node : Node, node.toValue.depth ≤ maxRoom →
      ofJson node.toValue.compact = .ok node ∧ ofJson node.toValue.pretty = .ok node :=
    fun node hDepth =>
      ⟨(ofJson_print .compact node).trans (if_pos hDepth),
        (ofJson_print .indented node).trans (if_pos hDepth)⟩
  refine ⟨hWritten, fun text node hRead => hWritten node ?_⟩
  obtain ⟨t, hTree, -⟩ := Json.exists_tree_of_readText hRead
  exact depth_toValue_le_of_read hTree

/-- An element with children of every kind of content. -/
def assorted : Node :=
  parent "a" (Attributes.empty.set "k" "1")
    [empty "b" .empty, text "c" .empty "", parent "d" .empty []]

theorem codec_lossless_assorted :
    assorted.toValue.depth ≤ maxRoom ∧ ofJson assorted.toValue.compact = .ok assorted ∧
      ofJson assorted.toValue.pretty = .ok assorted := by
  have hDepth : assorted.toValue.depth ≤ maxRoom := by decide
  obtain ⟨hCompact, -⟩ := codec_lossless.1 assorted hDepth
  -- what has been read from the compact text is written and read once more
  exact ⟨hDepth, codec_lossless.2 assorted.toValue.compact assorted hCompact⟩

end Node

end FormDesign.Xml
