import FormDesign.Proofs.Xml.Codec

/-!
# Objects that are too full to be elements

An object gives an element its name, its attributes, its text and its children, in any order, among
members that mean nothing. It is read as an element unless it gives both a text and children, and
then it is refused by its name. Since the children of an object are read before the object itself is
judged, the first object to be refused is the first after all the objects inside it.

## Main definitions

* `NodeObject`: what an object and the objects inside it give;
* `Says`: a tree is an object that gives this, in whatever order;
* `NodeObject.parts`: the object and those inside it, each after its children;
* `NodeObject.node`: the element that an object stands for.

## Main results

* `NodeObject.read_eq`: a tree is read as its object says;
* `NodeObject.ofJson_overfull`: a text is refused for objects that are too full, and for nothing
  else.
-/

namespace FormDesign.Xml

open Json (Tree Fault Record Slot StringToken maxRoom underKeys)

/-! ## What an object gives -/

/-- What an object gives besides its children: a name, attributes if there is a member for them, and
a text unless there is none or null. -/
structure Heading where
  name : String
  attrs : Option (List (String × String))
  value : Option String

/-- What an object that is to be read as an element gives, with what the objects inside it give.
Without a member for children, or with null there, it is a leaf. -/
inductive NodeObject
  | leaf (head : Heading)
  | parent (head : Heading) (children : List NodeObject)

namespace Heading

/-- The attributes, each set in its turn. -/
def attributes (head : Heading) : Attributes :=
  .ofList (head.attrs.getD [])

/-- How many brackets are opened for the attributes. -/
def depth (head : Heading) : Nat :=
  if head.attrs.isSome then 1 else 0

/-- The element without children: it holds a text if one is given. -/
def node (head : Heading) : Node :=
  match head.value with
  | some value => .text head.name head.attributes value
  | none => .empty head.name head.attributes

end Heading

namespace NodeObject

/-- What an object gives besides its children. -/
def head : NodeObject → Heading
  | leaf head | parent head _ => head

/-- The children that an object gives. -/
def children? : NodeObject → Option (List NodeObject)
  | leaf _ => none
  | parent _ children => some children

/-- Whether an object gives both a text and children. -/
def IsOverfull (object : NodeObject) : Prop :=
  object.head.value.isSome ∧ object.children?.isSome

instance (object : NodeObject) : Decidable object.IsOverfull :=
  inferInstanceAs (Decidable (_ ∧ _))

mutual

/-- How many brackets an object opens inside one another. -/
def depth : NodeObject → Nat
  | leaf head => head.depth + 1
  | parent head children => max head.depth (depthAll children + 1) + 1

/-- How many brackets objects open inside one another. -/
def depthAll : List NodeObject → Nat
  | [] => 0
  | object :: objects => max object.depth (depthAll objects)

end

mutual

/-- The objects inside an object and the object itself, each after its children. -/
def parts : NodeObject → List NodeObject
  | leaf head => [leaf head]
  | parent head children => partsAll children ++ [parent head children]

/-- The objects and those inside them, each after its children. -/
def partsAll : List NodeObject → List NodeObject
  | [] => []
  | object :: objects => object.parts ++ partsAll objects

end

mutual

/-- The element that an object stands for unless it is too full: it holds children or a text if the
object gives them, and nothing if it gives neither. -/
def node : NodeObject → Node
  | leaf head => head.node
  | parent head children => .parent head.name head.attributes (nodes children)

/-- The elements that objects stand for. -/
def nodes : List NodeObject → List Node
  | [] => []
  | object :: objects => object.node :: nodes objects

end

end NodeObject

/-- The elements inside an element that may hold some. -/
def Node.children? : Node → Option (List Node)
  | .parent _ _ children => some children
  | _ => none

/-! ## Trees of objects -/

/-- A tree is an object with these members. -/
def IsObjectOf (t : Tree) (members : List (String × Tree)) : Prop :=
  ∃ found, t = .object found .closed ∧
    (found.map fun (key, t) => (key.read, t)) = members.map fun m => (.ok m.1, m.2)

/-- A tree is a text. -/
def IsTextOf (t : Tree) (s : String) : Prop :=
  ∃ token, t = .string token ∧ token.read = .ok s

/-- A tree is an object of texts. -/
def IsTextsOf (t : Tree) (entries : List (String × String)) : Prop :=
  ∃ found, t = .object found .closed ∧
    List.Forall₂ (fun f entry => f.1.read = .ok entry.1 ∧ IsTextOf f.2 entry.2) found entries

/-- What is given at most once, and is given if something stands there. -/
inductive Gives {α : Type} (Is : Tree → α → Prop) : List Tree → Option α → Prop
  | absent : Gives Is [] none
  | given {t : Tree} {a : α} (h : Is t a) : Gives Is [t] (some a)

/-- What is given at most once, where null means that it is not. -/
inductive GivesOrNull {α : Type} (Is : Tree → α → Prop) : List Tree → Option α → Prop
  | null : GivesOrNull Is [.null] none
  | gives {ts : List Tree} {a : Option α} (h : Gives Is ts a) : GivesOrNull Is ts a

/-- Members give this besides children, and the members that mean nothing are well formed. -/
structure Heading.GivenBy (head : Heading) (members : List (String × Tree)) : Prop where
  name : Gives IsTextOf (underKeys ["name"] members) (some head.name)
  attrs : Gives IsTextsOf (underKeys ["attrs"] members) head.attrs
  value : GivesOrNull IsTextOf (underKeys ["val"] members) head.value
  others : ∀ member ∈ members, member.1 ∉ ["name", "attrs", "val", "children"] →
    member.2.skip = .ok ()

/-- A tree is an object that gives this, with objects inside it that give what stands there. -/
inductive Says : Tree → NodeObject → Prop
  | leaf {t : Tree} {members : List (String × Tree)} {head : Heading}
    (hObject : IsObjectOf t members) (hHead : head.GivenBy members)
    (hChildren : underKeys ["children"] members = [] ∨ underKeys ["children"] members = [.null]) :
    Says t (.leaf head)
  | parent {t : Tree} {members : List (String × Tree)} {head : Heading} {items : List Tree}
    {children : List NodeObject} (hObject : IsObjectOf t members) (hHead : head.GivenBy members)
    (hChildren : underKeys ["children"] members = [.array items .closed])
    (hItems : List.Forall₂ Says items children) :
    Says t (.parent head children)

/-- A tree of a text is read as the text. -/
theorem IsTextOf.text_eq {t : Tree} {s : String} (h : IsTextOf t s) : t.text = .ok s := by
  obtain ⟨token, rfl, hRead⟩ := h
  exact hRead

/-- A tree of an object of texts is read as attributes. -/
theorem IsTextsOf.read_eq {t : Tree} {entries : List (String × String)} (h : IsTextsOf t entries)
    {room : Nat} (hRoom : 0 < room) : Attributes.read room t = .ok (.ofList entries) := by
  obtain ⟨found, rfl, hFound⟩ := h
  obtain ⟨room, rfl⟩ := Nat.exists_eq_add_one.2 hRoom
  have hRead : (found.mapM fun (key, value) => do return (← key.read, ← Tree.text value)) =
      .ok entries := by
    refine mapM_eq_ok_iff.2 (hFound.imp fun f entry hEntry => ?_)
    obtain ⟨hKey, hText⟩ := hEntry
    dsimp only
    rw [hKey, hText.text_eq]
    rfl
  rw [Attributes.read, Tree.entriesAs, hRead]
  rfl

/-! ## Fields -/

section

variable {α : Type} {read : Tree → Except Fault α} {blank a : α} {ts : List Tree}

/-- What is given for a field is read as `a`, which is the `blank` where nothing is. -/
def ReadAs (read : Tree → Except Fault α) (blank a : α) (ts : List Tree) : Prop :=
  (ts = [] ∧ a = blank) ∨ ∃ t, ts = [t] ∧ read t = .ok a

/-- What can be read is given once at most. -/
theorem ReadAs.length_le (h : ReadAs read blank a ts) : ts.length ≤ 1 := by
  rcases h with ⟨rfl, -⟩ | ⟨t, rfl, -⟩
  · exact Nat.zero_le 1
  · exact Nat.le_refl 1

/-- What is given by the first members can be put into any record. -/
theorem ReadAs.exists_fill {keys : List String} {before after : List (String × Tree)}
    (h : ReadAs read blank a (underKeys keys (before ++ after))) (name : String) {ρ : Type}
    {put : α → ρ → ρ} : ∀ t ∈ underKeys keys before, ∀ record,
      ∃ record', (Slot.optional name [] read put).fill t record = .ok record' := by
  intro t ht record
  have hRead : read t = .ok a := by
    have hMem : t ∈ underKeys keys (before ++ after) := by
      rw [Json.underKeys_append]
      exact List.mem_append_left _ ht
    rcases h with ⟨hNone, -⟩ | ⟨t', hOne, hRead⟩
    · exact absurd (hNone ▸ hMem) List.not_mem_nil
    · obtain rfl := List.mem_singleton.1 (hOne ▸ hMem)
      exact hRead
  refine ⟨put a record, ?_⟩
  change (read t >>= fun a => .ok (put a record)) = _
  rw [hRead]
  rfl

/-- What is given is put into the record, and nothing changes where the blank would be put. -/
theorem ReadAs.take_eq (h : ReadAs read blank a ts) {name : String} {ρ : Type} {put : α → ρ → ρ}
    {record : ρ} (hBlank : put blank record = record) :
    (Slot.optional name [] read put).take ts record = some (put a record) := by
  rcases h with ⟨rfl, rfl⟩ | ⟨t, rfl, hRead⟩
  · rw [Slot.take_nil, hBlank]
  · exact Slot.take_singleton put hRead record

end

theorem GivesOrNull.readAs {ts : List Tree} {value : Option String}
    (h : GivesOrNull IsTextOf ts value) : ReadAs (Tree.orNull Tree.text) none value ts := by
  cases h with
  | null => exact .inr ⟨.null, rfl, rfl⟩
  | gives h =>
    cases h with
    | absent => exact .inl ⟨rfl, rfl⟩
    | given hText =>
      obtain ⟨token, rfl, hRead⟩ := hText
      refine .inr ⟨.string token, rfl, ?_⟩
      change some <$> token.read = _
      rw [hRead]
      rfl

/-- The parts of an element go by different keys and may be given in any order. -/
theorem Node.isLawful_record (children : Tree → Except Fault (List Node)) (room : Nat) :
    (Node.record children room).IsLawful where
  nodup := by
    change ["name", "attrs", "val", "children"].Nodup
    decide
  commutes := by
    simp only [Node.record, List.pairwise_cons, List.forall_mem_cons, List.not_mem_nil,
      IsEmpty.forall_iff, implies_true, List.Pairwise.nil, and_true]
    and_intros <;> exact Slot.commutes_of_put rfl rfl (by exact fun _ _ _ => rfl)

namespace Heading.GivenBy

variable {head : Heading} {members : List (String × Tree)} (h : head.GivenBy members)

include h

theorem readAs_attrs {room : Nat} (hRoom : head.depth ≤ room) :
    ReadAs (Attributes.read room) .empty head.attributes (underKeys ["attrs"] members) := by
  obtain ⟨name, attrs, value⟩ := head
  cases attrs with
  | none =>
    generalize underKeys ["attrs"] members = ts, h.attrs = hAttrs
    cases hAttrs with
    | absent => exact .inl ⟨rfl, rfl⟩
  | some entries =>
    generalize underKeys ["attrs"] members = ts, h.attrs = hAttrs
    cases hAttrs with
    | given hTexts => exact .inr ⟨_, rfl, hTexts.read_eq hRoom⟩

/-- An object that stands for an element gives its name once. -/
theorem exists_name : ∃ t, underKeys ["name"] members = [t] ∧ t.text = .ok head.name := by
  generalize underKeys ["name"] members = ts, h.name = hName
  cases hName with
  | given hText => exact ⟨_, rfl, hText.text_eq⟩

theorem readAs_name : ReadAs Tree.text "" head.name (underKeys ["name"] members) :=
  .inr h.exists_name

/-- What is no field of an element can be passed over. -/
theorem skip_eq (children : Tree → Except Fault (List Node)) (room : Nat) :
    ∀ member ∈ members, (Node.record children room).slot? member.1 = none →
      member.2.skip = .ok () := by
  intro member hMember hNone
  refine h.others member hMember fun hKey => ?_
  have hSlots := Record.slot?_eq_none_iff.1 hNone
  simp only [Node.record, List.forall_mem_cons, Slot.Answers, Slot.mandatory, Slot.optional,
    List.not_mem_nil, or_false] at hSlots
  simp only [List.mem_cons, List.not_mem_nil, or_false] at hKey
  tauto

/-- An object is read if its children are. -/
theorem keyed_eq_ok {children : Tree → Except Fault (List Node)} {room : Nat}
    {nodes : Option (List Node)} (hRoom : head.depth ≤ room)
    (hChildren : ReadAs (Tree.orNull children) none nodes (underKeys ["children"] members)) :
    (Node.record children room).keyed Tree.skip (members.map fun m => (.ok m.1, m.2)) (.ok ()) =
      .ok ⟨head.name, head.attributes, head.value, nodes⟩ := by
  obtain ⟨t, hSaid, hName⟩ := h.exists_name
  rw [← toOption_eq_some_iff, (Node.isLawful_record children room).toOption_keyed
    (h.skip_eq children room)]
  simp only [Record.assemble, Node.record, List.foldlM_cons, List.foldlM_nil,
    Slot.contents_mandatory, Slot.contents_optional, hSaid, Slot.take_mandatory _ hName,
    Option.bind_eq_bind, Option.bind_some]
  rw [(h.readAs_attrs hRoom).take_eq rfl]
  simp only [Option.bind_some]
  rw [h.value.readAs.take_eq rfl]
  simp only [Option.bind_some]
  rw [hChildren.take_eq rfl]
  rfl

/-- An object fails like its children if they cannot be read, whatever stands before them or
after. -/
theorem keyed_eq_error {children : Tree → Except Fault (List Node)} {room : Nat} {t : Tree}
    {fault : Fault} (hRoom : head.depth ≤ room) (hChildren : underKeys ["children"] members = [t])
    (hFault : Tree.orNull children t = .error fault) :
    (Node.record children room).keyed Tree.skip (members.map fun m => (.ok m.1, m.2)) (.ok ()) =
      .error fault := by
  obtain ⟨before, after, rfl, hBefore⟩ := Json.exists_split_of_underKeys hChildren
  have hLawful := Node.isLawful_record children room
  have hOnce : ∀ s ∈ (Node.record children room).slots,
      Record.timesSaid (before ++ ("children", t) :: after) [] s ≤ 1 := by
    simp only [Node.record, List.forall_mem_cons, Record.timesSaid, Slot.contents_mandatory,
      Slot.contents_optional, List.not_mem_nil, if_false, Nat.add_zero]
    exact ⟨h.readAs_name.length_le, (h.readAs_attrs hRoom).length_le, h.value.readAs.length_le,
      hChildren ▸ Nat.le_refl 1, fun _ hNone => hNone.elim⟩
  -- what stands before the children can be read
  have hRead : ∀ s ∈ (Node.record children room).slots, ∀ d ∈ s.contents before, ∀ parts,
      ∃ parts', s.fill d parts = .ok parts' := by
    simp only [Node.record, List.forall_mem_cons, Slot.contents_mandatory, Slot.contents_optional,
      hBefore]
    exact ⟨h.readAs_name.exists_fill "name", (h.readAs_attrs hRoom).exists_fill "attrs",
      h.value.readAs.exists_fill "val", List.forall_mem_nil _, List.forall_mem_nil _⟩
  rw [Record.keyed, hLawful.fillMembers_eq_error rfl (fun parts => ?_) hRead
    (fun member hMember => h.skip_eq children room member (List.mem_append_left _ hMember)) hOnce]
  · rfl
  · change (Tree.orNull children t >>= _) = _
    rw [hFault]
    rfl

end Heading.GivenBy

/-! ## Objects -/

/-- A tree of an object is read from its members, and then put together. -/
theorem read_of_isObjectOf {t : Tree} {members : List (String × Tree)} (h : IsObjectOf t members)
    (room : Nat) : Node.read (room + 1) t =
      ((Node.record (Tree.list Node.read room) room).keyed Tree.skip
        (members.map fun m => (.ok m.1, m.2)) (.ok ()) >>= Node.Parts.node) := by
  obtain ⟨found, rfl, hFound⟩ := h
  rw [Node.read_succ, Tree.recordOf, hFound]
  rfl

namespace NodeObject

/-- Induction with a hypothesis for every object among the children. -/
@[elab_as_elim]
theorem inductionOn {P : NodeObject → Prop} (object : NodeObject) (leaf : ∀ head, P (.leaf head))
    (parent : ∀ head children, (∀ child ∈ children, P child) → P (.parent head children)) :
    P object :=
  NodeObject.rec (motive_1 := P) (motive_2 := fun children => ∀ child ∈ children, P child)
    leaf parent (List.forall_mem_nil P)
    (fun _ _ hFirst hOthers => List.forall_mem_cons.2 ⟨hFirst, hOthers⟩) object

/-- Objects nest no deeper than allowed when none of them does. -/
theorem depthAll_le_iff {objects : List NodeObject} {n : Nat} :
    depthAll objects ≤ n ↔ ∀ object ∈ objects, object.depth ≤ n := by
  induction objects with
  | nil => simp [depthAll]
  | cons object objects ih => rw [depthAll, Nat.max_le, ih, List.forall_mem_cons]

/-- What is answered for parts of which the first that is too full is refused. -/
def refuse {α : Type} (parts : List NodeObject) (a : α) : Except Fault α :=
  match parts.find? fun part => part.IsOverfull with
  | some part => .error (Node.overfull part.head.name)
  | none => .ok a

/-- Parts are refused one after another. -/
theorem refuse_append {α β γ : Type} (first later : List NodeObject) (a : α) (b : β)
    (f : α → β → γ) :
    (refuse first a >>= fun a => refuse later b >>= fun b => .ok (f a b)) =
      refuse (first ++ later) (f a b) := by
  rw [refuse, refuse, refuse, List.find?_append]
  cases first.find? fun part => part.IsOverfull with
  | some part => rfl
  | none => cases later.find? fun part => part.IsOverfull <;> rfl

/-- A list is read as its objects say, up to the first that is refused. -/
theorem mapM_eq_refuse {read : Tree → Except Fault Node} {items : List Tree}
    {children : List NodeObject}
    (h : List.Forall₂ (fun item child => read item = refuse child.parts child.node) items
      children) : items.mapM read = refuse (partsAll children) (nodes children) := by
  induction h with
  | nil => rfl
  | @cons item child items children hFirst _ ih =>
    rw [List.mapM_cons, hFirst, ih]
    exact refuse_append child.parts (partsAll children) child.node (nodes children) List.cons

/-- A list is read where its brackets may be opened. -/
theorem orNull_list_eq_refuse {room : Nat} {items : List Tree} {children : List NodeObject}
    (h : List.Forall₂ (fun item child => Node.read room item = refuse child.parts child.node) items
      children) :
    Tree.orNull (Tree.list Node.read (room + 1)) (.array items .closed) =
      some <$> refuse (partsAll children) (nodes children) := by
  have hList : Tree.list Node.read (room + 1) (.array items .closed) =
      refuse (partsAll children) (nodes children) := by
    change (items.mapM (Node.read room) >>= fun nodes => .ok nodes) = _
    rw [mapM_eq_refuse h]
    exact bind_pure _
  exact congrArg (some <$> ·) hList

/-- The parts of an object without children make up an element. -/
theorem node_leaf (head : Heading) :
    Node.Parts.node ⟨head.name, head.attributes, head.value, none⟩ =
      refuse (leaf head).parts (leaf head).node := by
  obtain ⟨name, attrs, value⟩ := head
  cases value <;> rfl

/-- The parts of an object with children make up an element if no text is given. -/
theorem node_parent (head : Heading) (children : List NodeObject) (nodes : List Node) :
    Node.Parts.node ⟨head.name, head.attributes, head.value, some nodes⟩ =
      refuse [parent head children] (.parent head.name head.attributes nodes) := by
  obtain ⟨name, attrs, value⟩ := head
  cases value <;> rfl

/-- A tree is read as its object says, as the element that the object stands for, or with the fault
of the first object that is too full. -/
theorem read_eq {object : NodeObject} {t : Tree} {room : Nat} (hSays : Says t object)
    (hRoom : object.depth ≤ room) : Node.read room t = refuse object.parts object.node := by
  induction object using inductionOn generalizing t room with
  | leaf head =>
    obtain ⟨hObject, hHead, hChildren⟩ := hSays
    obtain ⟨room, rfl⟩ := Nat.exists_eq_add_of_le' hRoom
    have hNone : ReadAs (Tree.orNull (Tree.list Node.read (room + head.depth))) none none
        (underKeys ["children"] _) :=
      hChildren.imp (fun h => ⟨h, rfl⟩) fun h => ⟨.null, h, rfl⟩
    rw [depth, ← Nat.add_assoc, read_of_isObjectOf hObject,
      hHead.keyed_eq_ok (Nat.le_add_left ..) hNone, ok_bind]
    exact node_leaf head
  | parent head children ih =>
    cases hSays with
    | @parent _ members _ items _ hObject hHead hChildren hItems =>
    rw [depth] at hRoom
    obtain ⟨inner, rfl⟩ : ∃ inner, room = inner + 1 + 1 := ⟨room - 2, by omega⟩
    have hHeadRoom : head.depth ≤ inner + 1 := by omega
    have hInside : ∀ child ∈ children, child.depth ≤ inner := depthAll_le_iff.1 (by omega)
    -- two brackets are spent before a child is read: the object's and the list's
    have hRead : ∀ child ∈ children, ∀ item, Says item child →
        Node.read inner item = refuse child.parts child.node :=
      fun child hChild item hItem => ih child hChild hItem (hInside child hChild)
    have hList := orNull_list_eq_refuse <|
      ((List.forall₂_and_left _ _).2 ⟨hRead, hItems.flip⟩).flip.imp fun item _ h => h.1 item h.2
    rw [read_of_isObjectOf hObject, parts, node]
    -- the children are read first, and the object is judged if none of them is refused
    cases hFirst : (partsAll children).find? fun part => part.IsOverfull with
    | some part =>
      rw [refuse, hFirst] at hList
      rw [hHead.keyed_eq_error hHeadRoom hChildren hList, refuse, List.find?_append, hFirst]
      rfl
    | none =>
      rw [refuse, hFirst] at hList
      rw [hHead.keyed_eq_ok hHeadRoom (.inr ⟨_, hChildren, hList⟩), ok_bind,
        node_parent head children, refuse, refuse, List.find?_append, hFirst]
      rfl

/-- An object that is not too full stands for an element with the text and the children that it
gives. -/
theorem content_node {object : NodeObject} (h : ¬ object.IsOverfull) :
    object.node.value? = object.head.value ∧
      object.node.children? = object.children?.map nodes := by
  cases object with
  | leaf head =>
    obtain ⟨name, attrs, value⟩ := head
    cases value <;> exact ⟨rfl, rfl⟩
  | parent head children =>
    obtain ⟨name, attrs, value⟩ := head
    cases value with
    | none => exact ⟨rfl, rfl⟩
    | some value => exact absurd ⟨rfl, rfl⟩ h

/-- A text of an object that gives a name, and attributes, a text and children of the right kinds if
any, in whatever order and with whatever else, is read exactly when none of the objects in it gives
both a text and children. Otherwise the first of them is refused by its name, those inside an object
coming before it. What is read has, in every part, the text that is given there if it is not null,
and the children that are given there if they are not null. -/
theorem ofJson_overfull {text : String} {t : Tree} {object : NodeObject}
    (hText : Tree.ofTokens (Json.tokens text) = (t, [])) (hSays : Says t object)
    (hDepth : object.depth ≤ maxRoom) :
    ((∃ node, Node.ofJson text = .ok node) ↔ ∀ part ∈ object.parts, ¬ part.IsOverfull) ∧
    (∀ part, (object.parts.find? fun part => part.IsOverfull) = some part →
      Node.ofJson text = .error (Node.overfull part.head.name)) ∧
    ∀ node, Node.ofJson text = .ok node → node = object.node ∧
      ∀ part ∈ object.parts, part.node.value? = part.head.value ∧
        part.node.children? = part.children?.map nodes := by
  have hRead : Node.ofJson text = refuse object.parts object.node := by
    rw [Node.ofJson, Json.readText, hText]
    exact (bind_pure _).trans (read_eq hSays hDepth)
  rw [hRead, refuse]
  -- what is answered depends on the first part that is too full, if there is one
  cases hFirst : object.parts.find? fun part => part.IsOverfull with
  | some first =>
    have hMem := List.mem_of_find?_eq_some hFirst
    have hOverfull : first.IsOverfull := by simpa using List.find?_some hFirst
    refine ⟨iff_of_false ?_ fun h => h first hMem hOverfull, fun part hPart => ?_,
      fun node hNode => ?_⟩
    · rintro ⟨node, hNode⟩
      cases hNode
    · obtain rfl := Option.some.inj hPart
      rfl
    · cases hNode
  | none =>
    have hFine : ∀ part ∈ object.parts, ¬ part.IsOverfull := by
      simpa using List.find?_eq_none.1 hFirst
    refine ⟨iff_of_true ⟨_, rfl⟩ hFine, fun part hPart => ?_, fun node hNode => ?_⟩
    · cases hPart
    · obtain rfl := Except.ok.inj hNode
      exact ⟨rfl, fun part hPart => content_node (hFine part hPart)⟩

/-! ## Objects that are written -/

theorem isObjectOf_ofValue (members : List (String × Json.Value)) :
    IsObjectOf (.ofValue (.object members)) (members.map fun m => (m.1, .ofValue m.2)) := by
  rw [Tree.ofValue_object]
  refine ⟨_, rfl, ?_⟩
  simp only [List.map_map, Function.comp_def, Json.read_ofString]

theorem isTextOf_ofValue (s : String) : IsTextOf (.ofValue (.string s)) s := by
  rw [Tree.ofValue_string]
  exact ⟨_, rfl, Json.read_ofString s⟩

/-- An object that gives both a text and children. -/
def crowdedPart : Json.Value :=
  .object [("val", .string "x"), ("name", .string "b"), ("children", .array [])]

/-- An object that gives both a text and children, with another one inside. -/
def crowdedDocument : Json.Value :=
  .object [
    ("children", .array [crowdedPart]), ("colour", .bool true), ("name", .string "a"),
    ("val", .string "y")]

/-- What `crowdedDocument` gives. -/
def crowded : NodeObject :=
  .parent ⟨"a", none, some "y"⟩ [.parent ⟨"b", none, some "x"⟩ []]

theorem says_crowded : Says (.ofValue crowdedDocument) crowded := by
  have hPart : Says (.ofValue crowdedPart) (.parent ⟨"b", none, some "x"⟩ []) := by
    refine .parent (isObjectOf_ofValue _) ⟨?_, ?_, ?_, ?_⟩ ?_ .nil
    · exact .given (isTextOf_ofValue "b")
    · exact .absent
    · exact .gives (.given (isTextOf_ofValue "x"))
    · simp
    · rfl
  refine .parent (isObjectOf_ofValue _) ⟨?_, ?_, ?_, ?_⟩ ?_ (.cons hPart .nil)
  · exact .given (isTextOf_ofValue "a")
  · exact .absent
  · exact .gives (.given (isTextOf_ofValue "y"))
  · simp [Tree.skip]
  · rfl

/-- The object inside is refused before the one around it. -/
theorem ofJson_overfull_crowded : crowded.depth ≤ maxRoom ∧
    Node.ofJson crowdedDocument.compact = .error (Node.overfull "b") := by
  have hDepth : crowded.depth ≤ maxRoom := by decide
  have hText := Json.ofTokens_print .compact crowdedDocument
  obtain ⟨-, hRefused, -⟩ := ofJson_overfull hText says_crowded hDepth
  exact ⟨hDepth, hRefused (.parent ⟨"b", none, some "x"⟩ []) rfl⟩

end NodeObject

end FormDesign.Xml
