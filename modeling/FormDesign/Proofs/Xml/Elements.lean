import FormDesign.Xml.Node
import Mathlib.Data.List.Basic
import Mathlib.Tactic.Common

/-!
# The elements of a tree

A tree of elements as the list of all its elements in the order of their opening tags, and as a
tree whose texts and attribute values are changed one by one.

## Main definitions

* `Node.elements`: all elements of a tree, an element before those inside it;
* `Node.named`: those of them that have certain names;
* `Node.mapTexts`: the tree with every text and every attribute value changed;
* `Node.childrenAt`: the elements inside the one that a path of names leads to;
* `Node.HasEntries`: what the attributes of an element are, and which keys they may have.

## Main results

* `Node.inductionOn`: induction on trees, with the hypothesis for every child;
* `elements_mapTexts`: the elements of a tree once its texts are changed;
* `HasEntries.attr?`: attributes that may be set one after another.
-/

namespace FormDesign.Xml

/-! ## Attributes -/

/-- After an entry has been set, there is no other that was not there before. -/
theorem mem_setEntry {key value : String} {entries : List (String × String)}
    {entry : String × String} (h : entry ∈ setEntry key value entries) :
    entry = (key, value) ∨ entry ∈ entries := by
  induction entries with
  | nil => simpa [setEntry] using h
  | cons first entries ih =>
    unfold setEntry at h
    split at h
    next heq =>
      rcases List.mem_cons.1 h with rfl | h
      · exact .inl (by rw [← heq])
      · exact .inr (List.mem_cons_of_mem _ h)
    next =>
      rcases List.mem_cons.1 h with rfl | h
      · exact .inr (List.mem_cons_self ..)
      · exact (ih h).imp_right (List.mem_cons_of_mem _)

/-- An entry whose key is new comes last. -/
theorem setEntry_of_not_mem {key : String} {entries : List (String × String)}
    (h : key ∉ entries.map Prod.fst) (value : String) :
    setEntry key value entries = entries ++ [(key, value)] := by
  induction entries with
  | nil => rfl
  | cons first entries ih =>
    rw [List.map_cons, List.mem_cons, not_or] at h
    obtain ⟨hFirst, hRest⟩ := h
    rw [setEntry, if_neg (Ne.symm hFirst), ih hRest, List.cons_append]

/-- Setting an entry and leaving a key out may be done in either order, and an entry that is left
out need not be set. -/
theorem filter_setEntry (key value k : String) (entries : List (String × String)) :
    ((setEntry key value entries).filter fun entry => entry.1 ≠ k) =
      if key = k then entries.filter fun entry => entry.1 ≠ k
      else setEntry key value (entries.filter fun entry => entry.1 ≠ k) := by
  induction entries with
  | nil => by_cases h : key = k <;> simp [setEntry, h]
  | cons first entries ih =>
    by_cases hSet : first.1 = key
    · -- the first entry is the one that is set, so it stays exactly when the key does
      by_cases h : key = k <;> simp [setEntry, hSet, h]
    · by_cases hFirst : first.1 = k <;> by_cases h : key = k <;>
        simp_all [setEntry]

namespace Attributes

/-- The entry that gives `key` a value, if there is one. -/
def given (key : String) (value : Option String) : List (String × String) :=
  (value.map fun v => (key, v)).toList

/-- Attributes are told apart by their entries. -/
theorem eq_of_entries_eq {a b : Attributes} (h : a.entries = b.entries) : a = b := by
  cases a
  cases b
  simpa using h

/-- The attributes with every value changed. -/
def mapValues (f : String → String) (attrs : Attributes) : Attributes where
  entries := attrs.entries.map fun entry => (entry.1, f entry.2)
  nodup := by simpa [Function.comp_def] using attrs.nodup

@[simp]
theorem mapValues_empty (f : String → String) : empty.mapValues f = empty := rfl

/-- Values may be rewritten before an attribute is set or after it. -/
theorem mapValues_set (f : String → String) (attrs : Attributes) (key value : String) :
    (attrs.set key value).mapValues f = (attrs.mapValues f).set key (f value) := by
  apply eq_of_entries_eq
  simp only [mapValues, set]
  induction attrs.entries with
  | nil => rfl
  | cons entry entries ih =>
    by_cases h : entry.1 = key <;> simp [setEntry, h, ih]

/-- The attributes without `key`. -/
def erase (key : String) (attrs : Attributes) : Attributes where
  entries := attrs.entries.filter fun entry => entry.1 ≠ key
  nodup := (List.filter_sublist.map Prod.fst).nodup attrs.nodup

/-- Leaving a key out once one has been set. -/
theorem erase_set (attrs : Attributes) (key value k : String) :
    (attrs.set key value).erase k =
      if key = k then attrs.erase k else (attrs.erase k).set key value := by
  have hEntries : ((attrs.set key value).erase k).entries =
      (setEntry key value attrs.entries).filter fun entry => entry.1 ≠ k := rfl
  apply eq_of_entries_eq
  rw [hEntries, filter_setEntry]
  split <;> rfl

/-- After an attribute has been set, there is no other that was not there before. -/
theorem mem_entries_set {attrs : Attributes} {key value : String} {entry : String × String}
    (h : entry ∈ (attrs.set key value).entries) :
    entry = (key, value) ∨ entry ∈ attrs.entries :=
  mem_setEntry h

end Attributes

namespace Node

/-- Induction on trees, with the hypothesis for every child. -/
@[elab_as_elim]
theorem inductionOn {P : Node → Prop} (node : Node)
    (empty : ∀ name attrs, P (.empty name attrs))
    (text : ∀ name attrs value, P (.text name attrs value))
    (parent : ∀ name attrs children, (∀ child ∈ children, P child) →
      P (.parent name attrs children)) : P node :=
  Node.rec (motive_1 := P) (motive_2 := fun nodes => ∀ child ∈ nodes, P child)
    empty text parent (fun _ h => absurd h List.not_mem_nil)
    (fun _ _ hNode hNodes child h => (List.mem_cons.1 h).elim (fun e => e ▸ hNode) (hNodes child))
    node

/-! ## Elements in order -/

mutual

/-- All elements of a tree in the order of their opening tags. -/
def elements : Node → List Node
  | empty name attrs => [empty name attrs]
  | text name attrs value => [text name attrs value]
  | parent name attrs children => parent name attrs children :: elementsAll children

/-- All elements of trees, one tree after another. -/
def elementsAll : List Node → List Node
  | [] => []
  | node :: nodes => elements node ++ elementsAll nodes

end

/-- The elements of trees are those of each tree, one after another. -/
theorem elementsAll_eq_flatMap (nodes : List Node) :
    elementsAll nodes = nodes.flatMap elements := by
  induction nodes with
  | nil => rfl
  | cons node nodes ih => rw [elementsAll, ih, List.flatMap_cons]

@[simp]
theorem elements_empty (name : String) (attrs : Attributes) :
    (empty name attrs).elements = [empty name attrs] := by rw [elements]

@[simp]
theorem elements_text (name : String) (attrs : Attributes) (value : String) :
    (text name attrs value).elements = [text name attrs value] := by rw [elements]

/-- An element that holds others comes before the elements inside. -/
@[simp]
theorem elements_parent (name : String) (attrs : Attributes) (children : List Node) :
    (parent name attrs children).elements =
      parent name attrs children :: children.flatMap elements := by
  rw [elements, elementsAll_eq_flatMap]

/-- The elements of a tree are its root and the elements of the trees inside. -/
theorem elements_eq_cons (node : Node) :
    node.elements = node :: node.children.flatMap elements := by
  cases node <;> simp [children]

/-- What holds of every element of a tree holds of its root and of every element inside. -/
theorem forall_elements_iff {P : Node → Prop} {node : Node} :
    (∀ n ∈ node.elements, P n) ↔
      P node ∧ ∀ child ∈ node.children, ∀ n ∈ child.elements, P n := by
  rw [elements_eq_cons, List.forall_mem_cons]
  simp only [List.mem_flatMap, forall_exists_index, and_imp]
  constructor
  · rintro ⟨hRoot, hInside⟩
    exact ⟨hRoot, fun child hChild n hn => hInside n child hChild hn⟩
  · rintro ⟨hRoot, hInside⟩
    exact ⟨hRoot, fun n child hChild hn => hInside child hChild n hn⟩

/-- The elements of a child are elements of the tree. -/
theorem mem_elements_of_mem_children {node child n : Node} (hChild : child ∈ node.children)
    (hn : n ∈ child.elements) : n ∈ node.elements := by
  rw [elements_eq_cons]
  exact List.mem_cons_of_mem _ (List.mem_flatMap.2 ⟨child, hChild, hn⟩)

/-- Setting an attribute leaves the children alone. -/
@[simp]
theorem children_attr (node : Node) (key value : String) :
    (node.attr key value).children = node.children :=
  children_withAttrs node _

/-- Setting an attribute leaves the name alone. -/
@[simp]
theorem name_attr (node : Node) (key value : String) : (node.attr key value).name = node.name :=
  name_withAttrs node _

@[simp]
theorem attrs_attr (node : Node) (key value : String) :
    (node.attr key value).attrs = node.attrs.set key value :=
  attrs_withAttrs node _

@[simp]
theorem name_attr? (node : Node) (key : String) (value : Option String) :
    (node.attr? key value).name = node.name := by
  cases value with
  | none => rfl
  | some value => exact name_attr node key value

@[simp]
theorem children_attr? (node : Node) (key : String) (value : Option String) :
    (node.attr? key value).children = node.children := by
  cases value with
  | none => rfl
  | some value => exact children_attr node key value

/-- An element without attributes answers to none. -/
theorem get?_empty (name key : String) : (empty name .empty).attrs.get? key = none := rfl

/-- Looking an attribute up once one has been set. -/
theorem get?_attr (node : Node) (key value k : String) :
    (node.attr key value).attrs.get? k = if k = key then some value else node.attrs.get? k := by
  rw [attrs_attr, Attributes.get?_set]

/-- Looking an attribute up once one may have been set. -/
theorem get?_attr? (node : Node) (key : String) (value : Option String) (k : String) :
    (node.attr? key value).attrs.get? k =
      if k = key then value.or (node.attrs.get? k) else node.attrs.get? k := by
  cases value with
  | none => exact (ite_self _).symm
  | some value => exact get?_attr node key value k

/-- An element whose attributes are these entries, with keys among these and in their order. -/
structure HasEntries (node : Node) (keys : List String) (entries : List (String × String)) :
    Prop where
  entries_eq : node.attrs.entries = entries
  keys_sublist : (entries.map Prod.fst).Sublist keys

/-- An element without attributes has no entries. -/
theorem hasEntries_empty (name : String) : (empty name .empty).HasEntries [] [] :=
  ⟨rfl, .slnil⟩

/-- An attribute that may be set, under a new key, comes last if it is. -/
theorem HasEntries.attr? {node : Node} {keys : List String} {entries : List (String × String)}
    (h : node.HasEntries keys entries) {key : String} (hNew : key ∉ keys)
    (value : Option String) :
    (node.attr? key value).HasEntries (keys ++ [key]) (entries ++ Attributes.given key value) := by
  cases value with
  | none =>
    refine ⟨h.entries_eq.trans (List.append_nil entries).symm, ?_⟩
    have hKeys := h.keys_sublist.trans (List.sublist_append_left keys [key])
    rwa [Attributes.given, Option.map_none, Option.toList_none, List.append_nil]
  | some value =>
    have hFree : key ∉ node.attrs.entries.map Prod.fst := by
      rw [h.entries_eq]
      exact fun hMem => hNew (h.keys_sublist.subset hMem)
    have hEntries : (node.attr key value).attrs.entries = entries ++ [(key, value)] := by
      rw [attrs_attr, ← h.entries_eq]
      exact setEntry_of_not_mem hFree value
    refine ⟨hEntries, ?_⟩
    rw [List.map_append]
    exact h.keys_sublist.append (List.Sublist.refl [key])

/-! ## Leaving attributes out -/

/-- The element without the attribute `key`. -/
def without (key : String) (node : Node) : Node :=
  node.withAttrs (node.attrs.erase key)

/-- An attribute that is set is lost if it is the one to be left out, and otherwise stays. -/
theorem without_attr (node : Node) (key value k : String) :
    (node.attr key value).without k =
      if key = k then node.without k else (node.without k).attr key value := by
  have hAttrs : (node.attr key value).without k =
      node.withAttrs ((node.attrs.set key value).erase k) := by
    cases node <;> rfl
  rw [hAttrs, Attributes.erase_set]
  split
  · rfl
  · cases node <;> rfl

/-- An attribute that may be set is lost if it is the one to be left out. -/
theorem without_attr? (node : Node) (key : String) (value : Option String) (k : String) :
    (node.attr? key value).without k =
      if key = k then node.without k else (node.without k).attr? key value := by
  cases value with
  | none => exact (ite_self _).symm
  | some value => exact without_attr node key value k

/-- The element with those directly inside it that have this name changed. -/
def onChildren (name : String) (f : Node → Node) : Node → Node
  | parent own attrs children =>
    parent own attrs (children.map fun child => if child.name = name then f child else child)
  | node => node

/-! ## Elements of certain names -/

/-- The elements of a tree that have one of the names, in order. -/
def named (names : List String) (node : Node) : List Node :=
  node.elements.filter (·.name ∈ names)

variable {names : List String} {node : Node}

/-- An element with one of the names stands before those inside it. -/
theorem named_of_mem (h : node.name ∈ names) :
    node.named names = node :: node.children.flatMap (named names) := by
  rw [named, elements_eq_cons, List.filter_cons_of_pos (by simpa using h), List.filter_flatMap]
  rfl

/-- An element whose name is not asked for gives what its children give. -/
theorem named_of_not_mem (h : node.name ∉ names) :
    node.named names = node.children.flatMap (named names) := by
  rw [named, elements_eq_cons, List.filter_cons_of_neg (by simpa using h), List.filter_flatMap]
  rfl

/-! ## Changing texts -/

mutual

/-- The tree with every text and every attribute value changed; names are left as they are. -/
def mapTexts (f : String → String) : Node → Node
  | empty name attrs => empty name (attrs.mapValues f)
  | text name attrs value => text name (attrs.mapValues f) (f value)
  | parent name attrs children => parent name (attrs.mapValues f) (mapTextsAll f children)

/-- Trees with every text and every attribute value changed. -/
def mapTextsAll (f : String → String) : List Node → List Node
  | [] => []
  | node :: nodes => mapTexts f node :: mapTextsAll f nodes

end

/-- The texts of trees are rewritten tree by tree. -/
theorem mapTextsAll_eq_map (f : String → String) (nodes : List Node) :
    mapTextsAll f nodes = nodes.map (mapTexts f) := by
  induction nodes with
  | nil => rfl
  | cons node nodes ih => rw [mapTextsAll, ih, List.map_cons]

@[simp]
theorem mapTexts_empty (f : String → String) (name : String) (attrs : Attributes) :
    (empty name attrs).mapTexts f = empty name (attrs.mapValues f) := by rw [mapTexts]

/-- A text that an element holds is rewritten together with its attributes. -/
@[simp]
theorem mapTexts_text (f : String → String) (name : String) (attrs : Attributes)
    (value : String) :
    (text name attrs value).mapTexts f = text name (attrs.mapValues f) (f value) := by
  rw [mapTexts]

/-- The texts of an element that holds others are rewritten in its attributes and in all of them. -/
@[simp]
theorem mapTexts_parent (f : String → String) (name : String) (attrs : Attributes)
    (children : List Node) :
    (parent name attrs children).mapTexts f =
      parent name (attrs.mapValues f) (children.map (mapTexts f)) := by
  rw [mapTexts, mapTextsAll_eq_map]

/-- Texts may be rewritten before an attribute is set or after it. -/
theorem mapTexts_attr (f : String → String) (node : Node) (key value : String) :
    (node.attr key value).mapTexts f = (node.mapTexts f).attr key (f value) := by
  cases node <;> simp [attr, withAttrs, attrs, Attributes.mapValues_set]

/-- Texts may be rewritten before an attribute is set, or left out, or after it. -/
theorem mapTexts_attr? (f : String → String) (node : Node) (key : String)
    (value : Option String) :
    (node.attr? key value).mapTexts f = (node.mapTexts f).attr? key (value.map f) := by
  cases value with
  | none => rfl
  | some value => exact mapTexts_attr f node key value

/-- Changing texts and then changing them back leaves the tree as it was. -/
theorem mapTexts_mapTexts_of_inverse {f g : String → String} (h : ∀ s, g (f s) = s)
    (node : Node) : (node.mapTexts f).mapTexts g = node := by
  have attrs_eq : ∀ attrs : Attributes, (attrs.mapValues f).mapValues g = attrs := by
    intro attrs
    apply Attributes.eq_of_entries_eq
    simp [Attributes.mapValues, Function.comp_def, h]
  induction node using inductionOn with
  | empty name attrs => rw [mapTexts_empty, mapTexts_empty, attrs_eq]
  | text name attrs value => rw [mapTexts_text, mapTexts_text, attrs_eq, h]
  | parent name attrs children ih =>
    rw [mapTexts_parent, mapTexts_parent, attrs_eq, List.map_map]
    -- the children come back one by one, so their list does
    congr 1
    conv_rhs => rw [← List.map_id children]
    exact List.map_congr_left ih

/-- Rewriting texts changes neither which elements there are nor their order. -/
theorem elements_mapTexts (f : String → String) (node : Node) :
    (node.mapTexts f).elements = node.elements.map (mapTexts f) := by
  induction node using inductionOn with
  | empty name attrs => simp
  | text name attrs value => simp
  | parent name attrs children ih =>
    simp only [mapTexts_parent, elements_parent, List.map_cons, List.cons.injEq, true_and,
      List.flatMap_map, List.map_flatMap]
    exact List.flatMap_congr ih

/-! ## Parts that a path leads to -/

/-- The elements directly inside the one that a path of names leads to. -/
def childrenAt (node : Node) (path : List String) : List Node :=
  match node.descend? path with
  | some found => found.children
  | none => []

end Node

end FormDesign.Xml
