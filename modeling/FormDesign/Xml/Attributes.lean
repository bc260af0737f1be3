import FormDesign.Entries

/-!
# Attributes

The attributes of an element: a map from names to texts that remembers in which order its names were
first set.

* `get?_set`: looking a name up after a `set`.
* `keys_set`: a name that is set again keeps its place, a new one comes last.
-/

namespace FormDesign.Xml

/-- Attributes in the order in which their names were first set. -/
structure Attributes where
  entries : List (String × String)
  /-- No name occurs twice. -/
  nodup : (entries.map Prod.fst).Nodup
  deriving DecidableEq

namespace Attributes

/-- No attributes. -/
def empty : Attributes := ⟨[], by simp⟩

instance : Inhabited Attributes := ⟨empty⟩

/-- Gives `key` a text. A name that has one keeps its place. -/
def set (attrs : Attributes) (key value : String) : Attributes :=
  ⟨setEntry key value attrs.entries, nodup_setEntry key value attrs.nodup⟩

/-- The text of `key`. -/
def get? (attrs : Attributes) (key : String) : Option String :=
  (attrs.entries.find? fun entry => entry.1 = key).map Prod.snd

/-- The names, in order. -/
def keys (attrs : Attributes) : List String :=
  attrs.entries.map Prod.fst

/-- The number of names. -/
def size (attrs : Attributes) : Nat :=
  attrs.entries.length

/-- Whether there are none. -/
def isEmpty (attrs : Attributes) : Bool :=
  attrs.entries.isEmpty

/-- The attributes that result from setting each pair in turn. -/
def ofList (pairs : List (String × String)) : Attributes :=
  pairs.foldl (fun attrs pair => attrs.set pair.1 pair.2) empty

/-- A new name comes last, and one that is there keeps its place. -/
theorem keys_set (attrs : Attributes) (key value : String) :
    (attrs.set key value).keys =
      if key ∈ attrs.keys then attrs.keys else attrs.keys ++ [key] :=
  map_fst_setEntry key value attrs.entries

/-- Looking a name up after an attribute has been set. -/
theorem get?_set (attrs : Attributes) (key value k : String) :
    (attrs.set key value).get? k = if k = key then some value else attrs.get? k := by
  simp only [get?, set, find?_setEntry]
  split <;> rfl

end Attributes

end FormDesign.Xml
