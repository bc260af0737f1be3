import FormDesign.Json.Fault

/-!
# Records

A record is read from an object by the names of its fields, in whatever order they come, or from a
list by their positions. The description of a record does not depend on where its fields are read
from: `χ` is the content of a field, still unread, and `ρ` what the record is read into.

* `Record.keyed` reads members, `Record.positional` reads items.
-/

namespace FormDesign.Json

/-- One field of a record. -/
structure Slot (χ ρ : Type) where
  /-- The name under which faults mention the field. -/
  name : String
  /-- Other keys that mean the same field. -/
  aliases : List String
  /-- Whether the field must be given. -/
  required : Bool
  /-- Reads the content and puts it into the record. -/
  fill : χ → ρ → Except Fault ρ

namespace Slot

variable {χ ρ α : Type}

/-- A field that need not be given. -/
def optional (name : String) (aliases : List String) (read : χ → Except Fault α) (put : α → ρ → ρ) :
    Slot χ ρ where
  name
  aliases
  required := false
  fill content record := do return put (← read content) record

/-- A field that must be given. -/
def mandatory (name : String) (aliases : List String) (read : χ → Except Fault α)
    (put : α → ρ → ρ) : Slot χ ρ :=
  { optional name aliases read put with required := true }

/-- Whether `key` means this field. -/
def Answers (slot : Slot χ ρ) (key : String) : Prop :=
  key = slot.name ∨ key ∈ slot.aliases

instance (slot : Slot χ ρ) (key : String) : Decidable (slot.Answers key) :=
  inferInstanceAs (Decidable (_ ∨ _))

end Slot

/-- A record: what it is called, its fields in order, and what it is before any is read. -/
structure Record (χ ρ : Type) where
  expected : String
  slots : List (Slot χ ρ)
  blank : ρ

/-- A number of elements, in words. -/
def describeElements (n : Nat) : String :=
  if n = 1 then "1 element" else s!"{n} elements"

namespace Record

variable {χ ρ : Type}

/-- The field that a key means. -/
def slot? (r : Record χ ρ) (key : String) : Option (Slot χ ρ) :=
  r.slots.find? fun slot => slot.Answers key

/-- Reads members in their order, given the names of the fields read so far. A field may be given
once; members that are no fields are passed over. -/
def fillMembers (r : Record χ ρ) (skip : χ → Except Fault Unit) :
    List String → ρ → List (Except Fault String × χ) → Except Fault (List String × ρ)
  | given, record, [] => .ok (given, record)
  | given, record, (key, content) :: members => do
    match r.slot? (← key) with
    | none =>
      -- Even what is passed over must be well formed.
      skip content
      r.fillMembers skip given record members
    | some slot =>
      if slot.name ∈ given then throw (.mismatch (.duplicateField slot.name))
      let record ← slot.fill content record
      r.fillMembers skip (slot.name :: given) record members

/-- Whether every field that must be given is among `given`. -/
def checkGiven (r : Record χ ρ) (given : List String) : Except Fault Unit :=
  match r.slots.find? fun slot => slot.required && !given.contains slot.name with
  | some slot => .error (.mismatch (.missingField slot.name))
  | none => .ok ()

/-- Reads an object: its members, its end, and then whether a field is missing. -/
def keyed (r : Record χ ρ) (skip : χ → Except Fault Unit) (members : List (Except Fault String × χ))
    (ending : Except Fault Unit) : Except Fault ρ := do
  let (given, record) ← r.fillMembers skip [] r.blank members
  ending
  r.checkGiven given
  return record

/-- Reads items into fields in order, from the field at `index` on. When the items run out, the list
must have ended, and the remaining fields stay as they are. Answers the record and the items that
are left over. -/
def fillItems (r : Record χ ρ) (ending : Except Fault Unit) (index : Nat) :
    List (Slot χ ρ) → ρ → List χ → Except Fault (ρ × List χ)
  | [], record, items => .ok (record, items)
  | slot :: slots, record, [] => do
    ending
    if slot.required then
      throw (.mismatch (.length index s!"{r.expected} with {describeElements r.slots.length}"))
    r.fillItems ending (index + 1) slots record []
  | slot :: slots, record, item :: items => do
    let record ← slot.fill item record
    r.fillItems ending (index + 1) slots record items

/-- Reads a list. What is left over is judged by `finish`. -/
def positional (r : Record χ ρ) (items : List χ) (ending : Except Fault Unit)
    (finish : List χ → Except Fault Unit) : Except Fault ρ := do
  let (record, rest) ← r.fillItems ending 0 r.slots r.blank items
  finish rest
  return record

end Record

end FormDesign.Json
