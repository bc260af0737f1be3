import FormDesign.Json.Record
import FormDesign.Json.Tree

/-!
# Reading trees

Readers of the parts of a text. A reader gets the *room* it has, the number of brackets that may
still be opened inside one another, and refuses to enter a bracket when there is none. What no
reader wants is passed over, and there nesting has no limit.
-/

namespace FormDesign.Json

/-- How many brackets may be open at a time in what is read. -/
def maxRoom : Nat := 127

namespace Tree

variable {α ρ : Type}

/-! ## Passing over -/

mutual

/-- Passes over a tree, which only needs to be well formed. -/
def skip : Tree → Except Fault Unit
  | null | bool _ | number _ => .ok ()
  | string s => s.skip
  | array items ending => do
    skipItems items
    ending.skipList
  | object members ending => do
    skipMembers members
    ending.skipObject
  | broken _ skipping => .error skipping
  | missing fault => .error fault

/-- Passes over items. -/
def skipItems : List Tree → Except Fault Unit
  | [] => .ok ()
  | item :: items => do
    skip item
    skipItems items

/-- Passes over members. -/
def skipMembers : List (StringToken × Tree) → Except Fault Unit
  | [] => .ok ()
  | (key, value) :: members => do
    key.skip
    skip value
    skipMembers members

end

/-! ## Leaves -/

/-- A text; `expected` names what is wanted. -/
def textAs (expected : String) : Tree → Except Fault String
  | string s => s.read
  | t => .error (t.mismatch expected)

/-- A text. -/
def text : Tree → Except Fault String :=
  textAs "a string"

/-- What `read` reads, or nothing where null stands. -/
def orNull (read : Tree → Except Fault α) : Tree → Except Fault (Option α)
  | null => .ok none
  | t => some <$> read t

/-! ## Lists -/

/-- A list whose items `read` reads. -/
def listOf (read : Tree → Except Fault α) : Tree → Except Fault (List α)
  | array items ending => do
    let items ← items.mapM read
    ending.readList
    return items
  | t => .error (t.mismatch "a sequence")

/-- What is said of a list where no bracket may be opened. -/
def noList : Tree → Except Fault (List α)
  | array _ _ => .error (.malformed .tooDeep)
  | t => .error (t.mismatch "a sequence")

/-- A list whose items are read with the room that is left inside it. -/
def list (read : Nat → Tree → Except Fault α) : Nat → Tree → Except Fault (List α)
  | 0 => noList
  | room + 1 => listOf (read room)

/-! ## Objects -/

/-- The members of an object whose values `read` reads; `expected` names what is wanted. -/
def entriesAs (expected : String) (read : Tree → Except Fault α) :
    Nat → Tree → Except Fault (List (String × α))
  | 0, object _ _ => .error (.malformed .tooDeep)
  | _ + 1, object members ending => do
    let members ← members.mapM fun (key, value) => do return (← key.read, ← read value)
    ending.readObject
    return members
  | _, t => .error (t.mismatch expected)

/-! ## Records -/

/-- A record, from an object or a list. -/
def recordOf (r : Record Tree ρ) : Tree → Except Fault ρ
  | object members ending =>
    r.keyed skip (members.map fun (key, value) => (key.read, value)) ending.readObject
  | array items ending =>
    r.positional items ending.readList fun
      | [] => ending.endList
      | _ :: _ => .error (.malformed .trailingCharacters)
  | t => .error (t.mismatch r.expected)

/-- What is said of a record where no bracket may be opened. -/
def noRecord (expected : String) : Tree → Except Fault ρ
  | array _ _ | object _ _ => .error (.malformed .tooDeep)
  | t => .error (t.mismatch expected)

/-- A record whose fields are read with the room that is left inside it. -/
def record (expected : String) (describe : Nat → Record Tree ρ) : Nat → Tree → Except Fault ρ
  | 0 => noRecord expected
  | room + 1 => recordOf (describe room)

/-! ## Choices -/

/-- One of the named alternatives: its name, or an object that maps its name to null. -/
def choice (choose : String → Except Fault α) : Nat → Tree → Except Fault α
  | _, string s => do choose (← s.read)
  | 0, object _ _ => .error (.malformed .tooDeep)
  | _ + 1, object [] ending =>
    match ending with
    | .unclosed => .error (.cut .object)
    | .unkeyed => .error (.malformed .key)
    | _ => .error (.malformed .value)
  | _ + 1, object ((key, value) :: members) ending => do
    let chosen ← choose (← key.read)
    match value with
    | null => pure ()
    | t => throw (t.mismatch "unit")
    match members, ending with
    | [], .closed => return chosen
    | [], .unclosed => throw (.cut .object)
    | _, _ => throw (.malformed .value)
  | _, missing fault => .error fault
  | _, _ => .error (.malformed .value)

/-! ## Values -/

/-- The whole value that stands here. -/
def value : Nat → Tree → Except Fault Value
  | _, null => .ok .null
  | _, bool b => .ok (.bool b)
  | _, number n => Value.number <$> readNumeral n
  | _, string s => Value.string <$> s.read
  | 0, array _ _ | 0, object _ _ => .error (.malformed .tooDeep)
  | room + 1, array items ending => do
    let items ← items.mapM (value room)
    ending.readList
    return .array items
  | room + 1, object members ending => do
    let members ← members.mapM fun (key, t) => do return (← key.read, ← value room t)
    ending.readObject
    return .object members
  | _, broken reading _ => .error reading
  | _, missing fault => .error fault

end Tree

/-- Reads a whole text: what `read` reads, with nothing after it. -/
def readText {α : Type} (read : Nat → Tree → Except Fault α) (text : String) : Except Fault α := do
  let (tree, rest) := Tree.ofTokens (tokens text)
  let a ← read maxRoom tree
  match rest with
  | [] => return a
  | _ :: _ => throw (.malformed .trailingCharacters)

end FormDesign.Json
