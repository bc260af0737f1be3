import FormDesign.Json.Record

/-!
# Reading values

Readers of values that have already been read from a text as a whole. Nothing in them is malformed
and their nesting is within bounds, so only their shape can be at fault.
-/

namespace FormDesign.Json.Value

variable {α ρ : Type}

/-- A value as a reader finds it that has no use for it. -/
def found : Value → Found
  | null => .null
  | bool b => .boolean b
  | number n => .number n
  | string s => .string s
  | array _ => .sequence
  | object _ => .map

/-- The fault of a value that is not what `expected` names. -/
def mismatch (v : Value) (expected : String) : Fault :=
  .wrongType v.found expected

/-- A text. -/
def text : Value → Except Fault String
  | string s => .ok s
  | v => .error (v.mismatch "a string")

/-- What `read` reads, or nothing where null stands. -/
def orNull (read : Value → Except Fault α) : Value → Except Fault (Option α)
  | null => .ok none
  | v => some <$> read v

/-- A list whose items `read` reads. -/
def listOf (read : Value → Except Fault α) : Value → Except Fault (List α)
  | array items => items.mapM read
  | v => .error (v.mismatch "a sequence")

/-- A double. -/
def float : Value → Except Fault Float
  | number n => .ok n.toFloat
  | v => .error (v.mismatch "f64")

/-- A record from the members of an object. -/
def recordOfMembers (r : Record Value ρ) (members : List (String × Value)) : Except Fault ρ :=
  r.keyed (fun _ => .ok ()) (members.map fun (key, value) => (.ok key, value)) (.ok ())

/-- A record from the items of a list, of which there are no more than fields. -/
def recordOfItems (r : Record Value ρ) (items : List Value) : Except Fault ρ :=
  r.positional items (.ok ()) fun
    | [] => .ok ()
    | _ :: _ => .error (.mismatch
        (.length items.length s!"{describeElements r.slots.length} in sequence"))

/-- A record, from an object or a list. -/
def recordOf (r : Record Value ρ) : Value → Except Fault ρ
  | object members => recordOfMembers r members
  | array items => recordOfItems r items
  | v => .error (v.mismatch r.expected)

/-- One of the named alternatives: its name, or an object that maps its name to null or to what else
`bare` accepts. -/
def choice (bare : Value → Bool) (choose : String → Except Fault α) : Value → Except Fault α
  | string s => choose s
  | object [(key, value)] => do
    let chosen ← choose key
    match value with
    | null => return chosen
    | v => if bare v then return chosen else throw (v.mismatch "unit")
  | object _ => .error (.mismatch (.value .map "map with a single key"))
  | v => .error (v.mismatch "string or map")

/-- Whether a value is an object without members. -/
def isEmptyObject : Value → Bool
  | object [] => true
  | _ => false

end FormDesign.Json.Value
