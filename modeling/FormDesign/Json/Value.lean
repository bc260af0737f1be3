import FormDesign.Decimal.Numeral

/-!
# JSON values

What a JSON text stands for. Members of an object keep the order in which they are written, and a
key may occur more than once; it is for a reader to say what that means. A number is an integer when
it is written as one and is neither too large nor a negative zero, and a double otherwise.
-/

namespace FormDesign.Json

/-- A number. -/
inductive Number
  | int (n : Int)
  | float (x : Float)
  deriving DecidableEq

/-- A JSON value. -/
inductive Value
  | null
  | bool (b : Bool)
  | number (n : Number)
  | string (s : String)
  | array (items : List Value)
  | object (members : List (String × Value))

instance : Inhabited Value := ⟨.null⟩

namespace Number

/-- The double nearest to a number. -/
def toFloat : Number → Float
  | int n => Float.ofInt n
  | float x => x

end Number

namespace Value

mutual

/-- How many brackets are open at the deepest place of a value. -/
def depth : Value → Nat
  | array items => 1 + depthItems items
  | object members => 1 + depthMembers members
  | _ => 0

/-- The depth of the deepest item. -/
def depthItems : List Value → Nat
  | [] => 0
  | item :: items => max item.depth (depthItems items)

/-- The depth of the deepest member. -/
def depthMembers : List (String × Value) → Nat
  | [] => 0
  | (_, value) :: members => max value.depth (depthMembers members)

end

end Value

end FormDesign.Json
