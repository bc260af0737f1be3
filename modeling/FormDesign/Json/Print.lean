import FormDesign.Json.Tree

/-!
# Printing values

A value is written as its tokens, with blanks between them that depend on the layout. The compact
layout has no blanks. The indented layout puts every item and member on a line of its own, two
columns further in than its bracket, and a blank after each colon; an empty list or object stays on
its line.
-/

namespace FormDesign.Json

/-- Where blanks are written. -/
inductive Layout
  | compact
  | indented
  deriving DecidableEq

namespace Layout

/-- What stands between a bracket or comma and a line's first token at `depth` open brackets. -/
def newline (depth : Nat) : Layout → List Char
  | compact => []
  | indented => '\n' :: List.replicate (2 * depth) ' '

/-- What stands after a colon. -/
def gap : Layout → List Char
  | compact => []
  | indented => [' ']

end Layout

/-- A token or the blanks between two tokens. -/
inductive Lexeme
  | token (t : Token)
  | blank (cs : List Char)

/-- The characters of a token or of blanks. -/
def Lexeme.chars : Lexeme → List Char
  | token t => t.chars
  | blank cs => cs

namespace Value

mutual

/-- The lexemes of a value inside `depth` brackets. -/
def lexemes (layout : Layout) (depth : Nat) : Value → List Lexeme
  | null => [.token (.word .null)]
  | bool true => [.token (.word .true)]
  | bool false => [.token (.word .false)]
  | number (.int n) => [.token (.number (Tree.numeralOf (.int n)))]
  | number (.float x) =>
    [.token (if x.isFinite then .number (Tree.numeralOf (.float x)) else .word .null)]
  | string s => [.token (.string (.ofString s))]
  | array [] => [.token .openArray, .token .closeArray]
  | array (item :: items) =>
    .token .openArray :: .blank (layout.newline (depth + 1)) :: lexemes layout (depth + 1) item ++
      itemLexemes layout (depth + 1) items ++
      [.blank (layout.newline depth), .token .closeArray]
  | object [] => [.token .openObject, .token .closeObject]
  | object ((key, value) :: members) =>
    .token .openObject :: .blank (layout.newline (depth + 1)) ::
      .token (.string (.ofString key)) :: .token .colon :: .blank layout.gap ::
      lexemes layout (depth + 1) value ++
      memberLexemes layout (depth + 1) members ++
      [.blank (layout.newline depth), .token .closeObject]

/-- The lexemes of the items after the first, each behind its comma. -/
def itemLexemes (layout : Layout) (depth : Nat) : List Value → List Lexeme
  | [] => []
  | item :: items =>
    .token .comma :: .blank (layout.newline depth) :: lexemes layout depth item ++
      itemLexemes layout depth items

/-- The lexemes of the members after the first, each behind its comma. -/
def memberLexemes (layout : Layout) (depth : Nat) : List (String × Value) → List Lexeme
  | [] => []
  | (key, value) :: members =>
    .token .comma :: .blank (layout.newline depth) :: .token (.string (.ofString key)) ::
      .token .colon :: .blank layout.gap :: lexemes layout depth value ++
      memberLexemes layout depth members

end

/-- The text of a value. -/
def print (layout : Layout) (v : Value) : String :=
  String.ofList ((v.lexemes layout 0).flatMap Lexeme.chars)

/-- The text of a value without blanks. -/
def compact (v : Value) : String :=
  v.print .compact

/-- The text of a value with one item or member a line. -/
def pretty (v : Value) : String :=
  v.print .indented

/-! ## Order of members -/

/-- Puts a member into members that are sorted by key, in front of those with the same key. -/
def insertMember (key : String) (value : Value) : List (String × Value) → List (String × Value)
  | [] => [(key, value)]
  | (k, v) :: members =>
    if k < key then (k, v) :: insertMember key value members else (key, value) :: (k, v) :: members

mutual

/-- The value with the members of every object sorted by key, those with the same key in their
order. -/
def sorted : Value → Value
  | array items => array (sortedItems items)
  | object members => object (sortedMembers members)
  | v => v

/-- The items, each with its members sorted. -/
def sortedItems : List Value → List Value
  | [] => []
  | item :: items => item.sorted :: sortedItems items

/-- The members, sorted by key, each with its members sorted. -/
def sortedMembers : List (String × Value) → List (String × Value)
  | [] => []
  | (key, value) :: members => insertMember key value.sorted (sortedMembers members)

end

end Value

end FormDesign.Json
