import TapeMachine.Json.Value

/-! Writing JSON values, in one line or with one item or member to a line. -/
namespace TapeMachine.Json

def quoted (literal : List Char) : List Char := '"' :: literal ++ ['"']

mutual

def Value.compact : Value → List Char
  | .null => "null".toList
  | .bool b => (if b then "true" else "false").toList
  | .number literal => literal
  | .string literal => quoted literal
  | .array [] => ['[', ']']
  | .array (v :: vs) => '[' :: v.compact ++ compactItems vs
  | .object [] => ['{', '}']
  | .object ((k, v) :: ms) => '{' :: quoted k ++ ':' :: v.compact ++ compactMembers ms

/-- The items after the first, and the end of the array. -/
def compactItems : List Value → List Char
  | [] => [']']
  | v :: vs => ',' :: v.compact ++ compactItems vs

/-- The members after the first, and the end of the object. -/
def compactMembers : List (List Char × Value) → List Char
  | [] => ['}']
  | (k, v) :: ms => ',' :: quoted k ++ ':' :: v.compact ++ compactMembers ms

end

/-- A line end and the indentation of a line, two spaces for each level. -/
def newLine (level : Nat) : List Char := '\n' :: List.replicate (2 * level) ' '

mutual

/-- A value with each item or member on a line of its own; `level` is the depth of the value. -/
def Value.pretty (level : Nat) : Value → List Char
  | .null => "null".toList
  | .bool b => (if b then "true" else "false").toList
  | .number literal => literal
  | .string literal => quoted literal
  | .array [] => ['[', ']']
  | .array (v :: vs) =>
    '[' :: newLine (level + 1) ++ v.pretty (level + 1) ++ prettyItems level vs
  | .object [] => ['{', '}']
  | .object ((k, v) :: ms) =>
    '{' :: newLine (level + 1) ++ quoted k ++ ':' :: ' ' :: v.pretty (level + 1) ++
      prettyMembers level ms

/-- The items after the first, and the end of the array. -/
def prettyItems (level : Nat) : List Value → List Char
  | [] => newLine level ++ [']']
  | v :: vs => ',' :: newLine (level + 1) ++ v.pretty (level + 1) ++ prettyItems level vs

/-- The members after the first, and the end of the object. -/
def prettyMembers (level : Nat) : List (List Char × Value) → List Char
  | [] => newLine level ++ ['}']
  | (k, v) :: ms =>
    ',' :: newLine (level + 1) ++ quoted k ++ ':' :: ' ' :: v.pretty (level + 1) ++
      prettyMembers level ms

end

example : (Value.object [("a".toList, .array [.null, .number ['1']])]).compact =
    "\x7b\"a\":[null,1]\x7d".toList := by decide +kernel

end TapeMachine.Json
