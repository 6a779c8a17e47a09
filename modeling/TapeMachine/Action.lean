import TapeMachine.Text.WhiteSpace

/-! Symbols, states and moves of a single-tape machine, and the action that a rule prescribes. -/
namespace TapeMachine

/-- A tape symbol is any token; two symbols are the same when their texts are. -/
abbrev Symbol := String

/-- The name of a control state. -/
abbrev State := String

inductive Move where
  | left
  | right
  | stay
  deriving DecidableEq, Repr

/-- What a rule makes the machine do: write, move the head, and change the state. -/
structure Action where
  next : State
  write : Symbol
  move : Move
  deriving DecidableEq, Repr

namespace Move

def all : List Move := [left, right, stay]

def letter : Move → String
  | left => "L"
  | right => "R"
  | stay => "S"

/-- The upper-case words that a description may use for a move. -/
def spellings : Move → List String
  | left => ["L", "LEFT", "<"]
  | right => ["R", "RIGHT", ">"]
  | stay => ["S", "STAY", "-", "0"]

/-- Read a move from one of its spellings. The ASCII case of letters and white space at the ends
do not matter. -/
def ofSpelling? (token : String) : Option Move :=
  let word := String.ofList ((Text.trim token.toList).map Char.toUpper)
  all.find? fun m => m.spellings.contains word

/-- The head after the move; there is nothing to the left of cell 0. -/
def apply : Move → Nat → Nat
  | left, head => head - 1
  | right, head => head + 1
  | stay, head => head

@[simp] theorem apply_left (head : Nat) : left.apply head = head - 1 := rfl

@[simp] theorem apply_right (head : Nat) : right.apply head = head + 1 := rfl

@[simp] theorem apply_stay (head : Nat) : stay.apply head = head := rfl

theorem apply_le (m : Move) (head : Nat) : m.apply head ≤ head + 1 := by
  cases m <;> simp only [apply] <;> omega

theorem le_apply (m : Move) (head : Nat) : head ≤ m.apply head + 1 := by
  cases m <;> simp only [apply] <;> omega

@[simp] theorem ofSpelling?_letter (m : Move) : ofSpelling? m.letter = some m := by
  cases m <;> decide

example : ofSpelling? "Right" = some right ∧ ofSpelling? "<" = some left ∧
    ofSpelling? "up" = none := by decide

end Move
end TapeMachine
