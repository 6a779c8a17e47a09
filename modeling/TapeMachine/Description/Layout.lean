import TapeMachine.Description.Token

/-! The lines and tokens of a text, said without the grammar: the text is cut into lines, each line
ends before its first comment sign, and its tokens are the maximal runs without white space. -/
namespace TapeMachine.Description
open Text

/-- The part of a line before its first comment sign. -/
def beforeComment (line : List Placed) : List Placed := line.takeWhile (·.char != '#')

def lineTokens (line : List Placed) : List Token :=
  (runs (!isWhiteSpace ·.char) (beforeComment line)).filterMap fun
    | [] => none
    | p :: run => some (.ofRun p run)

def layout (text : List Char) : List (List Token) := (lines (place text)).map lineTokens

def lineCount (text : List Char) : Nat := (lines (place text)).length

@[simp] theorem length_layout (text : List Char) : (layout text).length = lineCount text := by
  simp [layout, lineCount]

example : layout " a\u2028b#c\r\n\rd".toList = [[⟨1, "a"⟩, ⟨5, "b"⟩], [], [⟨11, "d"⟩]] := by
  decide +kernel

end TapeMachine.Description
