import TapeMachine.Text.WhiteSpace

/-! Characters with their place in a text, and the lines of a text. A line ends at a line feed, at
a carriage return, or at the two together; no other character ends a line. -/
namespace TapeMachine.Text

/-- A character and the UTF-8 byte offset at which it starts. -/
structure Placed where
  offset : Nat
  char : Char
  deriving DecidableEq, Repr

/-- The loop of `place`: the characters placed so far are kept in reverse. -/
def placeFrom : Nat → List Char → List Placed → List Placed
  | _, [], done => done.reverse
  | offset, c :: cs, done => placeFrom (offset + c.utf8Size) cs (⟨offset, c⟩ :: done)

/-- Give every character of a text its byte offset. -/
def place (cs : List Char) : List Placed := placeFrom 0 cs []

def chars (ps : List Placed) : List Char := ps.map Placed.char

@[simp] theorem chars_nil : chars [] = [] := rfl

@[simp] theorem chars_cons (p : Placed) (ps : List Placed) :
    chars (p :: ps) = p.char :: chars ps := rfl

@[simp] theorem chars_place (cs : List Char) : chars (place cs) = cs := by
  suffices h : ∀ offset done, chars (placeFrom offset cs done) = chars done.reverse ++ cs by
    simpa [place] using h 0 []
  induction cs with
  | nil => simp [placeFrom]
  | cons c cs ih => intro offset done; rw [placeFrom, ih]; simp [chars]

/-- The characters that a line can end with. -/
def isLineEnd (c : Char) : Bool := c == '\n' || c == '\r'

/-- The loop of `lines`: the line under way and the finished lines are kept in reverse. -/
def linesFrom : List Placed → List Placed → List (List Placed) → List (List Placed)
  | [], line, done => (line.reverse :: done).reverse
  | ⟨_, '\r'⟩ :: ⟨_, '\n'⟩ :: rest, line, done => linesFrom rest [] (line.reverse :: done)
  | p :: rest, line, done =>
    if isLineEnd p.char then linesFrom rest [] (line.reverse :: done)
    else linesFrom rest (p :: line) done

/-- The lines of a text without their line ends; the empty text has one empty line. -/
def lines (ps : List Placed) : List (List Placed) := linesFrom ps [] []

@[simp] theorem lines_nil : lines [] = [[]] := rfl

example : (lines (place "a\r\nb\rc\u2028d\n".toList)).map chars =
    ["a", "b", "c\u2028d", ""].map String.toList := by decide

example : (place "é#".toList).map Placed.offset = [0, 2] := by decide

end TapeMachine.Text
