import TapeMachine.Description.Statement

/-! A machine written as a description: six directives and then one line for each rule, in
increasing order of state and symbol. -/
namespace TapeMachine.Description

def directiveLine (k : Keyword) (arguments : List String) : String :=
  "@" ++ " ".intercalate (k.name :: arguments)

def ruleLine (k : Situation) (a : Action) : String :=
  " ".intercalate [k.1, k.2, "->", a.next, a.write, a.move.letter]

def printLines (spec : Spec) : List String :=
  [directiveLine .blank [spec.blank], directiveLine .left [spec.left],
    directiveLine .start [spec.start], directiveLine .accept spec.accept,
    directiveLine .reject spec.reject, directiveLine .halt spec.halt] ++
    spec.listing.map fun (k, a) => ruleLine k a

/-- The description of a machine; every line ends with a line feed. -/
def print (spec : Spec) : String := String.join ((printLines spec).map (· ++ "\n"))

example : ruleLine ("s", "0") ⟨"h", "1", .stay⟩ = "s 0 -> h 1 S" := by decide +kernel

end TapeMachine.Description
