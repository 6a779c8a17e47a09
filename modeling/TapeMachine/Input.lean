import TapeMachine.Spec

/-! The input of a machine, read from a line of text. -/
namespace TapeMachine

inductive InputError where
  | containsBlank (symbol : Symbol)
  | containsLeftMarker (symbol : Symbol)
  deriving DecidableEq, Repr

def InputError.message : InputError → String
  | .containsBlank s => "input contains the blank symbol `" ++ s ++ "`"
  | .containsLeftMarker s => "input contains the left-end marker `" ++ s ++ "`"

namespace Input

/-- The symbols that a text stands for: its words if it has white space inside, otherwise its
characters. -/
def candidates (raw : String) : List Symbol :=
  let cs := Text.trim raw.toList
  if cs.any Text.isWhiteSpace then (Text.words cs).map String.ofList else cs.map String.singleton

/-- Why a symbol cannot stand in the input of a machine. The blank is looked for first. -/
def refusal? (spec : Spec) (s : Symbol) : Option InputError :=
  if s = spec.blank then some (.containsBlank s)
  else if s = spec.left then some (.containsLeftMarker s)
  else none

/-- The input symbols of a text. The first symbol that cannot stand in the input is reported. -/
def symbols (spec : Spec) (raw : String) : Except InputError (List Symbol) :=
  let ss := candidates raw
  match ss.findSome? (refusal? spec) with
  | some e => .error e
  | none => .ok ss

/-- A text can be read exactly when none of its symbols is the blank or the marker. -/
theorem symbols_eq_ok_iff {spec : Spec} {raw : String} {ss : List Symbol} :
    symbols spec raw = .ok ss ↔
      ss = candidates raw ∧ ∀ s ∈ candidates raw, s ≠ spec.blank ∧ s ≠ spec.left := by
  have h : (candidates raw).findSome? (refusal? spec) = none ↔
      ∀ s ∈ candidates raw, s ≠ spec.blank ∧ s ≠ spec.left := by
    rw [List.findSome?_eq_none_iff]
    refine forall_congr' fun s => forall_congr' fun _ => ?_
    unfold refusal?
    split
    · simp [*]
    · split <;> simp [*]
  rw [← h]
  unfold symbols
  cases hf : (candidates raw).findSome? (refusal? spec) <;> simp [hf, eq_comm]

example : candidates "  one two\tthree " = ["one", "two", "three"] ∧
    candidates "01" = ["0", "1"] := by decide +kernel

end Input
end TapeMachine
