import TapeMachine.Rules

/-! Machine specifications: the markers of the tape, the start state, the halting states in the
order in which they were declared, and the rules. -/
namespace TapeMachine

/-- The tokens a specification starts from before a description says otherwise. -/
structure Defaults where
  blank : Symbol := "u"
  left : Symbol := "[>"
  start : State := "s"
  accept : State := "yes"
  reject : State := "no"
  halt : State := "h"
  deriving DecidableEq, Repr

/-- A machine: what its blank cells and its cell 0 read as, where it starts, which states halt it,
and what it does in between. -/
structure Spec where
  blank : Symbol
  left : Symbol
  start : State
  accept : List State
  reject : List State
  halt : List State
  rules : Rules
  deriving DecidableEq

namespace Action

/-- A rule that reads the left-end marker has to write it back and move right. -/
def KeepsMarker (left : Symbol) (a : Action) : Prop := a.write = left ∧ a.move = .right

instance (left : Symbol) (a : Action) : Decidable (KeepsMarker left a) :=
  inferInstanceAs (Decidable (_ ∧ _))

end Action

namespace Spec

def ofDefaults (d : Defaults) : Spec :=
  ⟨d.blank, d.left, d.start, [d.accept], [d.reject], [d.halt], ∅⟩

variable (spec : Spec)

def isAccept (q : State) : Bool := spec.accept.contains q

def isReject (q : State) : Bool := spec.reject.contains q

def isHalt (q : State) : Bool := spec.halt.contains q

def isHalting (q : State) : Bool := spec.isAccept q || spec.isReject q || spec.isHalt q

/-- The state a machine falls into where no rule applies: the first halt state, or the usual one
if there is none. -/
def haltState : State := spec.halt.head?.getD ({} : Defaults).halt

/-- The action for a state and the symbol under the head, if there is a rule. -/
def action? (q : State) (s : Symbol) : Option Action := spec.rules[(q, s)]?

/-- Every rule, in increasing order of state and symbol. -/
def listing : List (Situation × Action) := spec.rules.toList

/-- The blank and the left-end marker differ, and every rule that reads the marker keeps it. -/
def WellMarked : Prop :=
  spec.blank ≠ spec.left ∧
    ∀ q a, spec.action? q spec.left = some a → a.KeepsMarker spec.left

theorem isHalting_haltState {spec : Spec} (h : spec.halt ≠ []) : spec.isHalting spec.haltState := by
  cases hs : spec.halt with
  | nil => exact absurd hs h
  | cons q qs => simp [isHalting, isHalt, haltState, hs]

end Spec
end TapeMachine
