import TapeMachine.Config

/-! Several steps in a row, with the record of what each of them did. -/
namespace TapeMachine

/-- What a step did: an action, nothing, or a failure. -/
abbrev StepResult := Except MissingRule (Option Action)

/-- The results of steps in a row, and the configuration after them. -/
structure Log where
  results : List StepResult
  final : Config

namespace Log

def actions (log : Log) : List Action :=
  log.results.filterMap fun
    | .ok a => a
    | .error _ => none

def failure? (log : Log) : Option MissingRule :=
  log.results.findSome? fun
    | .ok _ => none
    | .error e => some e

end Log

namespace Spec

variable (spec : Spec)

/-- The loop of `steps`: the results so far are kept in reverse. -/
def stepsFrom (mode : Mode) : Nat → Config → List StepResult → Log
  | 0, c, done => ⟨done.reverse, c⟩
  | n + 1, c, done =>
    match spec.step mode c with
    | (.ok o, c) => stepsFrom mode n c (.ok o :: done)
    | (.error e, c) => ⟨(.error e :: done).reverse, c⟩

/-- Take `n` steps, or fewer if one fails. -/
def steps (mode : Mode) (n : Nat) (c : Config) : Log := spec.stepsFrom mode n c []

variable {spec}

@[simp] theorem steps_zero (mode : Mode) (c : Config) : spec.steps mode 0 c = ⟨[], c⟩ := rfl

theorem stepsFrom_done (mode : Mode) (n : Nat) (c : Config) (done : List StepResult) :
    spec.stepsFrom mode n c done =
      ⟨done.reverse ++ (spec.steps mode n c).results, (spec.steps mode n c).final⟩ := by
  unfold steps
  induction n generalizing c done with
  | zero => simp [stepsFrom]
  | succ n ih =>
    simp only [stepsFrom]
    split
    · rw [ih, ih _ [_]]; simp
    · simp

theorem steps_succ_of_ok {mode : Mode} {n : Nat} {c d : Config} {o : Option Action}
    (h : spec.step mode c = (.ok o, d)) :
    spec.steps mode (n + 1) c =
      ⟨.ok o :: (spec.steps mode n d).results, (spec.steps mode n d).final⟩ := by
  rw [steps, stepsFrom, h]
  simp [stepsFrom_done]

theorem steps_succ_of_error {mode : Mode} {n : Nat} {c d : Config} {e : MissingRule}
    (h : spec.step mode c = (.error e, d)) :
    spec.steps mode (n + 1) c = ⟨[.error e], d⟩ := by
  rw [steps, stepsFrom, h]
  simp

end Spec
end TapeMachine
