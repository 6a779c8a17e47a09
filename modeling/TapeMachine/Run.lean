import TapeMachine.Config

/-! Bounded runs of a machine, the verdict on the configuration in which a run ends, and the
report that sums it up. -/
namespace TapeMachine

def defaultMaxSteps : Nat := 200000

structure RunOptions where
  maxSteps : Nat := defaultMaxSteps
  mode : Mode := .normal
  deriving DecidableEq, Repr

/-- The result of a bounded run. A run that uses up its steps diverges. -/
inductive Verdict where
  | accept
  | reject
  | output (content : String)
  | diverged
  deriving DecidableEq, Repr

/-- The verdict as a text: `yes`, `no`, the output, or a slash. -/
def Verdict.text : Verdict → String
  | .accept => "yes"
  | .reject => "no"
  | .output content => content
  | .diverged => "/"

namespace Spec

variable (spec : Spec)

/-- The verdict on a machine whose run has ended, halted or out of steps. -/
def verdict (c : Config) : Verdict :=
  match spec.status c with
  | .accepted => .accept
  | .rejected => .reject
  | .halted => .output (spec.output c)
  | .running => .diverged

/-- Let a machine take up to `n` steps, ending early when it has halted or a step fails. A fall
into the halt state uses up one of the `n`. -/
def runFor (mode : Mode) : Nat → Config → Except MissingRule Verdict × Config
  | 0, c => (.ok (spec.verdict c), c)
  | n + 1, c =>
    if spec.halted c then (.ok (spec.verdict c), c)
    else
      match spec.step mode c with
      | (.ok _, c) => runFor mode n c
      | (.error e, c) => (.error e, c)

def run (options : RunOptions) (c : Config) : Except MissingRule Verdict × Config :=
  spec.runFor options.mode options.maxSteps c

variable {spec} {c : Config} {mode : Mode}

/-- A machine that has halted is left alone, whatever the bound. -/
@[simp] theorem runFor_of_halted (h : spec.halted c) (n : Nat) :
    spec.runFor mode n c = (.ok (spec.verdict c), c) := by
  cases n <;> simp [runFor, h]

theorem runFor_succ {n : Nat} {d : Config} {o : Option Action} (h : spec.halted c = false)
    (hs : spec.step mode c = (.ok o, d)) : spec.runFor mode (n + 1) c = spec.runFor mode n d := by
  simp [runFor, h, hs]

/-- A run ends with the step that fails. -/
theorem runFor_succ_of_error {n : Nat} {d : Config} {e : MissingRule} (h : spec.halted c = false)
    (hs : spec.step mode c = (.error e, d)) : spec.runFor mode (n + 1) c = (.error e, d) := by
  simp [runFor, h, hs]

/-- Only a machine that is still running diverges. -/
theorem verdict_eq_diverged_iff : spec.verdict c = .diverged ↔ spec.halted c = false := by
  rw [← status_eq_running_iff, verdict]
  cases spec.status c <;> simp

end Spec

/-- How many cells a report and the last line of a trace show. -/
def displayedCells : Nat := 200

structure Report where
  result : String
  halted : Bool
  steps : Nat
  state : State
  tape : String
  deriving DecidableEq, Repr

/-- The report on a run that ended in `c` with the verdict `v`. -/
def Report.of (spec : Spec) (c : Config) (v : Verdict) : Report where
  result := v.text
  halted := spec.halted c
  steps := c.steps
  state := c.state
  tape := c.tape.render displayedCells

end TapeMachine
