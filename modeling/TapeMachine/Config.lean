import TapeMachine.Spec
import TapeMachine.Tape

/-! Configurations of a machine and the single step from one to the next. A step of a machine that
has halted does nothing; where no rule applies, the machine falls into its halt state, or the step
fails if the mode is strict. -/
namespace TapeMachine

/-- A machine at work: its state, its tape, the position of its head, and the number of rules
applied so far. -/
structure Config where
  state : State
  tape : Tape
  head : Nat
  steps : Nat
  deriving DecidableEq

/-- What happens where no rule applies: the machine halts, or the step fails. -/
inductive Mode where
  | normal
  | strict
  deriving DecidableEq, Repr

/-- The failure of a strict step: no rule for this state and this symbol. -/
structure MissingRule where
  state : State
  symbol : Symbol
  deriving DecidableEq, Repr

def MissingRule.message (e : MissingRule) : String :=
  s!"missing transition for ({e.state}, {e.symbol})"

/-- Whether a machine has halted, and in which kind of state. -/
inductive Status where
  | running
  | accepted
  | rejected
  | halted
  deriving DecidableEq, Repr

/-- The cells around the head, from `lo` to `hi`. -/
structure Window where
  lo : Nat
  hi : Nat
  head : Nat
  cells : List Symbol
  deriving DecidableEq, Repr

def Window.maxRadius : Nat := 1000

namespace Config

def read (c : Config) : Symbol := c.tape.read c.head

/-- Carry out an action: write, move the head, change the state, and count one step. Only a move
to the right reaches a new cell. -/
def act (c : Config) (a : Action) : Config :=
  let tape := c.tape.write c.head a.write
  let head := a.move.apply c.head
  { state := a.next
    tape := if a.move = .right then tape.visit head else tape
    head := head
    steps := c.steps + 1 }

/-- The cells within `radius` of the head, which is cut to the largest radius shown. -/
def window (c : Config) (radius : Nat) : Window :=
  let r := min radius Window.maxRadius
  { lo := c.head - r
    hi := c.head + r
    head := c.head
    cells := c.tape.segment (c.head - r) (c.head + r) }

@[simp] theorem steps_act (c : Config) (a : Action) : (c.act a).steps = c.steps + 1 := rfl

@[simp] theorem state_act (c : Config) (a : Action) : (c.act a).state = a.next := rfl

@[simp] theorem head_act (c : Config) (a : Action) : (c.act a).head = a.move.apply c.head := rfl

/-- An action changes the tape at most under the head. -/
theorem read_tape_act (c : Config) (a : Action) (p : Nat) :
    (c.act a).tape.read p = (c.tape.write c.head a.write).read p := by
  unfold act; dsimp only; split <;> rfl

end Config

namespace Spec

/-- The machine before its first step: in the start state, with the head on the marker and the
input in the cells from 1 on. -/
def initial (spec : Spec) (input : List Symbol) : Config :=
  ⟨spec.start, Tape.ofInput spec.left spec.blank input, 0, 0⟩

def halted (spec : Spec) (c : Config) : Bool := spec.isHalting c.state

/-- The kind of the present state. Accepting comes before rejecting, rejecting before halting. -/
def status (spec : Spec) (c : Config) : Status :=
  if spec.isAccept c.state then .accepted
  else if spec.isReject c.state then .rejected
  else if spec.isHalt c.state then .halted
  else .running

/-- The machine's answer: `yes` or `no` in an accepting or rejecting state, otherwise the content
of the tape. -/
def output (spec : Spec) (c : Config) : String :=
  match spec.status c with
  | .accepted => "yes"
  | .rejected => "no"
  | .halted | .running => c.tape.content

/-- One step: the action carried out, if any, or the failure, and the configuration afterwards. -/
def step (spec : Spec) (mode : Mode) (c : Config) : Except MissingRule (Option Action) × Config :=
  if spec.halted c then (.ok none, c)
  else
    match spec.action? c.state c.read with
    | some a => (.ok (some a), c.act a)
    | none =>
      match mode with
      | .normal => (.ok none, { c with state := spec.haltState })
      | .strict => (.error ⟨c.state, c.read⟩, c)

variable {spec : Spec} {c : Config}

theorem status_eq_running_iff : spec.status c = .running ↔ spec.halted c = false := by
  unfold status halted isHalting
  cases spec.isAccept c.state <;> cases spec.isReject c.state <;> cases spec.isHalt c.state <;> simp

theorem step_of_halted {mode : Mode} (h : spec.halted c) : spec.step mode c = (.ok none, c) := by
  simp [step, h]

theorem step_of_action {mode : Mode} {a : Action} (h : spec.halted c = false)
    (ha : spec.action? c.state c.read = some a) :
    spec.step mode c = (.ok (some a), c.act a) := by
  simp [step, h, ha]

theorem step_normal_of_missing (h : spec.halted c = false)
    (ha : spec.action? c.state c.read = none) :
    spec.step .normal c = (.ok none, { c with state := spec.haltState }) := by
  simp [step, h, ha]

theorem step_strict_of_missing (h : spec.halted c = false)
    (ha : spec.action? c.state c.read = none) :
    spec.step .strict c = (.error ⟨c.state, c.read⟩, c) := by
  simp [step, h, ha]

end Spec
end TapeMachine
