import Mathlib.Logic.Function.Basic
import Mathlib.Tactic.Lemma
import TapeMachine.Proofs.Calls

/-! The textbook machine, whose tape is a total function of the position, and the refinement of it
by the machine with a sparse tape: read as a function, the sparse tape never lets a caller see a
difference. -/
namespace TapeMachine

@[ext] structure Textbook where
  state : State
  cells : Nat → Symbol
  head : Nat
  steps : Nat

namespace Textbook

/-- The start: the marker in cell 0, the input after it, blanks elsewhere. -/
def initial (spec : Spec) (input : List Symbol) : Textbook where
  state := spec.start
  cells p := if p = 0 then spec.left else input[p - 1]?.getD spec.blank
  head := 0
  steps := 0

/-- Where the head stands after a move: one cell on, and never to the left of cell 0. -/
def moved (head : Nat) : Move → Nat
  | .left => if head = 0 then 0 else head - 1
  | .right => head + 1
  | .stay => head

/-- Carry out a rule. The cell under the head alone changes, and cell 0 never does. -/
def apply (c : Textbook) (a : Action) : Textbook where
  state := a.next
  cells := if c.head = 0 then c.cells else Function.update c.cells c.head a.write
  head := moved c.head a.move
  steps := c.steps + 1

/-- The reference step. A halted machine rests; a rule for the state and the symbol under the head
is applied; without one the machine takes the halt state, or the strict step fails. -/
def step (spec : Spec) (mode : Mode) (c : Textbook) : StepResult × Textbook :=
  if c.state ∈ spec.accept ∨ c.state ∈ spec.reject ∨ c.state ∈ spec.halt then (.ok none, c)
  else
    match spec.rules[(c.state, c.cells c.head)]?, mode with
    | some a, _ => (.ok (some a), c.apply a)
    | none, .normal => (.ok none, { c with state := spec.halt.headD "h" })
    | none, .strict => (.error ⟨c.state, c.cells c.head⟩, c)

lemma cells_apply (c : Textbook) (a : Action) (p : Nat) :
    (c.apply a).cells p = if p = c.head ∧ 0 < p then a.write else c.cells p := by
  by_cases h : c.head = 0
  · have hp : ¬ (p = c.head ∧ 0 < p) := by omega
    simp only [apply, h, if_true, if_neg (h ▸ hp)]
  · have hp : (p = c.head ∧ 0 < p) ↔ p = c.head := by omega
    simp only [apply, if_neg h, Function.update_apply, hp]

lemma moved_eq_apply (head : Nat) (m : Move) : moved head m = m.apply head := by
  cases m with
  | left => rw [moved, Move.apply_left]; split <;> omega
  | right => rfl
  | stay => rfl

end Textbook

namespace Config

/-- A configuration with its tape read as a total function. -/
def textbook (c : Config) : Textbook := ⟨c.state, c.tape.read, c.head, c.steps⟩

theorem textbook_act (c : Config) (a : Action) : (c.act a).textbook = c.textbook.apply a := by
  apply Textbook.ext
  · rfl
  · funext p
    have hw : (c.act a).tape.read p =
        if c.head = p ∧ c.head ≠ 0 then a.write else c.tape.read p := by
      rw [read_tape_act, Tape.read_write]
    have hc : (c.head = p ∧ c.head ≠ 0) ↔ (p = c.head ∧ 0 < p) := by omega
    rw [Textbook.cells_apply]
    simp only [textbook, hw, hc]
    rfl
  · exact (Textbook.moved_eq_apply c.head a.move).symm
  · rfl

end Config

namespace Spec

theorem textbook_initial (spec : Spec) (input : List Symbol) :
    (spec.initial input).textbook = Textbook.initial spec input := by
  apply Textbook.ext
  · rfl
  · funext p
    exact Tape.read_ofInput spec.left spec.blank input p
  · rfl
  · rfl

lemma halted_iff_mem (spec : Spec) (c : Config) :
    spec.halted c = true ↔ c.textbook.state ∈ spec.accept ∨ c.textbook.state ∈ spec.reject ∨
      c.textbook.state ∈ spec.halt := by
  simp [halted, isHalting, isAccept, isReject, isHalt, or_assoc, Config.textbook]

lemma not_mem_of_running {spec : Spec} {c : Config} (h : spec.halted c = false) :
    ¬ (c.textbook.state ∈ spec.accept ∨ c.textbook.state ∈ spec.reject ∨
      c.textbook.state ∈ spec.halt) := by
  rw [← spec.halted_iff_mem c, h]
  exact Bool.false_ne_true

/-- The rule for a configuration is the rule for the configuration read as a textbook one. -/
lemma rules_textbook (spec : Spec) (c : Config) :
    spec.rules[(c.textbook.state, c.textbook.cells c.textbook.head)]? =
      spec.action? c.state c.read := rfl

theorem textbook_step (spec : Spec) (mode : Mode) (c : Config) :
    Textbook.step spec mode c.textbook = Prod.map id Config.textbook (spec.step mode c) := by
  rcases hs : spec.step mode c with ⟨r, d⟩
  unfold Textbook.step
  cases Transition.of_step hs with
  | rest halted =>
    rw [if_pos ((spec.halted_iff_mem c).1 halted)]
    rfl
  | @act _ a running rule =>
    rw [if_neg (not_mem_of_running running), rules_textbook, rule]
    exact congrArg (Prod.mk _) (c.textbook_act a).symm
  | fall running missing =>
    rw [if_neg (not_mem_of_running running), rules_textbook, missing, List.headD_eq_head?_getD]
    rfl
  | fail running missing =>
    rw [if_neg (not_mem_of_running running), rules_textbook, missing]
    rfl

/-- The machine starts on the reference tape, and under every row of calls, in any mix of modes, it
answers as the textbook machine does and goes through the same configurations. -/
theorem refines_textbook (spec : Spec) (input : List Symbol) (modes : List Mode) :
    (spec.initial input).textbook = Textbook.initial spec input ∧
    trail (Textbook.step spec) modes (Textbook.initial spec input) =
      (trail spec.step modes (spec.initial input)).map fun (r, c) => (r, c.textbook) := by
  have hi := spec.textbook_initial input
  refine ⟨hi, ?_⟩
  rw [← hi]
  exact trail_map (P := fun _ => True) id Config.textbook
    (fun m c _ => spec.textbook_step m c) (fun _ _ _ => trivial) modes trivial

end Spec
end TapeMachine
