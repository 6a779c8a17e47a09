import Mathlib.Tactic.Lemma
import TapeMachine.Proofs.TapeReading
import TapeMachine.Steps

/-! Everything a single step can do, and step calls in a row, each in a mode of its own. A call
that fails does not end the row. The trail of a row keeps what every call gave and the machine
after it, so machines with equal trails cannot be told apart by whoever calls them. -/
namespace TapeMachine

section Row
variable {ρ ρ' σ σ' : Type}

/-- What every call gave, and the state after it. -/
def trail (step : Mode → σ → ρ × σ) : List Mode → σ → List (ρ × σ)
  | [], _ => []
  | m :: ms, s => step m s :: trail step ms (step m s).2

def after (step : Mode → σ → ρ × σ) : List Mode → σ → σ
  | [], s => s
  | m :: ms, s => after step ms (step m s).2

/-- What every call keeps, a row of calls keeps. -/
theorem after_invariant {step : Mode → σ → ρ × σ} {P : σ → Prop}
    (hstep : ∀ m s, P s → P (step m s).2) (ms : List Mode) {s : σ} (h : P s) :
    P (after step ms s) := by
  induction ms generalizing s with
  | nil => exact h
  | cons m ms ih => exact ih (hstep m s h)

/-- A view that commutes with every call, on states that satisfy an invariant, carries one trail
to the other. -/
theorem trail_map {step : Mode → σ → ρ × σ} {step' : Mode → σ' → ρ' × σ'} {P : σ → Prop}
    (f : ρ → ρ') (view : σ → σ')
    (hview : ∀ m s, P s → step' m (view s) = Prod.map f view (step m s))
    (hstep : ∀ m s, P s → P (step m s).2) (ms : List Mode) {s : σ} (h : P s) :
    trail step' ms (view s) = (trail step ms s).map (Prod.map f view) := by
  induction ms generalizing s with
  | nil => rfl
  | cons m ms ih =>
    have hv := hview m s h
    have hi := ih (hstep m s h)
    simp only [trail, List.map_cons, hv, Prod.map_snd, hi]

end Row

namespace Spec

/-- Everything a step can do, with the conditions under which it does it. -/
inductive Transition (spec : Spec) (c : Config) : Mode → StepResult → Config → Prop where
  | rest {mode : Mode} (halted : spec.halted c = true) : Transition spec c mode (.ok none) c
  | act {mode : Mode} {a : Action} (running : spec.halted c = false)
      (rule : spec.action? c.state c.read = some a) :
      Transition spec c mode (.ok (some a)) (c.act a)
  | fall (running : spec.halted c = false) (missing : spec.action? c.state c.read = none) :
      Transition spec c .normal (.ok none) { c with state := spec.haltState }
  | fail (running : spec.halted c = false) (missing : spec.action? c.state c.read = none) :
      Transition spec c .strict (.error ⟨c.state, c.read⟩) c

variable {spec : Spec} {c d : Config} {mode : Mode} {r : StepResult}

theorem Transition.of_step (h : spec.step mode c = (r, d)) : spec.Transition c mode r d := by
  cases hh : spec.halted c with
  | true =>
    rw [step_of_halted hh] at h
    cases h
    exact .rest hh
  | false =>
    cases ha : spec.action? c.state c.read with
    | some a =>
      rw [step_of_action hh ha] at h
      cases h
      exact .act hh ha
    | none =>
      cases mode with
      | normal =>
        rw [step_normal_of_missing hh ha] at h
        cases h
        exact .fall hh ha
      | strict =>
        rw [step_strict_of_missing hh ha] at h
        cases h
        exact .fail hh ha

theorem Transition.markers (h : spec.Transition c mode r d) :
    d.tape.left = c.tape.left ∧ d.tape.blank = c.tape.blank := by
  cases h with
  | rest => exact ⟨rfl, rfl⟩
  | act => exact ⟨Config.left_tape_act c _, Config.blank_tape_act c _⟩
  | fall => exact ⟨rfl, rfl⟩
  | fail => exact ⟨rfl, rfl⟩

/-- The tape keeps the marker and the blank of the specification. -/
theorem markers_after (spec : Spec) (input : List Symbol) (modes : List Mode) :
    (after spec.step modes (spec.initial input)).tape.left = spec.left ∧
      (after spec.step modes (spec.initial input)).tape.blank = spec.blank := by
  refine after_invariant
    (P := fun c : Config => c.tape.left = spec.left ∧ c.tape.blank = spec.blank)
    (fun mode c hc => ?_) modes ⟨Tape.left_ofInput _ _ input, Tape.blank_ofInput _ _ input⟩
  have hstep : spec.Transition c mode _ (spec.step mode c).2 := .of_step rfl
  exact ⟨hstep.markers.1.trans hc.1, hstep.markers.2.trans hc.2⟩

theorem Transition.head_le (h : spec.Transition c mode r d) : d.head ≤ c.head + 1 := by
  cases h with
  | rest => exact Nat.le_succ _
  | @act _ a => exact a.move.apply_le c.head
  | fall => exact Nat.le_succ _
  | fail => exact Nat.le_succ _

/-- A step leaves every cell alone but the one under the head. -/
theorem Transition.read_of_ne (h : spec.Transition c mode r d) {p : Nat} (hp : p ≠ c.head) :
    d.tape.read p = c.tape.read p := by
  cases h with
  | rest => rfl
  | act => exact Config.read_tape_act_of_ne hp _
  | fall => rfl
  | fail => rfl

end Spec
end TapeMachine
