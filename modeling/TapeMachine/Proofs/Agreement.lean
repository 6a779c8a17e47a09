import Mathlib.Data.Set.Function
import TapeMachine.Proofs.Calls

/-! Two configurations that agree on a region of the tape. While the head stays inside the region,
step calls cannot tell them apart: they give the same results on both, and the configurations go on
agreeing. Cells outside the region, the step counter and the extent of the tape play no part. -/
namespace TapeMachine

/-- The same state, the same place of the head, and the same symbols in the cells of the region. -/
structure Config.AgreeOn (region : Set Nat) (c d : Config) : Prop where
  state : c.state = d.state
  head : c.head = d.head
  cells : region.EqOn c.tape.read d.tape.read

variable {region : Set Nat} {c d : Config}

lemma Tape.eqOn_write {t u : Tape} (h : region.EqOn t.read u.read) (p : Nat) (s : Symbol) :
    region.EqOn (t.write p s).read (u.write p s).read := by
  intro q hq
  rw [read_write, read_write, h hq]

namespace Config.AgreeOn

lemma read_eq (h : c.AgreeOn region d) (hc : c.head ∈ region) : c.read = d.read := by
  rw [Config.read, Config.read, ← h.head]
  exact h.cells hc

lemma act (h : c.AgreeOn region d) (a : Action) : (c.act a).AgreeOn region (d.act a) where
  state := rfl
  head := by rw [head_act, head_act, h.head]
  cells := by
    intro p hp
    rw [read_tape_act, read_tape_act, ← h.head]
    exact Tape.eqOn_write h.cells c.head a.write hp

end Config.AgreeOn

namespace Spec
variable {spec : Spec} {mode : Mode} {n : Nat}

lemma halted_of_agreeOn (h : c.AgreeOn region d) : spec.halted c = spec.halted d := by
  rw [halted, halted, h.state]

/-- With the head in the region, what a step does on one configuration it does on the other. -/
theorem Transition.of_agreeOn {e : Config} {r : StepResult} (ht : spec.Transition c mode r e)
    (h : c.AgreeOn region d) (hc : c.head ∈ region) :
    ∃ e', e.AgreeOn region e' ∧ spec.step mode d = (r, e') := by
  have hhalted : spec.halted c = spec.halted d := halted_of_agreeOn h
  have hread : c.read = d.read := h.read_eq hc
  cases ht with
  | rest halted => exact ⟨d, h, step_of_halted (hhalted ▸ halted)⟩
  | @act _ a running rule =>
    rw [h.state, hread] at rule
    exact ⟨d.act a, h.act a, step_of_action (hhalted ▸ running) rule⟩
  | fall running missing =>
    rw [h.state, hread] at missing
    exact ⟨{ d with state := spec.haltState }, ⟨rfl, h.head, h.cells⟩,
      step_normal_of_missing (hhalted ▸ running) missing⟩
  | fail running missing =>
    rw [h.state, hread] at missing ⊢
    exact ⟨d, h, step_strict_of_missing (hhalted ▸ running) missing⟩

/-- As long as the head has not left the region, calls give the same results on two configurations
that agree on it, and the configurations after them agree on it. -/
theorem steps_of_agreeOn (h : c.AgreeOn region d)
    (hc : ∀ k < n, (spec.steps mode k c).final.head ∈ region) :
    (spec.steps mode n c).results = (spec.steps mode n d).results ∧
      (spec.steps mode n c).final.AgreeOn region (spec.steps mode n d).final := by
  induction n generalizing c d with
  | zero => exact ⟨rfl, h⟩
  | succ n ih =>
    have hhead : c.head ∈ region := hc 0 (Nat.succ_pos n)
    rcases hs : spec.step mode c with ⟨r, c'⟩
    obtain ⟨d', hd, hs'⟩ := (Transition.of_step hs).of_agreeOn h hhead
    cases r with
    | error e =>
      rw [steps_succ_of_error hs, steps_succ_of_error hs']
      exact ⟨rfl, hd⟩
    | ok o =>
      have hrest : ∀ k < n, (spec.steps mode k c').final.head ∈ region := by
        intro k hk
        have hnext := hc (k + 1) (Nat.succ_lt_succ hk)
        rwa [steps_succ_of_ok hs] at hnext
      obtain ⟨hresults, hfinal⟩ := ih hd hrest
      rw [steps_succ_of_ok hs, steps_succ_of_ok hs', hresults]
      exact ⟨rfl, hfinal⟩

end Spec
end TapeMachine
