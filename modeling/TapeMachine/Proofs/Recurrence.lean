import TapeMachine.Proofs.Agreement
import TapeMachine.Proofs.Bounds
import TapeMachine.Proofs.Reaches
import TapeMachine.Proofs.TapeContent

/-! Machines that come back. Neither the step counter nor the extent of the tape has an influence on
what a machine does, so a machine that is in the same state, at the same place and on the same cells
as before goes round for ever, and its run diverges within every bound. -/
namespace TapeMachine.Spec
variable {spec : Spec} {mode : Mode} {c d : Config} {i j n : Nat}

/-- The result of a run that makes the calls in the log. -/
def outcome (spec : Spec) (log : Log) : Except MissingRule Verdict :=
  match log.failure? with
  | some e => .error e
  | none => .ok (spec.verdict log.final)

/-- A bounded run is as many calls as its bound allows. The calls that it leaves out, on a machine
that has halted, would do nothing. -/
theorem runFor_eq_steps (spec : Spec) (mode : Mode) (n : Nat) (c : Config) :
    spec.runFor mode n c = (spec.outcome (spec.steps mode n c), (spec.steps mode n c).final) := by
  induction n generalizing c with
  | zero => rfl
  | succ n ih =>
    cases running : spec.halted c with
    | true =>
      rw [runFor_of_halted running, steps_succ_of_ok (step_of_halted running)]
      exact (runFor_of_halted running n).symm.trans (ih c)
    | false =>
      rcases hs : spec.step mode c with ⟨e | o, d⟩
      · rw [runFor_succ_of_error running hs, steps_succ_of_error hs]
        rfl
      · rw [runFor_succ running hs, steps_succ_of_ok hs]
        exact ih d

section Agreement
variable (h : c.AgreeOn Set.univ d)
include h

lemma verdict_of_agreeOn : spec.verdict c = spec.verdict d := by
  have hcontent : c.tape.content = d.tape.content :=
    Tape.content_eq_of_read fun p => h.cells (Set.mem_univ p)
  rw [verdict_eq, verdict_eq, h.state, hcontent]

/-- Machines that look alike in all cells have the same results for ever, and they go on looking
alike. -/
lemma lockstep (spec : Spec) (mode : Mode) (n : Nat) :
    (spec.steps mode n c).results = (spec.steps mode n d).results ∧
      (spec.steps mode n c).final.AgreeOn Set.univ (spec.steps mode n d).final :=
  steps_of_agreeOn h fun _ _ => Set.mem_univ _

lemma runFor_of_agreeOn (spec : Spec) (mode : Mode) (n : Nat) :
    (spec.runFor mode n c).1 = (spec.runFor mode n d).1 := by
  obtain ⟨hresults, hfinal⟩ := lockstep h spec mode n
  have hfailure : (spec.steps mode n c).failure? = (spec.steps mode n d).failure? := by
    rw [Log.failure?, Log.failure?, hresults]
  rw [runFor_eq_steps, runFor_eq_steps, outcome, outcome, hfailure, verdict_of_agreeOn hfinal]

end Agreement

/-- Without a failure, calls that leave the machine running are a run that diverges. -/
lemma runFor_of_running (hf : (spec.steps mode n c).failure? = none)
    (running : spec.halted (spec.steps mode n c).final = false) :
    spec.runFor mode n c = (.ok .diverged, (spec.steps mode n c).final) := by
  rw [runFor_eq_steps, outcome, hf, verdict_eq_diverged_iff.2 running]

/-- What is diverging when it comes back to an earlier configuration diverges within every bound:
the rest of a bound after the later visit ends as it does after the earlier one, where it is part of
a smaller bound. -/
lemma diverged_of_return {a b : Config} (hij : i < j)
    (ha : spec.runFor mode i c = (.ok .diverged, a))
    (hb : spec.runFor mode j c = (.ok .diverged, b)) (hab : a.AgreeOn Set.univ b) (n : Nat) :
    (spec.runFor mode n c).1 = .ok .diverged := by
  induction n using Nat.strong_induction_on with
  | _ n ih =>
    rcases Nat.le_total n j with hle | hle
    · exact diverged_of_le hb hle
    · obtain ⟨m, rfl⟩ := Nat.exists_eq_add_of_le hle
      calc (spec.runFor mode (j + m) c).1
        _ = (spec.runFor mode m b).1 := by rw [runFor_add, hb, resume]
        _ = (spec.runFor mode m a).1 := (runFor_of_agreeOn hab spec mode m).symm
        _ = (spec.runFor mode (i + m) c).1 := by rw [runFor_add, ha, resume]
        _ = .ok .diverged := ih (i + m) (by omega)

/-- Two machines in the same state, with the head in the same place and the same symbols in all
cells, stay so, with the same results of calls and of bounded runs, whatever their counters say. So
if a machine is the same in this sense after `i` and after more than `i` calls of which none has
failed, and has not halted, then every bounded run of it diverges. -/
theorem diverges_of_repeat (spec : Spec) (mode : Mode) :
    (∀ c d : Config, c.state = d.state → c.head = d.head →
      (∀ p, c.tape.read p = d.tape.read p) → ∀ n,
      let c' := (spec.steps mode n c).final
      let d' := (spec.steps mode n d).final
      (spec.steps mode n c).results = (spec.steps mode n d).results ∧
      c'.state = d'.state ∧ c'.head = d'.head ∧ (∀ p, c'.tape.read p = d'.tape.read p) ∧
      (spec.run ⟨n, mode⟩ c).1 = (spec.run ⟨n, mode⟩ d).1) ∧
    ∀ input i j, i < j →
      let start := spec.initial input
      let a := (spec.steps mode i start).final
      let b := (spec.steps mode j start).final
      (spec.steps mode j start).failure? = none →
      a.state = b.state → a.head = b.head → (∀ p, a.tape.read p = b.tape.read p) →
      spec.halted b = false →
      ∀ n, (spec.run ⟨n, mode⟩ start).1 = .ok .diverged := by
  constructor
  · intro c d hstate hhead hcells n
    have h : c.AgreeOn Set.univ d := ⟨hstate, hhead, fun p _ => hcells p⟩
    obtain ⟨hresults, hfinal⟩ := lockstep h spec mode n
    exact ⟨hresults, hfinal.state, hfinal.head, fun p => hfinal.cells (Set.mem_univ p),
      runFor_of_agreeOn h spec mode n⟩
  · intro input i j hij start a b hf hstate hhead hcells running n
    have hab : a.AgreeOn Set.univ b := ⟨hstate, hhead, fun p _ => hcells p⟩
    have hb : spec.runFor mode j start = (.ok .diverged, b) := runFor_of_running hf running
    have ha : spec.runFor mode i start = (.ok .diverged, a) :=
      Prod.ext (diverged_of_le hb (Nat.le_of_lt hij)) (by rw [runFor_eq_steps])
    exact diverged_of_return hij ha hb hab n

/-- A machine that goes to and fro between two cells, and reaches the second of them on the way. -/
def pacing : Spec :=
  { ofDefaults {} with
    rules := (∅ : Rules).insert ("s", "[>") ⟨"s", "[>", .right⟩
      |>.insert ("s", "1") ⟨"t", "1", .right⟩
      |>.insert ("t", "u") ⟨"s", "u", .left⟩ }

theorem diverges_of_repeat_pacing :
    let a := (pacing.steps .strict 1 (pacing.initial ["1"])).final
    let b := (pacing.steps .strict 3 (pacing.initial ["1"])).final
    1 < 3 ∧ (pacing.steps .strict 3 (pacing.initial ["1"])).failure? = none ∧
    a.state = b.state ∧ a.head = b.head ∧ (∀ p, a.tape.read p = b.tape.read p) ∧
    a.steps ≠ b.steps ∧ a.tape.rightmost ≠ b.tape.rightmost ∧ pacing.halted b = false ∧
    (pacing.steps .strict 7 a).results = (pacing.steps .strict 7 b).results ∧
    ∀ n, (pacing.run ⟨n, .strict⟩ (pacing.initial ["1"])).1 = .ok .diverged := by
  intro a b
  have hf : (pacing.steps .strict 3 (pacing.initial ["1"])).failure? = none := by decide +kernel
  have hstate : a.state = b.state := by decide +kernel
  have hhead : a.head = b.head := by decide +kernel
  have htape : a.tape.visit 2 = b.tape := by decide +kernel
  have hcells : ∀ p, a.tape.read p = b.tape.read p := fun p => by
    rw [← htape, Tape.read_visit]
  have running : pacing.halted b = false := by decide +kernel
  obtain ⟨hlockstep, hrepeat⟩ := diverges_of_repeat pacing .strict
  exact ⟨by decide, hf, hstate, hhead, hcells, by decide +kernel, by decide +kernel, running,
    (hlockstep a b hstate hhead hcells 7).1,
    hrepeat ["1"] 1 3 (by decide) hf hstate hhead hcells running⟩

end TapeMachine.Spec
