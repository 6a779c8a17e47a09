import TapeMachine.Proofs.Bounds
import TapeMachine.Proofs.Modes

/-! How many rules a bounded run applies. It applies at most as many as its bound allows, and all of
them if it diverges. A halting state that a rule leads to is reached within the number of rules, but
a fall into the halt state needs one more of the bound and is not counted. -/
namespace TapeMachine

/-- The result in a report is the output of a machine that has halted, and a slash for any other. -/
lemma Report.result_of_verdict (spec : Spec) (c : Config) :
    (Report.of spec c (spec.verdict c)).result =
      if spec.halted c then spec.output c else "/" := by
  have hresult : (Report.of spec c (spec.verdict c)).result = (spec.verdict c).text := rfl
  rw [hresult]
  cases halted : spec.halted c with
  | false =>
    rw [Spec.verdict_eq_diverged_iff.2 halted]
    rfl
  | true =>
    have hrunning : spec.status c ≠ .running := fun h => by
      rw [Spec.status_eq_running_iff, halted] at h
      cases h
    unfold Spec.verdict Spec.output
    cases hs : spec.status c with
    | running => exact absurd hs hrunning
    | accepted => rfl
    | rejected => rfl
    | halted => rfl

namespace Spec
variable {spec : Spec} {c d : Config} {mode : Mode} {k n : Nat} {v : Verdict}

lemma Transition.steps_le {r : StepResult} (h : spec.Transition c mode r d) :
    d.steps ≤ c.steps + 1 := by
  cases h with
  | rest => exact Nat.le_succ _
  | act => exact Nat.le_refl _
  | fall => exact Nat.le_succ _
  | fail => exact Nat.le_succ _

/-- No run applies more rules than its bound, whatever its result. -/
lemma Runs.steps_le {r : Except MissingRule Verdict} (h : spec.Runs mode n c r d) :
    d.steps ≤ c.steps + n := by
  induction h with
  | stop => exact Nat.le_add_right _ _
  | fail _ step =>
    have hle := (Transition.of_step step).steps_le
    omega
  | go _ step _ ih =>
    have hle := (Transition.of_step step).steps_le
    omega

theorem steps_runFor_le (spec : Spec) (mode : Mode) (n : Nat) (c : Config) :
    (spec.runFor mode n c).2.steps ≤ c.steps + n :=
  (Runs.of_runFor rfl).steps_le

lemma verdict_ne_diverged (h : spec.halted c = true) : spec.verdict c ≠ .diverged := by
  simp [verdict_eq_diverged_iff, h]

/-- A run that does not fail has applied rules until its bound was used up or the machine halted,
by a rule or by a fall. -/
lemma exists_steps_of_run (hh : spec.halt ≠ []) (h : spec.run ⟨n, mode⟩ c = (.ok v, d)) :
    ∃ k ≤ n, d.steps = c.steps + k ∧ (k = n ∨ spec.halted d = true) := by
  obtain ⟨k, e, hr, rfl | ⟨hk, he | he⟩⟩ := spec.exists_reaches n c
  · rw [hr.run_self] at h
    cases h
    exact ⟨k, Nat.le_refl k, hr.steps_eq, .inl rfl⟩
  · rw [hr.run_of_halted he (Nat.le_of_lt hk)] at h
    cases h
    exact ⟨k, Nat.le_of_lt hk, hr.steps_eq, .inr he⟩
  · cases mode with
    | normal =>
      rw [hr.run_normal_of_missing hh hk he] at h
      cases h
      exact ⟨k, Nat.le_of_lt hk, hr.steps_eq, .inr (halted_fallen hh e)⟩
    | strict =>
      rw [hr.run_strict_of_missing hk he] at h
      cases h

/-- The steps of a bounded run. The run applies no more rules than its bound, and exactly as many if
it diverges, which is when the machine has not halted; the report on it says the same. A missing
rule after `k` rules makes a normal run diverge within the bound `k` and halt within every larger
one, with `k` rules counted; a halting state after `k` rules ends every run within the bound `k`
or a larger one, with one and the same verdict. -/
theorem steps_of_run (hh : spec.halt ≠ []) (c : Config) :
    (∀ options v d, spec.run options c = (.ok v, d) →
      (∃ k ≤ options.maxSteps, d.steps = c.steps + k ∧
        (v = .diverged → k = options.maxSteps)) ∧
      (v = .diverged ↔ spec.halted d = false) ∧
      let report := Report.of spec d v
      (report.halted = true ↔ v ≠ .diverged) ∧ report.steps = d.steps ∧ report.state = d.state ∧
      report.result = if spec.halted d then spec.output d else "/") ∧
    (∀ k d, spec.Reaches k c d → spec.Missing d →
      spec.run ⟨k, .normal⟩ c = (.ok .diverged, d) ∧ d.steps = c.steps + k ∧
      ∀ n, k < n → ∃ v e, spec.run ⟨n, .normal⟩ c = (.ok v, e) ∧ v ≠ .diverged ∧
        e.steps = c.steps + k) ∧
    (∀ k d, spec.Reaches k c d → spec.halted d = true → ∃ v, v ≠ .diverged ∧
      ∀ n mode, k ≤ n → spec.run ⟨n, mode⟩ c = (.ok v, d)) := by
  refine ⟨fun options v d h => ?_, fun k d hr hd => ?_, fun k d hr hd => ?_⟩
  · have hv : spec.verdict d = v := verdict_of_runFor h
    have hdiverged : v = .diverged ↔ spec.halted d = false := by
      rw [← hv]
      exact verdict_eq_diverged_iff
    obtain ⟨k, hk, hsteps, hend⟩ := exists_steps_of_run hh h
    refine ⟨⟨k, hk, hsteps, fun hdiv => ?_⟩, hdiverged, ?_, rfl, rfl, ?_⟩
    · refine hend.resolve_right ?_
      rw [hdiverged.1 hdiv]
      exact Bool.false_ne_true
    · have hhalted : (Report.of spec d v).halted = spec.halted d := rfl
      rw [hhalted, Ne, hdiverged, Bool.not_eq_false]
    · rw [← hv]
      exact Report.result_of_verdict spec d
  · refine ⟨?_, hr.steps_eq, fun n hk => ?_⟩
    · rw [hr.run_self, verdict_eq_diverged_iff.2 hd.1]
    · exact ⟨_, _, hr.run_normal_of_missing hh hk hd, verdict_ne_diverged (halted_fallen hh d),
        hr.steps_eq⟩
  · exact ⟨_, verdict_ne_diverged hd, fun n mode hk => hr.run_of_halted hd hk⟩

theorem steps_of_run_stumbling :
    let start := stumbling.initial ["1"]
    let final := start.act ⟨"s", "[>", .right⟩
    let fallen := stumbling.fallen final
    stumbling.halt ≠ [] ∧ stumbling.run ⟨2, .normal⟩ start = (.ok .accept, fallen) ∧
    (∃ k ≤ 2, fallen.steps = start.steps + k ∧ (Verdict.accept = .diverged → k = 2)) ∧
    stumbling.Reaches 1 start final ∧ stumbling.Missing final ∧
    stumbling.run ⟨1, .normal⟩ start = (.ok .diverged, final) ∧
    (∃ v e, stumbling.run ⟨2, .normal⟩ start = (.ok v, e) ∧ v ≠ .diverged ∧
      e.steps = start.steps + 1) ∧
    stumbling.Reaches 0 fallen fallen ∧ stumbling.halted fallen = true ∧
    ∃ v, v ≠ .diverged ∧ ∀ n mode, 0 ≤ n → stumbling.run ⟨n, mode⟩ fallen = (.ok v, fallen) := by
  have hh : stumbling.halt ≠ [] := by decide
  have hrun : stumbling.run ⟨2, .normal⟩ (stumbling.initial ["1"]) = (.ok .accept,
      stumbling.fallen ((stumbling.initial ["1"]).act ⟨"s", "[>", .right⟩)) := by rfl
  have hrule : stumbling.action? "s" "[>" = some ⟨"s", "[>", .right⟩ := by rfl
  have hd : stumbling.Missing ((stumbling.initial ["1"]).act ⟨"s", "[>", .right⟩) :=
    ⟨by rfl, by rfl⟩
  intro start final fallen
  have hr : stumbling.Reaches 1 start final := .apply (by rfl) hrule (.refl final)
  have hstart := steps_of_run hh start
  have hmissing := hstart.2.1 1 final hr hd
  have hhalted := halted_fallen hh final
  exact ⟨hh, hrun, (hstart.1 _ _ _ hrun).1, hr, hd, hmissing.1, hmissing.2.2 2 (by decide),
    .refl fallen, hhalted, (steps_of_run hh fallen).2.2 0 fallen (.refl fallen) hhalted⟩

end Spec
end TapeMachine
