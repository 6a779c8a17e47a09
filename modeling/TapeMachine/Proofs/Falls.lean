import Mathlib.Tactic.Lemma
import TapeMachine.Proofs.Modes

/-! What becomes of a machine that falls. Where no rule applies, a normal step takes the machine
into its halt state, and it is at rest there exactly if that state is one of those that halt it.
This is so if the machine has a halt state at all, or else if the usual one accepts or rejects. Any
other machine goes on from where it has fallen. -/
namespace TapeMachine.Spec
variable {spec : Spec} {c d : Config} {k n : Nat}

/-- A machine that has halted for good: no call does anything, whatever has been called before. -/
structure AtRest (spec : Spec) (c : Config) : Prop where
  halted : spec.halted c = true
  status : spec.status c ≠ .running
  still (modes : List Mode) (mode : Mode) : spec.step mode (after spec.step modes c) = (.ok none, c)

/-- The state that a machine falls into halts it: it is the first halt state, or the usual one,
which then has to be among the other halting states. -/
def FallsHalt (spec : Spec) : Prop := spec.halt ≠ [] ∨ "h" ∈ spec.accept ∨ "h" ∈ spec.reject

/-- No rule is ever missing, whatever the calls. -/
def NeverMissing (spec : Spec) (c : Config) : Prop :=
  ∀ modes, ¬ spec.Missing (after spec.step modes c)

lemma atRest_iff : spec.AtRest c ↔ spec.halted c = true := by
  constructor
  · exact AtRest.halted
  · intro halted
    refine ⟨halted, ?_, fun modes mode => ?_⟩
    · simp [status_eq_running_iff, halted]
    · rw [after_of_halted halted, step_of_halted halted]

lemma halted_fallen_iff (c : Config) : spec.halted (spec.fallen c) = true ↔ spec.FallsHalt := by
  have hstate : spec.halted (spec.fallen c) = spec.isHalting spec.haltState := rfl
  rw [hstate, FallsHalt]
  by_cases hh : spec.halt = []
  · simp [isHalting, isAccept, isReject, isHalt, haltState, hh]
  · simp [isHalting_haltState hh, hh]

/-- A normal step that applies no rule is taken by a machine that has halted, or it is a fall. -/
lemma rest_or_fall (h : spec.step .normal c = (.ok none, d)) :
    (spec.halted c = true ∧ d = c) ∨ (spec.Missing c ∧ d = spec.fallen c) := by
  cases Transition.of_step h with
  | rest halted => exact .inl ⟨halted, rfl⟩
  | fall running missing => exact .inr ⟨⟨running, missing⟩, rfl⟩

/-- The first rule that is missing is missing behind a row of rules. -/
lemma exists_reaches_missing {modes : List Mode} (h : spec.Missing (after spec.step modes c)) :
    ∃ k d, spec.Reaches k c d ∧ spec.Missing d := by
  induction modes generalizing c with
  | nil => exact ⟨0, c, .refl c, h⟩
  | cons m ms ih =>
    cases running : spec.halted c with
    | true =>
      rw [after_of_halted running, Missing, running] at h
      cases h.1
    | false =>
      cases rule : spec.action? c.state c.read with
      | none => exact ⟨0, c, .refl c, running, rule⟩
      | some a =>
        rw [after, step_of_action running rule] at h
        obtain ⟨k, d, hr, hd⟩ := ih h
        exact ⟨k + 1, d, .apply running rule hr, hd⟩

lemma NeverMissing.not_missing (h : spec.NeverMissing c) (hr : spec.Reaches k c d) :
    ¬ spec.Missing d := by
  have hafter : after spec.step (List.replicate k .normal) c = d :=
    hr.after_eq List.length_replicate
  exact hafter ▸ h _

/-- A normal run that diverges has applied a rule for each unit of its bound, unless it went on from
where it had fallen. -/
lemma reaches_of_diverged (hfall : spec.FallsHalt ∨ spec.NeverMissing c)
    (h : spec.run ⟨n, .normal⟩ c = (.ok .diverged, d)) : spec.Reaches n c d := by
  have running : spec.halted d = false := verdict_eq_diverged_iff.1 (verdict_of_runFor h)
  obtain ⟨k, e, hr, rfl | ⟨hk, he | he⟩⟩ := spec.exists_reaches n c
  · have hend : e = d := congrArg Prod.snd (hr.run_self.symm.trans h)
    exact hend ▸ hr
  · have hend : e = d :=
      congrArg Prod.snd ((hr.run_of_halted he (Nat.le_of_lt hk)).symm.trans h)
    rw [hend, running] at he
    cases he
  · obtain ⟨m, rfl⟩ := Nat.exists_eq_add_of_lt hk
    have halted : spec.halted (spec.fallen e) = true :=
      (halted_fallen_iff e).2 (hfall.resolve_right fun never => never.not_missing hr he)
    have hrun : spec.runFor .normal m (spec.fallen e) = (.ok .diverged, d) :=
      (hr.runFor_fall he m).symm.trans h
    have hend : spec.fallen e = d := by
      rw [runFor_of_halted halted] at hrun
      exact congrArg Prod.snd hrun
    rw [hend, running] at halted
    cases halted

/-- When an implicit halt really halts. Whatever has been called, a normal step that applies no rule
leaves the machine at rest, and a normal run that diverges has applied exactly as many rules as its
bound allows: each of the two holds of a machine exactly if the state it falls into halts it or no
rule is ever missing. -/
theorem falls_rest_iff (spec : Spec) (c : Config) :
    ((∀ modes d, spec.step .normal (after spec.step modes c) = (.ok none, d) → spec.AtRest d) ↔
      spec.FallsHalt ∨ spec.NeverMissing c) ∧
    ((∀ n d, spec.run ⟨n, .normal⟩ c = (.ok .diverged, d) →
        spec.Reaches n c d ∧ d.steps = c.steps + n) ↔
      spec.FallsHalt ∨ spec.NeverMissing c) := by
  constructor
  · constructor
    · intro rest
      by_cases hfall : spec.FallsHalt
      · exact .inl hfall
      refine .inr fun modes missing => hfall ?_
      have fall := rest modes _ (step_normal_of_missing missing.1 missing.2)
      exact (halted_fallen_iff _).1 fall.halted
    · intro hfall modes d hstep
      rw [atRest_iff]
      obtain ⟨halted, rfl⟩ | ⟨missing, rfl⟩ := rest_or_fall hstep
      · exact halted
      · exact (halted_fallen_iff _).2 (hfall.resolve_right fun never => never modes missing)
  · constructor
    · intro applied
      by_cases hfall : spec.FallsHalt
      · exact .inl hfall
      refine .inr fun modes missing => ?_
      obtain ⟨k, d, hr, hd⟩ := exists_reaches_missing missing
      -- The fall is the last thing that the bound `k + 1` allows, and it applies no rule.
      have running : spec.halted (spec.fallen d) = false :=
        Bool.eq_false_iff.2 fun halted => hfall ((halted_fallen_iff d).1 halted)
      have hrun : spec.run ⟨k + 1, .normal⟩ c = (.ok .diverged, spec.fallen d) := by
        rw [← verdict_eq_diverged_iff.2 running]
        exact hr.runFor_fall hd 0
      have hsteps : (spec.fallen d).steps = c.steps + k := hr.steps_eq
      have := (applied _ _ hrun).2
      omega
    · intro hfall n d hrun
      have hr := reaches_of_diverged hfall hrun
      exact ⟨hr, hr.steps_eq⟩

/-- Without a halt state, a machine that has fallen is still running, applies the next rule it
finds, and uses up a bound without having applied as many rules. -/
theorem relapsing_goes_on :
    let start := relapsing.initial ["1"]
    let fallen := relapsing.fallen start
    relapsing.step .normal start = (.ok none, fallen) ∧
    relapsing.halted fallen = false ∧ relapsing.status fallen = .running ∧
    relapsing.step .strict fallen =
      (.ok (some ⟨"yes", "[>", .right⟩), fallen.act ⟨"yes", "[>", .right⟩) ∧
    relapsing.run ⟨1, .normal⟩ start = (.ok .diverged, fallen) ∧ fallen.steps ≠ start.steps + 1 :=
  ⟨by rfl, by rfl, by rfl, by rfl, by rfl, by decide⟩

end TapeMachine.Spec
