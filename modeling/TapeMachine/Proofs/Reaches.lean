import Mathlib.Tactic.Lemma
import TapeMachine.Proofs.Calls
import TapeMachine.Run

/-! Rows of applied rules, and bounded runs as such rows: a run applies rules until its bound is
used up, the machine has halted, or no rule is found. -/
namespace TapeMachine.Spec

/-- `n` rules, applied one after the other, lead from one configuration to another. -/
inductive Reaches (spec : Spec) : Nat → Config → Config → Prop where
  | refl (c : Config) : Reaches spec 0 c c
  | apply {n : Nat} {c d : Config} {a : Action} (running : spec.halted c = false)
      (rule : spec.action? c.state c.read = some a) (rest : Reaches spec n (c.act a) d) :
      Reaches spec (n + 1) c d

/-- The machine has not halted, and there is no rule for its state and the symbol under its head. -/
def Missing (spec : Spec) (c : Config) : Prop :=
  spec.halted c = false ∧ spec.action? c.state c.read = none

/-- The verdict is decided by the state and, in a plain halt state, by the tape. -/
theorem verdict_eq (spec : Spec) (c : Config) : spec.verdict c =
    if spec.isAccept c.state then .accept
    else if spec.isReject c.state then .reject
    else if spec.isHalt c.state then .output c.tape.content
    else .diverged := by
  unfold verdict output status
  cases spec.isAccept c.state <;> cases spec.isReject c.state <;> cases spec.isHalt c.state <;> rfl

variable {spec : Spec} {c d e : Config} {mode : Mode} {k m n : Nat}

theorem Reaches.trans (h : spec.Reaches m c d) (h' : spec.Reaches n d e) :
    spec.Reaches (m + n) c e := by
  induction h with
  | refl => rwa [Nat.zero_add]
  | apply running rule _ ih =>
    rw [Nat.add_right_comm]
    exact .apply running rule (ih h')

/-- The step counter counts the rules applied. -/
theorem Reaches.steps_eq (h : spec.Reaches n c d) : d.steps = c.steps + n := by
  induction h with
  | refl => rfl
  | apply _ _ _ ih =>
    rw [ih, Config.steps_act]
    omega

/-- Calls on a machine that has halted do nothing. -/
lemma after_of_halted (h : spec.halted c = true) (modes : List Mode) :
    after spec.step modes c = c :=
  after_invariant (P := (· = c)) (fun m _ hs => by rw [hs, step_of_halted h]) modes rfl

/-- Step calls in a row apply the rules, whatever their modes. -/
theorem Reaches.after_eq (h : spec.Reaches n c d) {modes : List Mode} (hn : modes.length = n) :
    after spec.step modes c = d := by
  induction h generalizing modes with
  | refl =>
    cases List.length_eq_zero_iff.1 hn
    rfl
  | apply running rule _ ih =>
    cases modes with
    | nil => cases hn
    | cons m ms =>
      rw [after, step_of_action running rule]
      exact ih (Nat.succ.inj hn)

/-- Where a row of rules leads on, or to a machine that has halted, no rule is missing on it. -/
theorem Reaches.not_missing (h : spec.Reaches n c d) {modes : List Mode}
    (hd : modes.length < n ∨ spec.halted d = true) :
    ¬ spec.Missing (after spec.step modes c) := by
  induction h generalizing modes with
  | refl c =>
    have hc : spec.halted c = true := by simpa using hd
    rw [after_of_halted hc, Missing, hc]
    simp
  | apply running rule _ ih =>
    cases modes with
    | nil => simp [after, Missing, rule]
    | cons m ms =>
      rw [after, step_of_action running rule]
      exact ih (hd.imp_left Nat.lt_of_succ_lt_succ)

theorem Reaches.runFor_add (h : spec.Reaches k c d) (n : Nat) :
    spec.runFor mode (k + n) c = spec.runFor mode n d := by
  induction h with
  | refl => rw [Nat.zero_add]
  | apply running rule _ ih =>
    rw [Nat.add_right_comm, runFor_succ running (step_of_action running rule), ih]

/-- A run that reaches a machine that has halted ends there, in either mode and however large its
bound is. -/
theorem Reaches.run_of_halted (h : spec.Reaches k c d) (hd : spec.halted d = true) (hk : k ≤ n) :
    spec.run ⟨n, mode⟩ c = (.ok (spec.verdict d), d) := by
  obtain ⟨m, rfl⟩ := Nat.exists_eq_add_of_le hk
  exact (h.runFor_add m).trans (runFor_of_halted hd m)

/-- A run that uses up its bound ends there. -/
theorem Reaches.run_self (h : spec.Reaches n c d) :
    spec.run ⟨n, mode⟩ c = (.ok (spec.verdict d), d) :=
  h.runFor_add 0

/-- A machine applies `n` rules, or fewer until it has halted or a rule is missing. -/
theorem exists_reaches (spec : Spec) (n : Nat) (c : Config) :
    ∃ k d, spec.Reaches k c d ∧
      (k = n ∨ k < n ∧ (spec.halted d = true ∨ spec.Missing d)) := by
  induction n generalizing c with
  | zero => exact ⟨0, c, .refl c, .inl rfl⟩
  | succ n ih =>
    cases running : spec.halted c with
    | true => exact ⟨0, c, .refl c, .inr ⟨Nat.succ_pos n, .inl running⟩⟩
    | false =>
      cases rule : spec.action? c.state c.read with
      | none => exact ⟨0, c, .refl c, .inr ⟨Nat.succ_pos n, .inr ⟨running, rule⟩⟩⟩
      | some a =>
        obtain ⟨k, d, hr, hk⟩ := ih (c.act a)
        refine ⟨k + 1, d, .apply running rule hr, ?_⟩
        exact hk.imp (congrArg Nat.succ) (And.imp_left Nat.succ_lt_succ)

end TapeMachine.Spec
