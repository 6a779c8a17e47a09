import Mathlib.Tactic.Lemma
import TapeMachine.Run

/-! Bounded runs put end to end. A run that has not failed can be taken up again where it ended, and
the two parts together are one run with the sum of the bounds. So a failure or a machine that has
halted stays as it is under every larger bound. -/
namespace TapeMachine.Spec
variable {spec : Spec} {c d : Config} {mode : Mode} {a n : Nat} {v : Verdict} {e : MissingRule}
  {r : Except MissingRule Verdict}

/-- How a bounded run goes: it stops where its bound is used up or the machine has halted, it fails
with a step, or it goes on behind a step. -/
inductive Runs (spec : Spec) (mode : Mode) :
    Nat → Config → Except MissingRule Verdict → Config → Prop where
  | stop {n : Nat} {c : Config} (ended : n = 0 ∨ spec.halted c = true) :
      Runs spec mode n c (.ok (spec.verdict c)) c
  | fail {n : Nat} {c d : Config} {e : MissingRule} (running : spec.halted c = false)
      (step : spec.step mode c = (.error e, d)) : Runs spec mode (n + 1) c (.error e) d
  | go {n : Nat} {c next d : Config} {o : Option Action} {r : Except MissingRule Verdict}
      (running : spec.halted c = false) (step : spec.step mode c = (.ok o, next))
      (rest : Runs spec mode n next r d) : Runs spec mode (n + 1) c r d

theorem Runs.of_runFor (h : spec.runFor mode n c = (r, d)) : spec.Runs mode n c r d := by
  induction n generalizing c with
  | zero =>
    cases h
    exact .stop (.inl rfl)
  | succ n ih =>
    cases running : spec.halted c with
    | true =>
      rw [runFor_of_halted running] at h
      cases h
      exact .stop (.inr running)
    | false =>
      rcases hs : spec.step mode c with ⟨_ | _, next⟩
      · rw [runFor_succ_of_error running hs] at h
        cases h
        exact .fail running hs
      · rw [runFor_succ running hs] at h
        exact .go running hs (ih h)

/-- Take up a run again where it ended, unless it has failed. -/
def resume (spec : Spec) (mode : Mode) (n : Nat) :
    Except MissingRule Verdict × Config → Except MissingRule Verdict × Config
  | (.ok _, d) => spec.runFor mode n d
  | (.error e, d) => (.error e, d)

/-- A bound can be cut anywhere: at a halt, at a fall into the halt state, or at a failure. -/
theorem runFor_add (spec : Spec) (mode : Mode) (a b : Nat) (c : Config) :
    spec.runFor mode (a + b) c = spec.resume mode b (spec.runFor mode a c) := by
  induction a generalizing c with
  | zero =>
    rw [Nat.zero_add]
    rfl
  | succ a ih =>
    cases running : spec.halted c with
    | true =>
      rw [runFor_of_halted running, runFor_of_halted running, resume, runFor_of_halted running]
    | false =>
      rw [Nat.add_right_comm]
      rcases hs : spec.step mode c with ⟨_ | _, d⟩
      · rw [runFor_succ_of_error running hs, runFor_succ_of_error running hs, resume]
      · rw [runFor_succ running hs, runFor_succ running hs, ih]

/-- The verdict of a run that has not failed is the one on the machine it leaves. -/
lemma Runs.verdict_eq (h : spec.Runs mode n c r d) (hr : r = .ok v) : spec.verdict d = v := by
  induction h with
  | stop => exact Except.ok.inj hr
  | fail => cases hr
  | go _ _ _ ih => exact ih hr

lemma verdict_of_runFor (h : spec.runFor mode n c = (.ok v, d)) : spec.verdict d = v :=
  (Runs.of_runFor h).verdict_eq rfl

/-- Only a machine that has halted has a verdict other than that it diverges. -/
lemma halted_of_runFor (h : spec.runFor mode n c = (.ok v, d)) (hv : v ≠ .diverged) :
    spec.halted d = true := by
  rw [← verdict_of_runFor h] at hv
  simpa [verdict_eq_diverged_iff] using hv

lemma runFor_of_le (h : spec.runFor mode a c = (.ok v, d)) (hv : v ≠ .diverged) (hn : a ≤ n) :
    spec.runFor mode n c = (.ok v, d) := by
  obtain ⟨b, rfl⟩ := Nat.exists_eq_add_of_le hn
  rw [runFor_add, h, resume, runFor_of_halted (halted_of_runFor h hv), verdict_of_runFor h]

/-- A run that diverges with a bound has diverged with every smaller one: had it failed or halted
by then, it would have stayed so. -/
lemma diverged_of_le (h : spec.runFor mode a c = (.ok .diverged, d)) (hn : n ≤ a) :
    (spec.runFor mode n c).1 = .ok .diverged := by
  obtain ⟨b, rfl⟩ := Nat.exists_eq_add_of_le hn
  rcases hr : spec.runFor mode n c with ⟨e | v, d'⟩
  · rw [runFor_add, hr, resume] at h
    cases h
  · by_cases hv : v = .diverged
    · rw [hv]
    · rw [runFor_of_le hr hv hn] at h
      cases h
      exact absurd rfl hv

/-- Bounded runs compose. A failure stays the same under a larger bound; a run that has not failed
can be taken up again, and both parts together are the run with the sum of the bounds. So a verdict
on a halted machine, and the machine, are the same for every larger bound and when the machine is
run again, and what diverges with one bound diverges with every smaller one. -/
theorem runs_compose (spec : Spec) (mode : Mode) (c : Config) (a b : Nat) :
    (∀ e d, spec.run ⟨a, mode⟩ c = (.error e, d) → spec.run ⟨a + b, mode⟩ c = (.error e, d)) ∧
    (∀ v d, spec.run ⟨a, mode⟩ c = (.ok v, d) →
      spec.run ⟨b, mode⟩ d = spec.run ⟨a + b, mode⟩ c) ∧
    (∀ v d, spec.run ⟨a, mode⟩ c = (.ok v, d) → v ≠ .diverged →
      ∀ n, (a ≤ n → spec.run ⟨n, mode⟩ c = (.ok v, d)) ∧ spec.run ⟨n, mode⟩ d = (.ok v, d)) ∧
    ((spec.run ⟨a, mode⟩ c).1 = .ok .diverged →
      ∀ n ≤ a, (spec.run ⟨n, mode⟩ c).1 = .ok .diverged) := by
  have hadd : spec.run ⟨a + b, mode⟩ c = spec.resume mode b (spec.run ⟨a, mode⟩ c) :=
    spec.runFor_add mode a b c
  refine ⟨fun e d h => ?_, fun v d h => ?_, fun v d h hv n => ⟨runFor_of_le h hv, ?_⟩,
    fun h n hn => diverged_of_le (Prod.ext h rfl) hn⟩
  · rw [hadd, h, resume]
  · rw [hadd, h]
    rfl
  · rw [run, runFor_of_halted (halted_of_runFor h hv), verdict_of_runFor h]

/-- A machine without halt states: the state it falls into is not a halting one and has a rule. -/
def relapsing : Spec :=
  { ofDefaults {} with
    halt := []
    rules := (∅ : Rules).insert ("h", "[>") ⟨"yes", "[>", .right⟩ }

theorem runs_compose_relapsing :
    let start := relapsing.initial ["1"]
    let fallen := { start with state := "h" }
    let final := fallen.act ⟨"yes", "[>", .right⟩
    relapsing.run ⟨1, .strict⟩ start = (.error ⟨"s", "[>"⟩, start) ∧
    relapsing.run ⟨1 + 7, .strict⟩ start = (.error ⟨"s", "[>"⟩, start) ∧
    relapsing.run ⟨1, .normal⟩ start = (.ok .diverged, fallen) ∧
    relapsing.run ⟨1, .normal⟩ fallen = relapsing.run ⟨1 + 1, .normal⟩ start ∧
    relapsing.run ⟨2, .normal⟩ start = (.ok .accept, final) ∧ Verdict.accept ≠ .diverged ∧
    relapsing.run ⟨9, .normal⟩ start = (.ok .accept, final) ∧
    relapsing.run ⟨9, .normal⟩ final = (.ok .accept, final) ∧
    (relapsing.run ⟨0, .normal⟩ start).1 = .ok .diverged := by
  have hs : relapsing.run ⟨1, .strict⟩ (relapsing.initial ["1"]) =
      (.error ⟨"s", "[>"⟩, relapsing.initial ["1"]) := by rfl
  have h1 : relapsing.run ⟨1, .normal⟩ (relapsing.initial ["1"]) =
      (.ok .diverged, { relapsing.initial ["1"] with state := "h" }) := by rfl
  have h2 : relapsing.run ⟨2, .normal⟩ (relapsing.initial ["1"]) =
      (.ok .accept, Config.act { relapsing.initial ["1"] with state := "h" }
        ⟨"yes", "[>", .right⟩) := by rfl
  have hv : Verdict.accept ≠ .diverged := by decide
  intro start fallen final
  have strict := (runs_compose relapsing .strict start 1 7).1 _ _ hs
  have once := runs_compose relapsing .normal start 1 1
  have twice := (runs_compose relapsing .normal start 2 0).2.2.1 _ _ h2 hv 9
  exact ⟨hs, strict, h1, once.2.1 _ _ h1, h2, hv, twice.1 (by decide), twice.2,
    once.2.2.2 (congrArg Prod.fst h1) 0 (by decide)⟩

end TapeMachine.Spec
