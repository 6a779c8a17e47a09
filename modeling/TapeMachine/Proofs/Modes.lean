import TapeMachine.Proofs.Bounds
import TapeMachine.Proofs.Reaches

/-! One run in normal and in strict mode. The two are the same up to the first missing rule; there
the strict run fails and leaves the machine as it is, and the normal run halts. -/
namespace TapeMachine.Spec
variable {spec : Spec} {c d : Config} {k n : Nat}

/-- The fall of a normal run into the halt state. -/
def fallen (spec : Spec) (c : Config) : Config := { c with state := spec.haltState }

lemma halted_fallen (hh : spec.halt ≠ []) (c : Config) : spec.halted (spec.fallen c) = true :=
  isHalting_haltState hh

/-- The verdict on a fallen machine is the one of the halt state, which may accept or reject too. -/
lemma verdict_fallen (hh : spec.halt ≠ []) (c : Config) : spec.verdict (spec.fallen c) =
    if spec.isAccept spec.haltState then .accept
    else if spec.isReject spec.haltState then .reject
    else .output c.tape.content := by
  have hhalt : spec.isHalt spec.haltState = true := by
    cases hs : spec.halt with
    | nil => exact absurd hs hh
    | cons q qs => simp [isHalt, haltState, hs]
  have hstate : (spec.fallen c).state = spec.haltState := rfl
  rw [verdict_eq, hstate, if_pos hhalt]
  rfl

/-- A run that comes to a missing rule falls there, and goes on with what is left of its bound. -/
lemma Reaches.runFor_fall (h : spec.Reaches k c d) (hd : spec.Missing d) (m : Nat) :
    spec.runFor .normal (k + (m + 1)) c = spec.runFor .normal m (spec.fallen d) := by
  rw [h.runFor_add, runFor_succ hd.1 (step_normal_of_missing hd.1 hd.2)]
  rfl

lemma Reaches.run_normal_of_missing (hh : spec.halt ≠ []) (h : spec.Reaches k c d) (hk : k < n)
    (hd : spec.Missing d) :
    spec.run ⟨n, .normal⟩ c = (.ok (spec.verdict (spec.fallen d)), spec.fallen d) := by
  obtain ⟨m, rfl⟩ := Nat.exists_eq_add_of_lt hk
  exact (h.runFor_fall hd m).trans (runFor_of_halted (halted_fallen hh d) m)

lemma Reaches.run_strict_of_missing (h : spec.Reaches k c d) (hk : k < n) (hd : spec.Missing d) :
    spec.run ⟨n, .strict⟩ c = (.error ⟨d.state, d.read⟩, d) := by
  obtain ⟨m, rfl⟩ := Nat.exists_eq_add_of_lt hk
  have hs := step_strict_of_missing hd.1 hd.2
  have hrun : spec.runFor .strict (k + (m + 1)) c = _ := h.runFor_add (m + 1)
  rwa [runFor_succ_of_error hd.1 hs] at hrun

/-- Only a strict run fails, even if a machine has no halt state to fall into. -/
lemma Runs.strict {mode : Mode} {r : Except MissingRule Verdict} {e : MissingRule}
    (h : spec.Runs mode n c r d) (hr : r = .error e) : mode = .strict := by
  induction h with
  | stop => cases hr
  | fail _ step =>
    cases Transition.of_step step
    rfl
  | go _ _ _ ih => exact ih hr

lemma strict_of_runFor_error {mode : Mode} {e : MissingRule}
    (h : spec.runFor mode n c = (.error e, d)) : mode = .strict :=
  (Runs.of_runFor h).strict rfl

/-- A run is the same in both modes, or it comes to a missing rule within its bound. -/
theorem run_both_or_missing (spec : Spec) (c : Config) (n : Nat) :
    (∃ k d, spec.Reaches k c d ∧ (k = n ∨ spec.halted d = true) ∧
      ∀ mode, spec.run ⟨n, mode⟩ c = (.ok (spec.verdict d), d)) ∨
    ∃ k d, spec.Reaches k c d ∧ k < n ∧ spec.Missing d := by
  obtain ⟨k, d, h, rfl | ⟨hk, hd | hd⟩⟩ := spec.exists_reaches n c
  · exact .inl ⟨k, d, h, .inl rfl, fun _ => h.run_self⟩
  · exact .inl ⟨k, d, h, .inr hd, fun _ => h.run_of_halted hd (Nat.le_of_lt hk)⟩
  · exact .inr ⟨k, d, h, hk, hd⟩

/-- Strict runs fail exactly where normal runs halt without having been told to. A run without a
missing rule is the same in both modes. At a missing rule the strict run leaves the machine as the
rules before it have made it, and the normal run changes nothing but the state. The strict run
fails whenever the normal one comes to a missing rule within its bound, and only then. -/
theorem strict_error_iff_missing {spec : Spec} (hh : spec.halt ≠ []) (c : Config) (n : Nat) :
    let normal := spec.run ⟨n, .normal⟩ c
    let strict := spec.run ⟨n, .strict⟩ c
    (∃ v, normal.1 = .ok v) ∧
    (∀ v, strict.1 = .ok v → normal.1 = .ok v ∧ normal.2 = strict.2) ∧
    (∀ e, strict.1 = .error e →
      spec.halted strict.2 = false ∧ strict.2.state = e.state ∧ strict.2.read = e.symbol ∧
      spec.action? e.state e.symbol = none ∧
      (∃ k < n, spec.Reaches k c strict.2 ∧ spec.step .strict strict.2 = (.error e, strict.2)) ∧
      normal.2.tape = strict.2.tape ∧ normal.2.head = strict.2.head ∧
      normal.2.steps = strict.2.steps ∧ normal.2.state = spec.haltState ∧
      spec.halted normal.2 = true ∧
      normal.1 = .ok (if spec.isAccept spec.haltState then .accept
        else if spec.isReject spec.haltState then .reject
        else .output strict.2.tape.content)) ∧
    ((∃ e, strict.1 = .error e) ↔
      ∃ k < n, spec.Missing (after spec.step (List.replicate k .normal) c)) := by
  intro normal strict
  rcases spec.run_both_or_missing c n with ⟨k, d, h, hd, hrun⟩ | ⟨k, d, h, hk, hd⟩
  · have hnormal : normal = (.ok (spec.verdict d), d) := hrun .normal
    have hstrict : strict = (.ok (spec.verdict d), d) := hrun .strict
    have hnone : ¬ ∃ j < n, spec.Missing (after spec.step (List.replicate j .normal) c) := by
      intro hm
      obtain ⟨j, hj, hm⟩ := hm
      refine h.not_missing (hd.imp_left fun hkn => ?_) hm
      rwa [List.length_replicate, hkn]
    rw [hnormal, hstrict]
    refine ⟨⟨_, rfl⟩, fun v hv => ⟨hv, rfl⟩, fun e he => ?_, ?_⟩
    · cases he
    · simp [hnone]
  · have hnormal : normal = (.ok (spec.verdict (spec.fallen d)), spec.fallen d) :=
      h.run_normal_of_missing hh hk hd
    have hstrict : strict = (.error ⟨d.state, d.read⟩, d) := h.run_strict_of_missing hk hd
    have hafter : after spec.step (List.replicate k .normal) c = d :=
      h.after_eq List.length_replicate
    rw [hnormal, hstrict]
    refine ⟨⟨_, rfl⟩, fun v hv => ?_, fun e he => ?_, ?_⟩
    · cases hv
    · cases he
      refine ⟨hd.1, rfl, rfl, hd.2, ⟨k, hk, h, step_strict_of_missing hd.1 hd.2⟩, rfl, rfl, rfl,
        rfl, halted_fallen hh d, ?_⟩
      rw [verdict_fallen hh]
    · exact iff_of_true ⟨_, rfl⟩ ⟨k, hk, hafter ▸ hd⟩

/-- A machine with one rule, whose halt state accepts too. -/
def stumbling : Spec :=
  { ofDefaults {} with
    accept := ["yes", "h"]
    rules := (∅ : Rules).insert ("s", "[>") ⟨"s", "[>", .right⟩ }

theorem strict_error_iff_missing_stumbling :
    stumbling.halt ≠ [] ∧
    stumbling.run ⟨2, .strict⟩ (stumbling.initial ["1"]) =
      (.error ⟨"s", "1"⟩, (stumbling.initial ["1"]).act ⟨"s", "[>", .right⟩) ∧
    (stumbling.run ⟨2, .normal⟩ (stumbling.initial ["1"])).1 = .ok .accept :=
  have hh : stumbling.halt ≠ [] := by decide
  have hs : stumbling.run ⟨2, .strict⟩ (stumbling.initial ["1"]) =
      (.error ⟨"s", "1"⟩, (stumbling.initial ["1"]).act ⟨"s", "[>", .right⟩) := by rfl
  have h := (strict_error_iff_missing hh (stumbling.initial ["1"]) 2).2.2.1 _ (congrArg Prod.fst hs)
  ⟨hh, hs, h.2.2.2.2.2.2.2.2.2.2⟩

end TapeMachine.Spec
