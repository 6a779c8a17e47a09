import TapeMachine.Proofs.Modes

/-! The log of a row of step calls. The actions that the calls have given are all that ever happened
to the tape, the head and the step counter: to carry them out again, one after the other and without
a look at the rules, leads to the same tape and the same place of the head. -/
namespace TapeMachine

/-- The action that a call has given, if it has given one. -/
def StepResult.given : StepResult → Option Action
  | .ok o => o
  | .error _ => none

namespace Tape

/-- Write the symbol of an action where the head stands, and move the head. Only a move to the right
reaches a new cell, and there is nothing to the left of cell 0. -/
def follow (place : Tape × Nat) (a : Action) : Tape × Nat :=
  let (t, head) := place
  let t := t.write head a.write
  match a.move with
  | .left => (t, head - 1)
  | .right => (t.visit (head + 1), head + 1)
  | .stay => (t, head)

/-- Carry out actions on a tape, with the head on cell 0 at first. -/
def replay (t : Tape) (actions : List Action) : Tape × Nat := actions.foldl follow (t, 0)

end Tape

namespace Spec
open StepResult

/-- The results of step calls in a row, each in a mode of its own, and the machine after them. -/
def calls (spec : Spec) (modes : List Mode) (c : Config) : Log where
  results := (trail spec.step modes c).map Prod.fst
  final := after spec.step modes c

/-- A normal call has met a missing rule, and no call from then on has given an action. -/
def FellLast (spec : Spec) (modes : List Mode) (c : Config) : Prop :=
  ∃ earlier later, modes = earlier ++ .normal :: later ∧ spec.Missing (after spec.step earlier c) ∧
    (spec.calls modes c).actions = (spec.calls earlier c).actions

variable {spec : Spec} {c d : Config} {mode : Mode} {modes : List Mode} {r : StepResult}

lemma actions_calls_cons (hs : spec.step mode c = (r, d)) (modes : List Mode) :
    (spec.calls (mode :: modes) c).actions = (given r).toList ++ (spec.calls modes d).actions := by
  rw [Log.actions, calls, trail, List.map_cons, hs]
  rcases r with _ | _ | _ <;> rfl

lemma final_calls_cons (hs : spec.step mode c = (r, d)) (modes : List Mode) :
    (spec.calls (mode :: modes) c).final = (spec.calls modes d).final := by
  rw [calls, after, hs]
  rfl

/-- What an action does to the tape and to the head has nothing to do with the state. -/
lemma follow_act (c : Config) (a : Action) :
    Tape.follow (c.tape, c.head) a = ((c.act a).tape, (c.act a).head) := by
  rcases a with ⟨next, write, _ | _ | _⟩ <;> rfl

/-- A step does to the tape and to the head what its action says, counts the action, and does
nothing else to them. -/
lemma Transition.follow (h : spec.Transition c mode r d) :
    (given r).toList.foldl Tape.follow (c.tape, c.head) = (d.tape, d.head) ∧
      d.steps = c.steps + (given r).toList.length := by
  cases h with
  | rest => exact ⟨rfl, rfl⟩
  | act => exact ⟨follow_act c _, rfl⟩
  | fall => exact ⟨rfl, rfl⟩
  | fail => exact ⟨rfl, rfl⟩

/-- A step without an action changes at most the state. -/
lemma Transition.frame (h : spec.Transition c mode r d) (hr : given r = none) :
    d.tape = c.tape ∧ d.head = c.head ∧ d.steps = c.steps := by
  obtain ⟨hplace, hsteps⟩ := h.follow
  rw [hr] at hplace hsteps
  exact ⟨(congrArg Prod.fst hplace).symm, (congrArg Prod.snd hplace).symm, hsteps⟩

/-- Calls in a row do to the tape and to the head what their actions say. -/
theorem follow_calls (spec : Spec) (modes : List Mode) (c : Config) :
    let log := spec.calls modes c
    log.actions.foldl Tape.follow (c.tape, c.head) = (log.final.tape, log.final.head) ∧
      log.final.steps = c.steps + log.actions.length := by
  induction modes generalizing c with
  | nil => exact ⟨rfl, rfl⟩
  | cons mode modes ih =>
    rcases hs : spec.step mode c with ⟨r, d⟩
    obtain ⟨hplace, hsteps⟩ := (Transition.of_step hs).follow
    obtain ⟨hrest, hcount⟩ := ih d
    dsimp only
    rw [actions_calls_cons hs, final_calls_cons hs, List.foldl_append, hplace, List.length_append,
      ← Nat.add_assoc, ← hsteps]
    exact ⟨hrest, hcount⟩

/-- The last fall comes with the first call, if that one falls and none gives an action, or with a
later one. -/
lemma fellLast_cons (hs : spec.step mode c = (r, d)) : spec.FellLast (mode :: modes) c ↔
    (mode = .normal ∧ spec.Missing c ∧ (spec.calls (mode :: modes) c).actions = []) ∨
      spec.FellLast modes d := by
  have hafter (ms : List Mode) : after spec.step (mode :: ms) c = after spec.step ms d := by
    rw [after, hs]
  constructor
  · rintro ⟨_ | ⟨m, earlier⟩, later, heq, missing, hactions⟩
    · exact .inl ⟨(List.cons.inj heq).1, missing, hactions⟩
    · obtain ⟨rfl, rfl⟩ := List.cons.inj heq
      rw [actions_calls_cons hs, actions_calls_cons hs] at hactions
      exact .inr ⟨earlier, later, rfl, hafter earlier ▸ missing, List.append_cancel_left hactions⟩
  · rintro (⟨rfl, missing, hactions⟩ | ⟨earlier, later, rfl, missing, hactions⟩)
    · exact ⟨[], modes, rfl, missing, hactions⟩
    · refine ⟨mode :: earlier, later, rfl, (hafter earlier).symm ▸ missing, ?_⟩
      rw [actions_calls_cons hs, actions_calls_cons hs, hactions]

/-- The state comes from the last fall, if no action has followed it, and else from the last
action. -/
theorem state_calls (spec : Spec) (modes : List Mode) (c : Config) :
    let log := spec.calls modes c
    (spec.FellLast modes c → log.final.state = spec.haltState) ∧
    (¬ spec.FellLast modes c →
      log.final.state = (log.actions.getLast?.map Action.next).getD c.state) := by
  induction modes generalizing c with
  | nil =>
    have hnone : ¬ spec.FellLast [] c := by
      rintro ⟨earlier, later, heq, -⟩
      simp at heq
    exact ⟨fun h => absurd h hnone, fun _ => rfl⟩
  | cons mode modes ih =>
    rcases hs : spec.step mode c with ⟨r, d⟩
    obtain ⟨hfell, hstood⟩ := ih d
    have hactions := actions_calls_cons hs modes
    dsimp only
    rw [fellLast_cons hs, final_calls_cons hs]
    cases Transition.of_step hs with
    | rest halted =>
      have hc : ¬ spec.Missing c := by simp [Missing, halted]
      rw [hactions, or_iff_right fun h => hc h.2.1]
      exact ⟨hfell, hstood⟩
    | @act _ a running rule =>
      have hc : ¬ spec.Missing c := by simp [Missing, rule]
      rw [hactions, or_iff_right fun h => hc h.2.1]
      refine ⟨hfell, fun h => ?_⟩
      rw [hstood h]
      cases hlast : (spec.calls modes (c.act a)).actions.getLast? <;>
        simp [given, List.getLast?_cons, hlast]
    | fall running missing =>
      have hfallen : ({ c with state := spec.haltState } : Config) = spec.fallen c := rfl
      have hnext : (spec.calls (.normal :: modes) c).actions =
        (spec.calls modes (spec.fallen c)).actions := hactions
      rw [hfallen] at hfell hstood ⊢
      rw [hnext]
      -- This fall counts only if it is the last one, and no action comes after it.
      by_cases hlast : spec.FellLast modes (spec.fallen c)
      · exact ⟨fun _ => hfell hlast, fun h => absurd (.inr hlast) h⟩
      rw [hstood hlast]
      refine ⟨fun h => ?_, fun h => ?_⟩
      · rw [(h.resolve_right hlast).2.2]
        rfl
      · have hne := fun hnil => h (.inl ⟨rfl, ⟨running, missing⟩, hnil⟩)
        rw [List.getLast?_eq_some_getLast hne]
        rfl
    | fail running missing =>
      have hstrict : Mode.strict ≠ .normal := by decide
      rw [hactions, or_iff_right fun h => hstrict h.1]
      exact ⟨hfell, hstood⟩

/-- The actions that calls have given are a faithful log of everything they have done. Carried out
on a fresh tape without a look at the rules, they lead to the tape and to the head of the machine,
and the step counter says how many there are. The state is the one that the last action leads to, or
the halt state if a normal call has met a missing rule since then; before any action it is the start
state. A call that gives no action leaves the tape, the head and the step counter alone. -/
theorem log_faithful (spec : Spec) (input : List Symbol) (modes : List Mode) :
    let start := spec.initial input
    let log := spec.calls modes start
    Tape.replay (Tape.ofInput spec.left spec.blank input) log.actions =
      (log.final.tape, log.final.head) ∧
    log.final.steps = log.actions.length ∧
    (spec.FellLast modes start → log.final.state = spec.haltState) ∧
    (¬ spec.FellLast modes start →
      log.final.state = (log.actions.getLast?.map Action.next).getD spec.start) ∧
    ∀ earlier mode r d, spec.step mode (after spec.step earlier start) = (r, d) →
      given r = none →
        let c := after spec.step earlier start
        d.tape = c.tape ∧ d.head = c.head ∧ d.steps = c.steps := by
  intro start log
  obtain ⟨hplace, hsteps⟩ := spec.follow_calls modes start
  obtain ⟨hfell, hstood⟩ := spec.state_calls modes start
  have hzero : start.steps = 0 := rfl
  rw [hzero, Nat.zero_add] at hsteps
  exact ⟨hplace, hsteps, hfell, hstood, fun _ _ _ _ hs => (Transition.of_step hs).frame⟩

/-- A machine that goes on from where it has fallen: its fall is not the last thing in the log. -/
example : (relapsing.calls [.normal, .strict, .normal] (relapsing.initial ["1"])).actions =
    [⟨"yes", "[>", .right⟩] := by rfl

end Spec
end TapeMachine
