import Mathlib.Order.Interval.Set.Defs
import TapeMachine.Proofs.Agreement

/-! Locality. In `t` calls the head sees and changes only cells below `t`: inputs that are the same
there give the same log and the same machine, and all cells from `t` on stay as they were. -/
namespace TapeMachine

lemma Log.actions_cons (o : Option Action) (results : List StepResult) (c d : Config) :
    (Log.mk (.ok o :: results) c).actions = o.toList ++ (Log.mk results d).actions := by
  cases o <;> rfl

namespace Spec
variable {spec : Spec} {mode : Mode} {c d : Config} {n t : Nat}

/-- The step counter counts the actions in the log. -/
theorem steps_final_steps (spec : Spec) (mode : Mode) (n : Nat) (c : Config) :
    (spec.steps mode n c).final.steps = c.steps + (spec.steps mode n c).actions.length := by
  induction n generalizing c with
  | zero => rfl
  | succ n ih =>
    rcases hs : spec.step mode c with ⟨e | o, d⟩
    · rw [steps_succ_of_error hs]
      cases Transition.of_step hs
      rfl
    · have hcount : d.steps = c.steps + o.toList.length := by
        cases Transition.of_step hs <;> rfl
      rw [steps_succ_of_ok hs, Log.actions_cons _ _ _ (spec.steps mode n d).final,
        List.length_append, ih, hcount, Nat.add_assoc]

lemma steps_final_steps_congr (hsteps : c.steps = d.steps)
    (hresults : (spec.steps mode n c).results = (spec.steps mode n d).results) :
    (spec.steps mode n c).final.steps = (spec.steps mode n d).final.steps := by
  have hactions : (spec.steps mode n c).actions = (spec.steps mode n d).actions := by
    rw [Log.actions, Log.actions, hresults]
  rw [steps_final_steps, steps_final_steps, hsteps, hactions]

/-- Calls take the head at most one cell further each, and leave all cells beyond its reach as they
are. -/
theorem steps_within (spec : Spec) (mode : Mode) (n : Nat) (c : Config) :
    (spec.steps mode n c).final.head ≤ c.head + n ∧
      ∀ p, c.head + n ≤ p → (spec.steps mode n c).final.tape.read p = c.tape.read p := by
  induction n generalizing c with
  | zero => exact ⟨Nat.le_refl _, fun _ _ => rfl⟩
  | succ n ih =>
    rcases hs : spec.step mode c with ⟨r, d⟩
    have ht := Transition.of_step hs
    have hhead : d.head ≤ c.head + 1 := ht.head_le
    cases r with
    | error e =>
      rw [steps_succ_of_error hs]
      exact ⟨hhead.trans (by omega), fun p hp => ht.read_of_ne (by omega)⟩
    | ok o =>
      obtain ⟨hle, hread⟩ := ih d
      rw [steps_succ_of_ok hs]
      refine ⟨hle.trans (by omega), fun p hp => ?_⟩
      calc (spec.steps mode n d).final.tape.read p
        _ = d.tape.read p := hread p (by omega)
        _ = c.tape.read p := ht.read_of_ne (by omega)

/-- On a fresh machine a cell is out of reach for as many calls as its position says. -/
lemma steps_initial_within (spec : Spec) (mode : Mode) (n : Nat) (input : List Symbol) :
    (spec.steps mode n (spec.initial input)).final.head ≤ n ∧
      ∀ p, n ≤ p → (spec.steps mode n (spec.initial input)).final.tape.read p =
        (spec.initial input).tape.read p := by
  have hwithin := spec.steps_within mode n (spec.initial input)
  have hzero : (spec.initial input).head + n = n := Nat.zero_add n
  rwa [hzero] at hwithin

/-- Inputs that are the same below `t` start the machine alike there. -/
lemma initial_agreeOn (spec : Spec) {x y : List Symbol}
    (hxy : ∀ p, 1 ≤ p → p < t → (spec.initial x).tape.read p = (spec.initial y).tape.read p) :
    (spec.initial x).AgreeOn (Set.Iio t) (spec.initial y) := by
  refine ⟨rfl, rfl, fun p hp => ?_⟩
  rcases Nat.eq_zero_or_pos p with rfl | hpos
  · exact (Tape.left_ofInput _ _ x).trans (Tape.left_ofInput _ _ y).symm
  · exact hxy p hpos hp

/-- In up to `t` calls a machine neither sees nor changes a cell from `t` on. On two inputs whose
tapes read the same in the cells from 1 to `t - 1`, the calls give the same results and lead to the
same state, head, step count and cells below `t`; every other cell reads as its own input has it. -/
theorem steps_local (spec : Spec) (mode : Mode) {x y : List Symbol}
    (hxy : ∀ p, 1 ≤ p → p < t → (spec.initial x).tape.read p = (spec.initial y).tape.read p)
    (hn : n ≤ t) :
    let a := spec.steps mode n (spec.initial x)
    let b := spec.steps mode n (spec.initial y)
    a.results = b.results ∧ a.final.state = b.final.state ∧ a.final.head = b.final.head ∧
    a.final.steps = b.final.steps ∧ (∀ p < t, a.final.tape.read p = b.final.tape.read p) ∧
    ∀ p ≥ t, a.final.tape.read p = (spec.initial x).tape.read p ∧
      b.final.tape.read p = (spec.initial y).tape.read p := by
  intro a b
  have hinside : ∀ k < n, (spec.steps mode k (spec.initial x)).final.head ∈ Set.Iio t := by
    intro k hk
    have hle := (spec.steps_initial_within mode k x).1
    exact Set.mem_Iio.2 (by omega)
  obtain ⟨hresults, hfinal⟩ := steps_of_agreeOn (spec.initial_agreeOn hxy) hinside
  have hsteps : a.final.steps = b.final.steps := steps_final_steps_congr rfl hresults
  refine ⟨hresults, hfinal.state, hfinal.head, hsteps, hfinal.cells, fun p hp => ?_⟩
  have hp' : n ≤ p := hn.trans hp
  exact ⟨(spec.steps_initial_within mode n x).2 p hp', (spec.steps_initial_within mode n y).2 p hp'⟩

/-- A machine that turns ones into zeros on its way to the right. -/
def clearing : Spec :=
  { ofDefaults {} with
    rules := (∅ : Rules).insert ("s", "[>") ⟨"s", "[>", .right⟩
      |>.insert ("s", "1") ⟨"s", "0", .right⟩ }

/-- An input may hold blanks, and two inputs may differ in length; the third call fails on both. -/
theorem steps_local_clearing :
    let a := clearing.steps .strict 3 (clearing.initial ["1", "u"])
    let b := clearing.steps .strict 3 (clearing.initial ["1", "u", "1"])
    (∀ p, 1 ≤ p → p < 3 → (clearing.initial ["1", "u"]).tape.read p =
      (clearing.initial ["1", "u", "1"]).tape.read p) ∧ 3 ≤ 3 ∧
    a.failure? = some ⟨"s", "u"⟩ ∧ a.results = b.results ∧ a.final.head = b.final.head ∧
    a.final.tape.read 1 = b.final.tape.read 1 ∧ a.final.tape.read 3 = "u" ∧
    b.final.tape.read 3 = "1" := by
  have hxy : ∀ p, 1 ≤ p → p < 3 → (clearing.initial ["1", "u"]).tape.read p =
      (clearing.initial ["1", "u", "1"]).tape.read p := by decide +kernel
  intro a b
  obtain ⟨hresults, -, hhead, -, hbelow, hbeyond⟩ :=
    steps_local clearing .strict hxy (Nat.le_refl 3)
  obtain ⟨hx, hy⟩ := hbeyond 3 (Nat.le_refl 3)
  exact ⟨hxy, Nat.le_refl 3, by decide +kernel, hresults, hhead, hbelow 1 (by decide), hx, hy⟩

end Spec
end TapeMachine
