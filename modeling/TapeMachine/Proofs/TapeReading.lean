import Mathlib.Tactic.Lemma
import TapeMachine.Config

/-! What the cells of a tape read as after the input has been written and after an action. -/
namespace TapeMachine

namespace Tape

@[simp] theorem left_fill (p : Nat) (input : List Symbol) (t : Tape) :
    (fill p input t).left = t.left := by
  induction input generalizing p t with
  | nil => rfl
  | cons s input ih => rw [fill, ih, left_write, left_visit]

@[simp] theorem blank_fill (p : Nat) (input : List Symbol) (t : Tape) :
    (fill p input t).blank = t.blank := by
  induction input generalizing p t with
  | nil => rfl
  | cons s input ih => rw [fill, ih, blank_write, blank_visit]

@[simp] theorem left_ofInput (left blank : Symbol) (input : List Symbol) :
    (ofInput left blank input).left = left := by simp [ofInput, empty]

@[simp] theorem blank_ofInput (left blank : Symbol) (input : List Symbol) :
    (ofInput left blank input).blank = blank := by simp [ofInput, empty]

/-- Filling from cell `p` on changes the cells that the input covers, and no others. -/
theorem read_fill {p : Nat} (hp : 0 < p) (input : List Symbol) (t : Tape) (q : Nat) :
    (fill p input t).read q = if p ≤ q then input[q - p]?.getD (t.read q) else t.read q := by
  induction input generalizing p t with
  | nil => simp [fill]
  | cons s input ih =>
    rw [fill, ih (Nat.succ_pos p), read_write, read_visit]
    rcases Nat.lt_trichotomy p q with h | rfl | h
    · have hq : q - p = (q - (p + 1)) + 1 := by omega
      have hne : ¬ p = q := by omega
      simp [hq, hne, Nat.succ_le_of_lt h, Nat.le_of_lt h]
    · have hp' : p ≠ 0 := by omega
      have hs : ¬ p + 1 ≤ p := by omega
      simp [hp', hs]
    · have hq : ¬ p + 1 ≤ q := by omega
      have hq' : ¬ p ≤ q := by omega
      have hne : ¬ p = q := by omega
      simp [hq, hq', hne]

theorem read_ofInput (left blank : Symbol) (input : List Symbol) (p : Nat) :
    (ofInput left blank input).read p =
      if p = 0 then left else input[p - 1]?.getD blank := by
  rw [ofInput, read_fill Nat.one_pos, read_empty]
  by_cases hp : p = 0
  · simp [hp]
  · have h1 : 1 ≤ p := by omega
    simp [hp, h1]

/-- What holds of the marker, of the blank and of every symbol of the input holds of every cell. -/
lemma forall_read_ofInput {left blank : Symbol} {input : List Symbol} {P : Symbol → Prop}
    (hleft : P left) (hblank : P blank) (hinput : ∀ s ∈ input, P s) (p : Nat) :
    P ((ofInput left blank input).read p) := by
  rw [read_ofInput]
  split
  · exact hleft
  · cases hp : input[p - 1]? with
    | none => exact hblank
    | some s => exact hinput s (List.mem_of_getElem? hp)

/-- Filling reaches the last cell that the input covers. -/
theorem rightmost_fill {p : Nat} (input : List Symbol) {t : Tape} (hp : p ≤ t.rightmost) :
    (fill (p + 1) input t).rightmost = max t.rightmost (p + input.length) := by
  induction input generalizing p t with
  | nil => exact (Nat.max_eq_left hp).symm
  | cons s input ih =>
    have hreached : p + 1 ≤ ((t.visit (p + 1)).write (p + 1) s).rightmost := by
      rw [rightmost_write, rightmost_visit]
      exact Nat.le_max_right _ _
    rw [fill, ih hreached, rightmost_write, rightmost_visit, List.length_cons]
    omega

@[simp] theorem rightmost_ofInput (left blank : Symbol) (input : List Symbol) :
    (ofInput left blank input).rightmost = input.length := by
  have hzero : (empty left blank).rightmost = 0 := rfl
  rw [ofInput, rightmost_fill input (Nat.zero_le _), hzero]
  omega

end Tape

namespace Config

@[simp] theorem left_tape_act (c : Config) (a : Action) : (c.act a).tape.left = c.tape.left := by
  unfold act
  dsimp only
  split <;> simp

@[simp] theorem blank_tape_act (c : Config) (a : Action) :
    (c.act a).tape.blank = c.tape.blank := by
  unfold act
  dsimp only
  split <;> simp

/-- An action reaches the cell that the head moves to, if the one it leaves has been reached. -/
theorem rightmost_tape_act {c : Config} (h : c.head ≤ c.tape.rightmost) (a : Action) :
    (c.act a).tape.rightmost = max c.tape.rightmost (c.act a).head := by
  rw [head_act]
  unfold act
  cases a.move with
  | left =>
    simp only [reduceCtorEq, if_false, Tape.rightmost_write, Move.apply_left]
    omega
  | right => simp only [if_true, Tape.rightmost_visit, Tape.rightmost_write, Move.apply_right]
  | stay =>
    simp only [reduceCtorEq, if_false, Tape.rightmost_write, Move.apply_stay]
    omega

theorem read_tape_act_of_ne {c : Config} {p : Nat} (h : p ≠ c.head) (a : Action) :
    (c.act a).tape.read p = c.tape.read p := by
  have hp : ¬ (c.head = p ∧ c.head ≠ 0) := fun hc => h hc.1.symm
  rw [read_tape_act, Tape.read_write, if_neg hp]

end Config
end TapeMachine
