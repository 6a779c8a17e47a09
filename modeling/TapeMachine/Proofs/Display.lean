import Mathlib.Order.Bounds.Basic
import TapeMachine.Proofs.StepCount
import TapeMachine.Proofs.TapeContent

/-! What the displayed tape shows. Writing does not extend the displayed part of a tape, but a
machine writes only where its head stands, so all that is not blank is inside the part that the
input and the head have reached. Displayed in full, the tape is the marker, the content and the
blanks behind it. -/
namespace TapeMachine

namespace Tape
variable {t : Tape}

lemma segment_zero (t : Tape) (hi : Nat) : t.segment 0 hi = t.left :: t.segment 1 hi := rfl

lemma segment_append {lo mid hi : Nat} (hlo : lo ≤ mid + 1) (hhi : mid ≤ hi) :
    t.segment lo hi = t.segment lo mid ++ t.segment (mid + 1) hi := by
  have hfront : mid + 1 = lo + (mid + 1 - lo) := by omega
  have hlength : hi + 1 - lo = (mid + 1 - lo) + (hi + 1 - (mid + 1)) := by omega
  rw [segment, segment, segment, hlength, ← List.range'_append_1, ← hfront, List.map_append]

lemma segment_blank {lo hi : Nat} (h : ∀ p, lo ≤ p → t.read p = t.blank) :
    t.segment lo hi = List.replicate (hi + 1 - lo) t.blank := by
  refine List.eq_replicate_iff.2 ⟨by simp [segment], fun s hs => ?_⟩
  obtain ⟨p, hp, rfl⟩ := List.mem_map.1 hs
  exact h p (List.mem_range'_1.1 hp).1

/-- With all that is not blank in the displayed part, the display is the content between the marker
and the blanks up to the end of that part. -/
theorem render_of_le {limit : Nat} (hlast : t.lastNonBlank ≤ t.rightmost)
    (hlimit : t.rightmost ≤ limit) :
    t.render limit = t.left ++ t.content ++
      String.join (List.replicate (t.rightmost - t.lastNonBlank) t.blank) := by
  have hcells : t.segment 0 t.rightmost = t.left :: (t.segment 1 t.lastNonBlank ++
      List.replicate (t.rightmost - t.lastNonBlank) t.blank) := by
    rw [segment_zero, segment_append (Nat.le_add_left _ _) hlast,
      segment_blank t.lastNonBlank_spec.2, Nat.add_sub_add_right]
  rw [render, Nat.min_eq_left hlimit, if_neg (Nat.not_lt.2 hlimit), hcells, String.join_cons,
    String.join_append, ← content, String.append_empty, String.append_assoc]

theorem render_of_lt {limit : Nat} (hlimit : limit < t.rightmost) :
    t.render limit = t.left ++ String.join (t.segment 1 limit) ++ "..." := by
  rw [render, Nat.min_eq_right (Nat.le_of_lt hlimit), if_pos hlimit, segment_zero, String.join_cons]

end Tape

/-- The head and all that is not blank are in the part of the tape that has been reached, and the
steps and the `n` cells of the input account for that part. -/
structure Config.InView (n : Nat) (c : Config) : Prop where
  head_le_steps : c.head ≤ c.steps
  head_le : c.head ≤ c.tape.rightmost
  rightmost_le : c.tape.rightmost ≤ max n c.steps
  beyond (p : Nat) (hp : c.tape.rightmost < p) : c.tape.read p = c.tape.blank

namespace Config.InView
variable {c : Config} {n : Nat}

/-- A new symbol is written under the head, where the tape has been reached. -/
lemma act (h : c.InView n) (a : Action) : (c.act a).InView n where
  head_le_steps := Nat.le_trans (a.move.apply_le c.head) (Nat.succ_le_succ h.head_le_steps)
  head_le := by
    rw [rightmost_tape_act h.head_le]
    exact Nat.le_max_right _ _
  rightmost_le := by
    have hreach := h.rightmost_le
    have hsteps := h.head_le_steps
    have hmove := a.move.apply_le c.head
    rw [rightmost_tape_act h.head_le, head_act, steps_act]
    omega
  beyond p hp := by
    rw [rightmost_tape_act h.head_le] at hp
    have hhead := h.head_le
    rw [read_tape_act_of_ne (by omega), blank_tape_act]
    exact h.beyond p (by omega)

lemma lastNonBlank_le (h : c.InView n) : c.tape.lastNonBlank ≤ c.tape.rightmost := by
  by_contra hlt
  have hpos : c.tape.lastNonBlank ≠ 0 := by omega
  exact c.tape.lastNonBlank_spec.1.resolve_left hpos (h.beyond _ (by omega))

end Config.InView

namespace Spec
variable {spec : Spec} {n : Nat}

lemma inView_initial (spec : Spec) (input : List Symbol) :
    (spec.initial input).InView input.length := by
  have hreached : (spec.initial input).tape.rightmost = input.length :=
    Tape.rightmost_ofInput _ _ input
  refine ⟨Nat.le_refl 0, Nat.zero_le _, ?_, fun p hp => ?_⟩
  · rw [hreached]
    exact Nat.le_max_left _ _
  · have hp' : input.length ≤ p - 1 := by omega
    rw [initial, Tape.read_ofInput, if_neg (by omega), List.getElem?_eq_none hp',
      Tape.blank_ofInput]
    rfl

lemma inView_step (mode : Mode) (c : Config) (h : c.InView n) :
    (spec.step mode c).2.InView n := by
  rcases hs : spec.step mode c with ⟨r, d⟩
  cases Transition.of_step hs with
  | rest => exact h
  | act => exact h.act _
  | fall => exact ⟨h.head_le_steps, h.head_le, h.rightmost_le, h.beyond⟩
  | fail => exact h

lemma steps_after_le (spec : Spec) (modes : List Mode) (c : Config) :
    (after spec.step modes c).steps ≤ c.steps + modes.length := by
  induction modes generalizing c with
  | nil => exact Nat.le_refl _
  | cons mode modes ih =>
    have hstep : (spec.step mode c).2.steps ≤ c.steps + 1 := (Transition.of_step rfl).steps_le
    have hrest := ih (spec.step mode c).2
    rw [List.length_cons]
    exact Nat.le_trans hrest (by omega)

lemma rightmost_step (spec : Spec) (mode : Mode) (c : Config)
    (h : c.head ≤ c.tape.rightmost) :
    (spec.step mode c).2.tape.rightmost =
      max c.tape.rightmost (spec.step mode c).2.head := by
  rcases hs : spec.step mode c with ⟨r, d⟩
  cases Transition.of_step hs with
  | rest => exact (Nat.max_eq_left h).symm
  | act => exact Config.rightmost_tape_act h _
  | fall => exact (Nat.max_eq_left h).symm
  | fail => exact (Nat.max_eq_left h).symm

/-- The extent of the tape is the farthest place in which the head has been, or what it was before
if that is farther. -/
theorem exists_farthest (spec : Spec) (modes : List Mode) {c : Config}
    (h : c.head ≤ c.tape.rightmost) :
    ∃ m, IsGreatest (Set.range fun k => (after spec.step (modes.take k) c).head) m ∧
      (after spec.step modes c).tape.rightmost = max c.tape.rightmost m := by
  induction modes generalizing c with
  | nil =>
    refine ⟨c.head, ⟨⟨0, rfl⟩, ?_⟩, (Nat.max_eq_left h).symm⟩
    rintro _ ⟨k, rfl⟩
    simp [after]
  | cons mode modes ih =>
    have hreached := spec.rightmost_step mode c h
    have hd : (spec.step mode c).2.head ≤ (spec.step mode c).2.tape.rightmost := by
      rw [hreached]
      exact Nat.le_max_right _ _
    obtain ⟨m, ⟨⟨k, hk⟩, hmax⟩, hm⟩ := ih hd
    have hnext : (spec.step mode c).2.head ≤ m := hmax ⟨0, rfl⟩
    refine ⟨max c.head m, ⟨?_, ?_⟩, ?_⟩
    · rcases Nat.le_total c.head m with hle | hle
      · exact ⟨k + 1, hk.trans (Nat.max_eq_right hle).symm⟩
      · exact ⟨0, (Nat.max_eq_left hle).symm⟩
    · rintro _ ⟨j, rfl⟩
      cases j with
      | zero => exact Nat.le_max_left _ _
      | succ j => exact Nat.le_trans (hmax ⟨j, rfl⟩) (Nat.le_max_right _ _)
    · calc (after spec.step modes (spec.step mode c).2).tape.rightmost
        _ = max (spec.step mode c).2.tape.rightmost m := hm
        _ = max c.tape.rightmost (max c.head m) := by omega

/-- What the display of a tape shows, after any calls on a fresh machine. The head is no farther
than the number of steps, which is at most the number of calls. The tape has been reached as far as
the input and the head have ever been; the head is in that part, and so is all that is not blank. Up
to a limit that is not smaller, the display is the marker, the content of the tape, and a blank for
each reached cell behind the content; up to a smaller limit it is the marker, the cells from 1 to
the limit, and an ellipsis. -/
theorem display_of_reached (spec : Spec) (input : List Symbol) (modes : List Mode) :
    let start := spec.initial input
    let c := after spec.step modes start
    c.head ≤ c.steps ∧ c.steps ≤ modes.length ∧
    (∃ m, IsGreatest (Set.range fun k => (after spec.step (modes.take k) start).head) m ∧
      c.tape.rightmost = max input.length m) ∧
    c.tape.rightmost ≤ max input.length c.steps ∧
    c.head ≤ c.tape.rightmost ∧ c.tape.lastNonBlank ≤ c.tape.rightmost ∧
    (∀ p, c.tape.rightmost < p → c.tape.read p = spec.blank) ∧
    (∀ limit, c.tape.rightmost ≤ limit → c.tape.render limit = spec.left ++ c.tape.content ++
      String.join (List.replicate (c.tape.rightmost - c.tape.lastNonBlank) spec.blank)) ∧
    ∀ limit, limit < c.tape.rightmost →
      c.tape.render limit = spec.left ++ String.join (c.tape.segment 1 limit) ++ "..." := by
  intro start c
  have hview : c.InView input.length :=
    after_invariant inView_step modes (spec.inView_initial input)
  have hmarkers : c.tape.left = spec.left ∧ c.tape.blank = spec.blank :=
    spec.markers_after input modes
  obtain ⟨hleft, hblank⟩ := hmarkers
  obtain ⟨m, hm, hfarthest⟩ := spec.exists_farthest modes (c := start) (Nat.zero_le _)
  have hreached : start.tape.rightmost = input.length := Tape.rightmost_ofInput _ _ input
  rw [hreached] at hfarthest
  have hsteps : c.steps ≤ 0 + modes.length := spec.steps_after_le modes start
  rw [← hleft, ← hblank]
  exact ⟨hview.head_le_steps, by omega, ⟨m, hm, hfarthest⟩, hview.rightmost_le, hview.head_le,
    hview.lastNonBlank_le, hview.beyond, fun _ => Tape.render_of_le hview.lastNonBlank_le,
    fun _ => Tape.render_of_lt⟩

/-- A machine that erases the ones of its input. -/
def erasing : Spec :=
  { ofDefaults {} with
    rules := (∅ : Rules).insert ("s", "[>") ⟨"s", "[>", .right⟩
      |>.insert ("s", "1") ⟨"s", "u", .right⟩ }

/-- Erased cells stay on display, and so does the blank that the head has come to behind them. -/
theorem display_of_reached_erasing :
    let c := after erasing.step [.normal, .strict, .normal] (erasing.initial ["1", "1"])
    c.tape.rightmost ≤ 9 ∧ c.tape.render 9 = "[>" ++ c.tape.content ++
      String.join (List.replicate (c.tape.rightmost - c.tape.lastNonBlank) "u") ∧
    c.tape.rightmost = 3 ∧ c.tape.lastNonBlank = 0 ∧ 2 < c.tape.rightmost ∧
    c.tape.render 2 = "[>" ++ String.join (c.tape.segment 1 2) ++ "..." ∧
    c.tape.segment 1 2 = ["u", "u"] := by
  intro c
  have hreached : c.tape.rightmost = 3 := by decide +kernel
  have hfull : c.tape.rightmost ≤ 9 := by omega
  have hcut : 2 < c.tape.rightmost := by omega
  obtain ⟨-, -, -, -, -, -, -, full, cut⟩ :=
    display_of_reached erasing ["1", "1"] [.normal, .strict, .normal]
  exact ⟨hfull, full 9 hfull, hreached, by decide +kernel, hcut, cut 2 hcut, by decide +kernel⟩

/-- A tape alone does not promise this: what is written ahead of the head is not displayed. -/
example : ((Tape.empty "[>" "u").write 3 "a").render 9 = "[>" := by decide +kernel

end Spec
end TapeMachine
