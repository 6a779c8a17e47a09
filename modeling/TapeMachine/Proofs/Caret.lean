import TapeMachine.Proofs.TapeReading
import TapeMachine.Proofs.Text.Trim
import TapeMachine.Trace

/-! The caret of a trace. Symbols may be of any width, but none is empty, and then the line of marks
is as wide as the line of cells and has its one caret where the cell under the head starts. -/
namespace TapeMachine

namespace Window
variable {w : Window} {front back : List Symbol} {s : Symbol}

/-- Away from the head there are blanks, as many as the symbols are wide. -/
lemma marks_away {head lo : Nat} {ss : List Symbol} (hne : ∀ s ∈ ss, s ≠ "")
    (away : ∀ p, lo ≤ p → p < lo + ss.length → p ≠ head) :
    ((ss.zipIdx lo).flatMap fun (symbol, p) => mark (p = head) symbol) =
      List.replicate (String.join ss).length ' ' := by
  induction ss generalizing lo with
  | nil => rfl
  | cons s ss ih =>
    obtain ⟨hs, hss⟩ := List.forall_mem_cons.1 hne
    have hlo : lo ≠ head := away lo (Nat.le_refl _) (by simp)
    have others : ∀ p, lo + 1 ≤ p → p < lo + 1 + ss.length → p ≠ head := fun p hp hlt =>
      away p (by omega) (by rw [List.length_cons]; omega)
    have hrest := ih hss others
    have hwidth : s.length = s.length - 1 + 1 := by
      have := Nat.pos_of_ne_zero (mt String.length_eq_zero_iff.1 hs)
      omega
    have hmark : mark (decide (lo = head)) s = List.replicate s.length ' ' := by
      rw [hwidth]
      simp [mark, hlo, List.replicate_succ]
    rw [List.zipIdx_cons, List.flatMap_cons, hrest, String.join_cons, String.length_append,
      ← List.replicate_append_replicate, ← hmark]

/-- The line of marks, with the cells in front of the head and behind it. -/
theorem markLine_eq (hcells : w.cells = front ++ s :: back) (hhead : w.head = w.lo + front.length)
    (hne : ∀ s ∈ w.cells, s ≠ "") : w.markLine =
      List.replicate (String.join front).length ' ' ++
        '^' :: List.replicate (s.length - 1 + (String.join back).length) ' ' := by
  rw [hcells] at hne
  have before : ∀ p, w.lo ≤ p → p < w.lo + front.length → p ≠ w.head := by omega
  have behind : ∀ p, w.lo + front.length + 1 ≤ p → p < w.lo + front.length + 1 + back.length →
      p ≠ w.head := by omega
  have hfront := marks_away (fun x hx => hne x (List.mem_append_left _ hx)) before
  have hback := marks_away (fun x hx => hne x (by simp [hx])) behind
  rw [markLine, hcells, List.zipIdx_append, List.flatMap_append, hfront, List.zipIdx_cons,
    List.flatMap_cons, hback, ← List.replicate_append_replicate]
  simp [mark, hhead]

end Window

namespace Config
variable {c : Config}

/-- The cells of a window in front of the head. -/
def cellsBefore (c : Config) (radius : Nat) : List Symbol :=
  (List.range' (c.window radius).lo (c.head - (c.window radius).lo)).map c.tape.read

/-- Every window has the cell under the head in it, at its place. -/
lemma exists_cells_window (c : Config) (radius : Nat) :
    (c.window radius).head = (c.window radius).lo + (c.cellsBefore radius).length ∧
    ∃ back, (c.window radius).cells = c.cellsBefore radius ++ c.read :: back := by
  have hlo : (c.window radius).lo ≤ c.head := Nat.sub_le _ _
  have hhi : c.head ≤ (c.window radius).hi := Nat.le_add_right _ _
  have hhead : (c.window radius).head = c.head := rfl
  have hcells : (c.window radius).cells =
      c.tape.segment (c.window radius).lo (c.window radius).hi := rfl
  rw [hcells, hhead, cellsBefore]
  generalize (c.window radius).lo = lo at hlo
  generalize (c.window radius).hi = hi at hhi
  have hcount : hi + 1 - lo = (c.head - lo) + (hi - c.head + 1) := by omega
  have hplace : lo + (c.head - lo) = c.head := by omega
  refine ⟨by simp [hplace], (List.range' (c.head + 1) (hi - c.head)).map c.tape.read, ?_⟩
  rw [Tape.segment, hcount, ← List.range'_append_1, hplace, List.range'_succ, List.map_append,
    List.map_cons, read]

lemma mem_cells_window {radius : Nat} {s : Symbol} (hs : s ∈ (c.window radius).cells) :
    ∃ p, c.tape.read p = s := by
  obtain ⟨p, -, rfl⟩ := List.mem_map.1 hs
  exact ⟨p, rfl⟩

/-- The caret of a window is under the head. If no symbol on the tape is empty, the line of cells is
the cells of the window, the line of marks is as wide, and its one caret has as many characters in
front of it as the cells in front of the head have; trimmed, the line ends with the caret, and so it
is shown in a trace. -/
theorem caret_under_head (h : ∀ p, c.tape.read p ≠ "") (radius : Nat) :
    let w := c.window radius
    let column := (String.join ((List.range' w.lo (c.head - w.lo)).map c.tape.read)).length
    w.cellLine = String.join ((List.range' w.lo (w.hi + 1 - w.lo)).map c.tape.read) ∧
    w.markLine.length = w.cellLine.length ∧ w.markLine.count '^' = 1 ∧
    w.markLine[column]? = some '^' ∧
    Text.trimEnd w.markLine = List.replicate column ' ' ++ ['^'] ∧
    (Trace.block radius c)[2]? = some (String.ofList (List.replicate column ' ' ++ ['^'])) := by
  intro w column
  obtain ⟨hhead, back, hcells⟩ := c.exists_cells_window radius
  have hne : ∀ s ∈ w.cells, s ≠ "" := by
    intro s hs
    obtain ⟨p, rfl⟩ := mem_cells_window hs
    exact h p
  have hread : 0 < c.read.length := Nat.pos_of_ne_zero (mt String.length_eq_zero_iff.1 (h c.head))
  have hmarks : w.markLine = List.replicate column ' ' ++
      '^' :: List.replicate (c.read.length - 1 + (String.join back).length) ' ' :=
    Window.markLine_eq hcells hhead hne
  have hwidth : w.cellLine.length = column + (c.read.length + (String.join back).length) := by
    rw [Window.cellLine, hcells, String.join_append, String.length_append, String.join_cons,
      String.length_append]
    rfl
  have htrim : Text.trimEnd w.markLine = List.replicate column ' ' ++ ['^'] := by
    rw [hmarks]
    refine Text.trimEnd_append _ (by decide) fun d hd => ?_
    rw [List.eq_of_mem_replicate hd]
    decide
  refine ⟨rfl, ?_, ?_, ?_, htrim, ?_⟩
  · rw [hmarks, hwidth, List.length_append, List.length_cons, List.length_replicate,
      List.length_replicate]
    omega
  · simp [hmarks, List.count_replicate]
  · simp [hmarks]
  · rw [← htrim]
    rfl

/-- A head behind symbols of one, two and three characters, in a window that is cut at cell 0. -/
def wide : Config := { (Spec.ofDefaults {}).initial ["日本語", "é", "ab"] with head := 2 }

theorem caret_under_head_wide :
    (∀ p, wide.tape.read p ≠ "") ∧ (wide.window 4).lo = 0 ∧
    (wide.window 4).markLine[5]? = some '^' ∧
    Text.trimEnd (wide.window 4).markLine = List.replicate 5 ' ' ++ ['^'] := by
  have hinput : ∀ s ∈ ["日本語", "é", "ab"], s ≠ "" := by decide
  have h : ∀ p, wide.tape.read p ≠ "" :=
    Tape.forall_read_ofInput (P := (· ≠ "")) (by decide) (by decide) hinput
  have hcolumn : (String.join ((List.range' (wide.window 4).lo
      (wide.head - (wide.window 4).lo)).map wide.tape.read)).length = 5 := by decide +kernel
  obtain ⟨-, -, -, hcaret, htrim, -⟩ := caret_under_head h 4
  rw [hcolumn] at hcaret htrim
  exact ⟨h, rfl, hcaret, htrim⟩

end Config
end TapeMachine
