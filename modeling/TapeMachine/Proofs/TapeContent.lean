import Mathlib.Tactic.Lemma
import TapeMachine.Proofs.TapeReading

/-! The last cell of a tape that is not blank, and the content up to it, found from what the cells
read as. -/
namespace TapeMachine.Tape
variable {t : Tape}

/-- The stored cells and their symbols are the cells from 1 on that are not blank, with what they
read as. -/
theorem getElem?_cells_eq_some {p : Nat} {s : Symbol} :
    t.cells[p]? = some s ↔ p ≠ 0 ∧ s ≠ t.blank ∧ t.read p = s := by
  by_cases hp : p = 0
  · subst hp
    simp [t.zero_unstored]
  have hstored := t.blank_unstored p
  rw [t.read_pos (Nat.pos_of_ne_zero hp)]
  cases hc : t.cells[p]? with
  | none =>
    have hs : s ≠ t.blank → t.blank ≠ s := Ne.symm
    simpa [hp] using hs
  | some r =>
    rw [hc] at hstored
    have hr : r ≠ t.blank := by simpa using hstored
    constructor
    · rintro ⟨⟩
      exact ⟨hp, hr, rfl⟩
    · rintro ⟨-, -, rfl⟩
      rfl

theorem mem_cells_iff {p : Nat} : p ∈ t.cells ↔ p ≠ 0 ∧ t.read p ≠ t.blank := by
  rw [Std.ExtTreeMap.mem_iff_isSome_getElem?, Option.isSome_iff_exists]
  constructor
  · rintro ⟨s, hs⟩
    obtain ⟨hp, hne, rfl⟩ := getElem?_cells_eq_some.1 hs
    exact ⟨hp, hne⟩
  · rintro ⟨hp, hne⟩
    exact ⟨_, getElem?_cells_eq_some.2 ⟨hp, hne, rfl⟩⟩

/-- The last cell that is not blank is the one with nothing but blanks behind it. -/
theorem lastNonBlank_eq {n : Nat} (hn : n = 0 ∨ t.read n ≠ t.blank)
    (hgt : ∀ p, n < p → t.read p = t.blank) : t.lastNonBlank = n := by
  have hle : ∀ p ∈ t.cells, p ≤ n := fun p hp =>
    Nat.le_of_not_lt fun hlt => (mem_cells_iff.1 hp).2 (hgt p hlt)
  rw [lastNonBlank, ← Std.ExtTreeMap.maxKey?_eq_getLast?_keys]
  by_cases hzero : n = 0
  · have hempty : t.cells = ∅ := by
      refine Std.ExtTreeMap.eq_empty_iff_forall_not_mem.2 fun p hp => ?_
      have hpos := (mem_cells_iff.1 hp).1
      have := hle p hp
      omega
    simp [hempty, hzero]
  · have hmem : n ∈ t.cells := mem_cells_iff.2 ⟨hzero, hn.resolve_left hzero⟩
    have hmax : t.cells.maxKey? = some n :=
      Std.ExtTreeMap.maxKey?_eq_some_iff_mem_and_forall.2
        ⟨hmem, fun p hp => Nat.isLE_compare.2 (hle p hp)⟩
    rw [hmax]
    rfl

/-- The last cell that is not blank is not blank, unless there is none, and all cells behind it
are. -/
lemma lastNonBlank_spec (t : Tape) : (t.lastNonBlank = 0 ∨ t.read t.lastNonBlank ≠ t.blank) ∧
    ∀ p, t.lastNonBlank < p → t.read p = t.blank := by
  have hblank : ∀ p, 0 < p → p ∉ t.cells → t.read p = t.blank := fun p hp hmem =>
    Decidable.byContradiction fun hne => hmem (mem_cells_iff.2 ⟨Nat.ne_of_gt hp, hne⟩)
  rw [lastNonBlank, ← Std.ExtTreeMap.maxKey?_eq_getLast?_keys]
  cases hmax : t.cells.maxKey? with
  | none =>
    rw [Std.ExtTreeMap.maxKey?_eq_none_iff] at hmax
    exact ⟨.inl rfl, fun p hp => hblank p hp (by simp [hmax])⟩
  | some n =>
    obtain ⟨hmem, hle⟩ := Std.ExtTreeMap.maxKey?_eq_some_iff_mem_and_forall.1 hmax
    refine ⟨.inr (mem_cells_iff.1 hmem).2, fun p hp => ?_⟩
    refine hblank p (Nat.zero_lt_of_lt hp) fun hp' => ?_
    exact Nat.not_le_of_lt hp (Nat.isLE_compare.1 (hle p hp'))

/-- Far out every tape is blank, so tapes that read the same in all cells have the same blank. -/
lemma blank_eq_of_read {u : Tape} (h : ∀ p, t.read p = u.read p) : t.blank = u.blank := by
  have far : ∃ p, t.lastNonBlank < p ∧ u.lastNonBlank < p :=
    ⟨t.lastNonBlank + u.lastNonBlank + 1, by omega, by omega⟩
  obtain ⟨p, ht, hu⟩ := far
  calc t.blank
    _ = t.read p := (t.lastNonBlank_spec.2 p ht).symm
    _ = u.read p := h p
    _ = u.blank := u.lastNonBlank_spec.2 p hu

lemma content_eq_of_read {u : Tape} (h : ∀ p, t.read p = u.read p) : t.content = u.content := by
  have hread : t.read = u.read := funext h
  have hblank : t.blank = u.blank := blank_eq_of_read h
  have hlast : t.lastNonBlank = u.lastNonBlank := by
    obtain ⟨hn, hgt⟩ := u.lastNonBlank_spec
    refine lastNonBlank_eq ?_ fun p hp => ?_
    · rwa [hread, hblank]
    · rw [hread, hblank, hgt p hp]
  rw [content, content, hlast, segment, segment, hread]

/-- With blanks behind it, a list reads the same if a blank is put at its end. -/
lemma getD_append_singleton (xs : List Symbol) (b : Symbol) (p : Nat) :
    (xs ++ [b])[p]?.getD b = xs[p]?.getD b := by
  rw [List.getElem?_append]
  split
  · rfl
  · next hp =>
    rw [List.getElem?_eq_none (Nat.le_of_not_lt hp)]
    cases p - xs.length <;> simp

/-- The content of a tape that holds a word from cell 1 on, and blanks behind the word. -/
theorem content_eq {x : Symbol} {w : List Symbol}
    (hcells : ∀ p : Nat, t.read p = (x :: w)[p]?.getD t.blank)
    (hw : w.getLast? ≠ some t.blank) : t.content = String.join w := by
  have hlast : t.lastNonBlank = w.length := by
    refine lastNonBlank_eq ?_ fun p hp => ?_
    · rcases List.eq_nil_or_concat w with rfl | ⟨front, s, rfl⟩
      · exact .inl rfl
      · refine .inr ?_
        rw [hcells]
        simpa using hw
    · rw [hcells, List.getElem?_eq_none hp]
      rfl
  have hsegment : t.segment 1 w.length = w := by
    refine List.ext_getElem (by simp [segment]) fun i hi hi' => ?_
    simp [segment, hcells, Nat.add_comm 1 i, hi']
  rw [content, hlast, hsegment]

end TapeMachine.Tape
