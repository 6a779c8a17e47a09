import Mathlib.Data.List.DropRight
import Mathlib.Order.Bounds.Basic
import TapeMachine.Proofs.TapeContent

/-! Tapes that have been written to and visited anywhere, in any order. Such a tape reads as an
array in which the last write to a cell wins, with the input and then the blank where nothing has
been written. What is stored is a function of what the cells read as, so two tapes that look alike
are equal, whatever has been done to them. -/
namespace TapeMachine.Tape

/-- One change to a tape. -/
inductive Edit where
  | write (p : Nat) (s : Symbol)
  | visit (p : Nat)
  deriving DecidableEq, Repr

def edit (t : Tape) : Edit → Tape
  | .write p s => t.write p s
  | .visit p => t.visit p

/-- The tape after changes in a row. -/
def edited (t : Tape) (es : List Edit) : Tape := es.foldl edit t

/-- The symbol that a change writes to cell `p`, if it writes to that cell. -/
def Edit.writtenTo? (p : Nat) : Edit → Option Symbol
  | .write q s => if q = p then some s else none
  | .visit _ => none

def lastWritten? (p : Nat) (es : List Edit) : Option Symbol :=
  (es.filterMap (Edit.writtenTo? p)).getLast?

variable {t u : Tape}

@[simp] lemma left_edit (t : Tape) (e : Edit) : (t.edit e).left = t.left := by
  cases e <;> simp [edit]

@[simp] lemma blank_edit (t : Tape) (e : Edit) : (t.edit e).blank = t.blank := by
  cases e <;> simp [edit]

/-- No change touches the marker or the blank. -/
lemma markers_edited (t : Tape) (es : List Edit) :
    (t.edited es).left = t.left ∧ (t.edited es).blank = t.blank := by
  induction es generalizing t with
  | nil => exact ⟨rfl, rfl⟩
  | cons e es ih =>
    obtain ⟨hleft, hblank⟩ := ih (t.edit e)
    exact ⟨hleft.trans (left_edit t e), hblank.trans (blank_edit t e)⟩

lemma read_edit (t : Tape) {p : Nat} (hp : p ≠ 0) (e : Edit) :
    (t.edit e).read p = (e.writtenTo? p).getD (t.read p) := by
  cases e with
  | write q s =>
    rw [edit, read_write, Edit.writtenTo?]
    by_cases hq : q = p
    · simp [hq, hp]
    · simp [hq]
  | visit q => rfl

lemma lastWritten?_cons (p : Nat) (e : Edit) (es : List Edit) :
    lastWritten? p (e :: es) = (lastWritten? p es).or (e.writtenTo? p) := by
  rw [lastWritten?, lastWritten?]
  cases he : e.writtenTo? p with
  | none => rw [List.filterMap_cons_none he, Option.or_none]
  | some s => rw [List.filterMap_cons_some he, List.getLast?_cons, Option.or_some]

lemma lastWritten?_eq_none {p : Nat} {es : List Edit} (h : ∀ s, .write p s ∉ es) :
    lastWritten? p es = none := by
  rw [lastWritten?, List.getLast?_eq_none_iff, List.filterMap_eq_nil_iff]
  rintro (⟨q, s⟩ | q) he
  · have hq : q ≠ p := by
      rintro rfl
      exact h s he
    exact if_neg hq
  · rfl

/-- A cell reads as what has been written to it last. -/
theorem read_edited (t : Tape) {p : Nat} (hp : p ≠ 0) (es : List Edit) :
    (t.edited es).read p = (lastWritten? p es).getD (t.read p) := by
  induction es generalizing t with
  | nil => rfl
  | cons e es ih =>
    have hrest : (t.edited (e :: es)).read p = (lastWritten? p es).getD ((t.edit e).read p) :=
      ih (t.edit e)
    rw [hrest, read_edit t hp, lastWritten?_cons, Option.getD_or]

/-- The highest cell reached is the farthest of those visited, or what it was before if that is
farther. Writing reaches no cell. -/
theorem isGreatest_rightmost_edited (t : Tape) (es : List Edit) :
    IsGreatest (insert t.rightmost {q | .visit q ∈ es}) (t.edited es).rightmost := by
  -- From the right, since the last visit is compared with all that has been reached before it.
  induction es using List.reverseRecOn with
  | nil => simp [edited]
  | append_singleton es e ih =>
    have hlast : t.edited (es ++ [e]) = (t.edited es).edit e := by simp [edited]
    rw [hlast]
    cases e with
    | write p s =>
      have hvisits : {q | .visit q ∈ es ++ [.write p s]} = {q | .visit q ∈ es} := by simp
      rwa [hvisits, edit, rightmost_write]
    | visit p =>
      have hvisits : insert t.rightmost {q | .visit q ∈ es ++ [.visit p]} =
          insert p (insert t.rightmost {q | .visit q ∈ es}) := by
        ext q
        simp only [Set.mem_insert_iff, Set.mem_ofPred_eq, List.mem_append, List.mem_singleton,
          Edit.visit.injEq]
        tauto
      rw [hvisits, edit, rightmost_visit, max_comm]
      exact ih.insert p

lemma isGreatest_lastNonBlank (t : Tape) :
    IsGreatest (insert 0 {p | t.read p ≠ t.blank}) t.lastNonBlank := by
  obtain ⟨hlast, hbehind⟩ := t.lastNonBlank_spec
  refine ⟨hlast, ?_⟩
  rintro p (rfl | hp)
  · exact Nat.zero_le _
  · exact Nat.le_of_not_lt fun hlt => hp (hbehind p hlt)

lemma eq_iff_stored : t = u ↔
    t.left = u.left ∧ t.blank = u.blank ∧ t.cells = u.cells ∧ t.rightmost = u.rightmost := by
  cases t
  cases u
  simp

/-- Tapes that look alike are equal: the marker is read in cell 0, the blank far out, and every
stored symbol in its own cell. -/
theorem eq_iff_read : t = u ↔ t.rightmost = u.rightmost ∧ ∀ p, t.read p = u.read p := by
  constructor
  · rintro rfl
    exact ⟨rfl, fun _ => rfl⟩
  · rintro ⟨hreach, hread⟩
    have hblank : t.blank = u.blank := blank_eq_of_read hread
    have hcells : t.cells = u.cells := by
      refine Std.ExtTreeMap.ext_getElem? fun p => Option.ext fun s => ?_
      rw [getElem?_cells_eq_some, getElem?_cells_eq_some, hread p, hblank]
    exact eq_iff_stored.2 ⟨hread 0, hblank, hcells, hreach⟩

/-- Equality of tapes is to look alike. However two tapes have come about, they agree in all that
they store exactly if they have been reached equally far and read the same in every cell. -/
theorem beq_iff_looks_alike (left left' blank blank' : Symbol) (input input' : List Symbol)
    (es es' : List Edit) :
    let t := (ofInput left blank input).edited es
    let u := (ofInput left' blank' input').edited es'
    ((t == u) = true ↔ t.left = u.left ∧ t.blank = u.blank ∧ t.cells = u.cells ∧
      t.rightmost = u.rightmost) ∧
    ((t == u) = true ↔ t.rightmost = u.rightmost ∧ ∀ p, t.read p = u.read p) := by
  intro t u
  rw [beq_iff_eq]
  exact ⟨eq_iff_stored, eq_iff_read⟩

/-- A symbol that is overwritten with the blank leaves no trace, and neither does a write to
cell 0. -/
example : (ofInput "[>" "u" ["a"]).edited [.write 3 "b", .write 0 "c", .write 3 "u"] =
    ofInput "[>" "u" ["a"] := by decide +kernel

/-- With blanks behind it, a list reads the same if the blanks at its end are left out. -/
lemma getD_rdropWhile (blank : Symbol) (input : List Symbol) (i : Nat) :
    (input.rdropWhile (· = blank))[i]?.getD blank = input[i]?.getD blank := by
  induction input using List.reverseRecOn with
  | nil => rfl
  | append_singleton input s ih =>
    by_cases hs : s = blank
    · subst hs
      rw [List.rdropWhile_concat_pos _ _ _ (by simp), ih, getD_append_singleton]
    · rw [List.rdropWhile_concat_neg _ _ _ (by simpa using hs)]

/-- The content of a tape that holds a list of symbols is that list without the blanks at its
end. -/
lemma content_eq_rdropWhile {input : List Symbol}
    (hcells : ∀ p : Nat, t.read (p + 1) = input[p]?.getD t.blank) :
    t.content = String.join (input.rdropWhile (· = t.blank)) := by
  refine content_eq (x := t.left) (fun p => ?_) fun hlast => ?_
  · cases p with
    | zero => rfl
    | succ p => rw [hcells, List.getElem?_cons_succ, getD_rdropWhile]
  · have hne : input.rdropWhile (· = t.blank) ≠ [] := fun hnil => by simp [hnil] at hlast
    have hkept := List.rdropWhile_last_not _ _ hne
    rw [List.getLast?_eq_some_getLast hne, Option.some_inj] at hlast
    simp [hlast] at hkept

/-- A tape is an array in which the last write wins, after any changes in any order. Cell 0 reads as
the marker; another cell reads as the symbol written to it last, else as its symbol of the input,
else as the blank. What is stored is the cells from 1 on that are not blank, and no others. The last
cell that is not blank is found behind gaps of any length; the content goes up to it, and without a
write it is the input less the blanks at its end. The highest cell reached depends on the input and
on the visits alone. -/
theorem last_write_wins (left blank : Symbol) (input : List Symbol) (es : List Edit) :
    let t := (ofInput left blank input).edited es
    t.read 0 = left ∧
    (∀ p, t.read (p + 1) = ((lastWritten? (p + 1) es).or input[p]?).getD blank) ∧
    (∀ p s, t.cells[p]? = some s ↔ p ≠ 0 ∧ s ≠ blank ∧ t.read p = s) ∧
    IsGreatest (insert 0 {p | t.read p ≠ blank}) t.lastNonBlank ∧
    t.content = String.join ((List.range' 1 t.lastNonBlank).map t.read) ∧
    ((∀ p s, .write p s ∉ es) → t.content = String.join (input.rdropWhile (· = blank))) ∧
    IsGreatest (insert input.length {q | .visit q ∈ es}) t.rightmost := by
  intro t
  obtain ⟨hleft, hblank⟩ : t.left = left ∧ t.blank = blank := by
    simpa using markers_edited (ofInput left blank input) es
  have hread : ∀ p, t.read (p + 1) = ((lastWritten? (p + 1) es).or input[p]?).getD blank := by
    intro p
    have hp : p + 1 ≠ 0 := Nat.succ_ne_zero p
    rw [read_edited _ hp, read_ofInput, if_neg hp, Nat.add_sub_cancel, Option.getD_or]
  have hreach := isGreatest_rightmost_edited (ofInput left blank input) es
  rw [rightmost_ofInput] at hreach
  rw [← hblank] at hread ⊢
  refine ⟨hleft, hread, fun _ _ => getElem?_cells_eq_some, t.isGreatest_lastNonBlank, rfl,
    fun hnone => content_eq_rdropWhile fun p => ?_, hreach⟩
  rw [hread, lastWritten?_eq_none fun s => hnone (p + 1) s, Option.none_or]

end TapeMachine.Tape
