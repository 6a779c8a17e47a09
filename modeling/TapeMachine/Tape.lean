import Std.Data.ExtTreeMap
import TapeMachine.Action

/-! A tape that is infinite to the right, stored sparsely. Cell 0 always holds the left-end marker
and is not stored; of the other cells only those that are not blank are stored, so that two tapes
with the same symbols in all cells and the same extent are equal. -/
namespace TapeMachine

/-- The marker in cell 0, the blank, the cells from 1 on that are not blank, and the highest cell
reached so far. -/
structure Tape where
  left : Symbol
  blank : Symbol
  cells : Std.ExtTreeMap Nat Symbol
  rightmost : Nat
  zero_unstored : cells[0]? = none
  blank_unstored : ∀ p : Nat, cells[p]? ≠ some blank
  deriving DecidableEq

namespace Tape

def empty (left blank : Symbol) : Tape where
  left := left
  blank := blank
  cells := ∅
  rightmost := 0
  zero_unstored := by simp
  blank_unstored := by simp

def read (t : Tape) (p : Nat) : Symbol :=
  if p = 0 then t.left else t.cells[p]?.getD t.blank

/-- Write a symbol into a cell. Cell 0 keeps the marker. -/
def write (t : Tape) (p : Nat) (s : Symbol) : Tape :=
  if hp : p = 0 then t
  else if hs : s = t.blank then
    { t with
      cells := t.cells.erase p
      zero_unstored := by simp [Std.ExtTreeMap.getElem?_erase, t.zero_unstored]
      blank_unstored := fun q => by
        rw [Std.ExtTreeMap.getElem?_erase]; split <;> simp [t.blank_unstored] }
  else
    { t with
      cells := t.cells.insert p s
      zero_unstored := by simp [Std.ExtTreeMap.getElem?_insert, hp, t.zero_unstored]
      blank_unstored := fun q => by
        rw [Std.ExtTreeMap.getElem?_insert]; split <;> simp [hs, t.blank_unstored] }

/-- Note that the head has reached a cell. -/
def visit (t : Tape) (p : Nat) : Tape := { t with rightmost := max t.rightmost p }

/-- Write symbols one after the other from cell `p` on. -/
def fill : Nat → List Symbol → Tape → Tape
  | _, [], t => t
  | p, s :: input, t => fill (p + 1) input ((t.visit p).write p s)

/-- The tape with `input` in the cells from 1 on. -/
def ofInput (left blank : Symbol) (input : List Symbol) : Tape := fill 1 input (empty left blank)

def lastNonBlank (t : Tape) : Nat := t.cells.keys.getLast?.getD 0

def segment (t : Tape) (lo hi : Nat) : List Symbol :=
  (List.range' lo (hi + 1 - lo)).map t.read

/-- What stands after the marker up to the last cell that is not blank, without separators. -/
def content (t : Tape) : String := String.join (t.segment 1 t.lastNonBlank)

/-- The marker and the cells up to the highest one reached, but at most up to `limit`; an ellipsis
shows that cells were left out. -/
def render (t : Tape) (limit : Nat) : String :=
  String.join (t.segment 0 (min t.rightmost limit)) ++ if limit < t.rightmost then "..." else ""

@[simp] theorem read_zero (t : Tape) : t.read 0 = t.left := rfl

theorem read_pos (t : Tape) {p : Nat} (h : 0 < p) : t.read p = t.cells[p]?.getD t.blank := by
  simp [read, Nat.ne_of_gt h]

@[simp] theorem write_zero (t : Tape) (s : Symbol) : t.write 0 s = t := by simp [write]

@[simp] theorem left_write (t : Tape) (p : Nat) (s : Symbol) : (t.write p s).left = t.left := by
  unfold write; split <;> (try split) <;> rfl

@[simp] theorem blank_write (t : Tape) (p : Nat) (s : Symbol) : (t.write p s).blank = t.blank := by
  unfold write; split <;> (try split) <;> rfl

@[simp] theorem rightmost_write (t : Tape) (p : Nat) (s : Symbol) :
    (t.write p s).rightmost = t.rightmost := by
  unfold write; split <;> (try split) <;> rfl

@[simp] theorem left_visit (t : Tape) (p : Nat) : (t.visit p).left = t.left := rfl

@[simp] theorem blank_visit (t : Tape) (p : Nat) : (t.visit p).blank = t.blank := rfl

@[simp] theorem rightmost_visit (t : Tape) (p : Nat) :
    (t.visit p).rightmost = max t.rightmost p := rfl

@[simp] theorem read_visit (t : Tape) (p q : Nat) : (t.visit p).read q = t.read q := rfl

@[simp] theorem read_empty (left blank : Symbol) (p : Nat) :
    (empty left blank).read p = if p = 0 then left else blank := by
  simp [read, empty]

/-- The stored cells after a write: a blank is taken out, any other symbol is put in. -/
theorem getElem?_cells_write (t : Tape) {p : Nat} (hp : p ≠ 0) (s : Symbol) (q : Nat) :
    (t.write p s).cells[q]? =
      if p = q then (if s = t.blank then none else some s) else t.cells[q]? := by
  rw [write, dif_neg hp]
  by_cases hs : s = t.blank <;>
    simp [hs, Std.ExtTreeMap.getElem?_erase, Std.ExtTreeMap.getElem?_insert]

/-- A write changes the cell it names, unless that is cell 0, and no other. -/
theorem read_write (t : Tape) (p q : Nat) (s : Symbol) :
    (t.write p s).read q = if p = q ∧ p ≠ 0 then s else t.read q := by
  by_cases hp : p = 0
  · simp [write, hp]
  by_cases hq : q = 0
  · simp [hq, hp]
  rw [read_pos _ (by omega), read_pos _ (by omega), blank_write, getElem?_cells_write t hp]
  by_cases h : p = q <;> by_cases hs : s = t.blank <;> simp [h, hs, hq]

example : ((ofInput "[>" "u" ["a", "b", "u", "c"]).write 4 "u").content = "ab" := by decide +kernel

example : ((ofInput "[>" "u" ["a", "b"]).visit 4).render 3 = "[>abu..." := by decide +kernel

end Tape
end TapeMachine
