import TapeMachine.Description.Fault
import TapeMachine.Spec

/-! The left-marker contract of a machine: the blank is not the marker, and every rule that reads
the marker writes it back and moves right. The check names the violation that comes first in the
description. -/
namespace TapeMachine.Description

/-- The lines from which the parts of a machine come: of the last directive for the blank and for
the marker, 0 if there is none, and of each rule. -/
structure Origins where
  blank : Nat := 0
  left : Nat := 0
  rules : Table Nat := ∅

namespace Origins

/-- The line of the rule for a situation, 0 if none is known. -/
def lineOf (origins : Origins) (k : Situation) : Nat := origins.rules[k]?.getD 0

end Origins

/-- A rule on the left-end marker that does not keep it, with its line. -/
structure Violation where
  line : Nat
  state : State
  action : Action
  deriving DecidableEq, Repr

namespace Violation

/-- Every violation of a machine, in increasing order of its state. -/
def all (spec : Spec) (origins : Origins) : List Violation :=
  spec.listing.filterMap fun (k, a) =>
    if k.2 = spec.left ∧ ¬ a.KeepsMarker spec.left then some ⟨origins.lineOf k, k.1, a⟩ else none

/-- The violation on the earliest line; of several on one line, the first in the list. -/
def earliest? : List Violation → Option Violation
  | [] => none
  | v :: vs => some (vs.foldl (fun best w => if w.line < best.line then w else best) v)

def error (spec : Spec) (v : Violation) : LoadError :=
  .fault v.line (.leftMarkerRule v.state spec.left v.action)

end Violation

def check (spec : Spec) (origins : Origins) : Except LoadError Unit :=
  if spec.blank = spec.left then
    .error (.fault (max origins.blank origins.left) (.blankIsLeftMarker spec.blank))
  else
    match Violation.earliest? (Violation.all spec origins) with
    | some v => .error (v.error spec)
    | none => .ok ()

/-- There is a violation for exactly the rules that read the marker and do not keep it. -/
theorem Violation.mem_all {spec : Spec} {origins : Origins} {v : Violation} :
    v ∈ all spec origins ↔ spec.action? v.state spec.left = some v.action ∧
      ¬ v.action.KeepsMarker spec.left ∧ v.line = origins.lineOf (v.state, spec.left) := by
  simp only [all, Spec.listing, List.mem_filterMap, Spec.action?,
    ← Std.ExtTreeMap.mem_toList_iff_getElem?_eq_some]
  constructor
  · rintro ⟨⟨⟨q, s⟩, a⟩, hm, h⟩
    split at h
    · next hv =>
      obtain ⟨rfl, hk⟩ := hv
      cases h
      exact ⟨hm, hk, rfl⟩
    · cases h
  · rintro ⟨hm, hk, hl⟩
    exact ⟨_, hm, by simp [hk, ← hl]⟩

@[simp] theorem Violation.earliest?_eq_none {vs : List Violation} :
    earliest? vs = none ↔ vs = [] := by
  cases vs <;> simp [earliest?]

theorem check_eq_ok_iff {spec : Spec} {origins : Origins} :
    check spec origins = .ok () ↔ spec.WellMarked := by
  have h : Violation.all spec origins = [] ↔
      ∀ q a, spec.action? q spec.left = some a → a.KeepsMarker spec.left := by
    rw [List.eq_nil_iff_forall_not_mem]
    constructor
    · intro hn q a ha
      exact Decidable.byContradiction fun hk =>
        hn ⟨origins.lineOf (q, spec.left), q, a⟩ (Violation.mem_all.2 ⟨ha, hk, rfl⟩)
    · intro hk v hv
      obtain ⟨ha, hn, -⟩ := Violation.mem_all.1 hv
      exact hn (hk _ _ ha)
  unfold check Spec.WellMarked
  rw [← h, ← Violation.earliest?_eq_none]
  by_cases hb : spec.blank = spec.left
  · simp [hb]
  · cases Violation.earliest? (Violation.all spec origins) <;> simp [hb]

end TapeMachine.Description
