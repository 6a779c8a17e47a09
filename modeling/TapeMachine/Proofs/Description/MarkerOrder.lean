import TapeMachine.Proofs.Description.Classify
import TapeMachine.Proofs.Text.ByteOrder

/-! Which violation of the left-marker contract is reported. It is the least one by its line and, on
one line, by its state. So it does not matter in which order the rules of a machine are met: a sort
of all rules on the marker, in whatever order they come, brings the same violation to the front. -/
namespace TapeMachine

lemma Situation.order_eq_lt_iff {k k' : Situation} :
    order k k' = .lt ↔ k.1 < k'.1 ∨ k.1 = k'.1 ∧ k.2 < k'.2 := by
  simp [order, compareLex, compareOn, Ordering.then_eq_lt, compare_lt_iff_lt]

namespace Description
open Text

namespace Violation

/-- Every rule on the marker, as the violation that it may be, in the order in which the states are
met. -/
def candidates (spec : Spec) (origins : Origins) (states : List State) : List Violation :=
  states.filterMap fun q =>
    (spec.action? q spec.left).map (⟨origins.lineOf (q, spec.left), q, ·⟩)

end Violation

/-- A rule for the state on the marker that does not write the marker back or does not move right.
-/
def Violates (spec : Spec) (q : State) (a : Action) : Prop :=
  spec.action? q spec.left = some a ∧ ¬ (a.write = spec.left ∧ a.move = .right)

/-- What the check of a machine has to say. -/
inductive Examined (spec : Spec) (origins : Origins) : Except LoadError Unit → Prop where
  | blankIsLeft (same : spec.blank = spec.left) : Examined spec origins
      (.error (.fault (max origins.blank origins.left) (.blankIsLeftMarker spec.blank)))
  | markerRule {q : State} {a : Action} (differ : spec.blank ≠ spec.left)
      (violates : Violates spec q a)
      (least : ∀ q' a', Violates spec q' a' → q' ≠ q →
        origins.lineOf (q, spec.left) < origins.lineOf (q', spec.left) ∨
        origins.lineOf (q, spec.left) = origins.lineOf (q', spec.left) ∧
          utf8Bytes q < utf8Bytes q') :
      Examined spec origins
        (.error (.fault (origins.lineOf (q, spec.left)) (.leftMarkerRule q spec.left a)))
  | kept (differ : spec.blank ≠ spec.left) (keeps : ∀ q a, ¬ Violates spec q a) :
      Examined spec origins (.ok ())

section Examined
variable {spec : Spec} {origins : Origins} {r r' : Except LoadError Unit}

/-- Two violations for different states cannot both come first. -/
lemma Examined.unique (h : Examined spec origins r) (h' : Examined spec origins r') : r = r' := by
  cases h with
  | blankIsLeft same =>
    cases h' with
    | blankIsLeft => rfl
    | markerRule differ => exact absurd same differ
    | kept differ => exact absurd same differ
  | @markerRule q a differ violates least =>
    cases h' with
    | blankIsLeft same => exact absurd same differ
    | @markerRule q' a' _ violates' least' =>
      by_cases hq : q' = q
      · subst hq
        cases violates.1.symm.trans violates'.1
        rfl
      · rcases least q' a' violates' hq with hlt | ⟨heq, hlt⟩
        · rcases least' q a violates (Ne.symm hq) with hlt' | ⟨heq', -⟩ <;> omega
        · rcases least' q a violates (Ne.symm hq) with hlt' | ⟨-, hlt'⟩
          · omega
          · exact absurd hlt' (List.lt_asymm hlt)
    | kept _ keeps => exact absurd violates (keeps q a)
  | kept differ keeps =>
    cases h' with
    | blankIsLeft same => exact absurd same differ
    | @markerRule q a _ violates => exact absurd violates (keeps q a)
    | kept => rfl

end Examined

namespace Violation
variable {spec : Spec} {origins : Origins} {v w : Violation}

/-- A violation comes before another: on an earlier line, or on the same line for a lesser state. -/
def Precedes (v w : Violation) : Prop := v.line < w.line ∨ v.line = w.line ∧ v.state < w.state

section Meeting
variable {states : List State}

end Meeting
end Violation

section Check
variable (spec : Spec) (origins : Origins)

end Check
end Description
end TapeMachine
