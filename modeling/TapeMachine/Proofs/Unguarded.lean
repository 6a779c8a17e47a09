import TapeMachine.Description.Marker
import TapeMachine.Proofs.Textbook

/-! The machine without its two guards: cell 0 is an ordinary cell that may be overwritten, and a
move to the left of it is a failure. On specifications that keep the left-marker contract it cannot
be told from the guarded machine, because the head never stands on cell 0 under a rule that would
need a guard. -/
namespace TapeMachine

namespace Unguarded

inductive Failure where
  | missing (rule : MissingRule)
  | offTape
  deriving DecidableEq, Repr

/-- A plain move; from cell 0 there is nowhere to go on the left. -/
def moved? : Move → Nat → Option Nat
  | .left, 0 => none
  | .left, head + 1 => some head
  | .right, head => some (head + 1)
  | .stay, head => some head

/-- A step without guards: every cell is written alike, and a move off the tape fails. -/
def step (spec : Spec) (mode : Mode) (c : Textbook) : Except Failure (Option Action) × Textbook :=
  if c.state ∈ spec.accept ∨ c.state ∈ spec.reject ∨ c.state ∈ spec.halt then (.ok none, c)
  else
    match spec.rules[(c.state, c.cells c.head)]?, mode with
    | some a, _ =>
      match moved? a.move c.head with
      | some head =>
        (.ok (some a), ⟨a.next, Function.update c.cells c.head a.write, head, c.steps + 1⟩)
      | none => (.error .offTape, c)
    | none, .normal => (.ok none, { c with state := spec.halt.headD "h" })
    | none, .strict => (.error (.missing ⟨c.state, c.cells c.head⟩), c)

lemma moved?_of_pos {m : Move} {head : Nat} (h : m = .left → 0 < head) :
    moved? m head = some (m.apply head) := by
  cases m with
  | left =>
    cases head with
    | zero => exact absurd (h rfl) (Nat.lt_irrefl 0)
    | succ head => rfl
  | right => rfl
  | stay => rfl

/-- Writing without the guard is writing with it, where cell 0 gets back what it holds. -/
lemma cells_update {c : Config} {a : Action} (h : c.head = 0 → a.write = c.tape.left) :
    Function.update c.textbook.cells c.head a.write = (c.act a).textbook.cells := by
  rw [Config.textbook_act]
  by_cases hz : c.head = 0
  · have hw : c.textbook.cells 0 = a.write := (h hz).symm
    rw [hz, ← hw, Function.update_eq_self]
    funext p
    have hp : ¬ (p = c.textbook.head ∧ 0 < p) := by
      intro h
      obtain ⟨hp, hpos⟩ := h
      exact Nat.ne_of_gt hpos (hp.trans hz)
    rw [Textbook.cells_apply, if_neg hp]
  · exact (if_neg hz).symm

end Unguarded

namespace Spec
variable {spec : Spec} {c d : Config} {mode : Mode}

/-- Cell 0 holds the marker of the specification. -/
def Marked (spec : Spec) (c : Config) : Prop := c.tape.left = spec.left

lemma marked_initial (spec : Spec) (input : List Symbol) : spec.Marked (spec.initial input) :=
  Tape.left_ofInput _ _ _

lemma marked_step (mode : Mode) (c : Config) (h : spec.Marked c) :
    spec.Marked (spec.step mode c).2 :=
  (Transition.of_step rfl).markers.1.trans h

lemma marked_after (spec : Spec) (input : List Symbol) (modes : List Mode) :
    spec.Marked (after spec.step modes (spec.initial input)) :=
  (spec.markers_after input modes).1

/-- On cell 0 the head reads the marker, so the contract speaks about the rule there. -/
theorem WellMarked.keepsMarker (hw : spec.WellMarked) (hm : spec.Marked c) {a : Action}
    (rule : spec.action? c.state c.read = some a) (hz : c.head = 0) : a.KeepsMarker spec.left := by
  have hr : c.read = spec.left := by rw [Config.read, hz, Tape.read_zero, hm]
  exact hw.2 c.state a (hr ▸ rule)

/-- A rule that moves left is never applied on cell 0. -/
theorem WellMarked.pos_of_left (hw : spec.WellMarked) (hm : spec.Marked c) {a : Action}
    (rule : spec.action? c.state c.read = some a) (hl : a.move = .left) : 0 < c.head := by
  by_contra hz
  have hk := hw.keepsMarker hm rule (by omega)
  have : Move.left = Move.right := hl.symm.trans hk.2
  contradiction

theorem unguarded_step (hw : spec.WellMarked) (mode : Mode) (c : Config) (hm : spec.Marked c) :
    Unguarded.step spec mode c.textbook =
      Prod.map (Except.mapError Unguarded.Failure.missing) Config.textbook (spec.step mode c) := by
  rcases hs : spec.step mode c with ⟨r, d⟩
  unfold Unguarded.step
  cases Transition.of_step hs with
  | rest halted =>
    rw [if_pos ((spec.halted_iff_mem c).1 halted)]
    rfl
  | @act _ a running rule =>
    have hmove : Unguarded.moved? a.move c.textbook.head = some (a.move.apply c.head) :=
      Unguarded.moved?_of_pos (hw.pos_of_left hm rule)
    have hcells := Unguarded.cells_update (a := a) (c := c) fun hz =>
      (hw.keepsMarker hm rule hz).1.trans hm.symm
    rw [if_neg (not_mem_of_running running), rules_textbook, rule]
    simp only [hmove]
    exact congrArg (Prod.mk _) (Textbook.ext rfl hcells rfl rfl)
  | fall running missing =>
    rw [if_neg (not_mem_of_running running), rules_textbook, missing, List.headD_eq_head?_getD]
    rfl
  | fail running missing =>
    rw [if_neg (not_mem_of_running running), rules_textbook, missing]
    rfl

/-- What an applied rule does on cell 0, and where its move leads. -/
theorem WellMarked.head_of_applied (hw : spec.WellMarked) (hm : spec.Marked c) {a : Action}
    (hs : spec.step mode c = (.ok (some a), d)) :
    (c.head = 0 → a.write = spec.left ∧ a.move = .right) ∧
    (a.move = .left → 0 < c.head ∧ d.head = c.head - 1) ∧
    (a.move = .right → d.head = c.head + 1) ∧ (a.move = .stay → d.head = c.head) := by
  cases Transition.of_step hs with
  | act running rule =>
    refine ⟨hw.keepsMarker hm rule, fun hl => ⟨hw.pos_of_left hm rule hl, ?_⟩, ?_, ?_⟩
    · rw [Config.head_act, hl, Move.apply_left]
    · intro hr
      rw [Config.head_act, hr, Move.apply_right]
    · intro hs
      rw [Config.head_act, hs, Move.apply_stay]

/-- For a checked specification the two guards are never needed. Whatever calls were made, cell 0
reads the marker, a rule applied there writes the marker and moves right, and no move is cut off;
and the machine without guards gives the same trail. -/
theorem guards_unneeded {origins : Description.Origins}
    (hc : Description.check spec origins = .ok ()) (input : List Symbol) (modes : List Mode) :
    (let c := after spec.step modes (spec.initial input)
     c.tape.read 0 = spec.left ∧
     ∀ mode a d, spec.step mode c = (.ok (some a), d) →
      (c.head = 0 → a.write = spec.left ∧ a.move = .right) ∧
      (a.move = .left → 0 < c.head ∧ d.head = c.head - 1) ∧
      (a.move = .right → d.head = c.head + 1) ∧ (a.move = .stay → d.head = c.head)) ∧
    trail (Unguarded.step spec) modes (Textbook.initial spec input) =
      (trail spec.step modes (spec.initial input)).map fun (r, c) =>
        (r.mapError Unguarded.Failure.missing, c.textbook) := by
  have hw : spec.WellMarked := Description.check_eq_ok_iff.1 hc
  constructor
  · intro c
    have hm : spec.Marked c := spec.marked_after input modes
    exact ⟨hm, fun mode a d hs => hw.head_of_applied hm hs⟩
  · rw [← spec.textbook_initial input]
    exact trail_map (Except.mapError Unguarded.Failure.missing) Config.textbook
      (unguarded_step hw) marked_step modes (spec.marked_initial input)

/-- A machine that writes the marker over its input and runs back to cell 0. -/
def bouncing : Spec :=
  { ofDefaults {} with
    rules := (∅ : Rules).insert ("s", "[>") ⟨"s", "[>", .right⟩
      |>.insert ("s", "1") ⟨"s", "[>", .left⟩ }

theorem guards_unneeded_bouncing :
    Description.check bouncing {} = .ok () ∧
    trail (Unguarded.step bouncing) [.normal, .strict, .normal, .strict, .strict]
        (Textbook.initial bouncing ["1"]) =
      (trail bouncing.step [.normal, .strict, .normal, .strict, .strict]
        (bouncing.initial ["1"])).map fun (r, c) =>
          (r.mapError Unguarded.Failure.missing, c.textbook) :=
  have hc : Description.check bouncing {} = .ok () := by rfl
  ⟨hc, (guards_unneeded hc ["1"] _).2⟩

/-- Without the contract the guards are needed: this machine runs off the tape at once. -/
example : (Unguarded.step { ofDefaults {} with
      rules := (∅ : Rules).insert ("s", "[>") ⟨"s", "0", .left⟩ } .normal
    (Textbook.initial (ofDefaults {}) [])).1 = .error .offTape := by rfl

end Spec
end TapeMachine
