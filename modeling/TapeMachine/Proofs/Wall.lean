import TapeMachine.Proofs.Unguarded

/-! The left-end marker as a wall. On specifications that keep the left-marker contract a cell that
holds the marker holds it for good, and a head that stands on it or behind it never gets to its
left. That is so for cell 0, for markers in the input, and for those that rules have written. -/
namespace TapeMachine.Spec
variable {spec : Spec} {c : Config} {p : Nat}

/-- A marker outlives an action, and the head does not pass it on the way to the left: on the marker
the contract sends it to the right. -/
lemma WellMarked.wall_act (hw : spec.WellMarked) {a : Action}
    (rule : spec.action? c.state c.read = some a) (hp : c.tape.read p = spec.left) :
    (c.act a).tape.read p = spec.left ∧ (p ≤ c.head → p ≤ (c.act a).head) := by
  by_cases h : p = c.head
  · have hread : c.read = spec.left := by rw [Config.read, ← h, hp]
    obtain ⟨hwrite, hmove⟩ := hw.2 c.state a (hread ▸ rule)
    constructor
    · rw [Config.read_tape_act, Tape.read_write, hwrite, hp, ite_self]
    · intro _
      rw [Config.head_act, hmove, Move.apply_right, h]
      exact Nat.le_succ _
  · constructor
    · rw [Config.read_tape_act_of_ne h, hp]
    · intro hle
      have hmove := a.move.le_apply c.head
      rw [Config.head_act]
      omega

lemma WellMarked.wall_step (hw : spec.WellMarked) (mode : Mode) (c : Config)
    (hp : c.tape.read p = spec.left) :
    (spec.step mode c).2.tape.read p = spec.left ∧
      (p ≤ c.head → p ≤ (spec.step mode c).2.head) := by
  rcases hs : spec.step mode c with ⟨r, d⟩
  cases Transition.of_step hs with
  | rest => exact ⟨hp, id⟩
  | act _ rule => exact hw.wall_act rule hp
  | fall => exact ⟨hp, id⟩
  | fail => exact ⟨hp, id⟩

theorem WellMarked.wall_after (hw : spec.WellMarked) (modes : List Mode)
    (hp : c.tape.read p = spec.left) :
    (after spec.step modes c).tape.read p = spec.left ∧
      (p ≤ c.head → p ≤ (after spec.step modes c).head) := by
  refine after_invariant
    (P := fun d : Config => d.tape.read p = spec.left ∧ (p ≤ c.head → p ≤ d.head))
    (fun mode d hd => ?_) modes ⟨hp, id⟩
  obtain ⟨hread, hle⟩ := hw.wall_step mode d hd.1
  exact ⟨hread, fun h => hle (hd.2 h)⟩

/-- A rule that writes the marker leaves it under the head, also on cell 0, which no rule can
change. -/
lemma read_of_writes_marker (hm : spec.Marked c) {a : Action} (hwrite : a.write = spec.left) :
    (c.act a).tape.read c.head = spec.left := by
  rw [Config.read_tape_act, Tape.read_write, hwrite]
  by_cases hz : c.head = 0
  · rw [hz, Tape.read_zero, hm, ite_self]
  · rw [if_pos ⟨rfl, hz⟩]

/-- For a checked specification every marker on the tape is a wall. Cell 0 reads the marker, and so
does every cell into which a rule has just written it. Whatever cell reads the marker, from then on
it reads the marker after any further calls, and once the head has come to that cell or beyond, it
stays there or beyond. -/
theorem markers_are_walls {origins : Description.Origins}
    (hc : Description.check spec origins = .ok ()) (input : List Symbol) (modes : List Mode) :
    let c := after spec.step modes (spec.initial input)
    c.tape.read 0 = spec.left ∧
    (∀ mode a d, spec.step mode c = (.ok (some a), d) → a.write = spec.left →
      d.tape.read c.head = spec.left) ∧
    ∀ p, c.tape.read p = spec.left → ∀ later,
      let d := after spec.step later c
      d.tape.read p = spec.left ∧
        ∀ further, p ≤ d.head → p ≤ (after spec.step further d).head := by
  intro c
  have hw : spec.WellMarked := Description.check_eq_ok_iff.1 hc
  have hm : spec.Marked c := spec.marked_after input modes
  refine ⟨hm, fun mode a d hs hwrite => ?_, fun p hp later => ?_⟩
  · cases Transition.of_step hs
    exact read_of_writes_marker hm hwrite
  · have hd := (hw.wall_after later hp).1
    exact ⟨hd, fun further => (hw.wall_after further hd).2⟩

/-- The machine writes the marker over a one, runs into it from the left and passes it. -/
theorem markers_are_walls_bouncing :
    let start := bouncing.initial ["1", "1"]
    let c := after bouncing.step [.normal] start
    let d := after bouncing.step [.normal, .strict] start
    let e := after bouncing.step [.strict, .normal] d
    Description.check bouncing {} = .ok () ∧
    bouncing.step .strict c = (.ok (some ⟨"s", "[>", .left⟩), d) ∧ d.tape.read 1 = "[>" ∧
    d.head = 0 ∧ e.tape.read 1 = "[>" ∧ 1 ≤ e.head ∧
    1 ≤ (after bouncing.step [.normal] e).head := by
  have hc : Description.check bouncing {} = .ok () := by rfl
  intro start c d e
  have hrule : bouncing.action? c.state c.read = some ⟨"s", "[>", .left⟩ := by decide +kernel
  have hact : bouncing.step .strict c = _ := step_of_action (by decide +kernel) hrule
  have hs : bouncing.step .strict c = (.ok (some ⟨"s", "[>", .left⟩), d) :=
    Prod.ext (congrArg Prod.fst hact :) (by simp only [c, d, after])
  have hhead : c.head = 1 := by decide +kernel
  have hwritten : d.tape.read c.head = "[>" :=
    (markers_are_walls hc ["1", "1"] [.normal]).2.1 _ _ _ hs rfl
  rw [hhead] at hwritten
  have hwall := (markers_are_walls hc ["1", "1"] [.normal, .strict]).2.2 1 hwritten
    [.strict, .normal]
  have hpassed : 1 ≤ e.head := by decide +kernel
  exact ⟨hc, hs, hwritten, by decide +kernel, hwall.1, hpassed, hwall.2 [.normal] hpassed⟩

end TapeMachine.Spec
