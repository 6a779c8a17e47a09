import TapeMachine.Proofs.Reaches
import TapeMachine.Proofs.TapeContent
import TapeMachine.Proofs.TapeReading

/-! The tape seen from the head, as the cells behind it and the cells ahead of it, and walks of a
machine from one such scene to another. Walks are put end to end, so a machine is followed rule by
rule and loop by loop; the two sweeps are the loops that stay in one state. -/
namespace TapeMachine

/-- A state, the cells behind the head, the nearest first, and the cells from the head on. All other
cells are blank. -/
structure Scene where
  state : State
  behind : List Symbol
  ahead : List Symbol

namespace Spec

/-- The configuration looks like the scene. -/
structure Shows (spec : Spec) (c : Config) (s : Scene) : Prop where
  state : c.state = s.state
  head : c.head = s.behind.length
  blank : c.tape.blank = spec.blank
  cells (p : Nat) : c.tape.read p = (s.behind.reverse ++ s.ahead)[p]?.getD spec.blank

/-- `n` rules lead from every configuration that shows `s` to one that shows `t`. -/
def Walks (spec : Spec) (n : Nat) (s t : Scene) : Prop :=
  ∀ c, spec.Shows c s → ∃ d, spec.Reaches n c d ∧ spec.Shows d t

variable {spec : Spec} {c : Config} {s t u : Scene} {q q' : State} {x y : Symbol}
  {l r w : List Symbol} {m n : Nat}

theorem shows_initial (spec : Spec) (input : List Symbol) :
    spec.Shows (spec.initial input) ⟨spec.start, [], spec.left :: input⟩ where
  state := rfl
  head := rfl
  blank := Tape.blank_ofInput _ _ _
  cells p := by
    have hread := Tape.read_ofInput spec.left spec.blank input p
    cases p with
    | zero => exact hread
    | succ p => exact hread

lemma Shows.read_eq (h : spec.Shows c ⟨q, l, x :: r⟩) : c.read = x := by
  rw [Config.read, h.head, h.cells]
  simp

/-- The content of the tape is what the scene shows behind the marker, if that does not end in a
blank. -/
lemma Shows.content_eq (h : spec.Shows c s) (hs : s.behind.reverse ++ s.ahead = x :: w)
    (hw : w.getLast? ≠ some spec.blank) : c.tape.content = String.join w := by
  have hblank : c.tape.blank = spec.blank := h.blank
  refine Tape.content_eq (x := x) (fun p => ?_) (by rwa [hblank])
  rw [h.cells, hs, hblank]

/-- Only the cell under the head changes, and cell 0 does not. -/
lemma Shows.cells_act {a : Action} (h : spec.Shows c ⟨q, l, x :: r⟩) (hw : l = [] → a.write = x)
    (p : Nat) : (c.act a).tape.read p = (l.reverse ++ a.write :: r)[p]?.getD spec.blank := by
  have hset : l.reverse ++ a.write :: r = (l.reverse ++ x :: r).set l.length a.write := by simp
  have hhead : c.head = l.length := h.head
  rw [Config.read_tape_act, Tape.read_write, h.cells, hset, hhead, List.getElem?_set]
  by_cases hp : l.length = p
  · subst hp
    by_cases hl : l = []
    · simp [hl, hw hl]
    · simp [hl]
  · simp [hp]

theorem Walks.refl (s : Scene) : spec.Walks 0 s s := fun c h => ⟨c, .refl c, h⟩

theorem Walks.trans (h : spec.Walks m s t) (h' : spec.Walks n t u) : spec.Walks (m + n) s u := by
  intro c hc
  obtain ⟨d, hd, hs⟩ := h c hc
  obtain ⟨e, he, ht⟩ := h' d hs
  exact ⟨e, hd.trans he, ht⟩

/-- A rule is applied if the scene after it is the one that its move leads to. -/
lemma Walks.rule {a : Action} (running : spec.isHalting q = false)
    (rule : spec.action? q x = some a) (hw : l = [] → a.write = x)
    (state : t.state = a.next) (head : t.behind.length = a.move.apply l.length)
    (cells : t.behind.reverse ++ t.ahead = l.reverse ++ a.write :: r) :
    spec.Walks 1 ⟨q, l, x :: r⟩ t := by
  intro c hc
  have hq : c.state = q := hc.state
  refine ⟨c.act a, .apply (by rwa [halted, hq]) (by rwa [hq, hc.read_eq]) (.refl _), ?_⟩
  refine ⟨state.symm, ?_, ?_, fun p => ?_⟩
  · rw [Config.head_act, hc.head, head]
  · rw [Config.blank_tape_act, hc.blank]
  · rw [hc.cells_act hw, cells]

/-- A rule that moves right. Cell 0 has to be written back. -/
theorem Walks.right (running : spec.isHalting q = false)
    (rule : spec.action? q x = some ⟨q', y, .right⟩) (hw : l = [] → y = x) :
    spec.Walks 1 ⟨q, l, x :: r⟩ ⟨q', y :: l, r⟩ :=
  .rule running rule hw rfl rfl (by simp)

theorem Walks.left {z : Symbol} (running : spec.isHalting q = false)
    (rule : spec.action? q x = some ⟨q', y, .left⟩) :
    spec.Walks 1 ⟨q, z :: l, x :: r⟩ ⟨q', l, z :: y :: r⟩ :=
  .rule running rule (by simp) rfl rfl (by simp)

theorem Walks.stay (running : spec.isHalting q = false)
    (rule : spec.action? q x = some ⟨q', y, .stay⟩) (hw : l ≠ []) :
    spec.Walks 1 ⟨q, l, x :: r⟩ ⟨q', l, y :: r⟩ :=
  .rule running rule (fun h => absurd h hw) rfl rfl rfl

/-- A blank at the end of a scene may be shown or not. -/
lemma shows_blank : spec.Shows c ⟨q, l, r ++ [spec.blank]⟩ ↔ spec.Shows c ⟨q, l, r⟩ := by
  have hcells : ∀ p : Nat, (l.reverse ++ (r ++ [spec.blank]))[p]?.getD spec.blank =
      (l.reverse ++ r)[p]?.getD spec.blank := by
    intro p
    rw [← List.append_assoc, Tape.getD_append_singleton]
  constructor
  · intro h
    exact ⟨h.state, h.head, h.blank, fun p => (h.cells p).trans (hcells p)⟩
  · intro h
    exact ⟨h.state, h.head, h.blank, fun p => (h.cells p).trans (hcells p).symm⟩

theorem Walks.show_blank : spec.Walks 0 ⟨q, l, r⟩ ⟨q, l, r ++ [spec.blank]⟩ :=
  fun c h => ⟨c, .refl c, shows_blank.2 h⟩

theorem Walks.hide_blank : spec.Walks 0 ⟨q, l, r ++ [spec.blank]⟩ ⟨q, l, r⟩ :=
  fun c h => ⟨c, .refl c, shows_blank.1 h⟩

/-- A machine that stays in one state and moves right passes over a word and leaves it as it is. -/
theorem Walks.sweep_right (running : spec.isHalting q = false)
    (rules : ∀ x ∈ w, spec.action? q x = some ⟨q, x, .right⟩) :
    spec.Walks w.length ⟨q, l, w ++ r⟩ ⟨q, w.reverse ++ l, r⟩ := by
  induction w generalizing l with
  | nil => exact .refl _
  | cons x w ih =>
    have hx := rules x List.mem_cons_self
    have hstep : spec.Walks 1 ⟨q, l, x :: (w ++ r)⟩ ⟨q, x :: l, w ++ r⟩ :=
      .right running hx fun _ => rfl
    have hrest := ih (l := x :: l) fun y hy => rules y (List.mem_cons_of_mem x hy)
    rw [List.length_cons, Nat.add_comm, List.reverse_cons, List.append_assoc]
    exact hstep.trans hrest

/-- A machine that sweeps over what is left of its tape turns round at the blank behind it. -/
theorem Walks.turn {z : Symbol} {before : List Symbol} (running : spec.isHalting q = false)
    (rules : ∀ x ∈ w, spec.action? q x = some ⟨q, x, .right⟩)
    (rule : spec.action? q spec.blank = some ⟨q', y, .left⟩)
    (hb : w.reverse ++ l = z :: before) :
    spec.Walks (w.length + 1) ⟨q, l, w⟩ ⟨q', before, [z, y]⟩ := by
  have hsweep := Walks.sweep_right (r := []) (l := l) running rules
  have hblank : spec.Walks 0 ⟨q, z :: before, []⟩ ⟨q, z :: before, [spec.blank]⟩ := .show_blank
  rw [List.append_nil, hb] at hsweep
  exact (hsweep.trans hblank).trans (.left running rule)

/-- A machine that stays in one state and moves left goes through a word, the nearest cell of which
is under its head, and rewrites each of its cells; it comes to the cell `z` before the word. -/
theorem Walks.sweep_left {f : Symbol → Symbol} {z : Symbol} (running : spec.isHalting q = false)
    (rules : ∀ x ∈ w, spec.action? q x = some ⟨q, f x, .left⟩) {before : List Symbol}
    (hw : x :: before = w ++ z :: l) :
    spec.Walks w.length ⟨q, before, x :: r⟩ ⟨q, l, z :: ((w.map f).reverse ++ r)⟩ := by
  induction w generalizing x before r with
  | nil =>
    cases hw
    exact .refl _
  | cons x' w ih =>
    obtain ⟨rfl, hbefore⟩ := List.cons.inj hw
    obtain ⟨y, rest, hb⟩ : ∃ y rest, w ++ z :: l = y :: rest := by
      cases w <;> exact ⟨_, _, rfl⟩
    have hx := rules x List.mem_cons_self
    have hstep : spec.Walks 1 ⟨q, y :: rest, x :: r⟩ ⟨q, rest, y :: f x :: r⟩ :=
      .left running hx
    have hrest := ih (r := f x :: r) (fun y hy => rules y (List.mem_cons_of_mem x hy)) hb.symm
    rw [List.length_cons, Nat.add_comm, hbefore.trans hb]
    simpa using hstep.trans hrest

/-- A walk to a halting state is a run, in either mode and within every bound that is large enough.
It counts its rules, and none is missing on the way, whatever calls are made. -/
theorem Walks.run (h : spec.Walks m s t) (hc : spec.Shows c s)
    (ht : spec.isHalting t.state = true) :
    ∃ d, spec.Shows d t ∧ d.steps = c.steps + m ∧
      (∀ n mode, m ≤ n → spec.run ⟨n, mode⟩ c = (.ok (spec.verdict d), d)) ∧
      ∀ modes, ¬ spec.Missing (after spec.step modes c) := by
  obtain ⟨d, hd, hs⟩ := h c hc
  have halted : spec.halted d = true := by rwa [Spec.halted, hs.state]
  exact ⟨d, hs, hd.steps_eq, fun n mode hn => hd.run_of_halted halted hn,
    fun modes => hd.not_missing (.inr halted)⟩

end Spec
end TapeMachine
