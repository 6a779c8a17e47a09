import TapeMachine.Proofs.Bounds
import TapeMachine.Proofs.Calls
import TapeMachine.Proofs.Description.RoundTrip
import TapeMachine.Proofs.InputReading

/-! Where the names and symbols of a run come from. Descriptions and inputs are cut up at white
space, and a machine makes up no names of its own, so every state and every cell of a run is a word,
and texts that are put together from cells have no white space in them. -/
namespace TapeMachine
open Text

/-- A machine whose runs can take no name from it that is not a word. -/
structure Spec.Worded (spec : Spec) : Prop where
  blank : IsWord spec.blank
  left : IsWord spec.left
  start : IsWord spec.start
  haltState : IsWord spec.haltState
  rule {q : State} {s : Symbol} {a : Action} (h : spec.action? q s = some a) :
    IsWord a.next ∧ IsWord a.write

structure Config.Worded (c : Config) : Prop where
  state : IsWord c.state
  cell (p : Nat) : IsWord (c.tape.read p)

/-- The names and symbols in the result of a step. -/
def StepResult.names : StepResult → List String
  | .ok none => []
  | .ok (some a) => [a.next, a.write]
  | .error e => [e.state, e.symbol]

namespace Description
variable {spec : Spec}

lemma IsToken.isWord {s : String} (h : IsToken s) : IsWord s := ⟨h.1, fun c hc => (h.2 c hc).1⟩

/-- What can be written down is made of words, the state to fall into among them. -/
theorem Writable.worded (h : Writable spec) : spec.Worded where
  blank := ((h.part .blank).2 _ List.mem_cons_self).isWord
  left := ((h.part .left).2 _ List.mem_cons_self).isWord
  start := ((h.part .start).2 _ List.mem_cons_self).isWord
  haltState := by
    obtain ⟨hne, htoken⟩ := h.part .halt
    obtain ⟨q, qs, hq⟩ : ∃ q qs, spec.halt = q :: qs := List.exists_cons_of_ne_nil hne
    have hfall : spec.haltState = q := by
      rw [Spec.haltState, hq]
      rfl
    have hmem : q ∈ spec.halt := by
      rw [hq]
      exact List.mem_cons_self
    rw [hfall]
    exact (htoken q hmem).isWord
  rule ha := by
    obtain ⟨-, -, hnext, hwrite⟩ := h.rule _ _ _ ha
    exact ⟨hnext.isWord, hwrite.isWord⟩

end Description

section Tape
variable {t : Tape} (h : ∀ p, IsWord (t.read p))
include h

lemma Tape.isWord_of_mem_segment {lo hi : Nat} {s : Symbol} (hs : s ∈ t.segment lo hi) :
    IsWord s := by
  obtain ⟨p, -, rfl⟩ := List.mem_map.1 hs
  exact h p

lemma Tape.solid_segment (lo hi : Nat) : Solid (String.join (t.segment lo hi)) :=
  solid_join fun _ hs => (isWord_of_mem_segment h hs).2

lemma Tape.solid_render (limit : Nat) : Solid (t.render limit) := by
  refine (solid_segment h _ _).append ?_
  split <;> decide

end Tape

lemma Config.Worded.act {c : Config} (hc : c.Worded) {a : Action} (next : IsWord a.next)
    (write : IsWord a.write) : (c.act a).Worded where
  state := next
  cell p := by
    rw [Config.read_tape_act, Tape.read_write]
    split
    · exact write
    · exact hc.cell p

namespace Spec
variable {spec : Spec} {c d : Config} {mode : Mode} {r : StepResult}

lemma Worded.initial (hs : spec.Worded) {input : List Symbol} (hinput : ∀ s ∈ input, IsWord s) :
    (spec.initial input).Worded where
  state := hs.start
  cell := Tape.forall_read_ofInput hs.left hs.blank hinput

/-- A step takes its names from a rule, from the machine before it or from the halt state. -/
theorem Transition.worded (h : spec.Transition c mode r d) (hs : spec.Worded) (hc : c.Worded) :
    d.Worded ∧ ∀ s ∈ r.names, IsWord s := by
  cases h with
  | rest => exact ⟨hc, List.forall_mem_nil _⟩
  | act _ rule =>
    obtain ⟨next, write⟩ := hs.rule rule
    exact ⟨hc.act next write, by simp [StepResult.names, next, write]⟩
  | fall => exact ⟨⟨hs.haltState, hc.cell⟩, List.forall_mem_nil _⟩
  | fail => exact ⟨hc, by simpa [StepResult.names] using ⟨hc.state, hc.cell c.head⟩⟩

/-- Whatever is called on a machine of words, and as often as it is, it stays one. -/
theorem Worded.calls (hs : spec.Worded) (hc : c.Worded) (modes : List Mode) :
    (after spec.step modes c).Worded := by
  refine after_invariant (P := Config.Worded) (fun mode c hc => ?_) modes hc
  have hstep : spec.Transition c mode _ (spec.step mode c).2 := .of_step rfl
  exact (hstep.worded hs hc).1

/-- A run is made of steps: the machine in which it ends is of words, and so is its failure. -/
theorem Runs.worded {n : Nat} {r : Except MissingRule Verdict} (h : spec.Runs mode n c r d)
    (hs : spec.Worded) (hc : c.Worded) :
    d.Worded ∧ ∀ e, r = .error e → IsWord e.state ∧ IsWord e.symbol := by
  induction h with
  | stop => exact ⟨hc, fun _ heq => nomatch heq⟩
  | fail _ step =>
    obtain ⟨hd, hnames⟩ := (Transition.of_step step).worded hs hc
    refine ⟨hd, fun e heq => ?_⟩
    cases heq
    simpa [StepResult.names] using hnames
  | go _ step _ ih => exact ih ((Transition.of_step step).worded hs hc).1

lemma solid_output (spec : Spec) (hc : c.Worded) : Solid (spec.output c) := by
  have hyes : Solid "yes" := by decide
  have hno : Solid "no" := by decide
  unfold output
  cases spec.status c with
  | accepted => exact hyes
  | rejected => exact hno
  | halted => exact Tape.solid_segment hc.cell _ _
  | running => exact Tape.solid_segment hc.cell _ _

lemma solid_verdict (spec : Spec) (hc : c.Worded) : Solid (spec.verdict c).text := by
  have hyes : Solid "yes" := by decide
  have hno : Solid "no" := by decide
  have hslash : Solid "/" := by decide
  unfold verdict
  cases spec.status c with
  | accepted => exact hyes
  | rejected => exact hno
  | halted => exact solid_output spec hc
  | running => exact hslash

/-- The text of every verdict is without white space. -/
lemma Worded.solid_of_runFor (hs : spec.Worded) (hc : c.Worded) {n : Nat} {v : Verdict}
    (h : spec.runFor mode n c = (.ok v, d)) : Solid v.text := by
  rw [← verdict_of_runFor h]
  exact solid_verdict spec ((Runs.of_runFor h).worded hs hc).1

end Spec

/-- A machine that was read from a text, with an input that was read from a text, is one of words
before its first step. -/
theorem worded_of_read {text raw : String} {spec : Spec} {symbols : List Symbol}
    (hparse : Description.parse text = .ok spec) (hinput : Input.symbols spec raw = .ok symbols) :
    spec.Worded ∧ (spec.initial symbols).Worded := by
  obtain ⟨-, describes, marked⟩ := Description.parse_eq_ok_iff.1 hparse
  have hspec : spec.Worded := (Description.writable_of_describes describes marked).worded
  have hstands := Input.standsFor_iff.2 (Input.symbols_eq_ok_iff.1 hinput).1
  exact ⟨hspec, hspec.initial fun s hs => hstands.isWord hs⟩

end TapeMachine
