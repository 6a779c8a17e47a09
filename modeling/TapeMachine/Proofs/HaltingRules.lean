import TapeMachine.Proofs.Tracing

/-! Rules for halting states are dead. A machine asks for a rule only while it is running, also
after a fall, so two machines that differ in nothing but the rules for their halting states do the
same at every step, and with it in every run and in every trace. -/
namespace TapeMachine.Spec

/-- The same machine but for the rules of states that halt it. -/
structure SameRunning (a b : Spec) : Prop where
  blank : a.blank = b.blank
  left : a.left = b.left
  start : a.start = b.start
  accept : a.accept = b.accept
  reject : a.reject = b.reject
  halt : a.halt = b.halt
  rule (q : State) (s : Symbol) : q ∉ a.accept → q ∉ a.reject → q ∉ a.halt →
    a.action? q s = b.action? q s

namespace SameRunning
variable {a b : Spec} (h : a.SameRunning b) (mode : Mode) (n : Nat) (c : Config)
include h

lemma kinds_eq (q : State) : a.isAccept q = b.isAccept q ∧ a.isReject q = b.isReject q ∧
    a.isHalt q = b.isHalt q := by
  refine ⟨?_, ?_, ?_⟩
  · rw [isAccept, isAccept, h.accept]
  · rw [isReject, isReject, h.reject]
  · rw [isHalt, isHalt, h.halt]

lemma status_eq : a.status c = b.status c := by
  obtain ⟨haccept, hreject, hhalt⟩ := h.kinds_eq c.state
  simp only [status, haccept, hreject, hhalt]

lemma halted_eq : a.halted c = b.halted c := by
  obtain ⟨haccept, hreject, hhalt⟩ := h.kinds_eq c.state
  simp only [halted, isHalting, haccept, hreject, hhalt]

lemma verdict_eq : a.verdict c = b.verdict c := by
  simp only [verdict, output, h.status_eq]

lemma initial_eq (input : List Symbol) : a.initial input = b.initial input := by
  simp only [initial, h.start, h.left, h.blank]

lemma action?_eq (running : a.halted c = false) :
    a.action? c.state c.read = b.action? c.state c.read := by
  simp only [halted, isHalting, isAccept, isReject, isHalt, Bool.or_eq_false_iff,
    List.contains_eq_mem, decide_eq_false_iff_not] at running
  exact h.rule _ _ running.1.1 running.1.2 running.2

/-- A step looks up a rule only if the machine is running. -/
theorem step_eq : a.step mode c = b.step mode c := by
  cases running : a.halted c with
  | true =>
    have halted : b.halted c = true := (h.halted_eq c).symm.trans running
    rw [step_of_halted running, step_of_halted halted]
  | false =>
    have hfall : a.haltState = b.haltState := by rw [haltState, haltState, h.halt]
    simp only [step, ← h.halted_eq, running, h.action?_eq c running, hfall]

theorem runFor_eq : a.runFor mode n c = b.runFor mode n c := by
  induction n generalizing c with
  | zero => simp only [runFor, h.verdict_eq]
  | succ n ih => simp only [runFor, h.halted_eq, h.verdict_eq, h.step_eq, ih]

theorem traceFor_eq (every : Nat) (shown : List Config) :
    a.traceFor mode every n c shown = b.traceFor mode every n c shown := by
  induction n generalizing c shown with
  | zero => simp only [traceFor, h.verdict_eq]
  | succ n ih => simp only [traceFor, h.halted_eq, h.verdict_eq, h.step_eq, ih]

lemma header_eq (settings : TraceSettings) : Trace.header a settings = Trace.header b settings := by
  simp only [Trace.header, h.blank, h.left, h.start, h.accept, h.reject, h.halt]

theorem printTraceFor_eq {ω σ : Type} (w : Writer ω σ) (settings : TraceSettings) (out : σ) :
    a.printTraceFor w mode settings n c out = b.printTraceFor w mode settings n c out := by
  have hfooter (c : Config) (out : σ) : a.printFooter w c out = b.printFooter w c out := by
    simp only [printFooter, h.verdict_eq]
  induction n generalizing c out with
  | zero => exact hfooter c out
  | succ n ih => simp only [printTraceFor, h.halted_eq, hfooter, h.step_eq, ih]

end SameRunning

/-- Rules for halting states are dead: machines that have the same parts, and the same rules for all
states that do not halt them, cannot be told apart. On every input, with every bound and in both
modes, their runs have the same result and leave the same machine, and their traces have the same
lines; to write a trace on the way, with writes that may fail, comes to the same too. -/
theorem halting_rules_dead {a b : Spec} (h : a.SameRunning b) (input : List Symbol)
    (options : RunOptions) (settings : TraceSettings) :
    let start := a.initial input
    b.initial input = start ∧ b.run options start = a.run options start ∧
    (b.trace options settings.every start).lines b settings =
      (a.trace options settings.every start).lines a settings ∧
    ∀ {ω σ : Type} (w : Writer ω σ) (out : σ),
      b.printTrace w options settings start out = a.printTrace w options settings start out := by
  intro start
  refine ⟨(h.initial_eq input).symm, (h.runFor_eq _ _ _).symm, ?_, fun w out => ?_⟩
  · simp only [Trace.lines_eq, trace, h.traceFor_eq, h.header_eq]
  · simp only [printTrace, h.header_eq, h.printTraceFor_eq]

/-- The straying machine with rules for the states that it falls into and accepts with. -/
def haunted : Spec :=
  { straying with
    rules := straying.rules.insert ("h", "1") ⟨"s", "0", .right⟩
      |>.insert ("yes", "[>") ⟨"h", "[>", .left⟩ }

/-- The machine falls into a state that has a rule for the symbol under the head. -/
theorem halting_rules_dead_haunted :
    straying.SameRunning haunted ∧
    let start := straying.initial ["1"]
    let fallen := { start.act ⟨"s", "[>", .right⟩ with state := "h" }
    haunted.action? fallen.state fallen.read = some ⟨"s", "0", .right⟩ ∧
    straying.action? fallen.state fallen.read = none ∧
    haunted.run ⟨9, .normal⟩ start = (.ok (.output "1"), fallen) ∧
    (haunted.trace ⟨9, .normal⟩ 1 start).lines haunted ⟨"m", "1", 3, 1⟩ =
      (straying.trace ⟨9, .normal⟩ 1 start).lines straying ⟨"m", "1", 3, 1⟩ := by
  have hsame : straying.SameRunning haunted := by
    refine ⟨rfl, rfl, rfl, rfl, rfl, rfl, fun q s haccept _ hhalt => ?_⟩
    have hyes : ¬ (("yes", "[>") : Situation) = (q, s) := by
      rintro ⟨⟩
      exact haccept (List.mem_singleton_self _)
    have hh : ¬ (("h", "1") : Situation) = (q, s) := by
      rintro ⟨⟩
      exact hhalt (List.mem_singleton_self _)
    rw [action?, action?, haunted, Table.getElem?_insert, Table.getElem?_insert, if_neg hyes,
      if_neg hh]
  have hrun : straying.run ⟨9, .normal⟩ (straying.initial ["1"]) = (.ok (.output "1"),
      { (straying.initial ["1"]).act ⟨"s", "[>", .right⟩ with state := "h" }) := by rfl
  have hdead := halting_rules_dead hsame ["1"] ⟨9, .normal⟩ ⟨"m", "1", 3, 1⟩
  exact ⟨hsame, by rfl, by rfl, hdead.2.1.trans hrun, hdead.2.2.1⟩

end TapeMachine.Spec
