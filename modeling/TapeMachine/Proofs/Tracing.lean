import Mathlib.Tactic.Lemma
import TapeMachine.Trace

/-! Tracing does not change a run. A trace has the result of the run and ends with the machine that
the run leaves; and a machine that writes its trace while it runs, line by line and with writes that
may fail, does the same and writes the lines of that trace if no write fails. -/
namespace TapeMachine

/-- Takes a line, with success or with a failure, and is in a new state afterwards. -/
abbrev Writer (ω σ : Type) := σ → String → Except ω Unit × σ

namespace Writer
variable {ω σ : Type} (w : Writer ω σ)

/-- Write lines one after the other, up to the first failure. -/
def writeAll : σ → List String → Except ω Unit × σ
  | out, [] => (.ok (), out)
  | out, l :: ls =>
    match w out l with
    | (.ok _, out) => writeAll out ls
    | (.error f, out) => (.error f, out)

def NeverFails : Prop := ∀ out l, (w out l).1 = .ok ()

/-- The state of the writer after some lines. -/
def written (out : σ) (ls : List String) : σ := ls.foldl (fun out l => (w out l).2) out

lemma written_append (out : σ) (ls more : List String) :
    w.written out (ls ++ more) = w.written (w.written out ls) more :=
  List.foldl_append

variable {w}

lemma writeAll_of_neverFails (hw : w.NeverFails) (out : σ) (ls : List String) :
    w.writeAll out ls = (.ok (), w.written out ls) := by
  induction ls generalizing out with
  | nil => rfl
  | cons l ls ih =>
    have hl : w out l = (.ok (), (w out l).2) := Prod.ext (hw out l) rfl
    rw [writeAll, hl]
    exact ih _

end Writer

/-- Why a machine that writes its trace stops before its run has ended. -/
inductive Interruption (ω : Type) where
  | write (failure : ω)
  | missing (rule : MissingRule)
  deriving DecidableEq, Repr

/-- The result of a run that writes its trace, the machine and the writer afterwards. -/
structure Printed (ω σ : Type) where
  result : Except (Interruption ω) Verdict
  final : Config
  out : σ

/-- The lines of a trace after its header. -/
def Trace.body (settings : TraceSettings) (t : Trace) : List String :=
  t.shown.flatMap (block settings.radius) ++
    match t.result with
    | .ok v => footer v t.final
    | .error _ => []

lemma Trace.lines_eq (spec : Spec) (settings : TraceSettings) (t : Trace) :
    t.lines spec settings = header spec settings ++ t.body settings :=
  List.append_assoc _ _ _

namespace Spec

/-- The configuration that a trace shows before a step, if it is its turn. -/
def due (every : Nat) (c : Config) : List Config := if c.steps % every = 0 then [c] else []

/-- The lines that are written before a step. -/
def dueLines (settings : TraceSettings) (c : Config) : List String :=
  (due (max 1 settings.every) c).flatMap (Trace.block settings.radius)

section Printing
variable (spec : Spec) {ω σ : Type} (w : Writer ω σ)

def printFooter (c : Config) (out : σ) : Printed ω σ :=
  match w.writeAll out (Trace.footer (spec.verdict c) c) with
  | (.ok _, out) => ⟨.ok (spec.verdict c), c, out⟩
  | (.error f, out) => ⟨.error (.write f), c, out⟩

/-- Let a machine take up to `n` steps and write a block in front of every step that is due. -/
def printTraceFor (mode : Mode) (settings : TraceSettings) : Nat → Config → σ → Printed ω σ
  | 0, c, out => spec.printFooter w c out
  | n + 1, c, out =>
    if spec.halted c then spec.printFooter w c out
    else
      match w.writeAll out (dueLines settings c) with
      | (.error f, out) => ⟨.error (.write f), c, out⟩
      | (.ok _, out) =>
        match spec.step mode c with
        | (.ok _, c) => printTraceFor mode settings n c out
        | (.error e, c) => ⟨.error (.missing e), c, out⟩

/-- Run a machine and write its trace on the way. -/
def printTrace (options : RunOptions) (settings : TraceSettings) (c : Config) (out : σ) :
    Printed ω σ :=
  match w.writeAll out (Trace.header spec settings) with
  | (.error f, out) => ⟨.error (.write f), c, out⟩
  | (.ok _, out) => spec.printTraceFor w options.mode settings options.maxSteps c out

end Printing

section Steps
variable {spec : Spec} {c d : Config} {mode : Mode} {every n : Nat} {o : Option Action}
  {e : MissingRule}

lemma reverse_due (every : Nat) (c : Config) : (due every c).reverse = due every c := by
  unfold due
  split <;> rfl

lemma due_append (every : Nat) (c : Config) (shown : List Config) :
    due every c ++ shown = if c.steps % every = 0 then c :: shown else shown := by
  unfold due
  split <;> rfl

lemma traceFor_of_halted (h : spec.halted c) (shown : List Config) :
    spec.traceFor mode every n c shown = ⟨shown.reverse, .ok (spec.verdict c), c⟩ := by
  cases n <;> simp [traceFor, h]

lemma traceFor_succ (running : spec.halted c = false) (hs : spec.step mode c = (.ok o, d))
    (shown : List Config) : spec.traceFor mode every (n + 1) c shown =
      spec.traceFor mode every n d (due every c ++ shown) := by
  simp [traceFor, running, hs, due_append]

lemma traceFor_succ_of_error (running : spec.halted c = false)
    (hs : spec.step mode c = (.error e, d)) (shown : List Config) :
    spec.traceFor mode every (n + 1) c shown = ⟨(due every c ++ shown).reverse, .error e, d⟩ := by
  simp [traceFor, running, hs, due_append]

/-- A trace has the result and the last machine of the run, whatever was shown before. -/
theorem traceFor_eq_runFor (spec : Spec) (mode : Mode) (every n : Nat) (c : Config)
    (shown : List Config) :
    ((spec.traceFor mode every n c shown).result, (spec.traceFor mode every n c shown).final) =
      spec.runFor mode n c := by
  induction n generalizing c shown with
  | zero => rfl
  | succ n ih =>
    cases running : spec.halted c with
    | true => rw [traceFor_of_halted running, runFor_of_halted running]
    | false =>
      rcases hs : spec.step mode c with ⟨e | o, d⟩
      · rw [traceFor_succ_of_error running hs, runFor_succ_of_error running hs]
      · rw [traceFor_succ running hs, runFor_succ running hs, ih]

variable {ω σ : Type} {w : Writer ω σ} (settings : TraceSettings) (out : σ)

lemma printTraceFor_of_halted (h : spec.halted c) :
    spec.printTraceFor w mode settings n c out = spec.printFooter w c out := by
  cases n <;> simp [printTraceFor, h]

variable (hw : w.NeverFails)
include hw

lemma printFooter_of_neverFails (spec : Spec) (c : Config) : spec.printFooter w c out =
    ⟨.ok (spec.verdict c), c, w.written out (Trace.footer (spec.verdict c) c)⟩ := by
  rw [printFooter, Writer.writeAll_of_neverFails hw]

lemma printTraceFor_succ (running : spec.halted c = false) (hs : spec.step mode c = (.ok o, d)) :
    spec.printTraceFor w mode settings (n + 1) c out =
      spec.printTraceFor w mode settings n d (w.written out (dueLines settings c)) := by
  simp [printTraceFor, running, hs, Writer.writeAll_of_neverFails hw]

lemma printTraceFor_succ_of_error (running : spec.halted c = false)
    (hs : spec.step mode c = (.error e, d)) : spec.printTraceFor w mode settings (n + 1) c out =
      ⟨.error (.missing e), d, w.written out (dueLines settings c)⟩ := by
  simp [printTraceFor, running, hs, Writer.writeAll_of_neverFails hw]

/-- Writing on the way comes to the same as writing the finished trace: before every step, the
blocks of the configurations shown so far have been written. -/
theorem printTraceFor_eq_traceFor (spec : Spec) (mode : Mode) (n : Nat) (c : Config)
    (shown : List Config) :
    let t := spec.traceFor mode (max 1 settings.every) n c shown
    spec.printTraceFor w mode settings n c
        (w.written out (shown.reverse.flatMap (Trace.block settings.radius))) =
      ⟨t.result.mapError .missing, t.final, w.written out (t.body settings)⟩ := by
  induction n generalizing c shown with
  | zero =>
    rw [printTraceFor, printFooter_of_neverFails _ hw, ← Writer.written_append]
    rfl
  | succ n ih =>
    cases running : spec.halted c with
    | true =>
      rw [traceFor_of_halted running, printTraceFor_of_halted settings _ running,
        printFooter_of_neverFails _ hw, ← Writer.written_append]
      rfl
    | false =>
      have hblocks : shown.reverse.flatMap (Trace.block settings.radius) ++ dueLines settings c =
          (due (max 1 settings.every) c ++ shown).reverse.flatMap
            (Trace.block settings.radius) := by
        rw [List.reverse_append, reverse_due, List.flatMap_append, dueLines]
      rcases hs : spec.step mode c with ⟨e | o, d⟩
      · rw [traceFor_succ_of_error running hs, printTraceFor_succ_of_error settings _ hw running hs,
          ← Writer.written_append, hblocks]
        simp only [Trace.body, List.append_nil]
        rfl
      · rw [traceFor_succ running hs, printTraceFor_succ settings _ hw running hs,
          ← Writer.written_append, hblocks]
        exact ih d _

end Steps

/-- Tracing does not change a run, whatever is traced and however. The trace has the result of the
run, the verdict or the missing rule, and ends with the machine that the run leaves; so does the
run that writes its trace on the way, if no write fails, and what it writes is the trace. -/
theorem tracing_keeps_run {ω σ : Type} {w : Writer ω σ} (hw : w.NeverFails) (spec : Spec)
    (options : RunOptions) (settings : TraceSettings) (c : Config) (out : σ) :
    let run := spec.run options c
    let trace := spec.trace options settings.every c
    let printed := spec.printTrace w options settings c out
    (trace.result, trace.final) = run ∧
    printed.result = run.1.mapError .missing ∧ printed.final = run.2 ∧
    printed.out = w.written out (trace.lines spec settings) := by
  intro run trace printed
  have htrace : (trace.result, trace.final) = run :=
    spec.traceFor_eq_runFor options.mode (max 1 settings.every) options.maxSteps c []
  have hprinted : printed =
      ⟨trace.result.mapError .missing, trace.final, w.written out (trace.lines spec settings)⟩ := by
    rw [Trace.lines_eq, Writer.written_append]
    simp only [printed, printTrace, Writer.writeAll_of_neverFails hw]
    exact printTraceFor_eq_traceFor settings _ hw spec options.mode options.maxSteps c []
  rw [← htrace, hprinted]
  exact ⟨rfl, rfl, rfl, rfl⟩

/-- Keeps the lines. -/
def collect : Writer Empty (List String) := fun out l => (.ok (), out ++ [l])

/-- A machine that finds no rule after its first step. -/
def straying : Spec :=
  { ofDefaults {} with rules := (∅ : Rules).insert ("s", "[>") ⟨"s", "[>", .right⟩ }

theorem tracing_keeps_run_collect :
    collect.NeverFails ∧
    let start := straying.initial ["1"]
    let final := start.act ⟨"s", "[>", .right⟩
    let settings : TraceSettings := ⟨"m", "1", 3, 0⟩
    let trace := straying.trace ⟨9, .strict⟩ 0 start
    let printed := straying.printTrace collect ⟨9, .strict⟩ settings start []
    trace.result = .error ⟨"s", "1"⟩ ∧ trace.final = final ∧
    printed.result = .error (.missing ⟨"s", "1"⟩) ∧ printed.final = final ∧
    printed.out = collect.written [] (trace.lines straying settings) := by
  have hw : collect.NeverFails := fun _ _ => rfl
  have hrun : straying.run ⟨9, .strict⟩ (straying.initial ["1"]) =
      (.error ⟨"s", "1"⟩, (straying.initial ["1"]).act ⟨"s", "[>", .right⟩) := by rfl
  have h := tracing_keeps_run hw straying ⟨9, .strict⟩ ⟨"m", "1", 3, 0⟩ (straying.initial ["1"]) []
  rw [hrun] at h
  obtain ⟨htrace, hprinted⟩ := h
  exact ⟨hw, congrArg Prod.fst htrace, congrArg Prod.snd htrace, hprinted⟩

end Spec
end TapeMachine
