import TapeMachine.Run
import TapeMachine.Text.Quoted

/-! Traces: a bounded run together with the configurations shown on the way, and the text of a
trace, with a header, one block for each configuration shown, and a summary at the end. -/
namespace TapeMachine

def defaultRadius : Nat := 25

structure TraceSettings where
  name : String
  input : String
  radius : Nat := defaultRadius
  every : Nat := 1
  deriving DecidableEq, Repr

structure Trace where
  shown : List Config
  result : Except MissingRule Verdict
  final : Config

namespace Spec

variable (spec : Spec)

/-- The loop of `trace`: the configurations shown so far are kept in reverse. -/
def traceFor (mode : Mode) (every : Nat) : Nat → Config → List Config → Trace
  | 0, c, shown => ⟨shown.reverse, .ok (spec.verdict c), c⟩
  | n + 1, c, shown =>
    if spec.halted c then ⟨shown.reverse, .ok (spec.verdict c), c⟩
    else
      let shown := if c.steps % every = 0 then c :: shown else shown
      match spec.step mode c with
      | (.ok _, c) => traceFor mode every n c shown
      | (.error e, c) => ⟨shown.reverse, .error e, c⟩

/-- Run a machine and keep every configuration that the run finds running and whose step count is
a multiple of `every`; every step is kept if `every` is 0. -/
def trace (options : RunOptions) (every : Nat) (c : Config) : Trace :=
  spec.traceFor options.mode (max 1 every) options.maxSteps c []

end Spec

namespace Window

/-- The mark under a cell: a caret if it is the cell at the head, as wide as the symbol. -/
def mark (atHead : Bool) (symbol : Symbol) : List Char :=
  (if atHead then '^' else ' ') :: List.replicate (symbol.length - 1) ' '

def cellLine (w : Window) : String := String.join w.cells

def markLine (w : Window) : List Char :=
  (w.cells.zipIdx w.lo).flatMap fun (symbol, p) => mark (p = w.head) symbol

example : (⟨0, 2, 1, ["[>", "a", "u"]⟩ : Window).markLine = "  ^ ".toList := by decide

end Window

namespace Trace

def header (spec : Spec) (settings : TraceSettings) : List String :=
  let listed (states : List State) := ", ".intercalate states
  [s!"machine={settings.name}",
    s!"blank={spec.blank} left={spec.left} start={spec.start}",
    s!"accept=[{listed spec.accept}] reject=[{listed spec.reject}] halt=[{listed spec.halt}]",
    s!"input={Text.quote settings.input}",
    ""]

def block (radius : Nat) (c : Config) : List String :=
  let w := c.window radius
  [s!"step={c.steps} state={c.state} head={c.head} window=[{w.lo}..{w.hi}]",
    w.cellLine,
    String.ofList (Text.trimEnd w.markLine),
    ""]

def footer (v : Verdict) (c : Config) : List String :=
  let remark := if v = .diverged then " (did not halt within step limit)" else ""
  [s!"RESULT: {v.text}{remark}",
    s!"STEPS: {c.steps}",
    s!"FINAL STATE: {c.state}",
    s!"TAPE: {c.tape.render displayedCells}"]

/-- All lines of a trace. A run that failed has no summary. -/
def lines (spec : Spec) (settings : TraceSettings) (t : Trace) : List String :=
  header spec settings ++ t.shown.flatMap (block settings.radius) ++
    match t.result with
    | .ok v => footer v t.final
    | .error _ => []

def text (spec : Spec) (settings : TraceSettings) (t : Trace) : String :=
  String.join ((t.lines spec settings).map (· ++ "\n"))

end Trace
end TapeMachine
