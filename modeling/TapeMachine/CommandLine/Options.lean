import TapeMachine.Text.Decimal
import TapeMachine.Trace

/-! The options of the command line and how arguments are read into them. Every argument that
cannot be read, and every combination of options that makes no sense, is a usage error. -/
namespace TapeMachine.CommandLine
open Text

inductive Setting where
  | builtin
  | input
  | maxSteps
  | radius
  | dumpEvery
  deriving DecidableEq, Repr

inductive Flag where
  | list
  | strict
  | trace
  | json
  deriving DecidableEq, Repr

inductive Switch where
  | setting (s : Setting)
  | flag (f : Flag)
  deriving DecidableEq, Repr

def Switch.ofLong? : String → Option Switch
  | "builtin" => some (.setting .builtin)
  | "input" => some (.setting .input)
  | "max-steps" => some (.setting .maxSteps)
  | "radius" => some (.setting .radius)
  | "dump-every" => some (.setting .dumpEvery)
  | "list" => some (.flag .list)
  | "strict" => some (.flag .strict)
  | "trace" => some (.flag .trace)
  | "json" => some (.flag .json)
  | _ => none

def Switch.ofShort? : Char → Option Switch
  | 'b' => some (.setting .builtin)
  | 'i' => some (.setting .input)
  | 't' => some (.flag .trace)
  | _ => none

/-- What the arguments say, before the values are read. -/
structure Given where
  settings : List (Setting × String) := []
  flags : List Flag := []
  machines : List String := []
  deriving DecidableEq, Repr

namespace Given

/-- Add a value; an option cannot be given twice. -/
def addSetting (g : Given) (s : Setting) (value : String) : Option Given :=
  if (g.settings.lookup s).isSome then none
  else some { g with settings := (s, value) :: g.settings }

/-- Add a flag; it cannot be given twice. -/
def addFlag (g : Given) (f : Flag) : Option Given :=
  if f ∈ g.flags then none else some { g with flags := f :: g.flags }

/-- Add a positional argument: a path that is not empty. There is at most one. -/
def addMachine (g : Given) (path : String) : Option Given :=
  if path.isEmpty ∨ g.machines ≠ [] then none else some { g with machines := [path] }

def value? (g : Given) (s : Setting) : Option String := g.settings.lookup s

end Given

/-- The arguments read so far, with the option that still waits for its value. -/
structure Progress where
  given : Given := {}
  waiting : Option Setting := none
  deriving DecidableEq, Repr

/-- Read the letters of an argument that starts with one dash. The letter of an option with a value
takes the rest of the argument, less an equals sign in front, or else the next argument. -/
def readLetters (g : Given) : List Char → Option Progress
  | [] => some ⟨g, none⟩
  | c :: cs =>
    match Switch.ofShort? c with
    | some (.flag f) => (g.addFlag f).bind (readLetters · cs)
    | some (.setting s) =>
      match cs with
      | [] => some ⟨g, some s⟩
      | '=' :: value => (g.addSetting s (String.ofList value)).map (⟨·, none⟩)
      | value => (g.addSetting s (String.ofList value)).map (⟨·, none⟩)
    | none => none

/-- Read an argument that starts with two dashes. Its value follows an equals sign, or else is the
next argument. -/
def readLong (g : Given) (text : List Char) : Option Progress :=
  let name := String.ofList (text.takeWhile (· != '='))
  match Switch.ofLong? name, text.dropWhile (· != '=') with
  | some (.flag f), [] => (g.addFlag f).map (⟨·, none⟩)
  | some (.setting s), [] => some ⟨g, some s⟩
  | some (.setting s), _ :: value => (g.addSetting s (String.ofList value)).map (⟨·, none⟩)
  | _, _ => none

/-- Read all arguments. A lone dash is not an option, and after two dashes nothing is. -/
def readArguments : Progress → List String → Option Given
  | ⟨g, none⟩, [] => some g
  | ⟨_, some _⟩, [] => none
  | ⟨g, some s⟩, arg :: args =>
    if "-".isPrefixOf arg ∧ arg ≠ "-" then none
    else (g.addSetting s arg).bind fun g => readArguments ⟨g, none⟩ args
  | ⟨g, none⟩, arg :: args =>
    match arg.toList with
    | ['-', '-'] => args.foldlM Given.addMachine g
    | '-' :: '-' :: text => (readLong g text).bind (readArguments · args)
    | '-' :: c :: cs => (readLetters g (c :: cs)).bind (readArguments · args)
    | _ => (g.addMachine arg).bind fun g => readArguments ⟨g, none⟩ args

inductive RadiusError where
  | notANumber (text : String) (cause : NumberError)
  | tooLarge
  deriving DecidableEq, Repr

def RadiusError.message : RadiusError → String
  | notANumber text cause => s!"`{text}` is not a valid radius: {cause.message}"
  | tooLarge => s!"radius must be at most {Window.maxRadius}"

/-- Read a radius between 0 and the largest that a window shows. -/
def readRadius (text : String) : Except RadiusError Nat :=
  match readNumber text.toList with
  | .error e => .error (.notANumber text e)
  | .ok n => if n ≤ Window.maxRadius then .ok n else .error .tooLarge

structure Options where
  machine : Option String
  builtin : Option String
  list : Bool
  input : String
  maxSteps : Nat
  strict : Bool
  trace : Bool
  radius : Nat
  dumpEvery : Nat
  json : Bool
  deriving DecidableEq, Repr

/-- The value of an option, read by `read`, or the default if the option is not given. -/
def Given.read (g : Given) (s : Setting) (default : α) (read : String → Option α) : Option α :=
  match g.value? s with
  | some text => read text
  | none => some default

/-- Read the values and check the combination: a built-in machine takes the place of a path, and a
trace is not written as JSON. -/
def Options.ofGiven? (g : Given) : Option Options := do
  let number (text : String) := (readNumber text.toList).toOption
  let maxSteps ← g.read .maxSteps defaultMaxSteps number
  let radius ← g.read .radius defaultRadius fun text => (readRadius text).toOption
  let dumpEvery ← g.read .dumpEvery 1 number
  let options : Options :=
    { machine := g.machines.head?
      builtin := g.value? .builtin
      list := Flag.list ∈ g.flags
      input := (g.value? .input).getD ""
      maxSteps, radius, dumpEvery
      strict := Flag.strict ∈ g.flags
      trace := Flag.trace ∈ g.flags
      json := Flag.json ∈ g.flags }
  if options.builtin.isSome ∧ options.machine.isSome ∨ options.json ∧ options.trace then none
  else some options

/-- Read the arguments of the program; there is no answer to a usage error. The requests for help
and for the version (`--help`, `-h`, `--version`, `-V`), with the texts that answer them, are left
out: they are read as options that do not exist. -/
def Options.ofArguments? (args : List String) : Option Options :=
  (readArguments {} args).bind ofGiven?

example : (Options.ofArguments? ["-tb", "runaway", "--max-steps=+5"]).map
    (fun o => (o.trace, o.builtin, o.maxSteps)) = some (true, some "runaway", 5) := by
  decide +kernel

example : Options.ofArguments? ["--list", "--list"] = none := by decide +kernel

end TapeMachine.CommandLine
