import TapeMachine.CommandLine.Options
import TapeMachine.Description.File
import TapeMachine.Gallery
import TapeMachine.Input
import TapeMachine.Json.Codec

/-! What the program answers: the machine is found, the input is put on its tape, and the result of
the run is written as a text, as JSON or as a trace. -/
namespace TapeMachine.CommandLine
open Description

/-- What the program writes and the code it exits with. -/
structure Response where
  code : Nat
  stdout : String
  stderr : String
  deriving DecidableEq, Repr

namespace Response

def success (stdout : String) : Response := ⟨0, stdout, ""⟩

def failureAfter (stdout message : String) : Response := ⟨1, stdout, s!"Error: {message}\n"⟩

def failure (message : String) : Response := failureAfter "" message

end Response

inductive Source where
  | builtin (name : String)
  | file (path : String)
  | standardInput
  deriving DecidableEq, Repr

structure Named where
  name : String
  spec : Spec

/-- The source that the options name: a built-in machine, a file, or else standard input. -/
def Options.source (o : Options) : Source :=
  match o.builtin, o.machine with
  | some name, _ => .builtin name
  | none, some path => .file path
  | none, none => .standardInput

/-- The machine that a source holds, given the bytes that reading it gave. -/
def Source.machine (source : Source) (bytes : Except ReadError ByteArray) : Except String Named :=
  match source with
  | builtin name =>
    match Gallery.find? name with
    | some e => .ok ⟨s!"builtin:{name}", e.spec⟩
    | none => .error s!"unknown built-in machine '{name}' (see --list)"
  | file path =>
    match loadFile path bytes with
    | .ok spec => .ok ⟨path, spec⟩
    | .error e => .error e.message
  | standardInput =>
    match decodeText bytes with
    | .error e => .error s!"failed to read from stdin: {e.message}"
    | .ok text =>
      match load text with
      | .ok spec => .ok ⟨"<stdin>", spec⟩
      | .error e => .error e.message

/-- Why there is no machine if standard input is a terminal. -/
def noMachine : String :=
  "no machine given: pass a .tm file, use --builtin <NAME>, or pipe a description on stdin"

/-- A name filled up with spaces to a column of 16 characters. -/
def column (name : String) : String := name ++ String.ofList (List.replicate (16 - name.length) ' ')

def listing : String :=
  String.join (Gallery.all.map fun e => s!"{column e.script.name} {e.script.summary}\n")

/-- Run a machine on symbols and write the result as the options ask. -/
def Options.answer (o : Options) (m : Named) (symbols : List Symbol) : Response :=
  let limits : RunOptions := ⟨o.maxSteps, if o.strict then .strict else .normal⟩
  let start := m.spec.initial symbols
  if o.trace then
    let settings : TraceSettings := ⟨m.name, o.input, o.radius, o.dumpEvery⟩
    let trace := m.spec.trace limits o.dumpEvery start
    match trace.result with
    | .ok _ => .success (trace.text m.spec settings)
    | .error e => .failureAfter (trace.text m.spec settings) e.message
  else
    match m.spec.run limits start with
    | (.ok v, final) =>
      if o.json then .success (Json.writePretty (Report.of m.spec final v) ++ "\n")
      else .success (v.text ++ "\n")
    | (.error e, _) => .failure e.message

/-- The answer to the options, given what reading their source gave. -/
def Options.respond (o : Options) (bytes : Except ReadError ByteArray) : Response :=
  if o.list then .success listing
  else
    match o.source.machine bytes with
    | .error message => .failure message
    | .ok m =>
      match Input.symbols m.spec o.input with
      | .error e => .failure e.message
      | .ok symbols => o.answer m symbols

/-- The answer in a file tree, with the given bytes on standard input. -/
def Options.respondIn (o : Options) (tree : Directory) (stdin : ByteArray) : Response :=
  o.respond <|
    match o.source with
    | .file path => tree.read path
    | _ => .ok stdin

end TapeMachine.CommandLine
