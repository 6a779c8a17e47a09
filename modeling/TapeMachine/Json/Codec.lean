import TapeMachine.Json.Reader
import TapeMachine.Json.Writer
import TapeMachine.Run
import TapeMachine.Text.Decimal

/-! The JSON form of moves, modes, actions, run options, verdicts and reports. A structure is an
object with its fields in a fixed order; a constructor without data is its name; a constructor
with data is an object with the name as its only key. Reading is more generous: members that mean
nothing are passed over, a structure may be the array of its fields, and a constructor without
data may be an object that maps its name to null. -/
namespace TapeMachine.Json

namespace Value

def ofString (s : String) : Value := .string (escape s)

def ofNat (n : Nat) : Value := .number (Nat.toDigits 10 n)

def ofFields (fields : List (String × Value)) : Value :=
  .object (fields.map fun (k, v) => (escape k, v))

def string? : Value → Option String
  | .string literal => unescape? literal
  | _ => none

/-- A number below 2^64 that is written with digits alone. -/
def nat? : Value → Option Nat
  | .number literal => (Text.digitsFrom 0 literal).toOption
  | _ => none

def bool? : Value → Option Bool
  | .bool b => some b
  | _ => none

/-- The values of the named fields of a structure, in the order of the names. Each name has to
occur once; other members are passed over. -/
def fields? (names : List String) : Value → Option (List Value)
  | .array items => if items.length = names.length then some items else none
  | .object members => do
    let keyed ← members.mapM fun (k, v) => (unescape? k).map (·, v)
    names.mapM fun name =>
      match keyed.filter (·.1 == name) with
      | [(_, v)] => some v
      | _ => none
  | _ => none

/-- The name of a constructor and its data, if it has any. -/
def constructor? : Value → Option (String × Option Value)
  | .string literal => (unescape? literal).map (·, none)
  | .object [(k, v)] => (unescape? k).map (·, some v)
  | _ => none

def plainConstructor? (v : Value) : Option String :=
  match v.constructor? with
  | some (name, none) => some name
  | some (name, some .null) => some name
  | _ => none

end Value

class Coded (α : Type) where
  encode : α → Value
  /-- The value that a JSON form stands for. -/
  decode? : Value → Option α

export Coded (encode decode?)

def write [Coded α] (a : α) : String := String.ofList (encode a).compact

/-- The JSON form of a value with one field to a line. -/
def writePretty [Coded α] (a : α) : String := String.ofList ((encode a).pretty 0)

def readAs? (α : Type) [Coded α] (text : String) : Option α := (read? text).bind decode?

end TapeMachine.Json

namespace TapeMachine
open Json

def Move.name : Move → String
  | left => "Left"
  | right => "Right"
  | stay => "Stay"

def Mode.name : Mode → String
  | normal => "Normal"
  | strict => "Strict"

def Mode.all : List Mode := [normal, strict]

instance : Coded Move where
  encode m := .ofString m.name
  decode? v := v.plainConstructor?.bind fun name => Move.all.find? (·.name == name)

instance : Coded Mode where
  encode m := .ofString m.name
  decode? v := v.plainConstructor?.bind fun name => Mode.all.find? (·.name == name)

instance : Coded Action where
  encode a :=
    .ofFields [("next_state", .ofString a.next), ("write", .ofString a.write),
      ("movement", encode a.move)]
  decode? v :=
    match v.fields? ["next_state", "write", "movement"] with
    | some [next, write, move] => return ⟨← next.string?, ← write.string?, ← decode? move⟩
    | _ => none

instance : Coded RunOptions where
  encode o := .ofFields [("max_steps", .ofNat o.maxSteps), ("mode", encode o.mode)]
  decode? v :=
    match v.fields? ["max_steps", "mode"] with
    | some [maxSteps, mode] => return ⟨← maxSteps.nat?, ← decode? mode⟩
    | _ => none

instance : Coded Verdict where
  encode
    | .accept => .ofString "Accept"
    | .reject => .ofString "Reject"
    | .output content => .ofFields [("Output", .ofString content)]
    | .diverged => .ofString "Diverged"
  decode? v :=
    match v.constructor? with
    | some ("Output", some content) => content.string?.map .output
    | _ =>
      match v.plainConstructor? with
      | some "Accept" => some .accept
      | some "Reject" => some .reject
      | some "Diverged" => some .diverged
      | _ => none

instance : Coded Report where
  encode r :=
    .ofFields [("result", .ofString r.result), ("halted", .bool r.halted),
      ("steps", .ofNat r.steps), ("state", .ofString r.state), ("tape", .ofString r.tape)]
  decode? v :=
    match v.fields? ["result", "halted", "steps", "state", "tape"] with
    | some [result, halted, steps, state, tape] =>
      return ⟨← result.string?, ← halted.bool?, ← steps.nat?, ← state.string?, ← tape.string?⟩
    | _ => none

example : write (Verdict.output "a\"") = "\x7b\"Output\":\"a\\\"\"\x7d" := by decide +kernel

example : readAs? Action "[\"q\", \"0\", \x7b\"Left\": null\x7d] " = some ⟨"q", "0", .left⟩ := by
  decide +kernel

end TapeMachine
