import TapeMachine.Description.Load

/-! The machines that come with the simulator. Each is given by the lines of its description, of
which the first comment says what the machine does. -/
namespace TapeMachine

structure Script where
  name : String
  lines : List String
  deriving DecidableEq, Repr

namespace Script

/-- The text of the description; every line ends with a line feed. -/
def source (s : Script) : String := String.join (s.lines.map (· ++ "\n"))

/-- The text of a line that is a comment, without the comment sign and outer white space. -/
def commentOf? (line : String) : Option String :=
  match Text.trim line.toList with
  | '#' :: text => some (String.ofList (Text.trim text))
  | _ => none

/-- What the machine does: the first comment of its description. -/
def summary (s : Script) : String := (s.lines.findSome? commentOf?).getD ""

def successor : Script where
  name := "successor"
  lines := [
    "# Binary successor: replaces a binary number n with n + 1.",
    "#",
    "# Walk right to the end of the input, then propagate the carry leftwards.",
    "# If the carry falls off the left end every digit was 1: write a leading 1",
    "# and append a trailing 0.",
    "",
    "s [> -> s [> R",
    "s 0  -> s 0  R",
    "s 1  -> s 1  R",
    "s u  -> c u  L",
    "",
    "c 0  -> h 1  S",
    "c 1  -> c 0  L",
    "c [> -> p [> R",
    "",
    "p 0  -> r 1  R",
    "p u  -> h 1  S     # empty input counts as zero",
    "",
    "r 0  -> r 0  R",
    "r u  -> h 0  S"]

def palindrome : Script where
  name := "palindrome"
  lines := [
    "# Palindrome decider over \x7ba, b\x7d: accepts exactly the palindromes.",
    "#",
    "# Erase the leftmost symbol, remember it in the state, walk to the right end",
    "# and compare it against the rightmost symbol. Erase that one too and return.",
    "",
    "@accept yes",
    "@reject no",
    "",
    "s  [> -> s  [> R",
    "s  u  -> yes u S",
    "s  a  -> ra u  R",
    "s  b  -> rb u  R",
    "",
    "ra a  -> ra a  R",
    "ra b  -> ra b  R",
    "ra u  -> ta u  L",
    "",
    "rb a  -> rb a  R",
    "rb b  -> rb b  R",
    "rb u  -> tb u  L",
    "",
    "ta a  -> back u L",
    "ta b  -> no  b S",
    "ta u  -> yes u S",
    "",
    "tb b  -> back u L",
    "tb a  -> no  a S",
    "tb u  -> yes u S",
    "",
    "back a -> back a L",
    "back b -> back b L",
    "back u -> s    u R"]

def unaryAddition : Script where
  name := "unary-addition"
  lines := [
    "# Unary addition: 11+111 becomes 11111.",
    "#",
    "# Turn the plus sign into a 1, then erase the last 1 of the tape.",
    "",
    "@blank _",
    "@left  >>",
    "@start scan",
    "@halt  done",
    "",
    "scan >> -> scan >> R",
    "scan 1  -> scan 1  R",
    "scan +  -> seek 1  R",
    "",
    "seek 1  -> seek 1  R",
    "seek _  -> trim _  L",
    "",
    "trim 1  -> done _  S"]

def runaway : Script where
  name := "runaway"
  lines := [
    "# Runaway: never halts, the head walks right forever.",
    "",
    "s [> -> s [> R",
    "s 0  -> s 0  R",
    "s 1  -> s 1  R",
    "s u  -> s u  R"]

def all : List Script := [successor, palindrome, unaryAddition, runaway]

end Script

structure Exhibit where
  script : Script
  spec : Spec
  deriving DecidableEq

namespace Gallery

/-- All machines of the gallery: the scripts that describe one. -/
def all : List Exhibit :=
  Script.all.filterMap fun s =>
    match Description.parse s.source with
    | .ok spec => some ⟨s, spec⟩
    | .error _ => none

def find? (name : String) : Option Exhibit := all.find? (·.script.name == name)

def names : List String := all.map (·.script.name)

end Gallery

example : Script.runaway.summary = "Runaway: never halts, the head walks right forever." := by
  decide +kernel

end TapeMachine
