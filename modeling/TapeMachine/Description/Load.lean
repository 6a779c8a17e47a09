import TapeMachine.Description.Marker
import TapeMachine.Description.Statement
import TapeMachine.Description.Token

/-! Loading a machine from its description. The statements are taken line by line; the first line
at fault is reported, and a description without such a line has to keep the left-marker
contract. -/
namespace TapeMachine.Description

/-- The machine that the lines so far describe, and where its parts come from. -/
structure Draft where
  spec : Spec
  origins : Origins

/-- A line of a description that holds at least one token. -/
structure NumberedLine where
  number : Nat
  tokens : List String
  deriving DecidableEq, Repr

/-- The lines that hold a token, with their numbers, counted from 1. -/
def numbered (lines : List (List Token)) : List NumberedLine :=
  (lines.zipIdx 1).filterMap fun (tokens, n) =>
    if tokens.isEmpty then none else some ⟨n, tokens.map Token.text⟩

namespace Draft

def ofDefaults (d : Defaults) : Draft := ⟨Spec.ofDefaults d, {}⟩

def addDirective (draft : Draft) (number : Nat) (k : Keyword) (arguments : List String) :
    Draft where
  spec := k.set arguments draft.spec
  origins :=
    match k with
    | .blank => { draft.origins with blank := number }
    | .left => { draft.origins with left := number }
    | _ => draft.origins

/-- Take over a rule for a situation that has none so far. -/
def addRule (draft : Draft) (number : Nat) (k : Situation) (a : Action) : Draft where
  spec := { draft.spec with rules := draft.spec.rules.insert k a }
  origins := { draft.origins with rules := draft.origins.rules.insert k number }

/-- Take over what a line says. -/
def add (draft : Draft) (l : NumberedLine) : Except LoadError Draft :=
  match Statement.ofTokens l.tokens with
  | .error fault => .error (.fault l.number fault)
  | .ok (.directive k arguments) => .ok (draft.addDirective l.number k arguments)
  | .ok (.rule k a) =>
    match draft.origins.rules[k]? with
    | some first => .error (.fault l.number (.duplicateRule first k.1 k.2))
    | none => .ok (draft.addRule l.number k a)

def addAll : List NumberedLine → Draft → Except LoadError Draft
  | [], draft => .ok draft
  | l :: ls, draft =>
    match draft.add l with
    | .ok draft => addAll ls draft
    | .error e => .error e

end Draft

def ofLines (defaults : Defaults) (ls : List NumberedLine) : Except LoadError Spec := do
  let draft ← Draft.addAll ls (Draft.ofDefaults defaults)
  check draft.spec draft.origins
  return draft.spec

/-- The machine that a text describes, on top of the given defaults. -/
def parseWith (defaults : Defaults) (text : String) : Except LoadError Spec :=
  match tokenLines text.toList with
  | .error line => .error (.syntaxError line)
  | .ok lines => ofLines defaults (numbered lines)

def parse (text : String) : Except LoadError Spec := parseWith {} text

def maxSize : Nat := 1048576

def load (text : String) : Except LoadError Spec :=
  if maxSize < text.utf8ByteSize then
    .error (.file s!"machine description is {text.utf8ByteSize} bytes, limit is {maxSize} bytes")
  else parse text

example : (parse "s [> -> s [> R\ns 0 -> h 1 S\n").toOption.map (·.listing) =
    some [(("s", "0"), ⟨"h", "1", .stay⟩), (("s", "[>"), ⟨"s", "[>", .right⟩)] := by decide +kernel

end TapeMachine.Description
