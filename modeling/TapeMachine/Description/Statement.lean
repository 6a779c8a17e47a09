import TapeMachine.Description.Fault
import TapeMachine.Spec

/-! The statements of a machine description. A line whose first token starts with `@` is a
directive and sets one part of the machine; every other line states a rule in six tokens,
`state read -> next write move`. -/
namespace TapeMachine.Description

inductive Keyword where
  | blank
  | left
  | start
  | accept
  | reject
  | halt
  deriving DecidableEq, Repr

namespace Keyword

def all : List Keyword := [blank, left, start, accept, reject, halt]

def name : Keyword → String
  | blank => "blank"
  | left => "left"
  | start => "start"
  | accept => "accept"
  | reject => "reject"
  | halt => "halt"

/-- The three lists of halting states take several arguments, all else takes one. -/
def takesList : Keyword → Bool
  | blank | left | start => false
  | accept | reject | halt => true

/-- Read a keyword; the ASCII case of its letters does not matter. -/
def ofName? (name : String) : Option Keyword :=
  let lower := String.ofList (name.toList.map Char.toLower)
  all.find? (·.name == lower)

/-- How many arguments a keyword asks for, in words. -/
def expected (k : Keyword) : String :=
  if k.takesList then "at least 1 state" else "exactly 1 argument"

def Takes (k : Keyword) (count : Nat) : Prop := if k.takesList then 0 < count else count = 1

instance (k : Keyword) (count : Nat) : Decidable (k.Takes count) := by
  unfold Takes; infer_instance

/-- Let a keyword set its part of a machine. A list takes the place of the list before it. -/
def set (k : Keyword) (arguments : List String) (spec : Spec) : Spec :=
  let one := arguments.headD ""
  match k with
  | blank => { spec with blank := one }
  | left => { spec with left := one }
  | start => { spec with start := one }
  | accept => { spec with accept := arguments }
  | reject => { spec with reject := arguments }
  | halt => { spec with halt := arguments }

@[simp] theorem rules_set (k : Keyword) (arguments : List String) (spec : Spec) :
    (k.set arguments spec).rules = spec.rules := by
  cases k <;> rfl

@[simp] theorem ofName?_name (k : Keyword) : ofName? k.name = some k := by
  cases k <;> decide +kernel

end Keyword

inductive Statement where
  | directive (keyword : Keyword) (arguments : List String)
  | rule (situation : Situation) (action : Action)
  deriving DecidableEq, Repr

namespace Statement

def ofDirective (name : String) (arguments : List String) : Except Fault Statement :=
  match Keyword.ofName? name with
  | none => .error (.unknownDirective name)
  | some k =>
    if k.Takes arguments.length then .ok (.directive k arguments)
    else .error (.directiveArity k.name k.expected arguments.length)

def ofRule : List String → Except Fault Statement
  | [state, read, arrow, next, write, move] =>
    if arrow = "->" then
      match Move.ofSpelling? move with
      | some m => .ok (.rule (state, read) ⟨next, write, m⟩)
      | none => .error (.invalidMove move)
    else .error (.badArrow arrow)
  | tokens => .error (.malformedRule tokens.length)

def ofTokens (tokens : List String) : Except Fault Statement :=
  match tokens with
  | [] => .error (.malformedRule 0)
  | first :: rest =>
    match first.toList with
    | '@' :: name => ofDirective (String.ofList name) rest
    | _ => ofRule (first :: rest)

example : ofTokens ["@HALT", "h", "k"] = .ok (.directive .halt ["h", "k"]) := by rfl

example : ofTokens ["s", "0", "->", "s", "1", "right"] =
    .ok (.rule ("s", "0") ⟨"s", "1", .right⟩) := by rfl

end Statement
end TapeMachine.Description
