import TapeMachine.Action

/-! What can be wrong with a machine description, and the texts that say so. -/
namespace TapeMachine.Description

inductive Fault where
  /-- A rule that does not consist of six tokens. -/
  | malformedRule (found : Nat)
  /-- A rule without the arrow as its third token. -/
  | badArrow (found : String)
  | unknownDirective (name : String)
  /-- A directive with the wrong number of arguments. -/
  | directiveArity (directive expected : String) (found : Nat)
  /-- A rule with a move that is not spelled in any known way. -/
  | invalidMove (token : String)
  /-- A rule for a situation that an earlier line, the `first`, has a rule for. -/
  | duplicateRule (first : Nat) (state : State) (symbol : Symbol)
  | blankIsLeftMarker (symbol : Symbol)
  /-- A rule on the left-end marker that overwrites it or does not move right. -/
  | leftMarkerRule (state : State) (left : Symbol) (action : Action)
  deriving DecidableEq, Repr

inductive LoadError where
  /-- A line is at fault; lines are counted from 1, and 0 stands for the defaults. -/
  | fault (line : Nat) (what : Fault)
  | syntaxError (line : Nat)
  | file (cause : String)
  deriving DecidableEq, Repr

def Fault.text : Fault → String
  | malformedRule found =>
    s!"expected transition `state read -> next write move`, found {found} token(s)"
  | badArrow found =>
    s!"expected `->` as the third token of `state read -> next write move`, found `{found}`"
  | unknownDirective name => s!"unknown directive @{name}"
  | directiveArity directive expected found => s!"@{directive} expects {expected}, found {found}"
  | invalidMove token => s!"invalid move `{token}` (expected L/R/S)"
  | duplicateRule first state symbol =>
    s!"duplicate transition for ({state}, {symbol}), first defined on line {first}"
  | blankIsLeftMarker symbol =>
    s!"blank symbol and left marker must be distinct (both are `{symbol}`)"
  | leftMarkerRule state left a =>
    s!"invalid transition on left marker: ({state}, {left}) -> " ++
      s!"({a.next}, {a.write}, {a.move.letter}); must write {left} and move R"

namespace LoadError

/-- The line an error points at, if it points at one. -/
def line? : LoadError → Option Nat
  | fault line _ => some line
  | syntaxError line => some line
  | file _ => none

def message : LoadError → String
  | fault line what => s!"line {line}: {what.text}"
  | syntaxError line => s!"syntax error: line {line} is not a line of tokens"
  | file cause => s!"file error: {cause}"

end LoadError
end TapeMachine.Description
