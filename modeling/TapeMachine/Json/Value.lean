/-! JSON values. Numbers and strings are kept as the literals that stand in the text, so that a
value can hold any number and any string that the syntax allows; what a literal means is read off
it when it is needed. -/
namespace TapeMachine.Json

/-- A JSON value. A string literal is what stands between the quotes. -/
inductive Value where
  | null
  | bool (b : Bool)
  | number (literal : List Char)
  | string (literal : List Char)
  | array (items : List Value)
  | object (members : List (List Char × Value))
  deriving Repr

/-- The digit of a number below 16, in lower case. -/
def hexDigit (n : Nat) : Char := if n < 10 then Char.ofNat (48 + n) else Char.ofNat (87 + n)

def hexValue? (c : Char) : Option Nat :=
  if c.isDigit then some (c.toNat - 48)
  else if 'a' ≤ c ∧ c ≤ 'f' then some (c.toNat - 87)
  else if 'A' ≤ c ∧ c ≤ 'F' then some (c.toNat - 55)
  else none

def hexValue4? (a b c d : Char) : Option Nat := do
  return (((← hexValue? a) * 16 + (← hexValue? b)) * 16 + (← hexValue? c)) * 16 + (← hexValue? d)

/-- The character that an escape of two characters stands for. -/
def escaped? : Char → Option Char
  | '"' => some '"'
  | '\\' => some '\\'
  | '/' => some '/'
  | 'b' => some '\x08'
  | 'f' => some '\x0c'
  | 'n' => some '\n'
  | 'r' => some '\r'
  | 't' => some '\t'
  | _ => none

def escapeChar : Char → List Char
  | '"' => ['\\', '"']
  | '\\' => ['\\', '\\']
  | '\x08' => ['\\', 'b']
  | '\x0c' => ['\\', 'f']
  | '\n' => ['\\', 'n']
  | '\r' => ['\\', 'r']
  | '\t' => ['\\', 't']
  | c =>
    if c.toNat < 0x20 then ['\\', 'u', '0', '0', hexDigit (c.toNat / 16), hexDigit (c.toNat % 16)]
    else [c]

def escape (s : String) : List Char := s.toList.flatMap escapeChar

/-- What a string literal is made of: characters, and surrogate code points, which stand for a
character only in pairs. -/
inductive Unit16 where
  | char (c : Char)
  | surrogate (n : Nat)
  deriving DecidableEq, Repr

/-- A code point below 2^16 that an escape names. -/
def Unit16.ofNat (n : Nat) : Unit16 :=
  if 0xD800 ≤ n ∧ n < 0xE000 then .surrogate n else .char (Char.ofNat n)

/-- Read the escapes of a string literal; `done` holds in reverse what stands before. -/
def unitsFrom (done : List Unit16) : List Char → Option (List Unit16)
  | [] => some done.reverse
  | '\\' :: 'u' :: a :: b :: c :: d :: rest =>
    match hexValue4? a b c d with
    | some n => unitsFrom (.ofNat n :: done) rest
    | none => none
  | '\\' :: e :: rest =>
    match escaped? e with
    | some c => unitsFrom (.char c :: done) rest
    | none => none
  | c :: rest => unitsFrom (.char c :: done) rest

/-- The character of a leading and a trailing surrogate. -/
def pair? (high low : Nat) : Option Char :=
  if high < 0xDC00 ∧ 0xDC00 ≤ low then
    some (Char.ofNat (0x10000 + (high - 0xD800) * 0x400 + (low - 0xDC00)))
  else none

/-- Join surrogates in pairs; an unpaired one has no meaning. -/
def joinFrom (done : List Char) : List Unit16 → Option (List Char)
  | [] => some done.reverse
  | .char c :: rest => joinFrom (c :: done) rest
  | .surrogate high :: .surrogate low :: rest =>
    match pair? high low with
    | some c => joinFrom (c :: done) rest
    | none => none
  | .surrogate _ :: _ => none

/-- The text that a string literal stands for. -/
def unescape? (literal : List Char) : Option String := do
  return String.ofList (← joinFrom [] (← unitsFrom [] literal))

example : unescape? "a\\n\\u00e9\\ud83d\\ude00".toList = some "a\né😀" := by decide +kernel

example : unescape? "\\ud83d".toList = none := by decide +kernel

end TapeMachine.Json
