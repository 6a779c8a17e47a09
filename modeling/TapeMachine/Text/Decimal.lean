/-! Natural numbers below 2^64, read from decimal digits. -/
namespace TapeMachine.Text

/-- One more than the largest number that can be read. -/
def numberBound : Nat := 18446744073709551616

inductive NumberError where
  | empty
  | invalidDigit
  | tooLarge
  deriving DecidableEq, Repr

def NumberError.message : NumberError → String
  | empty => "cannot parse integer from empty string"
  | invalidDigit => "invalid digit found in string"
  | tooLarge => "number too large to fit in target type"

def digitValue (c : Char) : Nat := c.toNat - '0'.toNat

/-- Read digits after those that make up `n`. The first character at which the reading fails is the
reason. -/
def digitsFrom : Nat → List Char → Except NumberError Nat
  | n, [] => .ok n
  | n, c :: cs =>
    if !c.isDigit then .error .invalidDigit
    else
      let m := 10 * n + digitValue c
      if m < numberBound then digitsFrom m cs else .error .tooLarge

/-- Read a number that may have a plus sign in front of its digits. -/
def readNumber (cs : List Char) : Except NumberError Nat :=
  match cs with
  | [] => .error .empty
  | ['+'] => .error .invalidDigit
  | '+' :: digits => digitsFrom 0 digits
  | digits => digitsFrom 0 digits

theorem lt_of_digitsFrom {n m : Nat} {cs : List Char} (hn : n < numberBound)
    (h : digitsFrom n cs = .ok m) : m < numberBound := by
  induction cs generalizing n with
  | nil => simp only [digitsFrom, Except.ok.injEq] at h; omega
  | cons c cs ih =>
    simp only [digitsFrom] at h
    split at h
    · cases h
    · split at h
      · next hm => exact ih hm h
      · cases h

example : readNumber "+007".toList = .ok 7 := by rfl

example : readNumber "18446744073709551616".toList = .error .tooLarge := by rfl

end TapeMachine.Text
