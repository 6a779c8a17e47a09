import TapeMachine.Text.Printable

/-! Quoted text: a text between double quotes on one line, in which every character that is not
printable stands for itself by an escape. -/
namespace TapeMachine.Text

/-- The digits of a number to base 16 in lower case, without leading zeros. -/
def hexadecimal (n : Nat) : List Char := Nat.toDigits 16 n

/-- The form of one character between the quotes. -/
def quoteChar (c : Char) : List Char :=
  match c with
  | '"' => ['\\', '"']
  | '\\' => ['\\', '\\']
  | '\t' => ['\\', 't']
  | '\r' => ['\\', 'r']
  | '\n' => ['\\', 'n']
  | '\x00' => ['\\', '0']
  | _ => if isPrintable c then [c] else ['\\', 'u', '{'] ++ hexadecimal c.toNat ++ ['}']

def quote (s : String) : String :=
  String.ofList ('"' :: s.toList.flatMap quoteChar ++ ['"'])

example : quote "a\"b\u00a0\x00" = "\"a\\\"b\\u\x7ba0\x7d\\0\"" := by decide +kernel

end TapeMachine.Text
