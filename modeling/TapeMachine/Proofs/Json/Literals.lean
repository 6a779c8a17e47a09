import Mathlib.Tactic.Lemma
import TapeMachine.Json.Codec
import TapeMachine.Proofs.Text.Runs

/-! Literals read back. The reader takes an escaped text up to its closing quote, and its escapes
stand for the characters of the text; it takes a number up to its last digit, and the digits stand
for the number. -/
namespace TapeMachine

namespace Json

lemma hexValue?_hexDigit {n : Nat} (hn : n < 16) : hexValue? (hexDigit n) = some n := by
  revert n
  decide

/-- The escape of a control character gives its number. -/
lemma hexValue4?_control {n : Nat} (hn : n < 0x20) :
    hexValue4? '0' '0' (hexDigit (n / 16)) (hexDigit (n % 16)) = some n := by
  have hzero : hexValue? '0' = some 0 := by decide
  rw [hexValue4?, hzero, hexValue?_hexDigit (by omega), hexValue?_hexDigit (by omega)]
  exact congrArg some (by omega)

/-- How a character is written: by an escape of two characters, by one with its number, or as it
is. -/
inductive Escaped (c : Char) : List Char → Prop where
  | short {e : Char} (he : e ≠ 'u') (stands : escaped? e = some c) : Escaped c ['\\', e]
  | control (hc : c.toNat < 0x20) :
      Escaped c ['\\', 'u', '0', '0', hexDigit (c.toNat / 16), hexDigit (c.toNat % 16)]
  | plain (hc : ¬ c.toNat < 0x20) (quote : c ≠ '"') (backslash : c ≠ '\\') : Escaped c [c]

lemma escaped_escapeChar (c : Char) : Escaped c (escapeChar c) := by
  unfold escapeChar
  split
  all_goals try exact .short (by decide) rfl
  next hquote hbackslash _ _ _ _ _ =>
    split
    · next hc => exact .control hc
    · next hc => exact .plain hc hquote hbackslash

namespace Escaped
variable {c : Char} {cs : List Char}

lemma literalFrom_append (h : Escaped c cs) (done rest : List Char) :
    literalFrom done (cs ++ rest) = literalFrom (cs.reverse ++ done) rest := by
  cases h with
  | @short e he stands =>
    have hsome : (escaped? e).isSome = true := by rw [stands]; rfl
    simp [literalFrom, he, hsome]
  | control hc => simp [literalFrom, hexValue4?_control hc]
  | plain hc quote backslash => simp [literalFrom, hc, backslash]

lemma unitsFrom_append (h : Escaped c cs) (done : List Unit16) (rest : List Char) :
    unitsFrom done (cs ++ rest) = unitsFrom (.char c :: done) rest := by
  cases h with
  | short he stands => simp [unitsFrom, he, stands]
  | control hc =>
    have hunit : Unit16.ofNat c.toNat = .char c := by
      rw [Unit16.ofNat, if_neg (by omega), Char.ofNat_toNat]
    simp [unitsFrom, hexValue4?_control hc, hunit]
  | plain hc quote backslash => simp [unitsFrom, backslash]

end Escaped

/-- A literal ends at the first quote that no escape has produced. -/
theorem literalFrom_escape (s : String) (rest : List Char) :
    literalFrom [] (escape s ++ '"' :: rest) = some (escape s, rest) := by
  have h : ∀ (cs done : List Char), literalFrom done (cs.flatMap escapeChar ++ '"' :: rest) =
      some (done.reverse ++ cs.flatMap escapeChar, rest) := by
    intro cs
    induction cs with
    | nil =>
      intro done
      simp [literalFrom]
    | cons c cs ih =>
      intro done
      rw [List.flatMap_cons, List.append_assoc, (escaped_escapeChar c).literalFrom_append, ih]
      simp
  exact h s.toList []

lemma joinFrom_char (cs done : List Char) :
    joinFrom done (cs.map .char) = some (done.reverse ++ cs) := by
  induction cs generalizing done with
  | nil => simp [joinFrom]
  | cons c cs ih => simp [joinFrom, ih]

/-- An escaped text stands for the text. -/
theorem unescape?_escape (s : String) : unescape? (escape s) = some s := by
  have h : ∀ (cs : List Char) (done : List Unit16),
      unitsFrom done (cs.flatMap escapeChar) = some (done.reverse ++ cs.map .char) := by
    intro cs
    induction cs with
    | nil =>
      intro done
      simp [unitsFrom]
    | cons c cs ih =>
      intro done
      rw [List.flatMap_cons, (escaped_escapeChar c).unitsFrom_append, ih]
      simp
  have hunits : unitsFrom [] (escape s) = some (s.toList.map .char) := h s.toList []
  rw [unescape?, hunits]
  simp [joinFrom_char]

/-- No number goes on here. -/
def EndsNumber (cs : List Char) : Prop :=
  ∀ c t, cs = c :: t → c.isDigit = false ∧ c ≠ '.' ∧ c ≠ 'e' ∧ c ≠ 'E'

lemma isDigit_of_mem_toDigits {n : Nat} {c : Char} (hc : c ∈ Nat.toDigits 10 n) :
    c.isDigit = true :=
  Nat.isDigit_of_mem_toDigits (by decide) (by decide) hc

/-- A decimal number has a first digit, which is a zero for the number zero alone. -/
lemma exists_toDigits (n : Nat) :
    ∃ c cs, Nat.toDigits 10 n = c :: cs ∧ c.isDigit = true ∧ (c = '0' → n = 0) := by
  have hdigit : ∀ d < 10, d.digitChar.isDigit = true ∧ (d.digitChar = '0' → d = 0) := by decide
  induction n using Nat.strongRecOn with
  | ind n ih =>
    by_cases h : n < 10
    · exact ⟨_, _, Nat.toDigits_of_lt_base h, hdigit n h⟩
    · obtain ⟨c, cs, hcs, hc, hzero⟩ := ih (n / 10) (by omega)
      refine ⟨c, cs ++ [(n % 10).digitChar], ?_, hc, fun h0 => ?_⟩
      · rw [Nat.toDigits_of_base_le (by decide) (Nat.le_of_not_lt h), hcs]
        rfl
      · have := hzero h0
        omega

lemma digits?_toDigits (n : Nat) {rest : List Char} (hrest : EndsNumber rest) :
    digits? (Nat.toDigits 10 n ++ rest) = some (Nat.toDigits 10 n, rest) := by
  obtain ⟨htake, hdrop⟩ := Text.takeWhile_append_of_stops (fun c hc => isDigit_of_mem_toDigits hc)
    fun c t h => (hrest c t h).1
  rw [digits?, htake, hdrop, if_neg (by simp [Nat.toDigits_ne_nil])]

lemma integerPart?_toDigits (n : Nat) {rest : List Char} (hrest : EndsNumber rest) :
    integerPart? (Nat.toDigits 10 n ++ rest) = some (Nat.toDigits 10 n, rest) := by
  rw [integerPart?, digits?_toDigits n hrest]
  split
  · next d ds _ heq =>
    have hdigits : Nat.toDigits 10 n = '0' :: d :: ds := congrArg Prod.fst (Option.some.inj heq)
    obtain ⟨c, cs, hcs, -, hzero⟩ := exists_toDigits n
    rw [hcs] at hdigits
    rw [hzero (List.cons.inj hdigits).1, Nat.toDigits_zero] at hcs
    cases hcs
    cases hdigits
  · rfl

/-- The reader takes a number up to its last digit. -/
theorem number?_toDigits (n : Nat) {rest : List Char} (hrest : EndsNumber rest) :
    number? (Nat.toDigits 10 n ++ rest) = some (Nat.toDigits 10 n, rest) := by
  have hfraction : fractionPart? rest = some ([], rest) := by
    cases rest with
    | nil => rfl
    | cons c t => simp [fractionPart?, (hrest c t rfl).2.1]
  have hexponent : exponentPart? rest = some ([], rest) := by
    cases rest with
    | nil => rfl
    | cons c t => simp [exponentPart?, (hrest c t rfl).2.2]
  have hinteger := integerPart?_toDigits n hrest
  obtain ⟨c, cs, hcs, hc, -⟩ := exists_toDigits n
  rw [hcs, List.cons_append] at hinteger ⊢
  have hsign : c ≠ '-' := by
    rintro rfl
    cases hc
  simp [number?, hsign, hinteger, hfraction, hexponent]

end Json

namespace Text

lemma le_ofDigitChars (cs : List Char) (n : Nat) : n ≤ Nat.ofDigitChars 10 cs n := by
  induction cs generalizing n with
  | nil => simp
  | cons c cs ih =>
    rw [Nat.ofDigitChars_cons]
    exact Nat.le_trans (by omega) (ih _)

lemma digitsFrom_eq_ok {cs : List Char} (hcs : ∀ c ∈ cs, c.isDigit) {n : Nat}
    (hn : Nat.ofDigitChars 10 cs n < numberBound) :
    digitsFrom n cs = .ok (Nat.ofDigitChars 10 cs n) := by
  induction cs generalizing n with
  | nil => simp [digitsFrom]
  | cons c cs ih =>
    rw [Nat.ofDigitChars_cons] at hn ⊢
    have hc : c.isDigit := hcs c List.mem_cons_self
    have hlt := Nat.lt_of_le_of_lt (le_ofDigitChars cs _) hn
    simp only [digitsFrom, hc, digitValue, hlt, if_true, Bool.not_true, Bool.false_eq_true,
      if_false]
    exact ih (fun c hc => hcs c (List.mem_cons_of_mem _ hc)) hn

/-- The digits of a number that is not too large stand for it. -/
theorem digitsFrom_toDigits {n : Nat} (hn : n < numberBound) :
    digitsFrom 0 (Nat.toDigits 10 n) = .ok n := by
  have hvalue : Nat.ofDigitChars 10 (Nat.toDigits 10 n) 0 = n := Nat.ofDigitChars_ten_toDigits
  rw [digitsFrom_eq_ok (fun c hc => Nat.isDigit_of_mem_toDigits (by decide) (by decide) hc)
    (hvalue.symm ▸ hn), hvalue]

end Text
end TapeMachine
