import Mathlib.Tactic.Lemma
import TapeMachine.Text.Lines

/-! Parsing expression grammars with implicit skipping. Between the parts of a sequence and between
repetitions a skip expression is read; inside an atomic expression nothing is skipped. Choice is
ordered, repetition takes all it can, and a negative lookahead consumes nothing. -/
namespace TapeMachine.Grammar
open Text

inductive Rule where
  | description
  | line
  | token
  | eoi
  deriving DecidableEq, Repr

inductive Peg where
  | nothing
  | soi
  | eoi
  | char (p : Char → Bool)
  | literal (cs : List Char)
  | seq (a b : Peg)
  | alt (a b : Peg)
  | star (a : Peg)
  /-- The repetitions of `star a` after the first, each with a skip in front of it. -/
  | more (a : Peg)
  | not (a : Peg)
  | atomic (a : Peg)
  | rule (r : Rule) (a : Peg)

/-- One application of a rule: the stretch of text it covers and the pairs inside it. -/
inductive Pair where
  | mk (rule : Rule) (span : List Placed) (inner : List Pair)

namespace Pair

def rule : Pair → Rule
  | mk rule _ _ => rule

def span : Pair → List Placed
  | mk _ span _ => span

def inner : Pair → List Pair
  | mk _ _ inner => inner

end Pair

/-- A failure, or the pairs of a match and what is left of the text. -/
abbrev Outcome := Option (List Pair × List Placed)

namespace Outcome

/-- Put the pairs of an earlier part in front. -/
def prepend (xs : List Pair) (out : Outcome) : Outcome := out.map fun (ys, s) => (xs ++ ys, s)

@[simp] lemma prepend_none (xs : List Pair) : prepend xs none = none := rfl

@[simp] lemma prepend_some (xs ys : List Pair) (s : List Placed) :
    prepend xs (some (ys, s)) = some (xs ++ ys, s) := rfl

end Outcome

def readChar (p : Char → Bool) : List Placed → Outcome
  | [] => none
  | c :: s => if p c.char then some ([], s) else none

def readLiteral : List Char → List Placed → Outcome
  | [], s => some ([], s)
  | _ :: _, [] => none
  | c :: cs, p :: s => if p.char = c then readLiteral cs s else none

/-- The stretch that has been read when `rest` is left of `s`. -/
def consumed (s rest : List Placed) : List Placed := s.take (s.length - rest.length)

/-- `Reads text k e s out`: with skip expression `k`, reading `e` at the rest `s` of `text` ends
in `out`. -/
inductive Reads (text : List Placed) : Peg → Peg → List Placed → Outcome → Prop where
  | nothing {k s} : Reads text k .nothing s (some ([], s))
  | soi {k s} : Reads text k .soi s (if s = text then some ([], s) else none)
  | eoi {k s} : Reads text k .eoi s (if s = [] then some ([], s) else none)
  | char {k p s} : Reads text k (.char p) s (readChar p s)
  | literal {k cs s} : Reads text k (.literal cs) s (readLiteral cs s)
  | seq {k a b s s₁ s₂ xs zs out} (first : Reads text k a s (some (xs, s₁)))
      (skip : Reads text .nothing k s₁ (some (zs, s₂))) (second : Reads text k b s₂ out) :
      Reads text k (.seq a b) s (out.prepend (xs ++ zs))
  | seq_fail {k a b s} (first : Reads text k a s none) : Reads text k (.seq a b) s none
  | alt_left {k a b s x} (first : Reads text k a s (some x)) : Reads text k (.alt a b) s (some x)
  | alt_right {k a b s out} (first : Reads text k a s none) (second : Reads text k b s out) :
      Reads text k (.alt a b) s out
  | star_stop {k a s} (first : Reads text k a s none) : Reads text k (.star a) s (some ([], s))
  | star_go {k a s s₁ xs out} (first : Reads text k a s (some (xs, s₁)))
      (others : Reads text k (.more a) s₁ out) : Reads text k (.star a) s (out.prepend xs)
  | more_stop {k a s s₁ zs} (skip : Reads text .nothing k s (some (zs, s₁)))
      (next : Reads text k a s₁ none) : Reads text k (.more a) s (some ([], s))
  | more_go {k a s s₁ s₂ xs zs out} (skip : Reads text .nothing k s (some (zs, s₁)))
      (next : Reads text k a s₁ (some (xs, s₂))) (others : Reads text k (.more a) s₂ out) :
      Reads text k (.more a) s (out.prepend (zs ++ xs))
  | not_ok {k a s} (fails : Reads text k a s none) : Reads text k (.not a) s (some ([], s))
  | not_fail {k a s x} (reads : Reads text k a s (some x)) : Reads text k (.not a) s none
  | atomic {k a s out} (reads : Reads text .nothing a s out) : Reads text k (.atomic a) s out
  | rule {k r a s s₁ xs} (reads : Reads text k a s (some (xs, s₁))) :
      Reads text k (.rule r a) s (some ([⟨r, consumed s s₁, xs⟩], s₁))
  | rule_fail {k r a s} (fails : Reads text k a s none) : Reads text k (.rule r a) s none

namespace Reads
variable {text s s₁ s₂ : List Placed} {k a b : Peg} {out out' : Outcome} {xs ys : List Pair}

/-- A parse has one outcome. -/
theorem unique (h : Reads text k a s out) (h' : Reads text k a s out') : out = out' := by
  induction h generalizing out' with
  | nothing => cases h'; rfl
  | soi => cases h'; rfl
  | eoi => cases h'; rfl
  | char => cases h'; rfl
  | literal => cases h'; rfl
  | seq _ _ _ ih₁ ih₂ ih₃ =>
    cases h' with
    | seq first skip second =>
      cases ih₁ first
      cases ih₂ skip
      rw [ih₃ second]
    | seq_fail first => cases ih₁ first
  | seq_fail _ ih =>
    cases h' with
    | seq first => cases ih first
    | seq_fail => rfl
  | alt_left _ ih =>
    cases h' with
    | alt_left first => exact ih first
    | alt_right first => cases ih first
  | alt_right _ _ ih₁ ih₂ =>
    cases h' with
    | alt_left first => cases ih₁ first
    | alt_right _ second => exact ih₂ second
  | star_stop _ ih =>
    cases h' with
    | star_stop => rfl
    | star_go first => cases ih first
  | star_go _ _ ih₁ ih₂ =>
    cases h' with
    | star_stop first => cases ih₁ first
    | star_go first others =>
      cases ih₁ first
      rw [ih₂ others]
  | more_stop _ _ ih₁ ih₂ =>
    cases h' with
    | more_stop => rfl
    | more_go skip next =>
      cases ih₁ skip
      cases ih₂ next
  | more_go _ _ _ ih₁ ih₂ ih₃ =>
    cases h' with
    | more_stop skip next =>
      cases ih₁ skip
      cases ih₂ next
    | more_go skip next others =>
      cases ih₁ skip
      cases ih₂ next
      rw [ih₃ others]
  | not_ok _ ih =>
    cases h' with
    | not_ok => rfl
    | not_fail reads => cases ih reads
  | not_fail _ ih =>
    cases h' with
    | not_ok fails => cases ih fails
    | not_fail => rfl
  | atomic _ ih =>
    cases h' with
    | atomic reads => exact ih reads
  | rule _ ih =>
    cases h' with
    | rule reads => cases ih reads; rfl
    | rule_fail fails => cases ih fails
  | rule_fail _ ih =>
    cases h' with
    | rule reads => cases ih reads
    | rule_fail => rfl

/-- Inside an atomic expression the parts of a sequence follow each other directly. -/
lemma seq_atomic (first : Reads text .nothing a s (some (xs, s₁)))
    (second : Reads text .nothing b s₁ out) :
    Reads text .nothing (.seq a b) s (out.prepend xs) := by
  have h := Reads.seq first Reads.nothing second
  rwa [List.append_nil] at h

/-- Repeating an expression that reads one character of a class drops all such characters. -/
theorem star_of_class {p : Char → Bool}
    (h : ∀ s, Reads text .nothing a s (readChar p s)) (s : List Placed) :
    Reads text .nothing (.star a) s (some ([], s.dropWhile (p ·.char))) ∧
    Reads text .nothing (.more a) s (some ([], s.dropWhile (p ·.char))) := by
  induction s with
  | nil => exact ⟨.star_stop (h []), .more_stop .nothing (h [])⟩
  | cons c s ih =>
    have hc := h (c :: s)
    cases hp : p c.char with
    | true =>
      rw [List.dropWhile_cons_of_pos (by simpa using hp)]
      rw [readChar, if_pos hp] at hc
      exact ⟨.star_go hc ih.2, .more_go .nothing hc ih.2⟩
    | false =>
      rw [List.dropWhile_cons_of_neg (by simp [hp])]
      rw [readChar, if_neg (by simp [hp])] at hc
      exact ⟨.star_stop hc, .more_stop .nothing hc⟩

lemma plus_of_class {p : Char → Bool}
    (h : ∀ s, Reads text .nothing a s (readChar p s)) {c : Placed} (hc : p c.char = true)
    (s : List Placed) :
    Reads text .nothing (.seq a (.star a)) (c :: s) (some ([], s.dropWhile (p ·.char))) := by
  have hr := h (c :: s)
  rw [readChar, if_pos hc] at hr
  exact seq_atomic hr (star_of_class h s).1

/-- A class with a negative lookahead in front is the class without what the lookahead reads. -/
lemma not_then_class {p q : Char → Bool}
    (ha : ∀ c s, (q c.char = true → ∃ x, Reads text .nothing a (c :: s) (some x)) ∧
      (q c.char = false → Reads text .nothing a (c :: s) none))
    (hn : Reads text .nothing a [] none) (s : List Placed) :
    Reads text .nothing (.seq (.not a) (.char p)) s (readChar (fun c => !q c && p c) s) := by
  cases s with
  | nil => exact seq_atomic (.not_ok hn) .char
  | cons c s =>
    cases hq : q c.char with
    | true =>
      obtain ⟨x, hx⟩ := (ha c s).1 hq
      simpa [readChar, hq] using Reads.seq_fail (b := .char p) (Reads.not_fail hx)
    | false =>
      have hs := seq_atomic (.not_ok ((ha c s).2 hq)) (.char (p := p))
      cases hp : p c.char <;> simpa [readChar, hq, hp] using hs

end Reads
end TapeMachine.Grammar
