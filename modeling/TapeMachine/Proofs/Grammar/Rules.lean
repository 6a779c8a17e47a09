import TapeMachine.Proofs.Description.Reading
import TapeMachine.Proofs.Grammar.Peg

/-! The grammar of machine descriptions as parsing expressions, and what each rule reads: exactly
what the reader of descriptions takes step by step. -/
namespace TapeMachine.Grammar
open Text Description

/-- A line feed, the two together, or a carriage return. -/
def newline : Peg := .alt (.literal ['\n']) (.alt (.literal ['\r', '\n']) (.literal ['\r']))

def anyChar : Peg := .char fun _ => true

/-- White space that does not start a line end. -/
def whitespaceRule : Peg := .seq (.not newline) (.char isWhiteSpace)

def commentRule : Peg := .seq (.literal ['#']) (.star (.seq (.not newline) anyChar))

/-- What is skipped: white space and comments, in any number. -/
def skipRule : Peg :=
  .seq (.star whitespaceRule) (.star (.seq commentRule (.star whitespaceRule)))

def tokenChar : Peg := .seq (.not (.alt (.char isWhiteSpace) (.literal ['#']))) anyChar

def tokenRule : Peg := .rule .token (.atomic (.seq tokenChar (.star tokenChar)))

def lineRule : Peg := .rule .line (.star tokenRule)

def descriptionRule : Peg :=
  .rule .description
    (.seq (.seq (.seq .soi lineRule) (.star (.seq newline lineRule))) (.rule .eoi .eoi))

/-- The token that a pair stands for. -/
def Pair.token (p : Pair) : Token :=
  ⟨(p.span.head?.map Placed.offset).getD 0, String.ofList (chars p.span)⟩

def Pair.tokens (p : Pair) : List Token := p.inner.map Pair.token

/-- The tokens of every line in the result of a parse. -/
def lineTokensOf (pairs : List Pair) : List (List Token) :=
  ((pairs.flatMap Pair.inner).filter (·.rule = .line)).map Pair.tokens

/-- White space within a line does not go past the end of the line. -/
lemma dropWhile_isSeparator_of_lineEnd {s : List Placed}
    (h : ∀ c rest, s = c :: rest → isLineEnd c.char = true) :
    s.dropWhile (isSeparator ·.char) = s := by
  cases s with
  | nil => rfl
  | cons c rest => exact List.dropWhile_cons_of_neg (by simp [isSeparator, h c rest rfl])

lemma consumed_dropWhile (p : Placed → Bool) (s : List Placed) :
    consumed s (s.dropWhile p) = s.takeWhile p := by
  have hl := congrArg List.length (List.takeWhile_append_dropWhile (p := p) (l := s))
  rw [List.length_append] at hl
  have hn : s.length - (s.dropWhile p).length = (s.takeWhile p).length := by omega
  rw [consumed, hn]
  exact (List.prefix_iff_eq_take.1 (List.takeWhile_prefix p)).symm

variable {text s : List Placed} {k : Peg} {out : Outcome}

lemma Reads.of_literal {cs : List Char} (h : readLiteral cs s = out) :
    Reads text k (.literal cs) s out := h ▸ .literal

lemma Reads.sign {a : Char} {c : Placed} (h : c.char = a) (s : List Placed) :
    Reads text k (.literal [a]) (c :: s) (some ([], s)) := Reads.of_literal (if_pos h)

lemma Reads.sign_fail {a : Char} {c : Placed} (h : c.char ≠ a) (s : List Placed) :
    Reads text k (.literal [a]) (c :: s) none := Reads.of_literal (if_neg h)

variable (text)

theorem reads_newline (s : List Placed) :
    Reads text k newline s ((lineEnd? s).map fun rest => ([], rest)) := by
  rcases s with _ | ⟨⟨o, c⟩, s⟩
  · exact .alt_right .literal (.alt_right .literal .literal)
  by_cases hn : c = '\n'
  · subst hn
    exact .alt_left .literal
  have hf : Reads text k (.literal ['\n']) (⟨o, c⟩ :: s) none := Reads.sign_fail hn s
  by_cases hr : c = '\r'
  · subst hr
    rcases s with _ | ⟨⟨o', d⟩, s⟩
    · exact .alt_right hf (.alt_right .literal .literal)
    by_cases hd : d = '\n'
    · subst hd
      exact .alt_right hf (.alt_left .literal)
    have he : lineEnd? (⟨o, '\r'⟩ :: ⟨o', d⟩ :: s) = some (⟨o', d⟩ :: s) := by simp [lineEnd?, hd]
    rw [he]
    exact .alt_right hf (.alt_right (Reads.of_literal (if_neg hd)) .literal)
  have he : isLineEnd c = false := by simp [isLineEnd, hn, hr]
  rw [lineEnd?_eq_none he]
  exact .alt_right hf (.alt_right (Reads.of_literal (if_neg hr)) (Reads.sign_fail hr s))

lemma reads_newline_class (c : Placed) (s : List Placed) :
    (isLineEnd c.char = true → ∃ x, Reads text k newline (c :: s) (some x)) ∧
    (isLineEnd c.char = false → Reads text k newline (c :: s) none) := by
  have h : Reads text k newline _ _ := reads_newline text (c :: s)
  constructor
  · intro hc
    obtain ⟨rest, hr⟩ := exists_lineEnd?_eq hc s
    rw [hr] at h
    exact ⟨_, h⟩
  · intro hc
    rwa [lineEnd?_eq_none hc] at h

/-- `WHITESPACE` reads one separator. -/
theorem reads_whitespace (s : List Placed) :
    Reads text .nothing whitespaceRule s (readChar isSeparator s) := by
  have h := Reads.not_then_class (p := isWhiteSpace) (reads_newline_class text)
    (reads_newline text []) s
  have hc : (fun c => !isLineEnd c && isWhiteSpace c) = isSeparator := by
    funext c
    exact Bool.and_comm _ _
  rwa [hc] at h

lemma reads_commentChar (s : List Placed) :
    Reads text .nothing (.seq (.not newline) anyChar) s (readChar (!isLineEnd ·) s) := by
  have h := Reads.not_then_class (p := fun _ => true) (reads_newline_class text)
    (reads_newline text []) s
  simp only [Bool.and_true] at h
  exact h

lemma reads_comment {c : Placed} (hc : c.char = '#') (s : List Placed) :
    Reads text .nothing commentRule (c :: s) (some ([], s.dropWhile (!isLineEnd ·.char))) :=
  Reads.seq_atomic (Reads.sign hc s) (Reads.star_of_class (reads_commentChar text) s).1

lemma reads_comment_fail (h : ∀ c rest, s = c :: rest → c.char ≠ '#') :
    Reads text .nothing commentRule s none := by
  cases s with
  | nil => exact .seq_fail .literal
  | cons c rest => exact .seq_fail (Reads.sign_fail (h c rest rfl) rest)

lemma reads_star_whitespace (s : List Placed) :
    Reads text .nothing (.star whitespaceRule) s
      (some ([], s.dropWhile (isSeparator ·.char))) :=
  (Reads.star_of_class (reads_whitespace text) s).1

/-- The implicit skip is the skip of the reader. -/
theorem reads_skip (s : List Placed) : Reads text .nothing skipRule s (some ([], skip s)) := by
  have hw := reads_star_whitespace text s
  unfold skip
  split
  · next h =>
    rw [h] at hw
    exact Reads.seq_atomic hw (.star_stop (.seq_fail (reads_comment_fail text (by simp))))
  · next c rest h =>
    rw [h] at hw
    by_cases hc : c.char = '#'
    · rw [if_pos hc]
      have hcomment := reads_comment text hc rest
      have hstop : ∀ d t, rest.dropWhile (!isLineEnd ·.char) = d :: t →
          isLineEnd d.char = true := fun d t => isLineEnd_of_dropWhile
      generalize rest.dropWhile (!isLineEnd ·.char) = left at hcomment hstop ⊢
      -- The comment stops at a line end, which neither white space nor another comment reads.
      have hblank := reads_star_whitespace text left
      rw [dropWhile_isSeparator_of_lineEnd hstop] at hblank
      have hno : Reads text .nothing commentRule left none := by
        refine reads_comment_fail text fun d t he hsign => ?_
        have hle := hstop d t he
        rw [hsign] at hle
        contradiction
      exact Reads.seq_atomic hw
        (.star_go (Reads.seq_atomic hcomment hblank) (.more_stop .nothing (.seq_fail hno)))
    · rw [if_neg hc]
      have hno : Reads text .nothing commentRule (c :: rest) none :=
        reads_comment_fail text (by rintro d t ⟨⟩; exact hc)
      exact Reads.seq_atomic hw (.star_stop (.seq_fail hno))

lemma reads_tokenChar (s : List Placed) :
    Reads text .nothing tokenChar s (readChar isTokenChar s) := by
  have hq : ∀ (c : Placed) (t : List Placed),
      ((isWhiteSpace c.char || c.char == '#') = true → ∃ x,
        Reads text .nothing (.alt (.char isWhiteSpace) (.literal ['#'])) (c :: t) (some x)) ∧
      ((isWhiteSpace c.char || c.char == '#') = false →
        Reads text .nothing (.alt (.char isWhiteSpace) (.literal ['#'])) (c :: t) none) := by
    intro c t
    have hw : Reads text .nothing (.char isWhiteSpace) (c :: t) _ := .char
    cases hws : isWhiteSpace c.char with
    | true =>
      rw [readChar, if_pos hws] at hw
      exact ⟨fun _ => ⟨_, .alt_left hw⟩, by simp⟩
    | false =>
      rw [readChar, if_neg (by simp [hws])] at hw
      refine ⟨fun hc => ⟨_, .alt_right hw (Reads.sign (by simpa using hc) t)⟩, fun hc => ?_⟩
      exact .alt_right hw (Reads.sign_fail (by simpa using hc) t)
  have hnil : Reads text .nothing (.literal ['#']) [] none := .literal
  have h := Reads.not_then_class (p := fun _ => true) (q := fun c => isWhiteSpace c || c == '#') hq
    (.alt_right .char hnil) s
  have hc : (fun c => !(isWhiteSpace c || c == '#') && true) = isTokenChar := by
    funext c
    simp [isTokenChar, bne]
  rwa [hc] at h

/-- Where the next character starts a token, `token` takes all characters of it. -/
lemma reads_token_of_pos {c : Placed} (hc : isTokenChar c.char = true) (s : List Placed) :
    Reads text k tokenRule (c :: s)
      (some ([⟨.token, c :: s.takeWhile (isTokenChar ·.char), []⟩],
        s.dropWhile (isTokenChar ·.char))) := by
  have h : Reads text k tokenRule (c :: s) _ :=
    .rule (.atomic (Reads.plus_of_class (reads_tokenChar text) hc s))
  rw [← List.dropWhile_cons_of_pos (p := fun c : Placed => isTokenChar c.char) hc,
    consumed_dropWhile] at h
  simpa [hc] using h

lemma reads_token_of_neg (h : ∀ c rest, s = c :: rest → isTokenChar c.char = false) :
    Reads text k tokenRule s none := by
  have hno : Reads text .nothing tokenChar s none := by
    have ht := reads_tokenChar text s
    cases s with
    | nil => exact ht
    | cons c s => rwa [readChar, if_neg (by simp [h c s rfl])] at ht
  exact .rule_fail (.atomic (.seq_fail hno))

end TapeMachine.Grammar
