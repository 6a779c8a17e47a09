import TapeMachine.Proofs.Grammar.Layout

/-! Reading can start from any rule of the grammar: from a whole description, from a line, or from a
token. Unlike a description, a line and a token do not skip what stands in front of them. On a text
that starts with a token the three agree; on any other text there is nothing to read for the two. -/
namespace TapeMachine.Grammar
open Text Description

/-- Applied at the start of a text, `e` ends in `out` and in nothing else. -/
def EndsIn (e : Peg) (text : String) (out : Outcome) : Prop :=
  ∀ out', Reads (place text.toList) skipRule e (place text.toList) out' ↔ out' = out

/-- `description` reads the whole text, as lines with these tokens. -/
def YieldsLines (text : String) (ls : List (List Token)) : Prop :=
  ∃ pairs, EndsIn descriptionRule text (some (pairs, [])) ∧ lineTokensOf pairs = ls

/-- `line` reads one line with these tokens from the start of the text. -/
def YieldsLine (text : String) (ts : List Token) : Prop :=
  ∃ p rest, EndsIn lineRule text (some ([p], rest)) ∧ p.rule = .line ∧ p.tokens = ts

/-- `token` reads this token from the start of the text. -/
def YieldsToken (text : String) (t : Token) : Prop :=
  ∃ p rest, EndsIn tokenRule text (some ([p], rest)) ∧ p.rule = .token ∧ p.token = t

/-- The first character is neither white space nor the comment sign. -/
def StartsInToken : List Char → Prop
  | [] => False
  | c :: _ => isWhiteSpace c = false ∧ c ≠ '#'

instance : (text : List Char) → Decidable (StartsInToken text)
  | [] => inferInstanceAs (Decidable False)
  | c :: _ => inferInstanceAs (Decidable (isWhiteSpace c = false ∧ c ≠ '#'))

/-- The longest piece without white space and comment signs that a text starts with. -/
structure LongestWord (text word : List Char) : Prop where
  starts : word <+: text
  clean : ∀ c ∈ word, isWhiteSpace c = false ∧ c ≠ '#'
  longest : ∀ w, w <+: text → (∀ c ∈ w, isWhiteSpace c = false ∧ c ≠ '#') →
    w.length ≤ word.length

variable {text : String} {out : Outcome} {e : Peg}

lemma EndsIn.of_reads
    (h : Reads (place text.toList) skipRule e (place text.toList) out) : EndsIn e text out := by
  intro out'
  constructor
  · intro h'
    exact h'.unique h
  · rintro rfl
    exact h

lemma EndsIn.unique {out' : Outcome} (h : EndsIn e text out) (h' : EndsIn e text out') :
    out = out' :=
  (h' out).1 ((h out).2 rfl)

/-- The reader of descriptions finds the lines that `description` yields. -/
theorem yieldsLines_iff {ls : List (List Token)} :
    YieldsLines text ls ↔ tokenLines text.toList = .ok ls := by
  obtain ⟨pairs, hpairs, hr⟩ := reads_layout text.toList
  rw [tokenLines_eq]
  constructor
  · rintro ⟨pairs', h, rfl⟩
    cases EndsIn.unique hr h
    rw [hpairs]
  · rintro ⟨⟩
    exact ⟨pairs, hr, hpairs⟩

/-- The reader of lines finds the line that `line` yields. -/
theorem yieldsLine_iff {ts : List Token} :
    YieldsLine text ts ↔ (Description.line (place text.toList)).1 = ts := by
  obtain ⟨p, hr, hrule, htokens⟩ := reads_line (place text.toList) (place text.toList)
  constructor
  · rintro ⟨p', rest, h, -, rfl⟩
    cases (EndsIn.of_reads hr).unique h
    exact htokens.symm
  · rintro rfl
    exact ⟨p, _, .of_reads hr, hrule, htokens⟩

lemma endsIn_of_token? {t : Token} {rest : List Placed}
    (h : token? (place text.toList) = some (t, rest)) :
    ∃ p, EndsIn tokenRule text (some ([p], rest)) ∧ p.rule = .token ∧ p.token = t := by
  obtain ⟨p, hr, ht⟩ := reads_token_of_some (place text.toList) (k := skipRule) h
  have hrule : p.rule = .token := by
    cases hr
    rfl
  exact ⟨p, .of_reads hr, hrule, ht⟩

/-- The reader of tokens finds the token that `token` yields. -/
theorem yieldsToken_iff {t : Token} :
    YieldsToken text t ↔ (token? (place text.toList)).map Prod.fst = some t := by
  cases ht : token? (place text.toList) with
  | none =>
    have hno := reads_token_of_none (place text.toList) (k := skipRule) ht
    have hnone : ¬ YieldsToken text t := by
      rintro ⟨p, rest, h, -⟩
      cases (EndsIn.of_reads hno).unique h
    simpa using hnone
  | some found =>
    obtain ⟨p, h, hrule, hp⟩ := endsIn_of_token? ht
    constructor
    · rintro ⟨p', rest, h', -, rfl⟩
      cases h.unique h'
      exact congrArg some hp.symm
    · rintro ⟨⟩
      exact ⟨p, _, h, hrule, hp⟩

section Start
variable {cs : List Char} {s rest : List Placed} {t : Token}

lemma longestWord_takeWhile (cs : List Char) : LongestWord cs (cs.takeWhile isTokenChar) where
  starts := List.takeWhile_prefix isTokenChar
  clean := fun c hc => by simpa [isTokenChar] using List.mem_takeWhile_imp hc
  longest := by
    rintro w ⟨after, rfl⟩ hw
    have holds : ∀ c ∈ w, isTokenChar c = true := fun c hc => by simp [isTokenChar, hw c hc]
    rw [List.takeWhile_append_of_pos holds, List.length_append]
    exact Nat.le_add_right _ _

lemma startsInToken_iff :
    StartsInToken cs ↔ ∃ p s, place cs = p :: s ∧ isTokenChar p.char = true := by
  have hchars := chars_place cs
  generalize place cs = ps at hchars ⊢
  subst hchars
  cases ps with
  | nil => simp [StartsInToken]
  | cons p s => simp [StartsInToken, isTokenChar]

/-- The token at the start of a text has offset 0 and is as long as it can be. -/
lemma exists_first_token (h : StartsInToken cs) :
    ∃ t rest, token? (place cs) = some (t, rest) ∧ t.start = 0 ∧ LongestWord cs t.text.toList := by
  obtain ⟨p, s, hs, hp⟩ := startsInToken_iff.1 h
  obtain ⟨htext, hoffset⟩ := @offset_of_place cs [] s p hs
  have hword : chars (p :: s.takeWhile (isTokenChar ·.char)) = cs.takeWhile isTokenChar := by
    rw [htext, chars_nil, List.nil_append, chars_cons, chars_cons, List.takeWhile_cons_of_pos hp,
      chars, chars, List.takeWhile_map]
    rfl
  refine ⟨_, _, hs ▸ token?_cons_of_pos hp s, hoffset, ?_⟩
  rw [Token.ofRun, String.toList_ofList, hword]
  exact longestWord_takeWhile cs

lemma token?_eq_none_of_not (h : ¬ StartsInToken cs) : token? (place cs) = none := by
  refine token?_eq_none_iff.2 fun p s hs => ?_
  by_contra hp
  exact h (startsInToken_iff.2 ⟨p, s, hs, by simpa using hp⟩)

/-- A line that starts with a token has that token first. -/
lemma exists_line_eq (h : token? s = some (t, rest)) : ∃ ts, (Description.line s).1 = t :: ts := by
  obtain ⟨xs, -, hxs⟩ := reads_more_token s [t] rest
  refine ⟨xs.map Pair.token, ?_⟩
  rw [Description.line, h]
  exact hxs

/-- The first line of a description is the one behind what is skipped first. -/
lemma exists_tokenLines_eq (cs : List Char) :
    ∃ others, tokenLines cs = .ok ((Description.line (skip (place cs))).1 :: others) := by
  have hread : moreLines [(Description.line (skip (place cs))).1]
    (Description.line (skip (place cs))).2 = .ok (layout cs) := tokenLines_eq cs
  obtain ⟨xs, -, -, -, -, hlines⟩ := reads_more_line (place cs) hread
  exact ⟨xs.map Pair.tokens, (tokenLines_eq cs).trans (congrArg _ hlines)⟩

end Start

/-- The rules of the grammar agree. On a text that starts with a token, `line` yields the first line
that `description` yields, and `token` the first token of that line, which is the longest piece
without white space and comment signs at the start of the text. On every other text, the empty one
included, `line` succeeds without a token and `token` fails. What the rules yield is what the
readers of descriptions, lines and tokens find. -/
theorem entry_rules_agree (text : String) :
    (StartsInToken text.toList → ∃ t ts others,
      YieldsLines text ((t :: ts) :: others) ∧ YieldsLine text (t :: ts) ∧ YieldsToken text t ∧
      t.start = 0 ∧ LongestWord text.toList t.text.toList) ∧
    (¬ StartsInToken text.toList → YieldsLine text [] ∧ EndsIn tokenRule text none) ∧
    (∀ ls, YieldsLines text ls ↔ tokenLines text.toList = .ok ls) ∧
    (∀ ts, YieldsLine text ts ↔ (Description.line (place text.toList)).1 = ts) ∧
    ∀ t, YieldsToken text t ↔ (token? (place text.toList)).map Prod.fst = some t := by
  refine ⟨fun h => ?_, fun h => ?_, fun _ => yieldsLines_iff, fun _ => yieldsLine_iff,
    fun _ => yieldsToken_iff⟩
  · obtain ⟨t, rest, ht, hstart, hword⟩ := exists_first_token h
    obtain ⟨ts, hts⟩ := exists_line_eq ht
    obtain ⟨others, hothers⟩ := exists_tokenLines_eq text.toList
    rw [skip_of_token? ht, hts] at hothers
    exact ⟨t, ts, others, yieldsLines_iff.2 hothers, yieldsLine_iff.2 hts,
      yieldsToken_iff.2 (by rw [ht]; rfl), hstart, hword⟩
  · have ht := token?_eq_none_of_not h
    have hline : (Description.line (place text.toList)).1 = [] := by rw [Description.line, ht]
    exact ⟨yieldsLine_iff.2 hline, .of_reads (reads_token_of_none (place text.toList) ht)⟩

/-- What stands between and behind the tokens of a line makes no difference, but what stands in
front of them does. -/
theorem entry_rules_agree_commented :
    let text := "a\u2028b #c\r\nd"
    StartsInToken text.toList ∧ YieldsLines text [[⟨0, "a"⟩, ⟨4, "b"⟩], [⟨10, "d"⟩]] ∧
    YieldsLine text [⟨0, "a"⟩, ⟨4, "b"⟩] ∧ YieldsToken text ⟨0, "a"⟩ ∧
    ¬ StartsInToken " a".toList ∧ YieldsLine " a" [] ∧ EndsIn tokenRule " a" none := by
  intro text
  have hstarts : StartsInToken text.toList := by decide +kernel
  have hnot : ¬ StartsInToken " a".toList := by decide +kernel
  obtain ⟨agree, -, hlines, -⟩ := entry_rules_agree text
  obtain ⟨t, ts, others, hyields, hline, htoken, -⟩ := agree hstarts
  obtain ⟨hempty, hfails⟩ := (entry_rules_agree " a").2.1 hnot
  have hread : tokenLines text.toList = .ok [[⟨0, "a"⟩, ⟨4, "b"⟩], [⟨10, "d"⟩]] := by
    rw [tokenLines_eq]
    decide +kernel
  cases hread.symm.trans ((hlines _).1 hyields)
  exact ⟨hstarts, hyields, hline, htoken, hnot, hempty, hfails⟩

end TapeMachine.Grammar
