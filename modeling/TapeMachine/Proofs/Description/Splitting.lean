import Mathlib.Data.List.Forall2
import TapeMachine.Description.Layout
import TapeMachine.Description.Load
import TapeMachine.Proofs.Text.Lines
import TapeMachine.Proofs.Text.Runs

/-! How a text splits into lines and tokens, said without a loop; where each token starts, and
which number each line has. -/
namespace TapeMachine.Description
open Text

/-- A token stands for a run of characters and starts where the run does. -/
def Token.Covers (t : Token) (run : List Placed) : Prop :=
  ∃ p more, run = p :: more ∧ t.start = p.offset ∧ t.text = String.ofList (chars run)

/-- `ts` are the tokens of a line: the maximal runs without white space in front of its first
comment sign, in order. -/
inductive TokensOf : List Placed → List Token → Prop where
  | mk {before after : List Placed} {words : List (List Placed)} {ts : List Token}
      (clean : ∀ p ∈ before, p.char ≠ '#') (sign : ∀ p t, after = p :: t → p.char = '#')
      (maximal : MaximalRuns (fun p : Placed => !isWhiteSpace p.char) before words)
      (covers : List.Forall₂ Token.Covers ts words) : TokensOf (before ++ after) ts

/-- `ls` are the tokens of the lines of a text, empty lines included. -/
def PlainSplit (ps : List Placed) (ls : List (List Token)) : Prop :=
  ∃ cut, LineCut ps cut ∧ List.Forall₂ TokensOf cut ls

def Token.ofRun? : List Placed → Option Token
  | [] => none
  | p :: run => some (.ofRun p run)

lemma lineTokens_eq (line : List Placed) : lineTokens line =
    (runs (fun p : Placed => !isWhiteSpace p.char) (beforeComment line)).filterMap Token.ofRun? :=
  rfl

lemma ofRun?_eq_some {run : List Placed} {t : Token} :
    Token.ofRun? run = some t ↔ t.Covers run := by
  cases run with
  | nil => simp [Token.ofRun?, Token.Covers]
  | cons p run =>
    constructor
    · rintro ⟨⟩
      exact ⟨p, run, rfl, rfl, rfl⟩
    · intro h
      obtain ⟨q, more, h, hs, ht⟩ := h
      cases h
      cases t
      cases hs
      cases ht
      rfl

/-- None of the runs is empty, so there is one token for each. -/
lemma forall₂_covers {words : List (List Placed)} (hne : ∀ run ∈ words, run ≠ [])
    {ts : List Token} : List.Forall₂ Token.Covers ts words ↔ ts = words.filterMap Token.ofRun? := by
  induction words generalizing ts with
  | nil => simp
  | cons run words ih =>
    obtain ⟨p, run, rfl⟩ := List.exists_cons_of_ne_nil (hne run List.mem_cons_self)
    have hwords : ∀ r ∈ words, r ≠ [] := fun r hr => hne r (List.mem_cons_of_mem _ hr)
    have hp : Token.ofRun? (p :: run) = some (.ofRun p run) := rfl
    rw [List.filterMap_cons_some hp, List.forall₂_cons_right_iff]
    constructor
    · intro h
      obtain ⟨t, ts, hc, hf, rfl⟩ := h
      cases ofRun?_eq_some.2 hc
      rw [(ih hwords).1 hf]
    · intro heq
      subst heq
      exact ⟨_, _, ofRun?_eq_some.1 hp, (ih hwords).2 rfl, rfl⟩

lemma beforeComment_append {before after : List Placed} (clean : ∀ p ∈ before, p.char ≠ '#')
    (sign : ∀ p t, after = p :: t → p.char = '#') : beforeComment (before ++ after) = before := by
  have hbefore : ∀ p ∈ before, (p.char != '#') = true := by simpa using clean
  have hafter : ∀ p t, after = p :: t → (p.char != '#') = false := by simpa using sign
  exact (takeWhile_append_of_stops (p := fun p : Placed => p.char != '#') hbefore hafter).1

/-- A line has one list of tokens, and `lineTokens` finds it. -/
theorem tokensOf_iff {line : List Placed} {ts : List Token} :
    TokensOf line ts ↔ ts = lineTokens line := by
  constructor
  · intro h
    obtain ⟨clean, sign, maximal, covers⟩ := h
    have hts := (forall₂_covers fun run hr => (maximal.within hr).2).1 covers
    rw [hts, maximalRuns_iff.1 maximal, lineTokens_eq, beforeComment_append clean sign]
  · intro hts
    obtain ⟨before, after, rfl, hbefore, hafter⟩ :=
      exists_cut (fun p : Placed => p.char != '#') line
    have clean : ∀ p ∈ before, p.char ≠ '#' := by simpa using hbefore
    have sign : ∀ p t, after = p :: t → p.char = '#' := by simpa using hafter
    have maximal := maximalRuns_runs (p := fun p : Placed => !isWhiteSpace p.char) before
    rw [lineTokens_eq, beforeComment_append clean sign] at hts
    exact .mk clean sign maximal ((forall₂_covers fun run hr => (maximal.within hr).2).2 hts)

/-- A text splits in one way, and `layout` finds it. -/
theorem plainSplit_iff {text : List Char} {ls : List (List Token)} :
    PlainSplit (place text) ls ↔ ls = layout text := by
  have hrel : TokensOf = fun line ts => lineTokens line = ts := by
    funext line ts
    exact propext (tokensOf_iff.trans eq_comm)
  have h : ∀ cut, List.Forall₂ TokensOf cut ls ↔ ls = cut.map lineTokens := by
    intro cut
    rw [hrel, ← List.forall₂_map_left_iff (f := lineTokens) (R := Eq), List.forall₂_eq_eq_eq,
      eq_comm]
  constructor
  · intro h
    obtain ⟨cut, hcut, hf⟩ := h
    rw [(h cut).1 hf, lineCut_iff.1 hcut, layout]
  · intro heq
    subst heq
    exact ⟨_, lineCut_lines _, (h _).2 rfl⟩

/-- A token stands in the text at the byte offset that it names. -/
theorem start_of_mem_layout {text : List Char} {ts : List Token} {t : Token}
    (hts : ts ∈ layout text) (ht : t ∈ ts) :
    ∃ before after, text = before ++ t.text.toList ++ after ∧
      t.start = (String.ofList before).utf8ByteSize := by
  obtain ⟨line, hline, rfl⟩ := List.mem_map.1 hts
  rw [lineTokens_eq] at ht
  obtain ⟨run, hrun, htok⟩ := List.mem_filterMap.1 ht
  obtain ⟨a, b, hline⟩ := (lineCut_lines (place text)).within hline
  obtain ⟨⟨c, d, hbefore⟩, hne⟩ := (maximalRuns_runs (beforeComment line)).within hrun
  obtain ⟨p, run, rfl⟩ := List.exists_cons_of_ne_nil hne
  cases htok
  have hcut := List.takeWhile_append_dropWhile (p := fun p : Placed => p.char != '#') (l := line)
  have hplace : place text =
      (a ++ c) ++ p :: (run ++ d ++ line.dropWhile (·.char != '#') ++ b) := by
    have hb : line = c ++ p :: run ++ d ++ line.dropWhile (·.char != '#') := by
      rw [hbefore]
      exact hcut.symm
    rw [← hline]
    generalize line.dropWhile (·.char != '#') = comment at hb
    rw [hb]
    simp
  obtain ⟨htext, hoffset⟩ := offset_of_place hplace
  refine ⟨chars (a ++ c), chars (d ++ line.dropWhile (·.char != '#') ++ b), ?_, hoffset⟩
  rw [htext]
  simp [Token.ofRun, chars]

/-- The numbered lines are the lines that hold a token, with their places in the text. -/
theorem mem_numbered {ls : List (List Token)} {l : NumberedLine} :
    l ∈ numbered ls ↔ 0 < l.number ∧
      ∃ ts, ls[l.number - 1]? = some ts ∧ ts ≠ [] ∧ l.tokens = ts.map Token.text := by
  obtain ⟨n, tokens⟩ := l
  simp only [numbered, List.mem_filterMap, Prod.exists, List.mem_zipIdx_iff_le_and_getElem?_sub]
  constructor
  · intro h
    obtain ⟨ts, m, ⟨hm, hts⟩, hl⟩ := h
    split at hl
    · cases hl
    · next hne =>
      cases hl
      exact ⟨hm, ts, hts, by simpa using hne, rfl⟩
  · intro h
    obtain ⟨hn, ts, hts, hne, rfl⟩ := h
    exact ⟨ts, n, ⟨hn, hts⟩, by simp [hne]⟩

theorem numbered_pairwise (ls : List (List Token)) :
    (numbered ls).Pairwise (·.number < ·.number) := by
  have h : (ls.zipIdx 1).Pairwise (·.2 < ·.2) := by
    rw [← List.pairwise_map, List.zipIdx_map_snd]
    exact List.pairwise_lt_range'
  refine h.filterMap _ ?_
  rintro ⟨ts, m⟩ ⟨ts', n⟩ hlt l hl l' hl'
  dsimp only at hl hl' hlt
  split at hl <;> cases hl
  split at hl' <;> cases hl'
  exact hlt

end TapeMachine.Description
