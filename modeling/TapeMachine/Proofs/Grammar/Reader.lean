import TapeMachine.Proofs.Grammar.Rules

/-! The reader of descriptions follows the grammar: each of its loops reads what the repetition it
stands for reads, and gives the tokens of the pairs. -/
namespace TapeMachine.Grammar
open Text Description

lemma lineTokensOf_description {xs : List Pair} (h : ∀ p ∈ xs, p.rule = .line)
    (span : List Placed) :
    lineTokensOf [⟨.description, span, xs ++ [⟨.eoi, [], []⟩]⟩] = xs.map Pair.tokens := by
  have hx : xs.filter (fun p => p.rule = .line) = xs := List.filter_eq_self.2 (by simpa using h)
  have he : [(⟨.eoi, [], []⟩ : Pair)].filter (fun p => p.rule = .line) = [] := rfl
  simp only [lineTokensOf, List.flatMap_cons, List.flatMap_nil, List.append_nil, Pair.inner,
    List.filter_append, hx, he]

variable (text : List Placed) {s : List Placed} {k : Peg}

lemma reads_token_of_some {t : Token} {rest : List Placed} (h : token? s = some (t, rest)) :
    ∃ p, Reads text k tokenRule s (some ([p], rest)) ∧ p.token = t := by
  cases s with
  | nil => cases h
  | cons c s =>
    cases hc : isTokenChar c.char with
    | true =>
      rw [token?_cons_of_pos hc] at h
      cases h
      exact ⟨_, reads_token_of_pos text hc s, rfl⟩
    | false =>
      have hn : token? (c :: s) = none := token?_eq_none_iff.2 (by rintro d t ⟨⟩; exact hc)
      rw [hn] at h
      cases h

lemma reads_token_of_none (h : token? s = none) : Reads text k tokenRule s none :=
  reads_token_of_neg text (token?_eq_none_iff.1 h)

/-- The loop over the tokens of a line reads the repetition of `token`. -/
theorem reads_more_token (done : List Token) (s : List Placed) :
    ∃ xs, Reads text skipRule (.more tokenRule) s (some (xs, (moreTokens done s).2)) ∧
      (moreTokens done s).1 = done.reverse ++ xs.map Pair.token := by
  fun_induction moreTokens done s with
  | case1 done s h =>
    exact ⟨[], .more_stop (reads_skip text s) (reads_token_of_none text h), by simp⟩
  | case2 done s t rest h ih =>
    obtain ⟨xs, hr, hx⟩ := ih
    obtain ⟨p, hp, ht⟩ := reads_token_of_some text h
    refine ⟨p :: xs, .more_go (reads_skip text s) hp hr, ?_⟩
    rw [hx, ← ht]
    simp

theorem reads_line (s : List Placed) :
    ∃ p, Reads text skipRule lineRule s (some ([p], (line s).2)) ∧ p.rule = .line ∧
      p.tokens = (line s).1 := by
  unfold line
  split
  · next h => exact ⟨_, .rule (.star_stop (reads_token_of_none text h)), rfl, rfl⟩
  · next t rest h =>
    obtain ⟨p, hp, ht⟩ := reads_token_of_some text h
    obtain ⟨xs, hr, hx⟩ := reads_more_token text [t] rest
    refine ⟨_, .rule (.star_go hp hr), rfl, ?_⟩
    rw [hx]
    simp [Pair.tokens, Pair.inner, ht]

/-- The loop over the lines reads the repetition of `NEWLINE ~ line`, and nothing but what is
skipped is left. -/
theorem reads_more_line {done ls : List (List Token)} {s : List Placed}
    (h : moreLines done s = .ok ls) :
    ∃ xs rest, Reads text skipRule (.more (.seq newline lineRule)) s (some (xs, rest)) ∧
      skip rest = [] ∧ (∀ p ∈ xs, p.rule = .line) ∧ ls = done.reverse ++ xs.map Pair.tokens := by
  fun_induction moreLines done s with
  | case1 done s hn he =>
    cases h
    have hno : Reads text skipRule newline (skip s) none := by
      simpa [hn] using reads_newline text (skip s)
    exact ⟨[], s, .more_stop (reads_skip text s) (.seq_fail hno), by simpa using he, by simp,
      by simp⟩
  | case2 => cases h
  | case3 done s rest hn ih =>
    obtain ⟨xs, left, hr, hl, hx, hls⟩ := ih h
    obtain ⟨p, hp, hrule, ht⟩ := reads_line text (skip rest)
    have he : Reads text skipRule newline (skip s) (some ([], rest)) := by
      simpa [hn] using reads_newline text (skip s)
    refine ⟨p :: xs, left, .more_go (reads_skip text s) (.seq he (reads_skip text rest) hp) hr,
      hl, ?_, ?_⟩
    · simpa [hrule] using hx
    · rw [hls, ← ht]
      simp

/-- Where a skip has been read already, the first of the repetitions follows without one. -/
lemma reads_star_of_more {a : Peg} {xs : List Pair} {rest : List Placed}
    (h : Reads text skipRule (.more a) s (some (xs, rest))) :
    ∃ rest', Reads text skipRule (.star a) (skip s) (some (xs, rest')) ∧
      skip rest' = skip rest := by
  generalize hout : some (xs, rest) = out at h
  cases h with
  | more_stop hskip next =>
    cases hout
    cases (reads_skip text s).unique hskip
    exact ⟨skip s, .star_stop next, skip_skip s⟩
  | more_go hskip next others =>
    cases (reads_skip text s).unique hskip
    have hg := Reads.star_go next others
    rw [List.nil_append] at hout
    rw [← hout] at hg
    exact ⟨rest, hg, rfl⟩

/-- If the reader accepts a text, `description` reads the whole of it, and its lines have the
tokens that the reader gives. -/
theorem reads_description {ls : List (List Token)}
    (h : moreLines [(line (skip text)).1] (line (skip text)).2 = .ok ls) :
    ∃ pairs, Reads text skipRule descriptionRule text (some (pairs, [])) ∧
      lineTokensOf pairs = ls := by
  obtain ⟨p, hp, hrule, ht⟩ := reads_line text (skip text)
  obtain ⟨xs, rest, hm, hrest, hx, hls⟩ := reads_more_line text h
  obtain ⟨rest', hs, hrest'⟩ := reads_star_of_more text hm
  rw [hrest] at hrest'
  have hsoi : Reads text skipRule .soi text (some ([], text)) := by
    have h : Reads text skipRule .soi text _ := .soi
    rwa [if_pos rfl] at h
  have heoi : Reads text skipRule (.rule .eoi .eoi) [] (some ([⟨.eoi, [], []⟩], [])) :=
    .rule (Reads.eoi (s := []))
  have hfirst := Reads.seq hsoi (reads_skip text text) hp
  have hlines := Reads.seq hfirst (reads_skip text _) hs
  have hskip := reads_skip text rest'
  rw [hrest'] at hskip
  refine ⟨_, .rule (.seq hlines hskip heoi), ?_⟩
  have hall : ∀ q ∈ p :: xs, q.rule = .line := by simpa [hrule] using hx
  have htokens := lineTokensOf_description hall (consumed text [])
  rw [hls, ← ht]
  simpa using htokens

end TapeMachine.Grammar
