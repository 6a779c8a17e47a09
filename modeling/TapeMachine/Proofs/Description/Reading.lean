import TapeMachine.Description.Layout
import TapeMachine.Proofs.Text.Lines
import TapeMachine.Proofs.Text.Runs

/-! The reader of descriptions takes a text token by token and line by line. It finds the lines of
the text and, in each line, the words before the first comment sign. -/
namespace TapeMachine.Description
open Text

variable {s rest : List Placed} {c : Placed}

lemma lineEnd?_cons_isSome (c : Placed) (s : List Placed) :
    (lineEnd? (c :: s)).isSome = isLineEnd c.char := by
  obtain ⟨o, c⟩ := c
  unfold lineEnd?
  split <;> simp_all [isLineEnd]

lemma lineEnd?_eq_none (h : isLineEnd c.char = false) (s : List Placed) :
    lineEnd? (c :: s) = none := by
  have hs := lineEnd?_cons_isSome c s
  rwa [h, Option.isSome_eq_false_iff, Option.isNone_iff_eq_none] at hs

lemma exists_lineEnd?_eq (h : isLineEnd c.char = true) (s : List Placed) :
    ∃ rest, lineEnd? (c :: s) = some rest :=
  Option.isSome_iff_exists.1 ((lineEnd?_cons_isSome c s).trans h)

lemma lineEnd?_append {e : List Placed} (h : LineEnd e rest) :
    lineEnd? (e ++ rest) = some rest := by
  rcases h with h | h | ⟨h, hn⟩
  · obtain ⟨⟨o, c⟩, rfl, rfl⟩ := List.map_eq_singleton_iff.1 h
    rfl
  · obtain ⟨⟨o, c⟩, e, rfl, rfl, he⟩ := List.map_eq_cons_iff.1 h
    obtain ⟨⟨o', d⟩, rfl, rfl⟩ := List.map_eq_singleton_iff.1 he
    rfl
  · obtain ⟨⟨o, c⟩, rfl, rfl⟩ := List.map_eq_singleton_iff.1 h
    cases rest with
    | nil => rfl
    | cons p t =>
      obtain ⟨o', d⟩ := p
      have hd : d ≠ '\n' := hn _ t rfl
      simp [lineEnd?, hd]

lemma isLineEnd_of_dropWhile (h : s.dropWhile (!isLineEnd ·.char) = c :: rest) :
    isLineEnd c.char = true := by
  simpa using neg_of_dropWhile h

lemma stop_of_lineEnd (h : isLineEnd c.char = true) :
    isSeparator c.char = false ∧ c.char ≠ '#' := by
  refine ⟨by simp [isSeparator, h], ?_⟩
  intro hc
  rw [hc] at h
  contradiction

lemma stop_of_skip (h : skip s = c :: rest) : isSeparator c.char = false ∧ c.char ≠ '#' := by
  unfold skip at h
  split at h
  · cases h
  · next d t hd =>
    split at h
    · have hl := isLineEnd_of_dropWhile h
      exact stop_of_lineEnd hl
    · next hne =>
      cases h
      exact ⟨neg_of_dropWhile (p := fun q : Placed => isSeparator q.char) hd, hne⟩

lemma skip_of_stop
    (h : ∀ c rest, s = c :: rest → isSeparator c.char = false ∧ c.char ≠ '#') : skip s = s := by
  cases s with
  | nil => rfl
  | cons c rest =>
    obtain ⟨hs, hc⟩ := h c rest rfl
    simp [skip, hs, hc]

/-- Skipping twice skips no more. -/
@[simp] lemma skip_skip (s : List Placed) : skip (skip s) = skip s :=
  skip_of_stop fun _ _ h => stop_of_skip h

lemma skip_separator (h : isSeparator c.char = true) (s : List Placed) :
    skip (c :: s) = skip s := by
  simp [skip, h]

/-- A skip goes to the end of a comment's line and no further. -/
lemma skip_comment {line : List Placed} (hc : c.char = '#')
    (inner : ∀ p ∈ line, isLineEnd p.char = false)
    (stop : ∀ d t, rest = d :: t → isLineEnd d.char = true) : skip (c :: line ++ rest) = rest := by
  have hs : ¬ isSeparator c.char = true := by rw [hc]; decide
  have hl : (line ++ rest).dropWhile (!isLineEnd ·.char) = rest := by
    rw [List.dropWhile_append_of_pos fun p hp => by simp [inner p hp]]
    cases rest with
    | nil => rfl
    | cons d t => exact List.dropWhile_cons_of_neg (by simp [stop d t rfl])
  rw [List.cons_append, skip,
    List.dropWhile_cons_of_neg (p := fun q : Placed => isSeparator q.char) hs]
  exact (if_pos hc).trans hl

lemma token?_cons_of_pos (hc : isTokenChar c.char = true) (s : List Placed) :
    token? (c :: s) = some (.ofRun c (s.takeWhile (isTokenChar ·.char)),
      s.dropWhile (isTokenChar ·.char)) := by
  simp [token?, hc]

lemma token?_eq_none_iff :
    token? s = none ↔ ∀ c rest, s = c :: rest → isTokenChar c.char = false := by
  cases s with
  | nil => simp [token?]
  | cons c s =>
    cases hc : isTokenChar c.char with
    | true => simp [token?_cons_of_pos hc, hc]
    | false => simp [token?, hc]

/-- In front of a token there is nothing to skip. -/
lemma skip_of_token? {t : Token} (h : token? s = some (t, rest)) : skip s = s := by
  refine skip_of_stop fun c s' hs => ?_
  subst hs
  have hc : isTokenChar c.char = true := by
    by_contra hc
    have hnone : token? (c :: s') = none :=
      token?_eq_none_iff.2 (by rintro d t ⟨⟩; simpa using hc)
    rw [hnone] at h
    cases h
  have hclean : isWhiteSpace c.char = false ∧ c.char ≠ '#' := by simpa [isTokenChar] using hc
  exact ⟨by simp [isSeparator, hclean.1], hclean.2⟩

lemma not_isTokenChar_of_lineEnd (stop : ∀ d t, rest = d :: t → isLineEnd d.char = true)
    (d : Placed) (t : List Placed) (h : rest = d :: t) : isTokenChar d.char = false := by
  have hd : d.char = '\n' ∨ d.char = '\r' := by simpa [isLineEnd] using stop d t h
  rcases hd with hd | hd <;> rw [hd] <;> decide

lemma token?_lineEnd (stop : ∀ d t, rest = d :: t → isLineEnd d.char = true) :
    token? rest = none :=
  token?_eq_none_iff.2 (not_isTokenChar_of_lineEnd stop)

lemma lineTokens_whiteSpace (hc : isWhiteSpace c.char = true) (line : List Placed) :
    lineTokens (c :: line) = lineTokens line := by
  have hs : c.char ≠ '#' := by
    intro h
    rw [h] at hc
    contradiction
  have hb : beforeComment (c :: line) = c :: beforeComment line :=
    List.takeWhile_cons_of_pos (by simpa using hs)
  rw [lineTokens, hb, runs_cons_of_neg (by simp [hc]), lineTokens]

lemma lineTokens_comment (hc : c.char = '#') (line : List Placed) :
    lineTokens (c :: line) = [] := by
  have hb : beforeComment (c :: line) = [] := List.takeWhile_cons_of_neg (by simp [hc])
  rw [lineTokens, hb]
  rfl

section Run
variable {run : List Placed} (holds : ∀ p ∈ c :: run, isTokenChar p.char = true)
  (stops : ∀ d t, rest = d :: t → isTokenChar d.char = false)
include holds stops

lemma token?_run : token? (c :: run ++ rest) = some (.ofRun c run, rest) := by
  have hrun : ∀ p ∈ run, isTokenChar p.char = true :=
    fun p hp => holds p (List.mem_cons_of_mem c hp)
  obtain ⟨htake, hdrop⟩ := takeWhile_append_of_stops hrun stops
  rw [List.cons_append, token?_cons_of_pos (holds c List.mem_cons_self), htake, hdrop]

/-- A line that starts with a token has that token and the tokens after it. -/
lemma lineTokens_run : lineTokens (c :: run ++ rest) = .ofRun c run :: lineTokens rest := by
  have hchar : ∀ p ∈ c :: run, isWhiteSpace p.char = false ∧ p.char ≠ '#' := by
    intro p hp
    have h := holds p hp
    simpa [isTokenChar] using h
  have hb : beforeComment (c :: run ++ rest) = c :: run ++ beforeComment rest :=
    List.takeWhile_append_of_pos fun p hp => by simp [(hchar p hp).2]
  have hwords : ∀ p ∈ c :: run, (!isWhiteSpace p.char) = true :=
    fun p hp => by simp [(hchar p hp).1]
  have hend : ∀ d t, beforeComment rest = d :: t → (!isWhiteSpace d.char) = false := by
    intro d t hd
    cases rest with
    | nil => cases hd
    | cons e rest =>
      have he := stops e rest rfl
      by_cases hs : e.char = '#'
      · rw [beforeComment, List.takeWhile_cons_of_neg (by simp [hs])] at hd
        cases hd
      · rw [beforeComment, List.takeWhile_cons_of_pos (by simpa using hs)] at hd
        cases (List.cons.inj hd).1
        simpa [isTokenChar, hs] using he
  rw [lineTokens, hb, runs_run_append (by simp) hwords hend]
  rfl

end Run

lemma moreTokens_none {done : List Token} (h : token? (skip s) = none) :
    moreTokens done s = (done.reverse, s) := by
  rw [moreTokens]
  split
  · rfl
  · next heq => simp [h] at heq

lemma moreTokens_some {done : List Token} {t : Token} (h : token? (skip s) = some (t, rest)) :
    moreTokens done s = moreTokens (t :: done) rest := by
  rw [moreTokens]
  split
  · next heq => simp [h] at heq
  · next heq =>
    rw [h] at heq
    cases heq
    rfl

lemma moreTokens_of_skip {s s' : List Placed} (h : skip s = skip s') (done : List Token) :
    (moreTokens done s).1 = (moreTokens done s').1 ∧
      skip (moreTokens done s).2 = skip (moreTokens done s').2 := by
  cases ht : token? (skip s) with
  | none =>
    rw [moreTokens_none ht, moreTokens_none (h ▸ ht)]
    exact ⟨rfl, h⟩
  | some x =>
    obtain ⟨t, rest⟩ := x
    have ht' : token? (skip s') = some (t, rest) := h ▸ ht
    rw [moreTokens_some ht, moreTokens_some ht']
    exact ⟨rfl, rfl⟩

lemma moreTokens_run {run : List Placed} (holds : ∀ p ∈ c :: run, isTokenChar p.char = true)
    (stops : ∀ d t, rest = d :: t → isTokenChar d.char = false) (done : List Token) :
    moreTokens done (c :: run ++ rest) = moreTokens (.ofRun c run :: done) rest := by
  have ht := token?_run holds stops
  apply moreTokens_some
  rw [skip_of_token? ht, ht]

/-- At the end of a line there is no token, nor is there one in a comment. -/
lemma moreTokens_end (hs : skip s = rest)
    (stop : ∀ d t, rest = d :: t → isLineEnd d.char = true) (done : List Token) :
    (moreTokens done s).1 = done.reverse ∧ skip (moreTokens done s).2 = rest := by
  have ht : token? (skip s) = none := by
    rw [hs]
    exact token?_lineEnd stop
  rw [moreTokens_none ht]
  exact ⟨rfl, hs⟩

/-- The loop over tokens takes those of one line and stops at the end of the line. -/
theorem moreTokens_line {line : List Placed} (inner : ∀ p ∈ line, isLineEnd p.char = false)
    (stop : ∀ d t, rest = d :: t → isLineEnd d.char = true) (done : List Token) :
    (moreTokens done (line ++ rest)).1 = done.reverse ++ lineTokens line ∧
      skip (moreTokens done (line ++ rest)).2 = rest := by
  induction hn : line.length using Nat.strongRecOn generalizing line done with
  | ind n ih =>
    cases line with
    | nil =>
      have hs : skip ([] ++ rest) = rest :=
        skip_of_stop fun d t h => stop_of_lineEnd (stop d t h)
      have hnil : lineTokens [] = [] := rfl
      rw [hnil, List.append_nil]
      exact moreTokens_end hs stop done
    | cons c line =>
      have inner' : ∀ p ∈ line, isLineEnd p.char = false :=
        fun p hp => inner p (List.mem_cons_of_mem c hp)
      rw [List.length_cons] at hn
      by_cases hw : isWhiteSpace c.char = true
      · have hsep : isSeparator c.char = true := by
          simp [isSeparator, hw, inner c List.mem_cons_self]
        obtain ⟨h₁, h₂⟩ := moreTokens_of_skip (skip_separator hsep (line ++ rest)) done
        obtain ⟨h₃, h₄⟩ := ih line.length (by omega) inner' done rfl
        rw [List.cons_append, h₁, h₂, h₃, h₄, lineTokens_whiteSpace hw]
        exact ⟨rfl, rfl⟩
      by_cases hc : c.char = '#'
      · rw [lineTokens_comment hc, List.append_nil]
        exact moreTokens_end (skip_comment hc inner' stop) stop done
      · have htok : isTokenChar c.char = true := by simp [isTokenChar, hw, hc]
        obtain ⟨run, others, rfl, hrun, stops⟩ := exists_cut (isTokenChar ·.char) line
        have holds : ∀ p ∈ c :: run, isTokenChar p.char = true := by simpa [htok] using hrun
        have stops' : ∀ d t, others ++ rest = d :: t → isTokenChar d.char = false := by
          intro d t h
          cases others with
          | nil => exact not_isTokenChar_of_lineEnd stop d t h
          | cons e others =>
            cases (List.cons.inj h).1
            exact stops _ _ rfl
        rw [List.length_append] at hn
        obtain ⟨h₁, h₂⟩ := ih others.length (by omega)
          (fun p hp => inner' p (List.mem_append_right run hp)) (.ofRun c run :: done) rfl
        rw [← List.cons_append, List.append_assoc, moreTokens_run holds stops', h₁, h₂,
          lineTokens_run holds stops]
        simp

lemma moreLines_nil {done : List (List Token)} (h : skip s = []) :
    moreLines done s = .ok done.reverse := by
  rw [moreLines]
  split
  · simp [h]
  · next heq => simp [h, lineEnd?] at heq

lemma moreLines_lineEnd {done : List (List Token)} (h : lineEnd? (skip s) = some rest) :
    moreLines done s = moreLines ((line (skip rest)).1 :: done) (line (skip rest)).2 := by
  rw [moreLines]
  split
  · next heq => simp [h] at heq
  · next heq =>
    rw [h] at heq
    cases heq
    rfl

/-- After a skip, a line is read as the loop over tokens reads it. -/
lemma line_skip (s : List Placed) :
    (line (skip s)).1 = (moreTokens [] s).1 ∧
      skip (line (skip s)).2 = skip (moreTokens [] s).2 := by
  cases ht : token? (skip s) with
  | none => simp [line, ht, moreTokens_none ht]
  | some x =>
    obtain ⟨t, rest⟩ := x
    simp [line, ht, moreTokens_some ht]

/-- The loop over lines takes the lines that line ends cut out, and their tokens. -/
theorem moreLines_lineCut {ps : List Placed} {ls : List (List Placed)} (h : LineCut ps ls)
    (done : List (List Token)) :
    moreLines ((line (skip ps)).1 :: done) (line (skip ps)).2 =
      .ok (done.reverse ++ ls.map lineTokens) := by
  induction h generalizing done with
  | @last l inner =>
    obtain ⟨h₁, h₂⟩ := line_skip l
    obtain ⟨h₃, h₄⟩ := @moreTokens_line [] l inner (by simp) []
    rw [List.append_nil] at h₃ h₄
    rw [moreLines_nil (h₂.trans h₄), h₁, h₃]
    simp
  | @cut l e rest ls inner lineEnd _ ih =>
    obtain ⟨h₁, h₂⟩ := line_skip (l ++ (e ++ rest))
    obtain ⟨h₃, h₄⟩ := moreTokens_line inner lineEnd.stop []
    have he : lineEnd? (skip (line (skip (l ++ (e ++ rest)))).2) = some rest := by
      rw [h₂, h₄, lineEnd?_append lineEnd]
    rw [List.append_assoc, moreLines_lineEnd he, ih, h₁, h₃]
    simp

/-- Every text can be read, and the reader finds its layout. -/
theorem tokenLines_eq (text : List Char) : tokenLines text = .ok (layout text) :=
  moreLines_lineCut (lineCut_lines (place text)) []

end TapeMachine.Description
