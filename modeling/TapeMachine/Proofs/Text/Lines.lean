import TapeMachine.Proofs.Text.Runs
import TapeMachine.Text.Lines

/-! The lines of a text, said without the loop that finds them, and the byte offsets of its
characters. -/
namespace TapeMachine.Text

/-- A line end: a line feed, the two together, or a carriage return that no line feed follows. -/
def LineEnd (e rest : List Placed) : Prop :=
  chars e = ['\n'] ∨ chars e = ['\r', '\n'] ∨
    chars e = ['\r'] ∧ ∀ p t, rest = p :: t → p.char ≠ '\n'

/-- `ls` are the lines of a text: it is cut at its line ends and nowhere else. -/
inductive LineCut : List Placed → List (List Placed) → Prop where
  | last {line : List Placed} (inner : ∀ p ∈ line, isLineEnd p.char = false) :
      LineCut line [line]
  | cut {line e rest : List Placed} {ls : List (List Placed)}
      (inner : ∀ p ∈ line, isLineEnd p.char = false) (lineEnd : LineEnd e rest)
      (others : LineCut rest ls) : LineCut (line ++ e ++ rest) (line :: ls)

lemma LineEnd.stop {e rest : List Placed} (h : LineEnd e rest) (d : Placed) (t : List Placed)
    (hd : e ++ rest = d :: t) : isLineEnd d.char = true := by
  have hc : chars e ++ chars rest = d.char :: chars t :=
    List.map_append.symm.trans (congrArg chars hd)
  rcases h with h | h | ⟨h, -⟩ <;> rw [h] at hc <;> rw [← (List.cons.inj hc).1] <;> rfl

lemma linesFrom_append_done (ps line : List Placed) (done more : List (List Placed)) :
    linesFrom ps line (done ++ more) = more.reverse ++ linesFrom ps line done := by
  fun_induction linesFrom ps line done with
  | case1 line done => simp [linesFrom]
  | case2 o o' rest line done ih => exact ih
  | case3 p rest line done hne h ih => rw [linesFrom.eq_3 _ _ _ _ hne, if_pos h]; exact ih
  | case4 p rest line done hne h ih => rw [linesFrom.eq_3 _ _ _ _ hne, if_neg h]; exact ih

lemma linesFrom_nil_cons (ps l : List Placed) : linesFrom ps [] [l] = l :: lines ps :=
  linesFrom_append_done ps [] [] [l]

lemma linesFrom_append {line : List Placed} (inner : ∀ p ∈ line, isLineEnd p.char = false)
    (rest acc : List Placed) :
    linesFrom (line ++ rest) acc [] = linesFrom rest (line.reverse ++ acc) [] := by
  induction line generalizing acc with
  | nil => rfl
  | cons p line ih =>
    have hp : ¬ isLineEnd p.char = true := by simp [inner p List.mem_cons_self]
    have hne : ∀ o o' t, p = ⟨o, '\r'⟩ → line ++ rest = ⟨o', '\n'⟩ :: t → False := by
      rintro o o' t rfl -
      exact hp rfl
    rw [List.cons_append, linesFrom.eq_3 _ _ _ _ hne, if_neg hp,
      ih fun q hq => inner q (List.mem_cons_of_mem p hq)]
    simp

lemma lines_of_inner {line : List Placed} (inner : ∀ p ∈ line, isLineEnd p.char = false) :
    lines line = [line] := by
  have h := linesFrom_append inner [] []
  rw [List.append_nil, List.append_nil] at h
  rw [lines, h, linesFrom]
  simp

lemma linesFrom_lineEnd {e rest : List Placed} (h : LineEnd e rest) (line : List Placed) :
    linesFrom (e ++ rest) line [] = line.reverse :: lines rest := by
  rcases h with h | h | ⟨h, hn⟩
  · obtain ⟨⟨o, c⟩, rfl, rfl⟩ := List.map_eq_singleton_iff.1 h
    exact linesFrom_nil_cons rest line.reverse
  · obtain ⟨⟨o, c⟩, e, rfl, rfl, he⟩ := List.map_eq_cons_iff.1 h
    obtain ⟨⟨o', d⟩, rfl, rfl⟩ := List.map_eq_singleton_iff.1 he
    exact linesFrom_nil_cons rest line.reverse
  · obtain ⟨⟨o, c⟩, rfl, rfl⟩ := List.map_eq_singleton_iff.1 h
    have hne : ∀ a b t, (⟨o, '\r'⟩ : Placed) = ⟨a, '\r'⟩ → rest = ⟨b, '\n'⟩ :: t → False :=
      fun _ _ t _ hr => hn _ t hr rfl
    have hend : isLineEnd (⟨o, '\r'⟩ : Placed).char = true := rfl
    rw [List.singleton_append, linesFrom.eq_3 _ _ _ _ hne, if_pos hend]
    exact linesFrom_nil_cons rest line.reverse

lemma lines_append {line e rest : List Placed} (inner : ∀ p ∈ line, isLineEnd p.char = false)
    (h : LineEnd e rest) : lines (line ++ e ++ rest) = line :: lines rest := by
  rw [lines, List.append_assoc, linesFrom_append inner, linesFrom_lineEnd h, List.append_nil,
    List.reverse_reverse]

/-- A line end stands wherever one of the two characters does. -/
lemma exists_lineEnd {c : Placed} (h : isLineEnd c.char = true) (s : List Placed) :
    ∃ e rest, c :: s = e ++ rest ∧ LineEnd e rest ∧ rest.length ≤ s.length := by
  obtain ⟨o, c⟩ := c
  by_cases hn : c = '\n'
  · subst hn
    exact ⟨[_], s, rfl, .inl rfl, Nat.le_refl _⟩
  have hr : c = '\r' := by simpa [isLineEnd, hn] using h
  subst hr
  rcases s with _ | ⟨⟨o', d⟩, s⟩
  · exact ⟨[_], [], rfl, .inr (.inr ⟨rfl, by simp⟩), Nat.le_refl _⟩
  by_cases hd : d = '\n'
  · subst hd
    exact ⟨[_, _], s, rfl, .inr (.inl rfl), Nat.le_succ _⟩
  · refine ⟨[_], ⟨o', d⟩ :: s, rfl, .inr (.inr ⟨rfl, ?_⟩), Nat.le_refl _⟩
    rintro p t ⟨⟩
    exact hd

lemma isWhiteSpace_of_isLineEnd {c : Char} (h : isLineEnd c = true) : isWhiteSpace c = true := by
  have hc : c = '\n' ∨ c = '\r' := by simpa [isLineEnd] using h
  rcases hc with rfl | rfl <;> rfl

/-- The lines that the loop finds are the ones that line ends cut out. -/
theorem lineCut_lines (ps : List Placed) : LineCut ps (lines ps) := by
  induction h : ps.length using Nat.strongRecOn generalizing ps with
  | ind n ih =>
    obtain ⟨line, rest, rfl, hline, hrest⟩ := exists_cut (!isLineEnd ·.char) ps
    have inner : ∀ p ∈ line, isLineEnd p.char = false := by simpa using hline
    cases rest with
    | nil =>
      rw [List.append_nil, lines_of_inner inner]
      exact .last inner
    | cons c s =>
      have hc : isLineEnd c.char = true := by simpa using hrest c s rfl
      obtain ⟨e, rest, hs, lineEnd, hlen⟩ := exists_lineEnd hc s
      rw [List.length_append, List.length_cons] at h
      rw [hs, ← List.append_assoc, lines_append inner lineEnd]
      exact .cut inner lineEnd (ih rest.length (by omega) rest rfl)

/-- A text is cut into lines in one way, and `lines` finds it. -/
theorem lineCut_iff {ps : List Placed} {ls : List (List Placed)} :
    LineCut ps ls ↔ ls = lines ps := by
  constructor
  · intro h
    induction h with
    | last inner => exact (lines_of_inner inner).symm
    | cut inner lineEnd _ ih => rw [lines_append inner lineEnd, ih]
  · intro heq
    subst heq
    exact lineCut_lines ps

/-- A line is a stretch of the text. -/
theorem LineCut.within {ps line : List Placed} {ls : List (List Placed)} (h : LineCut ps ls)
    (hm : line ∈ ls) : line <:+: ps := by
  induction h with
  | last =>
    cases List.mem_singleton.1 hm
    exact ⟨[], [], by simp⟩
  | @cut first e rest ls _ _ _ ih =>
    rcases List.mem_cons.1 hm with rfl | hm
    · exact ⟨[], e ++ rest, by simp⟩
    · exact (ih hm).trans (List.suffix_append _ _).isInfix

lemma utf8ByteSize_ofList_cons (c : Char) (cs : List Char) :
    (String.ofList (c :: cs)).utf8ByteSize = c.utf8Size + (String.ofList cs).utf8ByteSize := by
  have h : c :: cs = [c] ++ cs := rfl
  rw [h, String.ofList_append, String.utf8ByteSize_append, ← String.singleton_eq_ofList,
    String.utf8ByteSize_singleton]

lemma placeFrom_append_done (o : Nat) (cs : List Char) (done more : List Placed) :
    placeFrom o cs (done ++ more) = more.reverse ++ placeFrom o cs done := by
  induction cs generalizing o done with
  | nil => simp [placeFrom]
  | cons c cs ih => exact ih (o + c.utf8Size) (⟨o, c⟩ :: done)

lemma offset_of_placeFrom {o : Nat} {cs : List Char} {before after : List Placed} {p : Placed}
    (h : placeFrom o cs [] = before ++ p :: after) :
    p.offset = o + (String.ofList (chars before)).utf8ByteSize := by
  induction cs generalizing o before with
  | nil => simp [placeFrom] at h
  | cons c cs ih =>
    have hc : placeFrom o (c :: cs) [] = ⟨o, c⟩ :: placeFrom (o + c.utf8Size) cs [] :=
      placeFrom_append_done _ cs [] [⟨o, c⟩]
    rw [hc] at h
    cases before with
    | nil =>
      cases (List.cons.inj h).1
      rfl
    | cons q before =>
      obtain ⟨rfl, ht⟩ := List.cons.inj h
      rw [ih ht, chars_cons, utf8ByteSize_ofList_cons, Nat.add_assoc]

/-- In a placed text, the offset of a character counts the bytes in front of it. -/
theorem offset_of_place {text : List Char} {before after : List Placed} {p : Placed}
    (h : place text = before ++ p :: after) :
    text = chars before ++ chars (p :: after) ∧
      p.offset = (String.ofList (chars before)).utf8ByteSize := by
  have hc := congrArg chars h
  rw [chars_place] at hc
  have ho := offset_of_placeFrom h
  refine ⟨?_, by omega⟩
  rw [hc]
  exact List.map_append

end TapeMachine.Text
