import TapeMachine.Proofs.Text.Runs

/-! White space around a text. Trimming cuts it off and nothing else, and it is no part of any
word. -/
namespace TapeMachine.Text

/-- A string without white space. -/
def Solid (s : String) : Prop := ∀ c ∈ s.toList, isWhiteSpace c = false

/-- A string that can be a symbol or the name of a state: not empty, and without white space. -/
def IsWord (s : String) : Prop := s ≠ "" ∧ Solid s

/-- A string of white space alone, perhaps an empty one. -/
def IsGap (s : String) : Prop := ∀ c ∈ s.toList, isWhiteSpace c = true

instance (s : String) : Decidable (Solid s) :=
  decidable_of_iff (s.toList.all (!isWhiteSpace ·) = true) (by simp [Solid])

instance (s : String) : Decidable (IsWord s) := inferInstanceAs (Decidable (_ ∧ _))

instance (s : String) : Decidable (IsGap s) :=
  decidable_of_iff (s.toList.all isWhiteSpace = true) (by simp [IsGap])

section Strings
variable {s t : String}

lemma Solid.append (hs : Solid s) (ht : Solid t) : Solid (s ++ t) := by
  intro c hc
  rw [String.toList_append] at hc
  exact (List.mem_append.1 hc).elim (hs c) (ht c)

lemma solid_join {ss : List String} (h : ∀ s ∈ ss, Solid s) : Solid (String.join ss) := by
  intro c hc
  rw [String.toList_join] at hc
  obtain ⟨s, hs, hc⟩ := List.mem_flatMap.1 hc
  exact h s hs c hc

lemma IsWord.toList_ne_nil (h : IsWord s) : s.toList ≠ [] := by
  simpa using h.1

end Strings

section Lists
variable {before word after cs : List Char}

/-- Behind the last character that is not white space, the end is cut off. -/
lemma trimEnd_append {c : Char} (front : List Char) (hc : isWhiteSpace c = false)
    (trail : ∀ d ∈ after, isWhiteSpace d = true) :
    trimEnd (front ++ c :: after) = front ++ [c] := by
  have hreverse : (front ++ c :: after).reverse = after.reverse ++ c :: front.reverse := by simp
  have hdrop : (after.reverse ++ c :: front.reverse).dropWhile isWhiteSpace =
      c :: front.reverse := by
    rw [List.dropWhile_append_of_pos (by simpa using trail),
      List.dropWhile_cons_of_neg (by simp [hc])]
  rw [trimEnd, hreverse, hdrop]
  simp

lemma trim_of_gap (h : ∀ c ∈ cs, isWhiteSpace c = true) : trim cs = [] := by
  have hdrop : cs.dropWhile isWhiteSpace = [] := List.dropWhile_eq_nil_iff.2 h
  rw [trim, trimStart, hdrop]
  rfl

lemma trim_of_solid (lead : ∀ c ∈ before, isWhiteSpace c = true)
    (solid : ∀ c ∈ word, isWhiteSpace c = false) (trail : ∀ c ∈ after, isWhiteSpace c = true) :
    trim (before ++ word ++ after) = word := by
  rcases List.eq_nil_or_concat word with rfl | ⟨front, c, rfl⟩
  · refine trim_of_gap fun c hc => ?_
    rw [List.append_nil] at hc
    exact (List.mem_append.1 hc).elim (lead c) (trail c)
  · have hstart : trimStart (before ++ (front.concat c ++ after)) = front.concat c ++ after := by
      refine (takeWhile_append_of_stops lead fun d t hd => solid d ?_).2
      cases front <;> cases hd <;> simp
    rw [trim, List.append_assoc, hstart, List.concat_eq_append, List.append_assoc]
    exact trimEnd_append front (solid c (by simp)) trail

/-- Only white space is cut off. -/
theorem exists_trim (cs : List Char) : ∃ before after, cs = before ++ trim cs ++ after ∧
    (∀ c ∈ before, isWhiteSpace c = true) ∧ ∀ c ∈ after, isWhiteSpace c = true := by
  refine ⟨cs.takeWhile isWhiteSpace, ((trimStart cs).reverse.takeWhile isWhiteSpace).reverse, ?_,
    fun c hc => List.mem_takeWhile_imp hc, fun c hc => ?_⟩
  · have hend : trim cs ++ ((trimStart cs).reverse.takeWhile isWhiteSpace).reverse =
        trimStart cs := by
      rw [trim, trimEnd, ← List.reverse_append, List.takeWhile_append_dropWhile,
        List.reverse_reverse]
    rw [List.append_assoc, hend]
    exact List.takeWhile_append_dropWhile.symm
  · exact List.mem_takeWhile_imp (List.mem_reverse.1 hc)

/-- What fails the test behind a list belongs to no run. -/
lemma MaximalRuns.append_gap {α : Type} {p : α → Bool} {xs gap : List α} {rs : List (List α)}
    (h : MaximalRuns p xs rs) (fails : ∀ x ∈ gap, p x = false) : MaximalRuns p (xs ++ gap) rs := by
  induction h with
  | gap lead => exact .gap fun x hx => (List.mem_append.1 hx).elim (lead x) (fails x)
  | @run lead run rest rs hlead nonempty holds stops _ ih =>
    rw [List.append_assoc]
    refine .run hlead nonempty holds (fun x t hx => ?_) ih
    cases rest with
    | nil =>
      refine fails x ?_
      rw [List.nil_append] at hx
      rw [hx]
      exact List.mem_cons_self
    | cons y rest =>
      cases hx
      exact stops x rest rfl

lemma words_append_gap (cs : List Char) (trail : ∀ c ∈ after, isWhiteSpace c = true) :
    words (cs ++ after) = words cs :=
  (maximalRuns_iff.1 ((maximalRuns_runs cs).append_gap (by simpa using trail))).symm

lemma words_gap_append (cs : List Char) (lead : ∀ c ∈ before, isWhiteSpace c = true) :
    words (before ++ cs) = words cs :=
  runs_gap_append (by simpa using lead) cs

/-- White space around a text does not change its words. -/
theorem words_trim (cs : List Char) : words (trim cs) = words cs := by
  obtain ⟨before, after, hcs, lead, trail⟩ := exists_trim cs
  calc words (trim cs)
    _ = words (before ++ trim cs) := (words_gap_append _ lead).symm
    _ = words (before ++ trim cs ++ after) := (words_append_gap _ trail).symm
    _ = words cs := by rw [← hcs]

/-- A text without white space has at most one word. -/
lemma words_of_solid (solid : ∀ c ∈ word, isWhiteSpace c = false) :
    words word = if word = [] then [] else [word] := by
  split
  · next h =>
    rw [h, words_nil]
  · next h =>
    have hword : runs (!isWhiteSpace ·) (word ++ []) = word :: runs (!isWhiteSpace ·) [] :=
      runs_run_append h (by simpa using solid) (by simp)
    rwa [List.append_nil] at hword

end Lists
end TapeMachine.Text
