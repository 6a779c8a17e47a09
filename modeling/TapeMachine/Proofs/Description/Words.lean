import TapeMachine.Proofs.Description.Splitting

/-! The words of a description, said with its characters alone: of a line, the words in front of the
first comment sign, and of a text that is put together from lines, the words of each of them. -/
namespace TapeMachine.Description
open Text

/-- The words in front of the first comment sign of a line. -/
def lineWords (line : List Char) : List String :=
  (runs (!isWhiteSpace ·) (line.takeWhile (· != '#'))).map String.ofList

/-- The lines that hold a word, with their numbers, counted from 1. -/
def numberWords (ls : List (List String)) : List NumberedLine :=
  (ls.zipIdx 1).filterMap fun (words, n) => if words.isEmpty then none else some ⟨n, words⟩

/-- A string that can stand as a token: it is not empty, and nothing in it separates tokens or
starts a comment. -/
def IsToken (s : String) : Prop := s ≠ "" ∧ ∀ c ∈ s.toList, isWhiteSpace c = false ∧ c ≠ '#'

instance (s : String) : Decidable (IsToken s) :=
  decidable_of_iff (s ≠ "" ∧ s.toList.all (fun c => !isWhiteSpace c && c != '#') = true)
    (by simp [IsToken])

lemma runsFrom_map {α β : Type} (p : β → Bool) (f : α → β) (xs run : List α)
    (done : List (List α)) :
    runsFrom p (xs.map f) (run.map f) (done.map (List.map f)) =
      (runsFrom (p ∘ f) xs run done).map (List.map f) := by
  induction xs generalizing run done with
  | nil => cases run <;> simp [runsFrom]
  | cons x xs ih =>
    simp only [List.map_cons, runsFrom, Function.comp_apply, List.isEmpty_map]
    split
    · exact ih (x :: run) done
    · split
      · exact ih [] done
      · rw [← ih, List.map_cons, List.map_reverse]
        rfl

lemma runs_map {α β : Type} (p : β → Bool) (f : α → β) (xs : List α) :
    runs p (xs.map f) = (runs (p ∘ f) xs).map (List.map f) :=
  runsFrom_map p f xs [] []

/-- Where the tokens of a line start does not matter to their texts. -/
theorem text_lineTokens (line : List Placed) :
    (lineTokens line).map Token.text = lineWords (chars line) := by
  have hbefore : (chars line).takeWhile (· != '#') = chars (beforeComment line) :=
    List.takeWhile_map
  have hne : ∀ run ∈ runs (fun p : Placed => !isWhiteSpace p.char) (beforeComment line),
      run ≠ [] := fun run hr => ((maximalRuns_runs (beforeComment line)).within hr).2
  rw [lineTokens_eq, lineWords, hbefore, chars, runs_map, List.map_map]
  change _ = (runs (fun p : Placed => !isWhiteSpace p.char) (beforeComment line)).map _
  generalize runs (fun p : Placed => !isWhiteSpace p.char) (beforeComment line) = words at hne
  induction words with
  | nil => rfl
  | cons run words ih =>
    obtain ⟨p, run, rfl⟩ := List.exists_cons_of_ne_nil (hne run List.mem_cons_self)
    have hp : Token.ofRun? (p :: run) = some (.ofRun p run) := rfl
    rw [List.filterMap_cons_some hp, List.map_cons, List.map_cons,
      ih fun r hr => hne r (List.mem_cons_of_mem _ hr)]
    rfl

lemma numbered_eq (ls : List (List Token)) :
    numbered ls = numberWords (ls.map (List.map Token.text)) := by
  rw [numbered, numberWords, List.zipIdx_map, List.filterMap_map]
  simp

/-- An empty line at the end is not counted. -/
lemma numberWords_append_nil (ls : List (List String)) :
    numberWords (ls ++ [[]]) = numberWords ls := by
  simp [numberWords, List.zipIdx_append]

/-- The lines of a text in which each line ends with a line feed; the last line is empty. -/
lemma lines_flatten {ls : List (List Char)} (inner : ∀ l ∈ ls, ∀ c ∈ l, isLineEnd c = false)
    {ps : List Placed} (h : chars ps = (ls.map (· ++ ['\n'])).flatten) :
    (lines ps).map chars = ls ++ [[]] := by
  induction ls generalizing ps with
  | nil =>
    cases List.map_eq_nil_iff.1 h
    rfl
  | cons l ls ih =>
    rw [List.map_cons, List.flatten_cons] at h
    obtain ⟨front, rest, rfl, hfront, hrest⟩ := List.map_eq_append_iff.1 h
    obtain ⟨line, e, rfl, hline, he⟩ := List.map_eq_append_iff.1 hfront
    have hinner : ∀ p ∈ line, isLineEnd p.char = false := by
      intro p hp
      refine inner l List.mem_cons_self p.char ?_
      rw [← hline]
      exact List.mem_map_of_mem hp
    rw [lines_append hinner (.inl he), List.map_cons,
      ih (fun l hl => inner l (List.mem_cons_of_mem _ hl)) hrest]
    exact congrArg (· :: _) hline

/-- The numbered lines of a text that is put together from lines. -/
theorem numbered_layout_join {ls : List String}
    (inner : ∀ l ∈ ls, ∀ c ∈ l.toList, isLineEnd c = false) :
    numbered (layout (String.join (ls.map (· ++ "\n"))).toList) =
      numberWords (ls.map fun l => lineWords l.toList) := by
  have hflat : (String.join (ls.map (· ++ "\n"))).toList =
      ((ls.map String.toList).map (· ++ ['\n'])).flatten := by
    simp [List.flatMap_def, Function.comp_def]
  have hinner : ∀ l ∈ ls.map String.toList, ∀ c ∈ l, isLineEnd c = false := by simpa using inner
  have hlines := lines_flatten hinner ((chars_place _).trans hflat)
  have hwords : (layout (String.join (ls.map (· ++ "\n"))).toList).map (List.map Token.text) =
      ((lines (place (String.join (ls.map (· ++ "\n"))).toList)).map chars).map lineWords := by
    simp [layout, Function.comp_def, text_lineTokens]
  rw [numbered_eq, hwords, hlines, List.map_append, List.map_map]
  exact numberWords_append_nil _

section Tokens
variable {ts : List String} (hts : ∀ t ∈ ts, IsToken t)
include hts

lemma mem_intercalate_tokens {c : Char} (hc : c ∈ (" ".intercalate ts).toList) :
    isLineEnd c = false ∧ c ≠ '#' := by
  rw [String.toList_intercalate] at hc
  rcases mem_of_mem_intercalate hc with hc | ⟨w, hw, hc⟩
  · cases List.mem_singleton.1 hc
    decide
  · obtain ⟨t, ht, rfl⟩ := List.mem_map.1 hw
    obtain ⟨hspace, hsign⟩ := (hts t ht).2 c hc
    refine ⟨Bool.eq_false_iff.2 fun hl => ?_, hsign⟩
    rw [isWhiteSpace_of_isLineEnd hl] at hspace
    cases hspace

/-- Tokens with a space between any two of them are the words of their line. -/
theorem lineWords_intercalate : lineWords (" ".intercalate ts).toList = ts := by
  have hwords : ∀ w ∈ ts.map String.toList, w ≠ [] ∧ ∀ c ∈ w, (!isWhiteSpace c) = true := by
    intro w hw
    obtain ⟨t, ht, rfl⟩ := List.mem_map.1 hw
    obtain ⟨hne, hchars⟩ := hts t ht
    exact ⟨by simpa using hne, fun c hc => by simp [(hchars c hc).1]⟩
  have hclean : ∀ c ∈ (" ".intercalate ts).toList, (c != '#') = true :=
    fun c hc => by simpa using (mem_intercalate_tokens hts hc).2
  have hspace : " ".toList = [' '] := rfl
  rw [lineWords, List.takeWhile_eq_self_iff.2 hclean, String.toList_intercalate, hspace,
    runs_intercalate (by decide) hwords, List.map_map]
  simp

end Tokens

/-- Only tokens are read from a text. -/
theorem isToken_of_mem_numbered {text : List Char} {l : NumberedLine}
    (hl : l ∈ numbered (layout text)) {t : String} (ht : t ∈ l.tokens) : IsToken t := by
  obtain ⟨-, ts, hts, -, htokens⟩ := mem_numbered.1 hl
  obtain ⟨line, -, rfl⟩ := List.mem_map.1 (List.mem_of_getElem? hts)
  rw [htokens, text_lineTokens] at ht
  obtain ⟨run, hrun, rfl⟩ := List.mem_map.1 ht
  have hne := ((maximalRuns_runs _).within hrun).2
  refine ⟨by simpa using hne, fun c hc => ?_⟩
  rw [String.toList_ofList] at hc
  obtain ⟨hmem, hspace⟩ := mem_of_mem_runs hrun hc
  have hsign := List.mem_takeWhile_imp hmem
  exact ⟨by simpa using hspace, by simpa using hsign⟩

/-- Tokens that are laid out line by line are read back line by line. -/
theorem numbered_layout_tokens {tss : List (List String)} (h : ∀ ts ∈ tss, ∀ t ∈ ts, IsToken t) :
    numbered (layout (String.join ((tss.map " ".intercalate).map (· ++ "\n"))).toList) =
      numberWords tss := by
  have inner : ∀ l ∈ tss.map " ".intercalate, ∀ c ∈ l.toList, isLineEnd c = false := by
    intro l hl c hc
    obtain ⟨ts, hts, rfl⟩ := List.mem_map.1 hl
    exact (mem_intercalate_tokens (h ts hts) hc).1
  have hwords : tss.map ((fun l => lineWords l.toList) ∘ " ".intercalate) = tss.map id :=
    List.map_congr_left fun ts hts => lineWords_intercalate (h ts hts)
  rw [numbered_layout_join inner, List.map_map, hwords, List.map_id]

/-- Lines that hold a word are all counted. -/
lemma tokens_numberWords {tss : List (List String)} (h : ∀ ts ∈ tss, ts ≠ []) :
    (numberWords tss).map NumberedLine.tokens = tss := by
  have hall : ∀ x ∈ tss.zipIdx 1, (if x.1.isEmpty then none else some (⟨x.2, x.1⟩ : NumberedLine)) =
      some ⟨x.2, x.1⟩ := by
    intro x hx
    exact if_neg (by simpa using h x.1 (List.fst_mem_of_mem_zipIdx hx))
  rw [numberWords, List.filterMap_congr hall, List.filterMap_eq_map', List.map_map]
  exact List.zipIdx_map_fst 1 tss

end TapeMachine.Description
