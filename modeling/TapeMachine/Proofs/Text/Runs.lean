import Mathlib.Data.List.TakeWhile
import Mathlib.Tactic.Lemma
import TapeMachine.Text.WhiteSpace

/-! The maximal runs of a list, said without the loop that finds them. -/
namespace TapeMachine.Text
variable {α : Type} {p : α → Bool}

/-- `rs` are the maximal runs of elements of `xs` that satisfy `p`: what stands around them fails
the test, and none of them could be longer. -/
inductive MaximalRuns (p : α → Bool) : List α → List (List α) → Prop where
  | gap {gap : List α} (fails : ∀ x ∈ gap, p x = false) : MaximalRuns p gap []
  | run {gap run rest : List α} {rs : List (List α)} (fails : ∀ x ∈ gap, p x = false)
      (nonempty : run ≠ []) (holds : ∀ x ∈ run, p x = true)
      (stops : ∀ x t, rest = x :: t → p x = false) (others : MaximalRuns p rest rs) :
      MaximalRuns p (gap ++ run ++ rest) (run :: rs)

lemma neg_of_dropWhile {xs t : List α} {x : α} (h : xs.dropWhile p = x :: t) : p x = false := by
  have hd := List.head?_dropWhile_not p xs
  rw [h] at hd
  simpa using hd

lemma exists_cut (p : α → Bool) (xs : List α) : ∃ run rest, xs = run ++ rest ∧
    (∀ x ∈ run, p x = true) ∧ ∀ x t, rest = x :: t → p x = false := by
  refine ⟨xs.takeWhile p, xs.dropWhile p, List.takeWhile_append_dropWhile.symm, ?_, ?_⟩
  · intro x hx
    exact List.mem_takeWhile_imp hx
  · intro x t h
    exact neg_of_dropWhile h

lemma takeWhile_append_of_stops {run rest : List α} (holds : ∀ x ∈ run, p x = true)
    (stops : ∀ x t, rest = x :: t → p x = false) :
    (run ++ rest).takeWhile p = run ∧ (run ++ rest).dropWhile p = rest := by
  rw [List.takeWhile_append_of_pos holds, List.dropWhile_append_of_pos holds]
  cases rest with
  | nil => simp
  | cons x t => simp [stops x t rfl]

lemma runsFrom_done (xs run : List α) (done : List (List α)) :
    runsFrom p xs run done = done.reverse ++ runsFrom p xs run [] := by
  induction xs generalizing run done with
  | nil => cases run <;> simp [runsFrom]
  | cons x xs ih =>
    simp only [runsFrom]
    split
    · exact ih (x :: run) done
    · split
      · exact ih [] done
      · rw [ih [] (run.reverse :: done), ih [] [run.reverse]]
        simp

lemma runsFrom_append {run : List α} (holds : ∀ x ∈ run, p x = true) (rest acc : List α) :
    runsFrom p (run ++ rest) acc [] = runsFrom p rest (run.reverse ++ acc) [] := by
  induction run generalizing acc with
  | nil => rfl
  | cons x run ih =>
    have hx := holds x List.mem_cons_self
    rw [List.cons_append, runsFrom, if_pos hx, ih fun y hy => holds y (List.mem_cons_of_mem x hy)]
    simp

/-- What fails the test in front of a list belongs to no run. -/
lemma runs_gap_append {gap : List α} (fails : ∀ x ∈ gap, p x = false) (rest : List α) :
    runs p (gap ++ rest) = runs p rest := by
  induction gap with
  | nil => rfl
  | cons x gap ih =>
    have hx : ¬ p x = true := by simp [fails x List.mem_cons_self]
    rw [List.cons_append, runs_cons_of_neg hx, ih fun y hy => fails y (List.mem_cons_of_mem x hy)]

/-- A run that cannot be longer comes first. -/
lemma runs_run_append {run rest : List α} (nonempty : run ≠ []) (holds : ∀ x ∈ run, p x = true)
    (stops : ∀ x t, rest = x :: t → p x = false) :
    runs p (run ++ rest) = run :: runs p rest := by
  have hr := runsFrom_append holds rest []
  rw [List.append_nil] at hr
  have hne : ¬ run.reverse.isEmpty = true := by simpa using nonempty
  rw [runs, hr]
  cases rest with
  | nil =>
    obtain ⟨y, ys, hy⟩ := List.exists_cons_of_ne_nil (List.reverse_ne_nil_iff.2 nonempty)
    have hrun : run = (y :: ys).reverse := by rw [← hy, List.reverse_reverse]
    rw [hy, runsFrom, hrun]
    rfl
  | cons x rest =>
    have hx : ¬ p x = true := by simp [stops x rest rfl]
    rw [runsFrom, if_neg hx, if_neg hne, runsFrom_done, runs_cons_of_neg hx]
    simp [runs]

/-- The runs that the loop finds are the maximal ones. -/
theorem maximalRuns_runs (xs : List α) : MaximalRuns p xs (runs p xs) := by
  induction h : xs.length using Nat.strongRecOn generalizing xs with
  | ind n ih =>
    obtain ⟨gap, rest, rfl, hgap, hrest⟩ := exists_cut (!p ·) xs
    have fails : ∀ x ∈ gap, p x = false := by simpa using hgap
    rw [runs_gap_append fails]
    cases rest with
    | nil =>
      rw [List.append_nil]
      exact .gap fails
    | cons y ys =>
      have hy : p y = true := by simpa using hrest y ys rfl
      obtain ⟨run, others, hys, holds, stops⟩ := exists_cut p (y :: ys)
      have nonempty : run ≠ [] := by
        intro hrun
        subst hrun
        have hf := stops y ys hys.symm
        simp [hy] at hf
      have hlen : others.length < n := by
        have hpos := List.length_pos_iff.2 nonempty
        rw [hys, List.length_append, List.length_append] at h
        omega
      rw [hys, runs_run_append nonempty holds stops, ← List.append_assoc]
      exact .run fails nonempty holds stops (ih _ hlen _ rfl)

/-- A list has one split into maximal runs, and `runs` finds it. -/
theorem maximalRuns_iff {xs : List α} {rs : List (List α)} :
    MaximalRuns p xs rs ↔ rs = runs p xs := by
  constructor
  · intro h
    induction h with
    | @gap gap fails =>
      have hr := runs_gap_append fails []
      rw [List.append_nil, runs_nil] at hr
      exact hr.symm
    | run fails nonempty holds stops _ ih =>
      rw [List.append_assoc, runs_gap_append fails, runs_run_append nonempty holds stops, ih]
  · intro heq
    subst heq
    exact maximalRuns_runs xs

/-- A run is a stretch of the list, and not an empty one. -/
theorem MaximalRuns.within {xs run : List α} {rs : List (List α)} (h : MaximalRuns p xs rs)
    (hm : run ∈ rs) : run <:+: xs ∧ run ≠ [] := by
  induction h with
  | gap => cases hm
  | @run gap first rest rs _ nonempty _ _ _ ih =>
    rcases List.mem_cons.1 hm with rfl | hm
    · exact ⟨⟨gap, rest, rfl⟩, nonempty⟩
    · obtain ⟨hi, hne⟩ := ih hm
      exact ⟨hi.trans (List.suffix_append _ _).isInfix, hne⟩

/-- All that stands in a run satisfies the test. -/
lemma mem_of_mem_runs {xs run : List α} (h : run ∈ runs p xs) {x : α} (hx : x ∈ run) :
    x ∈ xs ∧ p x = true := by
  have hm : x ∈ (runs p xs).flatten := List.mem_flatten.2 ⟨run, h, hx⟩
  rwa [flatten_runs, List.mem_filter] at hm

/-- Runs with one separator between any two of them are found again. -/
theorem runs_intercalate {sep : α} (hsep : p sep = false) {words : List (List α)}
    (hwords : ∀ w ∈ words, w ≠ [] ∧ ∀ x ∈ w, p x = true) :
    runs p ([sep].intercalate words) = words := by
  induction words with
  | nil => rfl
  | cons w words ih =>
    obtain ⟨hne, holds⟩ := hwords w List.mem_cons_self
    have hrest := ih fun v hv => hwords v (List.mem_cons_of_mem w hv)
    cases words with
    | nil =>
      have hw := runs_run_append hne holds (by simp : ∀ x t, [] = x :: t → p x = false)
      rw [List.append_nil] at hw
      rw [List.intercalate_singleton, hw, runs_nil]
    | cons v words =>
      have hstop : ∀ rest x t, [sep] ++ rest = x :: t → p x = false := by
        intro rest x t h
        cases h
        exact hsep
      have hgap : ∀ x ∈ [sep], p x = false := by simpa using hsep
      rw [List.intercalate_cons_cons, List.append_assoc, runs_run_append hne holds (hstop _),
        runs_gap_append hgap, hrest]

lemma mem_of_mem_intercalate {sep : List α} {words : List (List α)} {x : α}
    (h : x ∈ sep.intercalate words) : x ∈ sep ∨ ∃ w ∈ words, x ∈ w := by
  induction words with
  | nil => cases h
  | cons w words ih =>
    cases words with
    | nil => exact .inr ⟨w, by simp, by simpa using h⟩
    | cons v words =>
      rw [List.intercalate_cons_cons, List.mem_append, List.mem_append] at h
      rcases h with (h | h) | h
      · exact .inr ⟨w, List.mem_cons_self, h⟩
      · exact .inl h
      · exact (ih h).imp_right fun ⟨u, hu, hx⟩ => ⟨u, List.mem_cons_of_mem w hu, hx⟩

end TapeMachine.Text
