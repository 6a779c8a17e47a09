import Mathlib.Logic.ExistsUnique
import TapeMachine.Input
import TapeMachine.Proofs.Text.Trim

/-! How an input is read from a text. No character is lost but white space, the first symbol that
cannot stand in an input is the one that is reported, and symbols that have been written with white
space between them, or characters that have been written together, are read back. -/
namespace TapeMachine.Input
open Text

/-- The symbols that a text stands for, white space around it left aside: the characters of a text
without white space inside, the words of any other text. -/
inductive StandsFor : String → List Symbol → Prop where
  | characters {before word after : String} (lead : IsGap before) (solid : Solid word)
      (trail : IsGap after) : StandsFor (before ++ word ++ after) (word.toList.map String.singleton)
  | words {raw : String} {first second : List Char} {others : List (List Char)}
      (runs : MaximalRuns (!isWhiteSpace ·) raw.toList (first :: second :: others)) :
      StandsFor raw ((first :: second :: others).map String.ofList)

/-- Symbols written in a row, with a gap between any two of them. -/
inductive Joined : List Symbol → String → Prop where
  | none : Joined [] ""
  | one (s : Symbol) : Joined [s] s
  | more {s t : Symbol} {ss : List Symbol} {gap text : String} (nonempty : gap ≠ "")
      (white : IsGap gap) (others : Joined (t :: ss) text) :
      Joined (s :: t :: ss) (s ++ gap ++ text)

/-- A symbol that can stand in the input of a machine. -/
def Fits (spec : Spec) (s : Symbol) : Prop := s ≠ spec.blank ∧ s ≠ spec.left

instance (spec : Spec) (s : Symbol) : Decidable (Fits spec s) := inferInstanceAs (Decidable (_ ∧ _))

/-- The first of some symbols that does not fit, with the reason. A symbol that is both the blank
and the marker is refused as the blank. -/
inductive FirstRefused (spec : Spec) : List Symbol → InputError → Prop where
  | blank {pre post : List Symbol} (others : ∀ s ∈ pre, Fits spec s) :
      FirstRefused spec (pre ++ spec.blank :: post) (.containsBlank spec.blank)
  | left {pre post : List Symbol} (others : ∀ s ∈ pre, Fits spec s)
      (different : spec.left ≠ spec.blank) :
      FirstRefused spec (pre ++ spec.left :: post) (.containsLeftMarker spec.left)

section Reading
variable {raw : String} {ss : List Symbol}

lemma candidates_of_solid {before word after : String} (lead : IsGap before) (solid : Solid word)
    (trail : IsGap after) :
    candidates (before ++ word ++ after) = word.toList.map String.singleton := by
  have htrim : trim (before ++ word ++ after).toList = word.toList := by
    rw [String.toList_append, String.toList_append]
    exact trim_of_solid lead solid trail
  have hany : ¬ word.toList.any isWhiteSpace = true := by simpa [Solid] using solid
  rw [candidates, htrim, if_neg hany]

lemma candidates_of_runs {first second : List Char} {others : List (List Char)}
    (h : MaximalRuns (!isWhiteSpace ·) raw.toList (first :: second :: others)) :
    candidates raw = (first :: second :: others).map String.ofList := by
  have hwords : words (trim raw.toList) = first :: second :: others := by
    rw [words_trim]
    exact (maximalRuns_iff.1 h).symm
  have hany : (trim raw.toList).any isWhiteSpace = true := by
    -- Without white space inside there is no second word.
    by_contra hno
    have solid : ∀ c ∈ trim raw.toList, isWhiteSpace c = false := by simpa using hno
    rw [words_of_solid solid] at hwords
    split at hwords <;> cases hwords
  rw [candidates, if_pos hany, hwords]

lemma StandsFor.ofList {before word after : List Char} (lead : ∀ c ∈ before, isWhiteSpace c = true)
    (solid : ∀ c ∈ word, isWhiteSpace c = false) (trail : ∀ c ∈ after, isWhiteSpace c = true) :
    StandsFor (String.ofList (before ++ word ++ after)) (word.map String.singleton) := by
  have h : StandsFor (String.ofList before ++ String.ofList word ++ String.ofList after)
      ((String.ofList word).toList.map String.singleton) :=
    .characters (by simpa [IsGap] using lead) (by simpa [Solid] using solid)
      (by simpa [IsGap] using trail)
  rwa [← String.ofList_append, ← String.ofList_append, String.toList_ofList] at h

lemma exists_standsFor (raw : String) : ∃ ss, StandsFor raw ss := by
  obtain ⟨cs, rfl⟩ : ∃ cs, raw = String.ofList cs := ⟨raw.toList, String.ofList_toList.symm⟩
  have hruns : MaximalRuns (!isWhiteSpace ·) cs (words cs) := maximalRuns_runs cs
  generalize words cs = rs at hruns
  cases hruns with
  | gap fails =>
    have h : StandsFor (String.ofList (cs ++ [] ++ [])) ([].map String.singleton) :=
      .ofList (by simpa using fails) (by simp) (by simp)
    rw [List.append_nil, List.append_nil] at h
    exact ⟨_, h⟩
  | @run gap run rest rs fails nonempty holds stops others =>
    cases rs with
    | nil =>
      have trail : ∀ c ∈ rest, isWhiteSpace c = true := by
        cases others with
        | gap fails => simpa using fails
      exact ⟨_, .ofList (by simpa using fails) (by simpa using holds) trail⟩
    | cons second rs =>
      have hruns : MaximalRuns (!isWhiteSpace ·) (String.ofList (gap ++ run ++ rest)).toList
          (run :: second :: rs) := by
        rw [String.toList_ofList]
        exact .run fails nonempty holds stops others
      exact ⟨_, .words hruns⟩

/-- A text stands for one list of symbols, the one that is looked through for symbols that do not
fit. -/
theorem standsFor_iff : StandsFor raw ss ↔ ss = candidates raw := by
  have hforward : ∀ {ss}, StandsFor raw ss → ss = candidates raw := by
    intro ss h
    cases h with
    | characters lead solid trail => exact (candidates_of_solid lead solid trail).symm
    | words runs => exact (candidates_of_runs runs).symm
  constructor
  · exact hforward
  · intro heq
    obtain ⟨ss', h⟩ := exists_standsFor raw
    rwa [heq, ← hforward h]

/-- Only words stand in an input. -/
lemma StandsFor.isWord (h : StandsFor raw ss) {s : Symbol} (hs : s ∈ ss) : IsWord s := by
  cases h with
  | characters _ solid _ =>
    obtain ⟨c, hc, rfl⟩ := List.mem_map.1 hs
    exact ⟨by simp, by simpa [Solid] using solid c hc⟩
  | words runs =>
    obtain ⟨run, hrun, rfl⟩ := List.mem_map.1 hs
    have hne := (runs.within hrun).2
    rw [maximalRuns_iff.1 runs] at hrun
    refine ⟨by simpa using hne, fun c hc => ?_⟩
    rw [String.toList_ofList] at hc
    simpa using (mem_of_mem_runs hrun hc).2

/-- Together, the symbols are the text without its white space. -/
lemma StandsFor.join_eq (h : StandsFor raw ss) :
    String.join ss = String.ofList (raw.toList.filter (!isWhiteSpace ·)) := by
  rw [← String.toList_inj, String.toList_join, String.toList_ofList]
  cases h with
  | @characters before word after lead solid trail =>
    have hlead : before.toList.filter (!isWhiteSpace ·) = [] :=
      List.filter_eq_nil_iff.2 fun c hc => by simp [lead c hc]
    have hword : word.toList.filter (!isWhiteSpace ·) = word.toList :=
      List.filter_eq_self.2 fun c hc => by simp [solid c hc]
    have htrail : after.toList.filter (!isWhiteSpace ·) = [] :=
      List.filter_eq_nil_iff.2 fun c hc => by simp [trail c hc]
    simp only [String.toList_append, List.filter_append, hlead, hword, htrail]
    simp [List.flatMap_map]
  | words runs =>
    rw [← flatten_runs, ← maximalRuns_iff.1 runs]
    simp [List.flatMap_def, Function.comp_def]

end Reading

section Refusal
variable {spec : Spec} {raw : String} {ss : List Symbol} {e : InputError}

lemma refusal?_eq_none {s : Symbol} : refusal? spec s = none ↔ Fits spec s := by
  unfold refusal? Fits
  split
  · simp [*]
  · split <;> simp [*]

lemma refusal?_eq_some {s : Symbol} : refusal? spec s = some e ↔
    s = spec.blank ∧ e = .containsBlank spec.blank ∨
      s ≠ spec.blank ∧ s = spec.left ∧ e = .containsLeftMarker spec.left := by
  unfold refusal?
  split
  · next hb =>
    subst hb
    simp [eq_comm]
  · next hb =>
    split
    · next hl =>
      subst hl
      simp [hb, eq_comm]
    · next hl => simp [hb, hl]

/-- The first symbol that does not fit is reported. -/
theorem findSome?_refusal?_iff :
    ss.findSome? (refusal? spec) = some e ↔ FirstRefused spec ss e := by
  rw [List.findSome?_eq_some_iff]
  constructor
  · rintro ⟨pre, s, post, rfl, hs, hpre⟩
    have others : ∀ x ∈ pre, Fits spec x := fun x hx => refusal?_eq_none.1 (hpre x hx)
    rcases refusal?_eq_some.1 hs with ⟨rfl, rfl⟩ | ⟨hb, rfl, rfl⟩
    · exact .blank others
    · exact .left others hb
  · intro h
    cases h with
    | blank others =>
      exact ⟨_, _, _, rfl, refusal?_eq_some.2 (.inl ⟨rfl, rfl⟩),
        fun x hx => refusal?_eq_none.2 (others x hx)⟩
    | left others different =>
      exact ⟨_, _, _, rfl, refusal?_eq_some.2 (.inr ⟨different, rfl, rfl⟩),
        fun x hx => refusal?_eq_none.2 (others x hx)⟩

lemma symbols_eq_error_iff (h : StandsFor raw ss) :
    symbols spec raw = .error e ↔ FirstRefused spec ss e := by
  rw [← findSome?_refusal?_iff, standsFor_iff.1 h]
  unfold symbols
  cases hf : (candidates raw).findSome? (refusal? spec) <;> simp [hf]

lemma symbols_eq_ok (h : StandsFor raw ss) (hfits : ∀ s ∈ ss, Fits spec s) :
    symbols spec raw = .ok ss := by
  have hss := standsFor_iff.1 h
  exact symbols_eq_ok_iff.2 ⟨hss, hss ▸ hfits⟩

/-- A symbol is refused exactly if the blank or the marker is among the symbols. -/
lemma exists_firstRefused_iff :
    (∃ e, FirstRefused spec ss e) ↔ spec.blank ∈ ss ∨ spec.left ∈ ss := by
  have hnone : (¬ ∃ e, FirstRefused spec ss e) ↔ ∀ s ∈ ss, Fits spec s := by
    simp only [← findSome?_refusal?_iff, ← Option.isSome_iff_exists, Option.not_isSome_iff_eq_none,
      List.findSome?_eq_none_iff, refusal?_eq_none]
  rw [← not_iff_not, hnone, not_or]
  constructor
  · intro h
    exact ⟨fun hb => (h _ hb).1 rfl, fun hl => (h _ hl).2 rfl⟩
  · rintro ⟨hb, hl⟩ s hs
    exact ⟨fun heq => hb (heq ▸ hs), fun heq => hl (heq ▸ hs)⟩

end Refusal

section Writing
variable {spec : Spec} {ss : List Symbol} {text before after : String}

/-- Symbols in a row with gaps between them are the words of the text. -/
lemma Joined.words_eq (h : Joined ss text) (hss : ∀ s ∈ ss, IsWord s) :
    words text.toList = ss.map String.toList := by
  induction h with
  | none => rfl
  | one s =>
    have hs := hss s List.mem_cons_self
    rw [words_of_solid hs.2, if_neg hs.toList_ne_nil]
    rfl
  | @more s t ss gap text nonempty white others ih =>
    have hs := hss s List.mem_cons_self
    have hholds : ∀ c ∈ s.toList, (!isWhiteSpace c) = true := by simpa [Solid] using hs.2
    have hstops : ∀ c rest, gap.toList ++ text.toList = c :: rest → (!isWhiteSpace c) = false := by
      intro c rest hc
      obtain ⟨d, ds, hgap⟩ := List.exists_cons_of_ne_nil (by simpa using nonempty : gap.toList ≠ [])
      rw [hgap] at hc
      cases hc
      simpa using white c (by simp [hgap])
    calc words (s ++ gap ++ text).toList
      _ = words (s.toList ++ (gap.toList ++ text.toList)) := by
        rw [String.toList_append, String.toList_append, List.append_assoc]
      _ = s.toList :: words (gap.toList ++ text.toList) :=
        runs_run_append hs.toList_ne_nil hholds hstops
      _ = (s :: t :: ss).map String.toList := by
        rw [words_gap_append _ white, ih fun x hx => hss x (List.mem_cons_of_mem s hx)]
        rfl

lemma standsFor_of_joined (h : Joined ss text) (hss : ∀ s ∈ ss, IsWord s) (several : 2 ≤ ss.length)
    (lead : IsGap before) (trail : IsGap after) : StandsFor (before ++ text ++ after) ss := by
  have hruns : MaximalRuns (!isWhiteSpace ·) (before ++ text ++ after).toList
      (ss.map String.toList) := by
    refine maximalRuns_iff.2 ?_
    rw [String.toList_append, String.toList_append]
    exact (((words_append_gap _ trail).trans (words_gap_append _ lead)).trans (h.words_eq hss)).symm
  match ss, several with
  | s :: t :: ss, _ =>
    have hback : ((s :: t :: ss).map String.toList).map String.ofList = s :: t :: ss := by simp
    rw [← hback]
    exact .words hruns

lemma map_singleton_join (hss : ∀ s ∈ ss, s.length = 1) :
    (String.join ss).toList.map String.singleton = ss := by
  induction ss with
  | nil => rfl
  | cons s ss ih =>
    obtain ⟨hs, hrest⟩ := List.forall_mem_cons.1 hss
    obtain ⟨c, hc⟩ := List.length_eq_one_iff.1 (s.length_toList.trans hs)
    have hsingle : String.singleton c = s := by
      rw [← String.toList_inj, hc, String.toList_singleton]
    rw [String.join_cons, String.toList_append, List.map_append, hc, ih hrest, List.map_singleton,
      hsingle, List.singleton_append]

lemma standsFor_join (hss : ∀ s ∈ ss, IsWord s) (single : ∀ s ∈ ss, s.length = 1)
    (lead : IsGap before) (trail : IsGap after) :
    StandsFor (before ++ String.join ss ++ after) ss := by
  have h := StandsFor.characters lead (solid_join fun s hs => (hss s hs).2) trail
  rwa [map_singleton_join single] at h

/-- Symbols with gaps between them are read back, but for a single one of several characters. -/
lemma standsFor_of_joined_or_single (h : Joined ss text) (hss : ∀ s ∈ ss, IsWord s)
    (hshape : 2 ≤ ss.length ∨ ∀ s ∈ ss, s.length = 1) (lead : IsGap before) (trail : IsGap after) :
    StandsFor (before ++ text ++ after) ss := by
  cases h with
  | none => exact standsFor_join hss (by simp) lead trail
  | one =>
    have single : ∀ s ∈ [text], s.length = 1 := hshape.resolve_left (by simp)
    have h := standsFor_join hss single lead trail
    rwa [String.join_cons, String.join_nil, String.append_empty] at h
  | more nonempty white others =>
    exact standsFor_of_joined (.more nonempty white others) hss (by simp) lead trail

end Writing

/-- Reading an input loses nothing and is exact. The symbols that are read are words other than the
blank and the marker; together they are the text without its white space, and they are its
characters or its words. Whatever a text stands for, it is refused exactly if the blank or the
marker is among those symbols, and then for the first of the two that comes. Symbols written with
gaps between them, at least two of them or only of one character, are read back, and so are symbols
of one character written together; white space around does not matter. -/
theorem symbols_exact (spec : Spec) :
    (∀ raw ss, symbols spec raw = .ok ss →
      StandsFor raw ss ∧ (∀ s ∈ ss, IsWord s ∧ s ≠ spec.blank ∧ s ≠ spec.left) ∧
      String.join ss = String.ofList (raw.toList.filter (!isWhiteSpace ·))) ∧
    (∀ raw, ∃! ss, StandsFor raw ss) ∧
    (∀ raw ss, StandsFor raw ss →
      ((∃ e, symbols spec raw = .error e) ↔ spec.blank ∈ ss ∨ spec.left ∈ ss) ∧
      ∀ e, symbols spec raw = .error e ↔ FirstRefused spec ss e) ∧
    ∀ ss, (∀ s ∈ ss, IsWord s ∧ s ≠ spec.blank ∧ s ≠ spec.left) →
      ∀ before after, IsGap before → IsGap after →
        (2 ≤ ss.length ∨ (∀ s ∈ ss, s.length = 1) →
          ∀ text, Joined ss text → symbols spec (before ++ text ++ after) = .ok ss) ∧
        ((∀ s ∈ ss, s.length = 1) →
          symbols spec (before ++ String.join ss ++ after) = .ok ss) := by
  refine ⟨fun raw ss h => ?_, fun raw => ?_, fun raw ss h => ?_,
    fun ss hss before after lead trail => ?_⟩
  · obtain ⟨hss, hfits⟩ := symbols_eq_ok_iff.1 h
    have hstands : StandsFor raw ss := standsFor_iff.2 hss
    exact ⟨hstands, fun s hs => ⟨hstands.isWord hs, hfits s (hss ▸ hs)⟩, hstands.join_eq⟩
  · exact ⟨candidates raw, standsFor_iff.2 rfl, fun ss h => standsFor_iff.1 h⟩
  · have hiff (e : InputError) : symbols spec raw = .error e ↔ FirstRefused spec ss e :=
      symbols_eq_error_iff h
    refine ⟨?_, hiff⟩
    rw [exists_congr hiff]
    exact exists_firstRefused_iff
  · have hwords : ∀ s ∈ ss, IsWord s := fun s hs => (hss s hs).1
    have hfits : ∀ s ∈ ss, Fits spec s := fun s hs => (hss s hs).2
    exact ⟨fun hshape text h =>
        symbols_eq_ok (standsFor_of_joined_or_single h hwords hshape lead trail) hfits,
      fun single => symbols_eq_ok (standsFor_join hwords single lead trail) hfits⟩

/-- A machine whose marker is its blank. -/
def unmarked : Spec := { Spec.ofDefaults {} with left := "u" }

/-- What is both the blank and the marker is refused as the blank. -/
theorem symbols_exact_unmarked :
    symbols unmarked "\t a1 b " = .ok ["a1", "b"] ∧ StandsFor "\t a1 b " ["a1", "b"] ∧
    StandsFor " aub" ["a", "u", "b"] ∧ symbols unmarked " aub" = .error (.containsBlank "u") ∧
    Joined ["a1", "b"] ("a1" ++ "\n " ++ "b") ∧
    symbols unmarked ("\u00a0" ++ ("a1" ++ "\n " ++ "b") ++ "") = .ok ["a1", "b"] ∧
    symbols unmarked ("" ++ String.join ["a", "b"] ++ " ") = .ok ["a", "b"] := by
  obtain ⟨lossless, -, refused, back⟩ := symbols_exact unmarked
  have hread : symbols unmarked "\t a1 b " = .ok ["a1", "b"] := by rfl
  have hstands : StandsFor " aub" ["a", "u", "b"] := standsFor_iff.2 (by decide +kernel)
  have herror : FirstRefused unmarked (["a"] ++ unmarked.blank :: ["b"]) (.containsBlank "u") :=
    .blank (by decide)
  have hjoined : Joined ["a1", "b"] ("a1" ++ "\n " ++ "b") :=
    .more (by decide) (by decide) (.one "b")
  have hwords := back ["a1", "b"] (by decide) "\u00a0" "" (by decide) (by decide)
  have hletters := back ["a", "b"] (by decide) "" " " (by decide) (by decide)
  exact ⟨hread, (lossless _ _ hread).1, hstands, ((refused _ _ hstands).2 _).2 herror, hjoined,
    hwords.1 (.inl (by decide)) _ hjoined, hletters.2 (by decide)⟩

end TapeMachine.Input
