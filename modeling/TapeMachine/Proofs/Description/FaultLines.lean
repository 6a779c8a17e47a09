import TapeMachine.Proofs.Description.Classify

/-! Where an error in a description points. A fault is found on a line of the text, and a rule that
is stated twice names two of its lines. There is one exception, in which the text is not to blame:
the blank and the marker are both left to the defaults, and these are the same. -/
namespace TapeMachine.Description

/-- The words of a line of a text, the lines being counted from 1. -/
def IsLine (text : String) (n : Nat) (words : List String) : Prop :=
  ∃ i ts, n = i + 1 ∧ (layout text.toList)[i]? = some ts ∧ words = ts.map Token.text

/-- An error points at a line of the text. If it reports a rule stated twice, the first of the two
lines stands before the one pointed at, and both state a rule for the situation reported. -/
structure LoadError.PointsAt (e : LoadError) (text : String) (n : Nat) : Prop where
  line : e.line? = some n
  first_le : 1 ≤ n
  le_last : n ≤ lineCount text.toList
  twice {first : Nat} {q : State} {s : Symbol} : e = .fault n (.duplicateRule first q s) →
    1 ≤ first ∧ first < n ∧ ∃ words words' a b,
      IsLine text first words ∧ StatesRule words (q, s) a ∧
      IsLine text n words' ∧ StatesRule words' (q, s) b

/-- Nothing is wrong with the lines of a description, but the defaults that it relies on for the
blank and for the marker are the same. -/
structure DefaultsClash (d : Defaults) (ls : List NumberedLine) : Prop where
  clean : Clean ls
  same : d.blank = d.left
  blank : ∀ l ∈ ls, ∀ args, ¬ Sets l.tokens .blank args
  left : ∀ l ∈ ls, ∀ args, ¬ Sets l.tokens .left args

lemma isLine_of_mem {text : String} {l : NumberedLine} (h : l ∈ numbered (layout text.toList)) :
    IsLine text l.number l.tokens := by
  obtain ⟨hpos, ts, hts, -, htokens⟩ := mem_numbered.1 h
  exact ⟨l.number - 1, ts, (Nat.succ_pred_eq_of_pos hpos).symm, hts, htokens⟩

lemma IsLine.le_last {text : String} {n : Nat} {words : List String} (h : IsLine text n words) :
    n ≤ lineCount text.toList := by
  obtain ⟨i, ts, rfl, hts, -⟩ := h
  obtain ⟨hi, -⟩ := List.getElem?_eq_some_iff.1 hts
  rwa [length_layout] at hi

section Lines
variable {d : Defaults} {ls : List NumberedLine} {e : LoadError} {spec : Spec} {k : Keyword}

/-- The line that is remembered for a part is one that sets it, unless no line does. -/
lemma lastLine_mem {o : Option (Nat × List String)} (h : LastSet k ls o) :
    (lastLine o = 0 ∧ ∀ l ∈ ls, ∀ args, ¬ Sets l.tokens k args) ∨
      ∃ l ∈ ls, l.number = lastLine o := by
  cases h with
  | none unset => exact .inl ⟨rfl, unset⟩
  | some => exact .inr ⟨_, List.mem_append_right _ List.mem_cons_self, rfl⟩

lemma Describes.part_default (h : Describes d ls spec)
    (unset : ∀ l ∈ ls, ∀ args, ¬ Sets l.tokens k args) :
    k.part spec = k.part (Spec.ofDefaults d) := by
  obtain ⟨o, ho, hpart⟩ := h.part k
  cases ho.unique (.none unset)
  exact hpart

/-- A fault is found on a line, or it lies with the defaults. -/
lemma Classified.line_mem (h : Classified d ls (.error e)) :
    (∃ l ∈ ls, e.line? = some l.number) ∨
      DefaultsClash d ls ∧ e = .fault 0 (.blankIsLeftMarker d.blank) := by
  cases h with
  | @offending pre post l f split clean offends =>
    exact .inl ⟨l, split ▸ List.mem_append_right pre List.mem_cons_self, rfl⟩
  | @blankIsLeft spec b m clean describes same blank left =>
    rcases lastLine_mem blank with ⟨hb, noBlank⟩ | ⟨l, hl, hb⟩
    · rcases lastLine_mem left with ⟨hm, noLeft⟩ | ⟨l, hl, hm⟩
      · have hblank := List.singleton_inj.1 (describes.part_default noBlank)
        have hleft := List.singleton_inj.1 (describes.part_default noLeft)
        refine .inr ⟨⟨clean, hblank.symm.trans (same.trans hleft), noBlank, noLeft⟩, ?_⟩
        rw [hb, hm, hblank]
        rfl
      · exact .inl ⟨l, hl, by rw [hb, Nat.zero_max, ← hm]; rfl⟩
    · rcases lastLine_mem left with ⟨hm, -⟩ | ⟨l', hl', hm⟩
      · exact .inl ⟨l, hl, by rw [hm, Nat.max_zero, ← hb]; rfl⟩
      · -- Both are set, and the later of the two lines is the one that is reported.
        rw [← hb, ← hm]
        rcases Nat.le_total l.number l'.number with hle | hle
        · exact .inl ⟨l', hl', by rw [Nat.max_eq_right hle]; rfl⟩
        · exact .inl ⟨l, hl, by rw [Nat.max_eq_left hle]; rfl⟩
  | @markerRule spec l q a clean describes differ mem breaks first => exact .inl ⟨l, mem, rfl⟩

lemma not_illFormed_duplicate {tokens : List String} {first : Nat} {q : State} {s : Symbol} :
    ¬ IllFormed tokens (.duplicateRule first q s) := by
  intro h
  cases h

/-- A rule is reported as stated twice on the second of two lines that state it. -/
lemma Classified.twice {n first : Nat} {q : State} {s : Symbol}
    (hnum : ls.Pairwise (·.number < ·.number))
    (h : Classified d ls (.error (.fault n (.duplicateRule first q s)))) :
    ∃ x ∈ ls, ∃ l ∈ ls, x.number = first ∧ l.number = n ∧ first < n ∧
      ∃ a b, StatesRule x.tokens (q, s) a ∧ StatesRule l.tokens (q, s) b := by
  cases h with
  | @offending pre post l f split clean offends =>
    cases offends with
    | itself fault => exact absurd fault not_illFormed_duplicate
    | @duplicate x k a b states mem same =>
      subst split
      have hlt := (List.pairwise_append.1 hnum).2.2 x mem l List.mem_cons_self
      exact ⟨x, List.mem_append_left _ mem, l, List.mem_append_right pre List.mem_cons_self, rfl,
        rfl, hlt, b, a, same, states⟩

lemma DefaultsClash.classified (h : DefaultsClash d ls) :
    Classified d ls (.error (.fault 0 (.blankIsLeftMarker d.blank))) := by
  obtain ⟨draft, -, hf⟩ := Draft.addAll_of_clean d h.clean
  have hblank := List.singleton_inj.1 (hf.describes.part_default h.blank)
  have hleft := List.singleton_inj.1 (hf.describes.part_default h.left)
  have same : draft.spec.blank = draft.spec.left := hblank.trans (h.same.trans hleft.symm)
  have hc := Classified.blankIsLeft h.clean hf.describes same (.none h.blank) (.none h.left)
  rw [hblank] at hc
  exact hc

end Lines

/-- Every error in a description points at a line of the text, and a rule stated twice at the two
lines that state it, except where the description leaves both the blank and the marker to the
defaults and these are the same: that error stands on line 0. -/
theorem error_line_or_clash (d : Defaults) (text : String) :
    (∀ e, parseWith d text = .error e →
      (∃ n, e.PointsAt text n) ∨ e = .fault 0 (.blankIsLeftMarker d.blank)) ∧
    (parseWith d text = .error (.fault 0 (.blankIsLeftMarker d.blank)) ↔
      DefaultsClash d (numbered (layout text.toList))) := by
  have hnum := numbered_pairwise (layout text.toList)
  have hiff : ∀ e, parseWith d text = .error e ↔
      Classified d (numbered (layout text.toList)) (.error e) := by
    intro e
    rw [parseWith_eq]
    exact ofLines_eq_iff hnum
  constructor
  · intro e he
    have hc := (hiff e).1 he
    rcases hc.line_mem with ⟨l, hl, hline⟩ | ⟨-, hclash⟩
    · have hpos : 0 < l.number := (mem_numbered.1 hl).1
      refine .inl ⟨l.number, hline, hpos, (isLine_of_mem hl).le_last, ?_⟩
      intro first q s htwice
      rw [htwice] at hc
      obtain ⟨x, hx, y, hy, rfl, hn, hlt, a, b, states, same⟩ := hc.twice hnum
      rw [← hn] at hlt ⊢
      exact ⟨(mem_numbered.1 hx).1, hlt, x.tokens, y.tokens, a, b, isLine_of_mem hx, states,
        isLine_of_mem hy, same⟩
    · exact .inr hclash
  · rw [hiff]
    constructor
    · intro hc
      rcases hc.line_mem with ⟨l, hl, hline⟩ | ⟨hclash, -⟩
      · have hpos : 0 < l.number := (mem_numbered.1 hl).1
        have hzero : 0 = l.number := Option.some.inj hline
        omega
      · exact hclash
    · exact DefaultsClash.classified

/-- With the same symbol as blank and as marker among the defaults, a text that leaves them alone is
refused on a line that no text has. -/
theorem clashing_defaults_line :
    parseWith { blank := "x", left := "x" } "@start s" =
      .error (.fault 0 (.blankIsLeftMarker "x")) ∧
    (LoadError.fault 0 (.blankIsLeftMarker "x")).line? = some 0 ∧
    ∀ n, ¬ (LoadError.fault 0 (.blankIsLeftMarker "x")).PointsAt "@start s" n := by
  refine ⟨by rw [parseWith_eq]; rfl, rfl, fun n h => ?_⟩
  cases h.line
  exact absurd h.first_le (by decide)

end TapeMachine.Description
