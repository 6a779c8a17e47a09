import Mathlib.Data.List.Nodup
import TapeMachine.Proofs.Description.Drafts
import TapeMachine.Proofs.Description.Reading
import TapeMachine.Proofs.Description.Splitting

/-! Every text is classified: it is the first line at fault that is reported, and where no line is
at fault the left-marker contract decides. -/
namespace TapeMachine.Description

/-- A line states a rule on the marker that does not keep it. -/
def BreaksMarker (left : Symbol) (l : NumberedLine) (q : State) (a : Action) : Prop :=
  StatesRule l.tokens (q, left) a ∧ ¬ (a.write = left ∧ a.move = .right)

/-- What becomes of the lines of a description. -/
inductive Classified (d : Defaults) (ls : List NumberedLine) : Except LoadError Spec → Prop where
  | offending {pre post : List NumberedLine} {l : NumberedLine} {f : Fault}
      (split : ls = pre ++ l :: post) (clean : Clean pre) (offends : Offends pre l.tokens f) :
      Classified d ls (.error (.fault l.number f))
  | blankIsLeft {spec : Spec} {b m : Option (Nat × List String)} (clean : Clean ls)
      (describes : Describes d ls spec) (same : spec.blank = spec.left)
      (blank : LastSet .blank ls b) (left : LastSet .left ls m) :
      Classified d ls
        (.error (.fault (max (lastLine b) (lastLine m)) (.blankIsLeftMarker spec.blank)))
  | markerRule {spec : Spec} {l : NumberedLine} {q : State} {a : Action} (clean : Clean ls)
      (describes : Describes d ls spec) (differ : spec.blank ≠ spec.left) (mem : l ∈ ls)
      (breaks : BreaksMarker spec.left l q a)
      (first : ∀ x ∈ ls, ∀ q' a', BreaksMarker spec.left x q' a' → l.number ≤ x.number) :
      Classified d ls (.error (.fault l.number (.leftMarkerRule q spec.left a)))
  | loaded {spec : Spec} (clean : Clean ls) (describes : Describes d ls spec)
      (differ : spec.blank ≠ spec.left) (keeps : ∀ x ∈ ls, ∀ q a, ¬ BreaksMarker spec.left x q a) :
      Classified d ls (.ok spec)

namespace Violation

lemma foldl_least (v : Violation) (vs : List Violation) :
    vs.foldl (fun best w => if w.line < best.line then w else best) v ∈ v :: vs ∧
      ∀ w ∈ v :: vs,
        (vs.foldl (fun best w => if w.line < best.line then w else best) v).line ≤ w.line := by
  induction vs generalizing v with
  | nil => simp
  | cons w vs ih =>
    rw [List.foldl_cons]
    by_cases hw : w.line < v.line
    · rw [if_pos hw]
      obtain ⟨hm, hl⟩ := ih w
      refine ⟨List.mem_cons_of_mem v hm, fun x hx => ?_⟩
      rcases List.mem_cons.1 hx with rfl | hx
      · have := hl w List.mem_cons_self
        omega
      · exact hl x hx
    · rw [if_neg hw]
      obtain ⟨hm, hl⟩ := ih v
      refine ⟨?_, fun x hx => ?_⟩
      · rcases List.mem_cons.1 hm with h | h
        · rw [h]
          exact List.mem_cons_self
        · exact List.mem_cons_of_mem v (List.mem_cons_of_mem w h)
      · rcases List.mem_cons.1 hx with rfl | hx
        · exact hl x List.mem_cons_self
        rcases List.mem_cons.1 hx with rfl | hx
        · have := hl v List.mem_cons_self
          omega
        · exact hl x (List.mem_cons_of_mem v hx)

/-- The violation that is reported is one, and none stands on an earlier line. -/
theorem least_of_earliest? {vs : List Violation} {v : Violation} (h : earliest? vs = some v) :
    v ∈ vs ∧ ∀ w ∈ vs, v.line ≤ w.line := by
  cases vs with
  | nil => cases h
  | cons w vs =>
    cases h
    exact foldl_least w vs

section Follows
variable {d : Defaults} {ls : List NumberedLine} {draft : Draft} (hf : draft.Follows d ls)
include hf

/-- The violations of what lines describe are those that some line states. -/
theorem mem_all_of_follows {v : Violation} : v ∈ all draft.spec draft.origins ↔
    ∃ l ∈ ls, l.number = v.line ∧ BreaksMarker draft.spec.left l v.state v.action := by
  rw [mem_all]
  constructor
  · intro hv
    obtain ⟨hrule, hkeeps, hline⟩ := hv
    obtain ⟨l, mem, states⟩ := (hf.describes.rule (v.state, draft.spec.left) v.action).1 hrule
    have hl := (hf.rules _ l.number).2 ⟨l, mem, rfl, _, states⟩
    rw [Origins.lineOf, hl] at hline
    exact ⟨l, mem, hline.symm, states, hkeeps⟩
  · intro hv
    obtain ⟨l, mem, hline, states, hkeeps⟩ := hv
    have hl := (hf.rules _ l.number).2 ⟨l, mem, rfl, _, states⟩
    refine ⟨(hf.describes.rule _ _).2 ⟨l, mem, states⟩, hkeeps, ?_⟩
    rw [Origins.lineOf, hl, ← hline]
    rfl

/-- The first line that breaks the contract is the one that is reported. -/
lemma earliest?_of_first {l : NumberedLine} {q : State} {a : Action}
    (hnum : ls.Pairwise (·.number < ·.number)) (mem : l ∈ ls)
    (breaks : BreaksMarker draft.spec.left l q a)
    (first : ∀ x ∈ ls, ∀ q' a', BreaksMarker draft.spec.left x q' a' → l.number ≤ x.number) :
    earliest? (all draft.spec draft.origins) = some ⟨l.number, q, a⟩ := by
  have hv := (mem_all_of_follows hf (v := ⟨l.number, q, a⟩)).2 ⟨l, mem, rfl, breaks⟩
  cases he : earliest? (all draft.spec draft.origins) with
  | none =>
    rw [earliest?_eq_none.1 he] at hv
    cases hv
  | some w =>
    obtain ⟨hw, hleast⟩ := least_of_earliest? he
    obtain ⟨x, hx, hline, hbreaks⟩ := (mem_all_of_follows hf).1 hw
    have hle : w.line ≤ l.number := hleast _ hv
    have hge := first x hx _ _ hbreaks
    have hxl : x.number = l.number := by omega
    have hnodup : (ls.map NumberedLine.number).Nodup :=
      (List.pairwise_map.2 hnum).imp Nat.ne_of_lt
    have hsame := List.inj_on_of_nodup_map hnodup hx mem hxl
    subst hsame
    obtain ⟨hk, ha⟩ := hbreaks.1.unique breaks.1
    cases hk
    rw [← ha, hline]

lemma earliest?_of_keeps
    (keeps : ∀ x ∈ ls, ∀ q a, ¬ BreaksMarker draft.spec.left x q a) :
    earliest? (all draft.spec draft.origins) = none := by
  rw [earliest?_eq_none, List.eq_nil_iff_forall_not_mem]
  intro v hv
  obtain ⟨x, hx, -, breaks⟩ := (mem_all_of_follows hf).1 hv
  exact keeps x hx _ _ breaks

end Follows

end Violation

section Lines
variable {d : Defaults} {ls : List NumberedLine} {r : Except LoadError Spec}

lemma Describes.unique {spec spec' : Spec} (h : Describes d ls spec) (h' : Describes d ls spec') :
    spec = spec' := by
  have hpart : ∀ k : Keyword, k.part spec = k.part spec' := by
    intro k
    obtain ⟨o, ho, hp⟩ := h.part k
    obtain ⟨o', ho', hp'⟩ := h'.part k
    rw [hp, hp', ho.unique ho']
  have hrules : spec.rules = spec'.rules := by
    refine Table.ext fun k => Option.ext fun a => ?_
    exact (h.rule k a).trans (h'.rule k a).symm
  have hblank := List.singleton_inj.1 (hpart .blank)
  have hleft := List.singleton_inj.1 (hpart .left)
  have hstart := List.singleton_inj.1 (hpart .start)
  have haccept := hpart .accept
  have hreject := hpart .reject
  have hhalt := hpart .halt
  cases spec
  cases spec'
  simp_all [Keyword.part]

theorem exists_classified (d : Defaults) (ls : List NumberedLine) : ∃ r, Classified d ls r := by
  cases clean_or_offends ls with
  | inr first =>
    obtain ⟨pre, l, post, f, split, clean, offends⟩ := first
    exact ⟨_, .offending split clean offends⟩
  | inl clean =>
    obtain ⟨draft, -, hf⟩ := Draft.addAll_of_clean d clean
    by_cases hb : draft.spec.blank = draft.spec.left
    · obtain ⟨b, hblank, -⟩ := hf.line .blank _ rfl
      obtain ⟨m, hleft, -⟩ := hf.line .left _ rfl
      exact ⟨_, .blankIsLeft clean hf.describes hb hblank hleft⟩
    cases he : Violation.earliest? (Violation.all draft.spec draft.origins) with
    | none =>
      refine ⟨_, .loaded clean hf.describes hb fun x hx q a breaks => ?_⟩
      have hv := (Violation.mem_all_of_follows hf (v := ⟨x.number, q, a⟩)).2 ⟨x, hx, rfl, breaks⟩
      rw [Violation.earliest?_eq_none.1 he] at hv
      cases hv
    | some v =>
      obtain ⟨hv, hleast⟩ := Violation.least_of_earliest? he
      obtain ⟨l, mem, hline, breaks⟩ := (Violation.mem_all_of_follows hf).1 hv
      refine ⟨_, .markerRule clean hf.describes hb mem breaks fun x hx q a hbreaks => ?_⟩
      rw [hline]
      exact hleast ⟨x.number, q, a⟩ ((Violation.mem_all_of_follows hf).2 ⟨x, hx, rfl, hbreaks⟩)

lemma ofLines_of_addAll {draft : Draft} (h : Draft.addAll ls (Draft.ofDefaults d) = .ok draft) :
    ofLines d ls = (check draft.spec draft.origins).map fun _ => draft.spec := by
  rw [ofLines, h]
  change (check draft.spec draft.origins >>= fun _ => pure draft.spec) = _
  cases check draft.spec draft.origins <;> rfl

/-- No other outcome than the one of its lines is given to a description. -/
theorem ofLines_of_classified (hnum : ls.Pairwise (·.number < ·.number)) (h : Classified d ls r) :
    ofLines d ls = r := by
  cases h with
  | offending split clean offends =>
    rw [split, ofLines, Draft.addAll_of_offends d clean offends]
    rfl
  | blankIsLeft clean describes same blank left =>
    obtain ⟨draft, hdraft, hf⟩ := Draft.addAll_of_clean d clean
    cases hf.describes.unique describes
    obtain ⟨b, hb, hblank⟩ := hf.line .blank _ rfl
    obtain ⟨m, hm, hleft⟩ := hf.line .left _ rfl
    cases hb.unique blank
    cases hm.unique left
    rw [ofLines_of_addAll hdraft, check, if_pos same, hblank, hleft]
    rfl
  | markerRule clean describes differ mem breaks first =>
    obtain ⟨draft, hdraft, hf⟩ := Draft.addAll_of_clean d clean
    cases hf.describes.unique describes
    rw [ofLines_of_addAll hdraft, check, if_neg differ,
      Violation.earliest?_of_first hf hnum mem breaks first]
    rfl
  | loaded clean describes differ keeps =>
    obtain ⟨draft, hdraft, hf⟩ := Draft.addAll_of_clean d clean
    cases hf.describes.unique describes
    rw [ofLines_of_addAll hdraft, check, if_neg differ, Violation.earliest?_of_keeps hf keeps]
    rfl

theorem ofLines_eq_iff (hnum : ls.Pairwise (·.number < ·.number)) :
    ofLines d ls = r ↔ Classified d ls r := by
  refine ⟨?_, ofLines_of_classified hnum⟩
  intro heq
  subst heq
  obtain ⟨r, hr⟩ := exists_classified d ls
  rwa [ofLines_of_classified hnum hr]

end Lines

lemma parseWith_eq (d : Defaults) (text : String) :
    parseWith d text = ofLines d (numbered (layout text.toList)) := by
  rw [parseWith, tokenLines_eq]

/-- Loading gives every text the outcome that its lines have, and no other. -/
theorem parseWith_eq_iff (d : Defaults) (text : String) (r : Except LoadError Spec) :
    parseWith d text = r ↔ Classified d (numbered (layout text.toList)) r := by
  rw [parseWith_eq]
  exact ofLines_eq_iff (numbered_pairwise _)

end TapeMachine.Description
