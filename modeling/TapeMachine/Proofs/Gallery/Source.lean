import Mathlib.Algebra.Order.BigOperators.Group.List
import Mathlib.Algebra.Order.Group.Nat
import TapeMachine.Gallery
import TapeMachine.Proofs.Description.Classify
import TapeMachine.Proofs.Description.Words

/-! The scripts of the gallery, read line by line, their size, and how an exhibit is found by the
name of its script. -/
namespace TapeMachine
open Text Description

/-- A table given by its rows. -/
def Rules.ofRows (rows : List (Situation × Action)) : Rules :=
  Std.ExtTreeMap.ofList rows Situation.order

/-- Where no two rows are for one situation, the table has every row. -/
lemma Rules.getElem?_ofRows {rows : List (Situation × Action)} (hrows : (rows.map Prod.fst).Nodup)
    {k : Situation} {a : Action} (h : (k, a) ∈ rows) : (ofRows rows)[k]? = some a := by
  refine Std.ExtTreeMap.getElem?_ofList_of_mem Std.ReflCmp.compare_self ?_ h
  refine (List.pairwise_map.1 hrows).imp fun hne heq => hne ?_
  exact Std.LawfulEqCmp.eq_of_compare heq

/-- The rules of the machine are these rows, no two of which are for one situation. -/
structure Spec.HasRows (spec : Spec) (rows : List (Situation × Action)) : Prop where
  rules : spec.rules = .ofRows rows
  distinct : (rows.map Prod.fst).Nodup

lemma Spec.HasRows.action?_of_mem {spec : Spec} {rows : List (Situation × Action)}
    (h : spec.HasRows rows) {q : State} {x : Symbol} {a : Action} (ha : ((q, x), a) ∈ rows) :
    spec.action? q x = some a := by
  rw [Spec.action?, h.rules]
  exact Rules.getElem?_ofRows h.distinct ha

/-- No line of the script has a line end inside. -/
def Script.Lined (s : Script) : Prop :=
  (s.lines.all fun l => l.toList.all fun c => !isLineEnd c) = true

/-- A script is read line by line. -/
theorem Script.parse_source {s : Script} (h : s.Lined) : parse s.source =
    ofLines {} (numberWords (s.lines.map fun l => lineWords l.toList)) := by
  have inner : ∀ l ∈ s.lines, ∀ c ∈ l.toList, isLineEnd c = false := by simpa [Lined] using h
  rw [parse, parseWith_eq, source, numbered_layout_join inner]

namespace Script

lemma utf8ByteSize_ofList_le (cs : List Char) :
    (String.ofList cs).utf8ByteSize ≤ 4 * cs.length := by
  induction cs with
  | nil => exact Nat.le_refl 0
  | cons c cs ih =>
    have hc := c.utf8Size_le_four
    rw [utf8ByteSize_ofList_cons, List.length_cons]
    omega

/-- No script has many lines. No line of a script is long, and none has a line end inside. -/
lemma lines_of_mem_all {s : Script} (hs : s ∈ all) : s.lines.length ≤ 40 ∧
    ∀ l ∈ s.lines, l.toList.length ≤ 100 ∧ ∀ c ∈ l.toList, isLineEnd c = false := by
  have checked : s.lines.length ≤ 40 ∧ (s.lines.all fun l =>
      decide (l.toList.length ≤ 100) && l.toList.all fun c => !isLineEnd c) = true := by
    simp only [all, List.mem_cons, List.not_mem_nil, or_false] at hs
    rcases hs with rfl | rfl | rfl | rfl
    all_goals
      refine ⟨by decide, ?_⟩
      simp only [successor, palindrome, unaryAddition, runaway, List.all_cons, List.all_nil]
      repeat rw [String.toList_ofList]
      rfl
  simpa using checked

lemma lined_of_mem_all {s : Script} (hs : s ∈ all) : s.Lined := by
  have inner : ∀ l ∈ s.lines, ∀ c ∈ l.toList, isLineEnd c = false :=
    fun l hl => ((lines_of_mem_all hs).2 l hl).2
  simpa [Lined] using inner

/-- No script is too large to be loaded: a character has at most four bytes. -/
theorem utf8ByteSize_source_le {s : Script} (hs : s ∈ all) : s.source.utf8ByteSize ≤ maxSize := by
  have hlength : s.source.toList.length = (s.lines.map fun l => l.toList.length + 1).sum := by
    simp [source, List.length_flatMap, Function.comp_def]
  obtain ⟨hlines, hshort⟩ := lines_of_mem_all hs
  have hline : ∀ n ∈ s.lines.map (fun l => l.toList.length + 1), n ≤ 101 := by
    intro n hn
    obtain ⟨l, hl, rfl⟩ := List.mem_map.1 hn
    exact Nat.succ_le_succ (hshort l hl).1
  have hsum := List.sum_le_card_nsmul _ 101 hline
  have hsize := utf8ByteSize_ofList_le s.source.toList
  rw [String.ofList_toList, hlength] at hsize
  rw [List.length_map, Nat.nsmul_eq_mul] at hsum
  rw [maxSize]
  omega

end Script

namespace Gallery

lemma nodup_names : (Script.all.map Script.name).Nodup := by decide

/-- A script that describes a machine is found by its name, which no other script has. -/
theorem find?_name {s : Script} {spec : Spec} (hs : s ∈ Script.all)
    (h : parse s.source = .ok spec) : find? s.name = some ⟨s, spec⟩ := by
  rw [find?, all, List.find?_filterMap]
  cases hf : Script.all.find? _ with
  | none =>
    have hnone := List.find?_eq_none.1 hf s hs
    simp [h] at hnone
  | some t =>
    have ht := List.find?_some hf
    have hmem := List.mem_of_find?_eq_some hf
    have hname : t.name = s.name := by
      cases hp : parse t.source with
      | ok spec => simpa [hp] using ht
      | error e => simp [hp] at ht
    cases List.inj_on_of_nodup_map nodup_names hmem hs hname
    rw [Option.bind_some, h]

lemma exists_find? {name : String} (h : name ∈ names) : ∃ e, find? name = some e := by
  rw [names, List.mem_map] at h
  obtain ⟨e, he, rfl⟩ := h
  rw [find?, ← Option.isSome_iff_exists, List.find?_isSome]
  exact ⟨e, he, beq_self_eq_true _⟩

/-- What is found in the gallery is what its script describes. -/
theorem load_of_find? {name : String} {e : Exhibit} (h : find? name = some e) :
    load e.script.source = .ok e.spec := by
  rw [find?, all] at h
  obtain ⟨s, hs, hspec⟩ := List.mem_filterMap.1 (List.mem_of_find?_eq_some h)
  cases hparse : parse s.source with
  | error e => simp [hparse] at hspec
  | ok spec =>
    simp only [hparse, Option.some.injEq] at hspec
    subst hspec
    rw [load, if_neg (Nat.not_lt_of_le (Script.utf8ByteSize_source_le hs)), hparse]

end Gallery
end TapeMachine
