import Mathlib.Algebra.GroupWithZero.Nat
import Mathlib.Data.List.Nodup
import Mathlib.Data.List.Sort
import TapeMachine.Proofs.Description.MarkerOrder

/-! Rules kept row by row: for every state a table by symbol. Such a table is met in no particular
order, neither its rows nor what stands in a row, and a row may be empty. Sorted by state and symbol
its rules have one listing all the same, the one of the table that is not divided into rows. -/
namespace TapeMachine
open Text

/-- By state, then by symbol, in the order of their bytes. -/
def Situation.Precedes (k k' : Situation) : Prop :=
  utf8Bytes k.1 < utf8Bytes k'.1 ∨ utf8Bytes k.1 = utf8Bytes k'.1 ∧ utf8Bytes k.2 < utf8Bytes k'.2

instance (k k' : Situation) : Decidable (k.Precedes k') := inferInstanceAs (Decidable (_ ∨ _))

lemma Situation.precedes_iff {k k' : Situation} : k.Precedes k' ↔ order k k' = .lt := by
  have hbytes : utf8Bytes k.1 = utf8Bytes k'.1 ↔ k.1 = k'.1 := by
    refine ⟨fun h => ?_, congrArg _⟩
    rcases lt_trichotomy k.1 k'.1 with hlt | heq | hlt
    · exact absurd (utf8Bytes_lt_iff.2 hlt) (h ▸ List.lt_irrefl _)
    · exact heq
    · exact absurd (utf8Bytes_lt_iff.2 hlt) (h ▸ List.lt_irrefl _)
  rw [Precedes, order_eq_lt_iff, utf8Bytes_lt_iff, utf8Bytes_lt_iff, hbytes]

lemma Situation.precedes_irrefl (k : Situation) : ¬ k.Precedes k := by
  have hself : order k k = .eq := Std.ReflCmp.compare_self
  rw [precedes_iff, hself]
  exact Ordering.noConfusion

lemma Situation.not_precedes_iff {k k' : Situation} : ¬ k'.Precedes k ↔ (order k k').isLE := by
  rw [precedes_iff, ← Std.OrientedCmp.gt_iff_lt, Ordering.isLE_iff_ne_gt]

lemma Situation.precedes_of_not {k k' : Situation} (h : ¬ k'.Precedes k) (hne : k ≠ k') :
    k.Precedes k' := by
  rw [precedes_iff]
  rcases Ordering.isLE_iff_eq_lt_or_eq_eq.1 (not_precedes_iff.1 h) with hlt | heq
  · exact hlt
  · exact absurd (Std.LawfulEqCmp.eq_of_compare heq) hne

lemma Situation.not_precedes_total (k k' : Situation) : ¬ k'.Precedes k ∨ ¬ k.Precedes k' := by
  rw [← not_and_or, precedes_iff, precedes_iff, ← Std.OrientedCmp.gt_iff_lt]
  intro h
  cases h.1.symm.trans h.2

/-- The rules for one state. -/
abbrev Row := Std.ExtTreeMap Symbol Action

/-- The rows by state. -/
abbrev Rows := Std.ExtTreeMap State Row

namespace Rows

def action? (t : Rows) (q : State) (s : Symbol) : Option Action := t[q]?.bind (·[s]?)

/-- Put a rule into the row of its state, which is made if there is none. -/
def add (t : Rows) (k : Situation) (a : Action) : Rows :=
  t.insert k.1 ((t[k.1]?.getD ∅).insert k.2 a)

/-- An order in which a table is met: every state that has a row, once, and in each row every symbol
that has an action, once. -/
structure Enumeration (t : Rows) where
  states : List State
  row : State → List (Symbol × Action)
  nodup_states : states.Nodup
  mem_states (q : State) : q ∈ states ↔ q ∈ t
  nodup_row (q : State) : ((row q).map Prod.fst).Nodup
  mem_row (q : State) (s : Symbol) (a : Action) : (s, a) ∈ row q ↔ t.action? q s = some a

namespace Enumeration
variable {t : Rows} (e : t.Enumeration)

/-- The rules, one row after the other. -/
def flat : List (Situation × Action) :=
  e.states.flatMap fun q => (e.row q).map fun (s, a) => ((q, s), a)

/-- The rules in increasing order of state and symbol. -/
def sorted : List (Situation × Action) := e.flat.mergeSort fun r r' => ¬ r'.1.Precedes r.1

/-- The number of rules, counted row by row. -/
def count : Nat := (e.states.map fun q => (e.row q).length).sum

end Enumeration

/-- No row is empty. -/
def Tight (t : Rows) : Prop := ∀ q : State, t[q]? ≠ some (∅ : Row)

section Action
variable {t : Rows} {q : State} {s : Symbol} {a : Action}

lemma mem_of_action? (h : t.action? q s = some a) : q ∈ t := by
  obtain ⟨row, hrow, -⟩ := Option.bind_eq_some_iff.1 h
  exact Std.ExtTreeMap.mem_iff_isSome_getElem?.2 (hrow ▸ rfl)

lemma action?_empty (q : State) (s : Symbol) : (∅ : Rows).action? q s = none := by
  simp [action?]

/-- A state without a row is like a state whose row is empty. -/
lemma action?_eq_getD (t : Rows) (q : State) (s : Symbol) :
    t.action? q s = (t[q]?.getD ∅)[s]? := by
  rw [action?]
  cases t[q]? <;> simp

/-- A rule is added for its own situation only. -/
lemma action?_add (t : Rows) (k : Situation) (a : Action) (q : State) (s : Symbol) :
    (t.add k a).action? q s = if k = (q, s) then some a else t.action? q s := by
  obtain ⟨q', s'⟩ := k
  rw [action?_eq_getD, action?_eq_getD, add, Std.ExtTreeMap.getElem?_insert]
  simp only [compare_eq_iff_eq, Prod.mk.injEq]
  by_cases hq : q' = q
  · subst hq
    simp [Std.ExtTreeMap.getElem?_insert]
  · simp [hq]

lemma tight_empty : Tight ∅ := by
  simp [Tight]

/-- The row that a rule is put into holds that rule. -/
lemma Tight.add (h : t.Tight) (k : Situation) (a : Action) : (t.add k a).Tight := by
  intro q
  rw [Rows.add, Std.ExtTreeMap.getElem?_insert]
  split
  · simp
  · exact h q

/-- A state has a row if there is something to stand in it. -/
lemma Tight.getElem?_eq (h : t.Tight) (q : State) :
    t[q]? = if t[q]?.getD ∅ = ∅ then none else some (t[q]?.getD ∅) := by
  cases hq : t[q]? with
  | none => simp
  | some row =>
    have hne : row ≠ ∅ := fun hempty => h q (hq.trans (congrArg some hempty))
    simp [hne]

/-- Without empty rows, the actions say which states have a row. -/
theorem Tight.ext {t' : Rows} (ht : t.Tight) (ht' : t'.Tight)
    (h : ∀ q s, t.action? q s = t'.action? q s) : t = t' := by
  refine Std.ExtTreeMap.ext_getElem? fun q => ?_
  have hrow : t[q]?.getD ∅ = t'[q]?.getD ∅ := by
    refine Std.ExtTreeMap.ext_getElem? fun s => ?_
    rw [← action?_eq_getD, ← action?_eq_getD, h]
  rw [ht.getElem?_eq, ht'.getElem?_eq, hrow]

end Action

namespace Enumeration
variable {t : Rows} (e : t.Enumeration)

lemma mem_flat {r : Situation × Action} : r ∈ e.flat ↔ t.action? r.1.1 r.1.2 = some r.2 := by
  obtain ⟨⟨q, s⟩, a⟩ := r
  simp only [flat, List.mem_flatMap, List.mem_map, e.mem_states]
  constructor
  · rintro ⟨q', -, ⟨s', a'⟩, hmem, heq⟩
    cases heq
    exact (e.mem_row _ _ _).1 hmem
  · intro h
    exact ⟨q, mem_of_action? h, (s, a), (e.mem_row _ _ _).2 h, rfl⟩

/-- No situation is met twice: not in one row, since its symbols differ, and not in two, since they
belong to different states. -/
lemma nodup_flat : (e.flat.map Prod.fst).Nodup := by
  rw [flat, List.map_flatMap, List.nodup_flatMap]
  constructor
  · intro q _
    have hkeys : ((e.row q).map fun (s, a) => ((q, s), a)).map Prod.fst =
        ((e.row q).map Prod.fst).map (Prod.mk q) := by
      simp [List.map_map, Function.comp_def]
    rw [hkeys]
    exact (e.nodup_row q).map fun _ _ h => congrArg Prod.snd h
  · refine e.nodup_states.imp fun hne => ?_
    intro k hk hk'
    simp only [List.map_map, List.mem_map, Function.comp_apply] at hk hk'
    obtain ⟨r, -, rfl⟩ := hk
    obtain ⟨r', -, heq⟩ := hk'
    exact hne (congrArg Prod.fst heq).symm

lemma mem_sorted {r : Situation × Action} : r ∈ e.sorted ↔ t.action? r.1.1 r.1.2 = some r.2 := by
  rw [sorted, List.mem_mergeSort, e.mem_flat]

/-- No two rules are for one situation, so the sort leaves nothing open. -/
theorem sorted_pairwise : e.sorted.Pairwise fun r r' => r.1.Precedes r'.1 := by
  have hne : e.sorted.Pairwise fun r r' => r.1 ≠ r'.1 :=
    (List.pairwise_map.1 e.nodup_flat).perm (List.mergeSort_perm _ _).symm fun h => h.symm
  have hle : e.sorted.Pairwise fun r r' => decide (¬ r'.1.Precedes r.1) := by
    refine List.pairwise_mergeSort (fun a b c hab hbc => ?_) (fun a b => ?_) _
    · simp only [decide_eq_true_eq, Situation.not_precedes_iff] at hab hbc ⊢
      exact Std.TransCmp.isLE_trans hab hbc
    · simp only [Bool.or_eq_true, decide_eq_true_eq]
      exact Situation.not_precedes_total _ _
  exact hle.imp₂ (fun _ _ h => Situation.precedes_of_not (of_decide_eq_true h)) hne

lemma length_sorted : e.sorted.length = e.count := by
  rw [sorted, List.length_mergeSort, flat, List.length_flatMap, count]
  simp only [List.length_map]

end Enumeration

/-- The rows and what stands in each of them, by their keys. -/
def enumeration (t : Rows) : t.Enumeration where
  states := t.keys
  row q := (t[q]?.getD ∅).toList
  nodup_states := Std.ExtTreeMap.nodup_keys
  mem_states _ := Std.ExtTreeMap.mem_keys
  nodup_row q := by
    rw [Std.ExtTreeMap.map_fst_toList_eq_keys]
    exact Std.ExtTreeMap.nodup_keys
  mem_row q s a := by
    rw [Std.ExtTreeMap.mem_toList_iff_getElem?_eq_some, action?_eq_getD]

/-- The same rules in a table that is not divided. -/
def table (t : Rows) : Rules := .ofList t.enumeration.flat Situation.order

lemma getElem?_table (t : Rows) (k : Situation) : t.table[k]? = t.action? k.1 k.2 := by
  cases h : t.action? k.1 k.2 with
  | some a =>
    refine Std.ExtTreeMap.getElem?_ofList_of_mem Std.ReflCmp.compare_self ?_
      (t.enumeration.mem_flat.2 h)
    exact (List.pairwise_map.1 t.enumeration.nodup_flat).imp
      fun hne heq => hne (Std.LawfulEqCmp.eq_of_compare heq)
  | none =>
    refine Std.ExtTreeMap.getElem?_ofList_of_contains_eq_false ?_
    rw [List.contains_eq_mem, decide_eq_false_iff_not, List.mem_map]
    rintro ⟨r, hr, rfl⟩
    cases h.symm.trans (t.enumeration.mem_flat.1 hr)

lemma table_empty : table ∅ = ∅ := by
  refine Table.ext fun k => ?_
  rw [getElem?_table, action?_empty, Std.ExtTreeMap.getElem?_empty]

lemma table_add (t : Rows) (k : Situation) (a : Action) :
    (t.add k a).table = t.table.insert k a := by
  refine Table.ext fun k' => ?_
  rw [getElem?_table, action?_add, Table.getElem?_insert, getElem?_table]

theorem Tight.table_inj {t t' : Rows} (ht : t.Tight) (ht' : t'.Tight) :
    t.table = t'.table ↔ t = t' := by
  refine ⟨fun h => ht.ext ht' fun q s => ?_, congrArg _⟩
  rw [← getElem?_table t (q, s), ← getElem?_table t' (q, s), h]

example : (∅ : Rows).insert "q" ∅ ≠ ∅ ∧ Rows.table ((∅ : Rows).insert "q" ∅) = Rows.table ∅ := by
  decide +kernel

/-- Whatever the order in which the rules are met, sorted they are the entries of the undivided
table. -/
theorem Enumeration.sorted_eq_toList {t : Rows} (e : t.Enumeration) :
    e.sorted = t.table.toList := by
  let precedes (r r' : Situation × Action) : Prop := r.1.Precedes r'.1
  have : Std.Irrefl precedes := ⟨fun r => r.1.precedes_irrefl⟩
  have : Std.Antisymm precedes := ⟨fun r r' h h' =>
    (Situation.not_precedes_total r.1 r'.1).elim (absurd h') (absurd h)⟩
  refine List.Pairwise.eq_of_mem_iff (r := precedes) e.sorted_pairwise
    (Std.ExtTreeMap.ordered_keys_toList.imp Situation.precedes_iff.2) ?_
  rintro ⟨k, a⟩
  rw [e.mem_sorted, Std.ExtTreeMap.mem_toList_iff_getElem?_eq_some, getElem?_table]

end Rows

end TapeMachine
