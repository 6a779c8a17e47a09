import TapeMachine.Proofs.Description.Loaded
import TapeMachine.Proofs.Rows

/-! Loading a machine whose rules are kept row by row. A row is made for its first rule, so none is
left empty, and the listing of the rules, which is the same in whatever order the rows are met,
decides what the rows are. -/
namespace TapeMachine

lemma Spec.eq_iff_listing_eq {spec spec' : Spec} : spec = spec' ↔
    spec.blank = spec'.blank ∧ spec.left = spec'.left ∧ spec.start = spec'.start ∧
      spec.accept = spec'.accept ∧ spec.reject = spec'.reject ∧ spec.halt = spec'.halt ∧
      spec.listing = spec'.listing := by
  cases spec
  cases spec'
  simp only [mk.injEq, listing, Std.ExtTreeMap.toList_inj]

/-- A machine whose rules are kept row by row. -/
structure RowSpec extends Spec where
  rows : Rows
  rules_eq : rules = rows.table

namespace RowSpec
variable {m m' : RowSpec}

lemma action?_eq (m : RowSpec) (q : State) (s : Symbol) : m.action? q s = m.rows.action? q s := by
  rw [Spec.action?, m.rules_eq, Rows.getElem?_table]

lemma sorted_eq_listing (m : RowSpec) (e : m.rows.Enumeration) : e.sorted = m.listing := by
  rw [e.sorted_eq_toList, Spec.listing, m.rules_eq]

/-- Machines without empty rows do not differ in their rows alone. -/
lemma toSpec_inj (ht : m.rows.Tight) (ht' : m'.rows.Tight) : m.toSpec = m'.toSpec ↔ m = m' := by
  refine ⟨fun h => ?_, congrArg _⟩
  obtain ⟨spec, rows, hrules⟩ := m
  obtain ⟨spec', rows', hrules'⟩ := m'
  cases h
  cases (ht.table_inj ht').1 (hrules.symm.trans hrules')
  rfl

end RowSpec

namespace Description

/-- The machine that the lines so far describe, with its rules in rows. -/
structure RowDraft extends Draft where
  rows : Rows
  rules_eq : spec.rules = rows.table
  tight : rows.Tight

namespace RowDraft

def ofDefaults (d : Defaults) : RowDraft where
  toDraft := Draft.ofDefaults d
  rows := ∅
  rules_eq := Rows.table_empty.symm
  tight := Rows.tight_empty

def addDirective (draft : RowDraft) (number : Nat) (k : Keyword) (arguments : List String) :
    RowDraft where
  toDraft := draft.toDraft.addDirective number k arguments
  rows := draft.rows
  rules_eq := by
    rw [← draft.rules_eq]
    cases k <;> rfl
  tight := draft.tight

def addRule (draft : RowDraft) (number : Nat) (k : Situation) (a : Action) : RowDraft where
  toDraft := draft.toDraft.addRule number k a
  rows := draft.rows.add k a
  rules_eq := by rw [Rows.table_add, ← draft.rules_eq, Draft.addRule]
  tight := draft.tight.add k a

/-- Take over what a line says. -/
def add (draft : RowDraft) (l : NumberedLine) : Except LoadError RowDraft :=
  match Statement.ofTokens l.tokens with
  | .error fault => .error (.fault l.number fault)
  | .ok (.directive k arguments) => .ok (draft.addDirective l.number k arguments)
  | .ok (.rule k a) =>
    match draft.origins.rules[k]? with
    | some first => .error (.fault l.number (.duplicateRule first k.1 k.2))
    | none => .ok (draft.addRule l.number k a)

def addAll : List NumberedLine → RowDraft → Except LoadError RowDraft
  | [], draft => .ok draft
  | l :: ls, draft =>
    match draft.add l with
    | .ok draft => addAll ls draft
    | .error e => .error e

end RowDraft

/-- The machine that a text describes, with its rules in rows. -/
def parseRows (defaults : Defaults) (text : String) : Except LoadError RowSpec :=
  match tokenLines text.toList with
  | .error line => .error (.syntaxError line)
  | .ok lines => do
    let draft ← RowDraft.addAll (numbered lines) (RowDraft.ofDefaults defaults)
    check draft.spec draft.origins
    return ⟨draft.spec, draft.rows, draft.rules_eq⟩

lemma RowDraft.map_add (draft : RowDraft) (l : NumberedLine) :
    (draft.add l).map toDraft = draft.toDraft.add l := by
  rw [add, Draft.add]
  cases Statement.ofTokens l.tokens with
  | error fault => rfl
  | ok statement =>
    cases statement with
    | directive k arguments => rfl
    | rule k a =>
      dsimp only
      cases draft.origins.rules[k]? <;> rfl

lemma RowDraft.map_addAll (ls : List NumberedLine) (draft : RowDraft) :
    (addAll ls draft).map toDraft = Draft.addAll ls draft.toDraft := by
  induction ls generalizing draft with
  | nil => rfl
  | cons l ls ih =>
    rw [addAll, Draft.addAll, ← map_add]
    cases draft.add l with
    | error e => rfl
    | ok next => exact ih next

/-- Rows are kept beside the table, so that they change nothing about loading. -/
theorem map_parseRows (d : Defaults) (text : String) :
    (parseRows d text).map RowSpec.toSpec = parseWith d text := by
  rw [parseRows, parseWith]
  cases tokenLines text.toList with
  | error line => rfl
  | ok lines =>
    have hdraft : Draft.addAll (numbered lines) (Draft.ofDefaults d) = _ :=
      (RowDraft.map_addAll (numbered lines) (RowDraft.ofDefaults d)).symm
    dsimp only
    rw [ofLines, hdraft]
    cases RowDraft.addAll (numbered lines) (RowDraft.ofDefaults d) with
    | error e => rfl
    | ok draft =>
      simp only [bind, Except.bind, Except.map]
      cases check draft.spec draft.origins <;> rfl

/-- No row is made for which there is no rule. -/
theorem tight_of_parseRows {d : Defaults} {text : String} {m : RowSpec}
    (h : parseRows d text = .ok m) : m.rows.Tight := by
  rw [parseRows] at h
  split at h
  · cases h
  · next lines _ =>
    cases hd : RowDraft.addAll (numbered lines) (RowDraft.ofDefaults d) with
    | error e =>
      rw [hd] at h
      cases h
    | ok draft =>
      rw [hd] at h
      simp only [bind, Except.bind] at h
      split at h
      · cases h
      · cases h
        exact draft.tight

/-- The rules of a machine that keeps them in rows have one listing. It is strictly increasing by
state and symbol in the order of their bytes, it has each action exactly if looking into the rows
gives that action, and it has as many entries as the rows have together; so it does not depend on
the order in which the rows, and the symbols in a row, are met. Loading makes no empty rows, and
machines that are loaded are equal if their markers, their start and halting states and their
listings are. -/
theorem listing_canonical :
    (∀ (m : RowSpec) (e : m.rows.Enumeration),
      e.sorted.Pairwise (fun r r' => r.1.Precedes r'.1) ∧
      (∀ q s a, ((q, s), a) ∈ e.sorted ↔ m.rows.action? q s = some a) ∧
      (∀ q s, m.rows.action? q s = m.action? q s) ∧
      e.sorted.length = e.count ∧ e.sorted = m.listing) ∧
    (∀ d text, (parseRows d text).map RowSpec.toSpec = parseWith d text) ∧
    ∀ d text m d' text' m', parseRows d text = .ok m → parseRows d' text' = .ok m' →
      m.rows.Tight ∧ m'.rows.Tight ∧
      (m = m' ↔ m.blank = m'.blank ∧ m.left = m'.left ∧ m.start = m'.start ∧
        m.accept = m'.accept ∧ m.reject = m'.reject ∧ m.halt = m'.halt ∧
        m.listing = m'.listing) := by
  refine ⟨fun m e => ?_, map_parseRows, fun d text m d' text' m' h h' => ?_⟩
  · exact ⟨e.sorted_pairwise, fun q s a => e.mem_sorted, fun q s => (m.action?_eq q s).symm,
      e.length_sorted, m.sorted_eq_listing e⟩
  · have ht := tight_of_parseRows h
    have ht' := tight_of_parseRows h'
    exact ⟨ht, ht', (RowSpec.toSpec_inj ht ht').symm.trans Spec.eq_iff_listing_eq⟩

end Description
end TapeMachine
