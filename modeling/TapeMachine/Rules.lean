import Std.Data.ExtTreeMap
import TapeMachine.Action

/-! Rule tables: finite maps from the state and the symbol under the head to an action. Two tables
are equal exactly when they give the same actions, and the entries have one listing, in
increasing order of state and symbol. -/
namespace TapeMachine

/-- What a rule is chosen by: the state of the machine and the symbol under its head. -/
abbrev Situation := State × Symbol

namespace Situation

/-- By state, then by symbol; texts are ordered by code points. -/
def order : Situation → Situation → Ordering := compareLex (compareOn Prod.fst) (compareOn Prod.snd)

instance : Std.TransCmp order := inferInstanceAs (Std.TransCmp (compareLex _ _))

instance : Std.LawfulEqCmp order where
  eq_of_compare {a b} h := by
    simpa [order, compareLex, compareOn, Ordering.then_eq_eq, Prod.ext_iff] using h

end Situation

abbrev Table (β : Type) := Std.ExtTreeMap Situation β Situation.order

abbrev Rules := Table Action

theorem Table.ext {β : Type} {t u : Table β} (h : ∀ k : Situation, t[k]? = u[k]?) : t = u :=
  Std.ExtTreeMap.ext_getElem? h

/-- An entry of a table changes for its own situation only. -/
theorem Table.getElem?_insert {β : Type} (t : Table β) (k s : Situation) (v : β) :
    (t.insert k v)[s]? = if k = s then some v else t[s]? := by
  rw [Std.ExtTreeMap.getElem?_insert]
  simp only [Std.LawfulEqCmp.compare_eq_iff_eq]

end TapeMachine
