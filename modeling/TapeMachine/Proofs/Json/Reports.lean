import Mathlib.Data.List.Nodup
import TapeMachine.Proofs.Json.Reading

/-! Reports read back. The fields of a structure are found by their names, and the text of a report,
with a field to a line, stands for the report. -/
namespace TapeMachine
open Json

namespace Json

lemma mapM_map {α β γ : Type} {p : α → β} {q : α → γ} {read : β → Option γ} {l : List α}
    (h : ∀ a ∈ l, read (p a) = some (q a)) : (l.map p).mapM read = some (l.map q) := by
  induction l with
  | nil => rfl
  | cons a l ih =>
    obtain ⟨ha, hl⟩ := List.forall_mem_cons.1 h
    simp [List.mapM_cons, ha, ih hl]

/-- Where no two members have one name, a name has one member. -/
lemma filter_name {fields : List (String × Value)} (hnodup : (fields.map Prod.fst).Nodup)
    {field : String × Value} (hfield : field ∈ fields) :
    fields.filter (·.1 == field.1) = [field] := by
  induction fields with
  | nil => cases hfield
  | cons first fields ih =>
    obtain ⟨hfirst, hnodup⟩ := List.nodup_cons.1 hnodup
    rcases List.mem_cons.1 hfield with rfl | hfield
    · have hrest : fields.filter (·.1 == field.1) = [] := by
        refine List.filter_eq_nil_iff.2 fun other hother heq => hfirst ?_
        rw [← eq_of_beq heq]
        exact List.mem_map_of_mem hother
      simp [hrest]
    · have hne : first.1 ≠ field.1 := fun heq => hfirst (heq ▸ List.mem_map_of_mem hfield)
      rw [List.filter_cons_of_neg (by simpa using hne), ih hnodup hfield]

/-- The fields of a structure are found in the object that is made of them. -/
theorem fields?_ofFields (fields : List (String × Value)) (hnodup : (fields.map Prod.fst).Nodup) :
    (Value.ofFields fields).fields? (fields.map Prod.fst) = some (fields.map Prod.snd) := by
  rw [Value.ofFields, Value.fields?, mapM_map (q := id)]
  · rw [List.map_id]
    exact mapM_map fun field hfield => by rw [filter_name hnodup hfield]
  · intro field _
    simp [unescape?_escape]

lemma string?_ofString (s : String) : (Value.ofString s).string? = some s := unescape?_escape s

lemma nat?_ofNat {n : Nat} (hn : n < Text.numberBound) : (Value.ofNat n).nat? = some n := by
  rw [Value.ofNat, Value.nat?, Text.digitsFrom_toDigits hn]
  rfl

end Json

namespace Report
variable {r : Report}

lemma decode?_encode (hr : r.steps < Text.numberBound) : decode? (encode r) = some r := by
  have hfields := fields?_ofFields [("result", .ofString r.result), ("halted", .bool r.halted),
    ("steps", .ofNat r.steps), ("state", .ofString r.state), ("tape", .ofString r.tape)] (by simp)
  simp only [List.map_cons, List.map_nil] at hfields
  simp only [decode?, encode, hfields, string?_ofString, nat?_ofNat hr, Value.bool?]
  rfl

/-- The text of a report, with a field to a line, is read back as the report, whatever white space
follows. -/
theorem readAs?_writePretty (hr : r.steps < Text.numberBound) {s : List Char} (hs : Space s) :
    readAs? Report (writePretty r ++ String.ofList s) = some r := by
  have hreads : ReadsAs (encode r) ((encode r).pretty 0) := by
    refine ReadsAs.pretty_ofFields 0 _ (by simp) fun field hfield => ?_
    simp only [List.mem_cons, List.not_mem_nil, or_false] at hfield
    rcases hfield with rfl | rfl | rfl | rfl | rfl
    · exact .string r.result
    · exact .bool r.halted 1
    · exact .number r.steps
    · exact .string r.state
    · exact .string r.tape
  rw [writePretty, ← String.ofList_append, readAs?, read?_of_readsAs hreads hs]
  exact decode?_encode hr

end Report
end TapeMachine
