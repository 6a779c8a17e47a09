import TapeMachine.Proofs.Json.Reports

/-! Nothing is lost in a JSON form. The text in one line of a move, a mode, an action, run options,
a verdict or a report is read as the value that it was written for, so that a text that is accepted
at all can be written anew without a change in what it stands for. -/
namespace TapeMachine
open Json

namespace Json

section Compact

lemma ReadsAs.compact_bool (b : Bool) : ReadsAs (.bool b) (Value.bool b).compact := by
  have hpretty : (Value.bool b).compact = (Value.bool b).pretty 0 := by
    simp only [Value.compact, Value.pretty]
  rw [hpretty]
  exact .bool b 0

lemma ReadsAs.compact_ofString (s : String) : ReadsAs (.ofString s) (Value.ofString s).compact := by
  rw [Value.ofString, Value.compact]
  exact .string s

lemma ReadsAs.compact_ofNat (n : Nat) : ReadsAs (.ofNat n) (Value.ofNat n).compact := by
  rw [Value.ofNat, Value.compact]
  exact .number n

lemma readsMembers_compact (k : String) (v : Value) (fields : List (String × Value))
    (hv : ReadsAs v v.compact) (h : ∀ field ∈ fields, ReadsAs field.2 field.2.compact) :
    ReadsMembers ((escape k, v) :: fields.map fun (k, v) => (escape k, v))
      (escape k ++ '"' :: ':' ::
        (v.compact ++ compactMembers (fields.map fun (k, v) => (escape k, v)))) := by
  have hnone : Space [] := by simp [Space]
  induction fields generalizing k v with
  | nil => exact .last hnone hnone hv k
  | cons field fields ih =>
    obtain ⟨hfield, hfields⟩ := List.forall_mem_cons.1 h
    have hrest := ih field.1 field.2 hfield hfields
    have hcons := ReadsMembers.cons hnone hnone hv k hrest
    simpa [compactMembers, quoted] using hcons

/-- An object in one line is read back, if its values are. -/
theorem ReadsAs.compact_ofFields (fields : List (String × Value)) (hne : fields ≠ [])
    (h : ∀ field ∈ fields, ReadsAs field.2 field.2.compact) :
    ReadsAs (.ofFields fields) (Value.ofFields fields).compact := by
  obtain ⟨⟨k, v⟩, fields, rfl⟩ := List.exists_cons_of_ne_nil hne
  obtain ⟨hv, hfields⟩ := List.forall_mem_cons.1 h
  have hnone : Space [] := by simp [Space]
  have hobject := ReadsAs.object hnone (readsMembers_compact k v fields hv hfields)
  simpa [Value.ofFields, Value.compact, quoted] using hobject

end Compact

section Decode
variable {v : Value} {n : Nat}

lemma constructor?_ofString (name : String) :
    (Value.ofString name).constructor? = some (name, none) := by
  simp only [Value.constructor?, Value.ofString, unescape?_escape, Option.map_some]

lemma plainConstructor?_ofString (name : String) :
    (Value.ofString name).plainConstructor? = some name := by
  simp only [Value.plainConstructor?, constructor?_ofString]

lemma lt_of_nat? (h : v.nat? = some n) : n < Text.numberBound := by
  unfold Value.nat? at h
  split at h
  · next literal =>
    cases hd : Text.digitsFrom 0 literal with
    | error e =>
      rw [hd] at h
      cases h
    | ok m =>
      rw [hd] at h
      cases h
      exact Text.lt_of_digitsFrom (by decide) hd
  · cases h

example : (Value.ofNat Text.numberBound).nat? = none := by decide +kernel

end Decode

/-- The JSON form of a value stands for that value and its text in one line is read as the form; and
what a form stands for fits. -/
structure Faithful (α : Type) [Coded α] (fits : α → Prop) : Prop where
  decode?_encode (a : α) : fits a → decode? (encode a) = some a
  fits_of_decode? (v : Value) (a : α) : decode? v = some a → fits a
  readsAs (a : α) : ReadsAs (encode a) (encode a).compact

/-- What a text stands for, written anew in one line. -/
def rewritten? (α : Type) [Coded α] (text : String) : Option String :=
  (readAs? α text).map write

/-- Values that fit, and no others, are read from texts; they are read from the texts that are
written for them, which therefore differ; and a text that has been written anew stays as it is. -/
structure Lossless (α : Type) [Coded α] (fits : α → Prop) : Prop where
  readAs?_write (a : α) : fits a → readAs? α (write a) = some a
  fits_of_readAs? (text : String) (a : α) : readAs? α text = some a → fits a
  write_injective (a b : α) : fits a → fits b → write a = write b → a = b
  rewritten?_idempotent (text u : String) :
    rewritten? α text = some u → rewritten? α u = some u

theorem Faithful.lossless {α : Type} [Coded α] {fits : α → Prop} (h : Faithful α fits) :
    Lossless α fits := by
  have hread (a : α) (ha : fits a) : readAs? α (write a) = some a := by
    have hvalue := read?_of_readsAs (s := []) (h.readsAs a) (by simp [Space])
    rw [List.append_nil] at hvalue
    rw [readAs?, write, hvalue]
    exact h.decode?_encode a ha
  have hfits (text : String) (a : α) (ha : readAs? α text = some a) : fits a := by
    obtain ⟨v, -, hv⟩ := Option.bind_eq_some_iff.1 ha
    exact h.fits_of_decode? v a hv
  refine ⟨hread, hfits, fun a b ha hb heq => ?_, fun text u hu => ?_⟩
  · have hb' := hread b hb
    rw [← heq, hread a ha] at hb'
    exact Option.some.inj hb'
  · obtain ⟨a, ha, rfl⟩ := Option.map_eq_some_iff.1 hu
    rw [rewritten?, hread a (hfits text a ha)]
    rfl

end Json

lemma Move.faithful : Faithful Move fun _ => True where
  decode?_encode m _ := by
    simp only [decode?, encode, plainConstructor?_ofString]
    cases m <;> rfl
  fits_of_decode? _ _ _ := trivial
  readsAs m := .compact_ofString m.name

lemma Mode.faithful : Faithful Mode fun _ => True where
  decode?_encode m _ := by
    simp only [decode?, encode, plainConstructor?_ofString]
    cases m <;> rfl
  fits_of_decode? _ _ _ := trivial
  readsAs m := .compact_ofString m.name

lemma Action.faithful : Faithful Action fun _ => True where
  decode?_encode a _ := by
    have hfields := fields?_ofFields [("next_state", .ofString a.next),
      ("write", .ofString a.write), ("movement", .ofString a.move.name)] (by simp)
    have hmove := Move.faithful.decode?_encode a.move trivial
    simp only [List.map_cons, List.map_nil] at hfields
    simp only [decode?, encode] at hmove ⊢
    simp only [hfields, string?_ofString, hmove]
    rfl
  fits_of_decode? _ _ _ := trivial
  readsAs a := .compact_ofFields _ (by simp) <| by
    simp [ReadsAs.compact_ofString, Move.faithful.readsAs]

lemma RunOptions.faithful : Faithful RunOptions fun o => o.maxSteps < Text.numberBound where
  decode?_encode o ho := by
    have hfields := fields?_ofFields [("max_steps", .ofNat o.maxSteps),
      ("mode", .ofString o.mode.name)] (by simp)
    have hmode := Mode.faithful.decode?_encode o.mode trivial
    simp only [List.map_cons, List.map_nil] at hfields
    simp only [decode?, encode] at hmode ⊢
    simp only [hfields, nat?_ofNat ho, hmode]
    rfl
  fits_of_decode? v o h := by
    simp only [decode?] at h
    split at h
    · obtain ⟨n, hn, h⟩ := Option.bind_eq_some_iff.1 h
      obtain ⟨mode, -, h⟩ := Option.bind_eq_some_iff.1 h
      cases h
      exact lt_of_nat? hn
    · cases h
  readsAs o := .compact_ofFields _ (by simp) <| by
    simp [ReadsAs.compact_ofNat, Mode.faithful.readsAs]

lemma Verdict.faithful : Faithful Verdict fun _ => True where
  decode?_encode v _ := by
    cases v with
    | accept | reject | diverged =>
      simp only [decode?, encode, constructor?_ofString, plainConstructor?_ofString]
      rfl
    | output content =>
      have hconstructor : (encode (Verdict.output content)).constructor? =
          some ("Output", some (.ofString content)) := by
        simp only [encode, Value.ofFields, List.map_cons, List.map_nil, Value.constructor?,
          unescape?_escape, Option.map_some]
      simp only [decode?, hconstructor, string?_ofString, Option.map_some]
  fits_of_decode? _ _ _ := trivial
  readsAs v := by
    cases v with
    | accept | reject | diverged => exact .compact_ofString _
    | output content => exact .compact_ofFields _ (by simp) (by simp [ReadsAs.compact_ofString])

lemma Report.faithful : Faithful Report fun r => r.steps < Text.numberBound where
  decode?_encode _ hr := decode?_encode hr
  fits_of_decode? v r h := by
    simp only [decode?] at h
    split at h
    · obtain ⟨result, -, h⟩ := Option.bind_eq_some_iff.1 h
      obtain ⟨halted, -, h⟩ := Option.bind_eq_some_iff.1 h
      obtain ⟨steps, hsteps, h⟩ := Option.bind_eq_some_iff.1 h
      obtain ⟨state, -, h⟩ := Option.bind_eq_some_iff.1 h
      obtain ⟨tape, -, h⟩ := Option.bind_eq_some_iff.1 h
      cases h
      exact lt_of_nat? hsteps
    · cases h
  readsAs r := .compact_ofFields _ (by simp) <| by
    simp [ReadsAs.compact_ofString, ReadsAs.compact_bool, ReadsAs.compact_ofNat]

/-- Moves, modes, actions, run options, verdicts and reports are told apart by their JSON texts, and
are read back from them, as far as their numbers are below 2^64; larger ones are not read at all. A
report is also read back from its text with one field to a line, whatever white space follows. -/
theorem Json.forms_lossless :
    Lossless Move (fun _ => True) ∧ Lossless Mode (fun _ => True) ∧
    Lossless Action (fun _ => True) ∧ Lossless Verdict (fun _ => True) ∧
    Lossless RunOptions (fun o => o.maxSteps < Text.numberBound) ∧
    Lossless Report (fun r => r.steps < Text.numberBound) ∧
    ∀ (r : Report) (s : List Char), r.steps < Text.numberBound → Space s →
      readAs? Report (writePretty r ++ String.ofList s) = some r := by
  refine ⟨Move.faithful.lossless, Mode.faithful.lossless, Action.faithful.lossless,
    Verdict.faithful.lossless, RunOptions.faithful.lossless, Report.faithful.lossless, ?_⟩
  intro r s hr hs
  exact Report.readAs?_writePretty hr hs

end TapeMachine
