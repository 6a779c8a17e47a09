import Mathlib.Data.List.Induction
import TapeMachine.Proofs.Description.Meaning

/-! What the lines of a description mean together, and the draft that takes them one after
another: after every line the draft stands for the lines so far. -/
namespace TapeMachine.Description

/-- The last line that sets a part, by its number, with its arguments; `none` if there is no such
line. -/
inductive LastSet (k : Keyword) : List NumberedLine → Option (Nat × List String) → Prop where
  | none {ls : List NumberedLine} (unset : ∀ l ∈ ls, ∀ args, ¬ Sets l.tokens k args) :
      LastSet k ls none
  | some {pre post : List NumberedLine} {l : NumberedLine} {arguments : List String}
      (sets : Sets l.tokens k arguments) (last : ∀ x ∈ post, ∀ args, ¬ Sets x.tokens k args) :
      LastSet k (pre ++ l :: post) (some (l.number, arguments))

/-- The line of the last directive for a part, 0 if there is none. -/
def lastLine (o : Option (Nat × List String)) : Nat := (o.map Prod.fst).getD 0

def Keyword.part : Keyword → Spec → List String
  | .blank, spec => [spec.blank]
  | .left, spec => [spec.left]
  | .start, spec => [spec.start]
  | .accept, spec => spec.accept
  | .reject, spec => spec.reject
  | .halt, spec => spec.halt

/-- The line that is remembered of the directives for a part. -/
def Keyword.line? : Keyword → Origins → Option Nat
  | .blank, origins => some origins.blank
  | .left, origins => some origins.left
  | _, _ => none

/-- The machine that lines describe: the last directive for a part sets it, and the rules are those
that some line states. -/
structure Describes (d : Defaults) (ls : List NumberedLine) (spec : Spec) : Prop where
  part (k : Keyword) : ∃ o, LastSet k ls o ∧
    k.part spec = (o.map Prod.snd).getD (k.part (Spec.ofDefaults d))
  rule (k : Situation) (a : Action) :
    spec.action? k.1 k.2 = some a ↔ ∃ l ∈ ls, StatesRule l.tokens k a

/-- What is wrong with a line that stands after others. -/
inductive Offends (earlier : List NumberedLine) (tokens : List String) : Fault → Prop where
  | itself {f : Fault} (fault : IllFormed tokens f) : Offends earlier tokens f
  | duplicate {first : NumberedLine} {k : Situation} {a b : Action}
      (states : StatesRule tokens k a) (mem : first ∈ earlier)
      (same : StatesRule first.tokens k b) :
      Offends earlier tokens (.duplicateRule first.number k.1 k.2)

/-- No line is at fault, given the lines before it. -/
def Clean (ls : List NumberedLine) : Prop :=
  ∀ pre l post, ls = pre ++ l :: post → ∀ f, ¬ Offends pre l.tokens f

section Lines
variable {tokens args args' : List String} {k k' : Keyword} {s : Situation} {a : Action}

lemma Sets.unique (h : Sets tokens k args) (h' : Sets tokens k' args') : k = k' ∧ args = args' := by
  have hr := (Statement.ofTokens_of_sets h).symm.trans (Statement.ofTokens_of_sets h')
  cases hr
  exact ⟨rfl, rfl⟩

lemma Sets.not_statesRule (h : Sets tokens k args) : ¬ StatesRule tokens s a := by
  intro h'
  have hr := (Statement.ofTokens_of_sets h).symm.trans (Statement.ofTokens_of_statesRule h')
  cases hr

lemma StatesRule.unique {s' : Situation} {a' : Action} (h : StatesRule tokens s a)
    (h' : StatesRule tokens s' a') : s = s' ∧ a = a' := by
  have hr := (Statement.ofTokens_of_statesRule h).symm.trans (Statement.ofTokens_of_statesRule h')
  cases hr
  exact ⟨rfl, rfl⟩

lemma Keyword.part_set_self (h : Sets tokens k args) (spec : Spec) :
    k.part (k.set args spec) = args := by
  cases h with
  | single one => rcases one with rfl | rfl | rfl <;> rfl
  | list many => rcases many with rfl | rfl | rfl <;> rfl

lemma Keyword.part_set_of_ne (h : k' ≠ k) (args : List String) (spec : Spec) :
    k'.part (k.set args spec) = k'.part spec := by
  cases k <;> cases k' <;> first | rfl | exact absurd rfl h

end Lines

/-- Where a line stands in a list that has grown at its end. -/
lemma split_snoc {ls pre post : List NumberedLine} {l x : NumberedLine}
    (h : ls ++ [l] = pre ++ x :: post) :
    (pre = ls ∧ x = l) ∨ ∃ post', post = post' ++ [l] ∧ ls = pre ++ x :: post' := by
  rcases List.eq_nil_or_concat post with rfl | ⟨post', y, rfl⟩
  · obtain ⟨hls, hx⟩ := List.append_inj' h rfl
    cases hx
    exact .inl ⟨hls.symm, rfl⟩
  · rw [List.concat_eq_append, ← List.cons_append, ← List.append_assoc] at h
    obtain ⟨hls, hy⟩ := List.append_inj' h rfl
    cases hy
    exact .inr ⟨post', List.concat_eq_append, hls⟩

lemma forall_snoc {ls : List NumberedLine} {l : NumberedLine} {p : NumberedLine → Prop} :
    (∀ x ∈ ls ++ [l], p x) ↔ (∀ x ∈ ls, p x) ∧ p l := by
  simp [or_imp, forall_and]

lemma exists_snoc {ls : List NumberedLine} {l : NumberedLine} {p : NumberedLine → Prop} :
    (∃ x ∈ ls ++ [l], p x) ↔ (∃ x ∈ ls, p x) ∨ p l := by
  simp [or_and_right, exists_or]

section LastSet
variable {k : Keyword} {ls : List NumberedLine} {l : NumberedLine}
  {o o' : Option (Nat × List String)}

lemma lastSet_nil : LastSet k [] o ↔ o = none := by
  constructor
  · intro h
    generalize hls : ([] : List NumberedLine) = ls at h
    cases h with
    | none => rfl
    | some => simp at hls
  · intro heq
    subst heq
    exact .none (by simp)

lemma lastSet_snoc : LastSet k (ls ++ [l]) o ↔
    (∃ args, Sets l.tokens k args ∧ o = some (l.number, args)) ∨
      (∀ args, ¬ Sets l.tokens k args) ∧ LastSet k ls o := by
  constructor
  · intro h
    generalize hls : ls ++ [l] = all at h
    cases h with
    | none unset =>
      subst hls
      obtain ⟨others, hl⟩ := forall_snoc.1 unset
      exact .inr ⟨hl, .none others⟩
    | some sets last =>
      cases split_snoc hls with
      | inl here =>
        obtain ⟨rfl, rfl⟩ := here
        exact .inl ⟨_, sets, rfl⟩
      | inr before =>
        obtain ⟨post, rfl, rfl⟩ := before
        obtain ⟨others, hl⟩ := forall_snoc.1 last
        exact .inr ⟨hl, .some sets others⟩
  · intro h
    cases h with
    | inl here =>
      obtain ⟨args, sets, rfl⟩ := here
      exact .some sets (by simp)
    | inr before =>
      obtain ⟨unset, h⟩ := before
      cases h with
      | none others => exact .none (forall_snoc.2 ⟨others, unset⟩)
      | some sets last =>
        rw [List.append_assoc, List.cons_append]
        exact .some sets (forall_snoc.2 ⟨last, unset⟩)

lemma LastSet.unique (h : LastSet k ls o) (h' : LastSet k ls o') : o = o' := by
  induction ls using List.reverseRecOn generalizing o o' with
  | nil => rw [lastSet_nil.1 h, lastSet_nil.1 h']
  | append_singleton ls l ih =>
    cases lastSet_snoc.1 h with
    | inl here =>
      obtain ⟨args, sets, rfl⟩ := here
      cases lastSet_snoc.1 h' with
      | inl here' =>
        obtain ⟨args', sets', rfl⟩ := here'
        rw [(sets.unique sets').2]
      | inr before' => exact absurd sets (before'.1 args)
    | inr before =>
      cases lastSet_snoc.1 h' with
      | inl here' =>
        obtain ⟨args', sets', -⟩ := here'
        exact absurd sets' (before.1 args')
      | inr before' => exact ih before.2 before'.2

/-- A directive for another part does not count. -/
lemma LastSet.snoc {k' : Keyword} {args : List String} (h : LastSet k ls o)
    (sets : Sets l.tokens k' args) (hk : k ≠ k') : LastSet k (ls ++ [l]) o :=
  lastSet_snoc.2 (.inr ⟨fun _ h' => hk (h'.unique sets).1, h⟩)

lemma LastSet.snoc_rule {s : Situation} {a : Action} (h : LastSet k ls o)
    (states : StatesRule l.tokens s a) : LastSet k (ls ++ [l]) o :=
  lastSet_snoc.2 (.inr ⟨fun _ sets => sets.not_statesRule states, h⟩)

end LastSet

lemma clean_nil : Clean [] := by
  intro pre l post h
  simp at h

lemma clean_snoc {ls : List NumberedLine} {l : NumberedLine} :
    Clean (ls ++ [l]) ↔ Clean ls ∧ ∀ f, ¬ Offends ls l.tokens f := by
  constructor
  · intro h
    refine ⟨?_, h ls l [] rfl⟩
    intro pre x post hls
    subst hls
    exact h pre x (post ++ [l]) (by simp)
  · intro h pre x post hsplit
    obtain ⟨hls, hl⟩ := h
    cases split_snoc hsplit with
    | inl here =>
      obtain ⟨rfl, rfl⟩ := here
      exact hl
    | inr before =>
      obtain ⟨post', -, hpre⟩ := before
      exact hls pre x post' hpre

/-- Lines are clean, or there is a first line at fault. -/
theorem clean_or_offends (ls : List NumberedLine) :
    Clean ls ∨ ∃ pre l post f, ls = pre ++ l :: post ∧ Clean pre ∧ Offends pre l.tokens f := by
  induction ls using List.reverseRecOn with
  | nil => exact .inl clean_nil
  | append_singleton ls l ih =>
    cases ih with
    | inl hc =>
      by_cases hl : ∃ f, Offends ls l.tokens f
      · obtain ⟨f, ho⟩ := hl
        exact .inr ⟨ls, l, [], f, rfl, hc, ho⟩
      · exact .inl (clean_snoc.2 ⟨hc, fun f ho => hl ⟨f, ho⟩⟩)
    | inr first =>
      obtain ⟨pre, x, post, f, rfl, hc, ho⟩ := first
      exact .inr ⟨pre, x, post ++ [l], f, by simp, hc, ho⟩

section Describes
variable {d : Defaults} {ls : List NumberedLine} {l : NumberedLine} {spec : Spec}

lemma Describes.snoc_directive {k : Keyword} {args : List String} (h : Describes d ls spec)
    (sets : Sets l.tokens k args) : Describes d (ls ++ [l]) (k.set args spec) := by
  constructor
  · intro k'
    by_cases hk : k' = k
    · subst hk
      exact ⟨_, lastSet_snoc.2 (.inl ⟨args, sets, rfl⟩), Keyword.part_set_self sets _⟩
    · obtain ⟨o, ho, hp⟩ := h.part k'
      exact ⟨o, ho.snoc sets hk, (Keyword.part_set_of_ne hk args _).trans hp⟩
  · intro s a
    rw [exists_snoc, or_iff_left sets.not_statesRule, ← h.rule]
    simp [Spec.action?]

lemma Describes.snoc_rule {k : Situation} {a : Action} (h : Describes d ls spec)
    (states : StatesRule l.tokens k a) (hnew : ∀ x ∈ ls, ∀ b, ¬ StatesRule x.tokens k b) :
    Describes d (ls ++ [l]) { spec with rules := spec.rules.insert k a } := by
  constructor
  · intro k'
    obtain ⟨o, ho, hp⟩ := h.part k'
    refine ⟨o, ho.snoc_rule states, Eq.trans ?_ hp⟩
    cases k' <;> rfl
  · intro s b
    rw [exists_snoc, ← h.rule]
    simp only [Spec.action?]
    rw [Table.getElem?_insert]
    by_cases hs : k = s
    · subst hs
      have hspec : ¬ spec.rules[k]? = some b := by
        intro hb
        obtain ⟨x, hx, hsame⟩ := (h.rule k b).1 hb
        exact hnew x hx b hsame
      rw [if_pos rfl, Option.some_inj, or_iff_right hspec]
      constructor
      · intro hab
        exact hab ▸ states
      · intro hb
        exact (states.unique hb).2
    · rw [if_neg hs, or_iff_left fun hb => hs (states.unique hb).1]

end Describes

/-- A draft stands for the lines so far: it describes what they describe and remembers where its
parts come from. -/
structure Draft.Follows (d : Defaults) (ls : List NumberedLine) (draft : Draft) : Prop where
  describes : Describes d ls draft.spec
  line (k : Keyword) (n : Nat) : k.line? draft.origins = some n →
    ∃ o, LastSet k ls o ∧ n = lastLine o
  rules (k : Situation) (n : Nat) : draft.origins.rules[k]? = some n ↔
    ∃ l ∈ ls, l.number = n ∧ ∃ a, StatesRule l.tokens k a

namespace Draft
variable {d : Defaults} {ls : List NumberedLine} {l : NumberedLine} {draft draft' : Draft}

lemma follows_nil (d : Defaults) : Follows d [] (ofDefaults d) where
  describes :=
    { part := fun k => ⟨none, lastSet_nil.2 rfl, rfl⟩
      rule := by simp [ofDefaults, Spec.ofDefaults, Spec.action?] }
  line k n h := by
    refine ⟨none, lastSet_nil.2 rfl, ?_⟩
    cases k <;> cases h <;> rfl
  rules := by simp [ofDefaults]

lemma Follows.addDirective {k : Keyword} {args : List String} (h : Follows d ls draft)
    (sets : Sets l.tokens k args) : Follows d (ls ++ [l]) (draft.addDirective l.number k args) := by
  constructor
  · exact h.describes.snoc_directive sets
  · intro k' n hn
    by_cases hk : k' = k
    · subst hk
      refine ⟨_, lastSet_snoc.2 (.inl ⟨args, sets, rfl⟩), ?_⟩
      cases k' <;> cases hn <;> rfl
    · have hline : k'.line? (draft.addDirective l.number k args).origins =
          k'.line? draft.origins := by
        cases k <;> cases k' <;> first | rfl | exact absurd rfl hk
      obtain ⟨o, ho, hl⟩ := h.line k' n (hline ▸ hn)
      exact ⟨o, ho.snoc sets hk, hl⟩
  · intro s n
    have hs : ¬ (l.number = n ∧ ∃ a, StatesRule l.tokens s a) := by
      intro hs
      obtain ⟨-, a, states⟩ := hs
      exact sets.not_statesRule states
    have hr : (draft.addDirective l.number k args).origins.rules = draft.origins.rules := by
      cases k <;> rfl
    rw [exists_snoc, or_iff_left hs, hr]
    exact h.rules s n

lemma Follows.addRule {k : Situation} {a : Action} (h : Follows d ls draft)
    (states : StatesRule l.tokens k a) (hnew : draft.origins.rules[k]? = none) :
    Follows d (ls ++ [l]) (draft.addRule l.number k a) := by
  have hnone : ∀ x ∈ ls, ∀ b, ¬ StatesRule x.tokens k b := by
    intro x hx b hb
    have hsome := (h.rules k x.number).2 ⟨x, hx, rfl, b, hb⟩
    simp [hnew] at hsome
  constructor
  · exact h.describes.snoc_rule states hnone
  · intro k' n hn
    obtain ⟨o, ho, hl⟩ := h.line k' n (by cases k' <;> exact hn)
    exact ⟨o, ho.snoc_rule states, hl⟩
  · intro s n
    rw [exists_snoc, ← h.rules]
    simp only [Draft.addRule]
    rw [Table.getElem?_insert]
    by_cases hs : k = s
    · subst hs
      rw [if_pos rfl, Option.some_inj, hnew]
      simp only [reduceCtorEq, false_or]
      exact ⟨fun hn => ⟨hn, a, states⟩, fun hn => hn.1⟩
    · have hl : ¬ (l.number = n ∧ ∃ b, StatesRule l.tokens s b) := by
        intro hl
        obtain ⟨-, b, hb⟩ := hl
        exact hs (states.unique hb).1
      rw [if_neg hs, or_iff_left hl]

lemma add_of_offends (h : Follows d ls draft) {f : Fault} (ho : Offends ls l.tokens f) :
    draft.add l = .error (.fault l.number f) := by
  unfold add
  cases ho with
  | itself fault => rw [Statement.ofTokens_of_illFormed fault]
  | @duplicate first k a b states mem same =>
    have hfirst := (h.rules k first.number).2 ⟨first, mem, rfl, b, same⟩
    rw [Statement.ofTokens_of_statesRule states]
    dsimp only
    rw [hfirst]

/-- A line is at fault after the lines that a draft stands for, or the draft takes it and stands
for that line too. -/
theorem Follows.step (h : Follows d ls draft) (l : NumberedLine) :
    (∃ f, Offends ls l.tokens f) ∨
      ∃ draft', draft.add l = .ok draft' ∧ Follows d (ls ++ [l]) draft' := by
  obtain ⟨r, hr⟩ := Statement.exists_says l.tokens
  have ht := Statement.ofTokens_eq_iff.2 hr
  unfold add
  rw [ht]
  rcases r with f | ⟨k, args⟩ | ⟨k, a⟩
  · exact .inl ⟨f, .itself hr⟩
  · exact .inr ⟨_, rfl, h.addDirective hr⟩
  · cases hk : draft.origins.rules[k]? with
    | some n =>
      obtain ⟨first, mem, -, b, same⟩ := (h.rules k n).1 hk
      exact .inl ⟨_, .duplicate hr mem same⟩
    | none => exact .inr ⟨_, by simp [hk], h.addRule hr hk⟩

lemma addAll_append (ls more : List NumberedLine) (draft : Draft) :
    addAll (ls ++ more) draft =
      match addAll ls draft with
      | .ok draft => addAll more draft
      | .error e => .error e := by
  induction ls generalizing draft with
  | nil => rfl
  | cons l ls ih =>
    rw [List.cons_append, addAll, addAll]
    cases draft.add l with
    | ok draft => exact ih draft
    | error e => rfl

/-- Clean lines are all taken, and the draft stands for all of them. -/
theorem addAll_of_clean (d : Defaults) (hc : Clean ls) :
    ∃ draft, addAll ls (ofDefaults d) = .ok draft ∧ Follows d ls draft := by
  induction ls using List.reverseRecOn with
  | nil => exact ⟨_, rfl, follows_nil d⟩
  | append_singleton ls l ih =>
    obtain ⟨hls, hl⟩ := clean_snoc.1 hc
    obtain ⟨draft, hdraft, hf⟩ := ih hls
    cases hf.step l with
    | inl bad =>
      obtain ⟨f, ho⟩ := bad
      exact absurd ho (hl f)
    | inr good =>
      obtain ⟨draft', ha, hf'⟩ := good
      refine ⟨draft', ?_, hf'⟩
      rw [addAll_append, hdraft]
      dsimp only
      rw [addAll, ha]
      rfl

/-- The first line at fault is reported, whatever follows it. -/
theorem addAll_of_offends (d : Defaults) {f : Fault} (hc : Clean ls) (ho : Offends ls l.tokens f)
    (post : List NumberedLine) :
    addAll (ls ++ l :: post) (ofDefaults d) = .error (.fault l.number f) := by
  obtain ⟨draft, hdraft, hf⟩ := addAll_of_clean d hc
  rw [addAll_append, hdraft]
  dsimp only
  rw [addAll, add_of_offends hf ho]

end Draft
end TapeMachine.Description
