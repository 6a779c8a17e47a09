import Mathlib.Data.List.Nodup
import Mathlib.Data.List.Pairwise
import TapeMachine.Proofs.Description.Classify

/-! What a loaded description says. The outcome of a description depends on what its lines mean, and
not on where they stand: each part is set by the last directive for it, and the rules are those that
the lines state, one line for each. -/
namespace TapeMachine.Description

section Lines
variable {d : Defaults} {ls : List NumberedLine} {spec : Spec}

lemma keeps_iff (h : Describes d ls spec) :
    (∀ l ∈ ls, ∀ q a, ¬ BreaksMarker spec.left l q a) ↔
      ∀ q a, spec.action? q spec.left = some a → a.KeepsMarker spec.left := by
  constructor
  · intro hkeeps q a ha
    obtain ⟨l, mem, states⟩ := (h.rule (q, spec.left) a).1 ha
    exact Decidable.byContradiction fun hn => hkeeps l mem q a ⟨states, hn⟩
  · intro hkeeps l mem q a hbreaks
    exact hbreaks.2 (hkeeps q a ((h.rule (q, spec.left) a).2 ⟨l, mem, hbreaks.1⟩))

/-- A description is loaded if no line is at fault and the machine keeps the left-marker
contract. -/
theorem classified_ok_iff :
    Classified d ls (.ok spec) ↔ Clean ls ∧ Describes d ls spec ∧ spec.WellMarked := by
  constructor
  · intro h
    cases h with
    | loaded clean describes differ keeps =>
      exact ⟨clean, describes, differ, (keeps_iff describes).1 keeps⟩
  · intro h
    obtain ⟨clean, describes, differ, keeps⟩ := h
    exact .loaded clean describes differ ((keeps_iff describes).2 keeps)

end Lines

lemma parseWith_eq_ok_iff {d : Defaults} {text : String} {spec : Spec} :
    parseWith d text = .ok spec ↔ Clean (numbered (layout text.toList)) ∧
      Describes d (numbered (layout text.toList)) spec ∧ spec.WellMarked := by
  rw [parseWith_eq, ofLines_eq_iff (numbered_pairwise _), classified_ok_iff]

/-- What a line says, if nothing is wrong with the line itself. -/
def meaning? (tokens : List String) : Option Statement := (Statement.ofTokens tokens).toOption

lemma meaning?_eq_some {tokens : List String} {s : Statement} :
    meaning? tokens = some s ↔ Says tokens (.ok s) := by
  rw [← Statement.ofTokens_eq_iff, meaning?]
  cases Statement.ofTokens tokens <;> simp [Except.toOption]

/-- The arguments that a statement gives to a part. -/
def Statement.arguments? (k : Keyword) : Statement → Option (List String)
  | directive k' arguments => if k' = k then some arguments else none
  | rule _ _ => none

/-- The rule that a statement states. -/
def Statement.rule? : Statement → Option (Situation × Action)
  | directive _ _ => none
  | rule k a => some (k, a)

def argumentsOf? (k : Keyword) (tokens : List String) : Option (List String) :=
  (meaning? tokens).bind (Statement.arguments? k)

def ruleOf? (tokens : List String) : Option (Situation × Action) :=
  (meaning? tokens).bind Statement.rule?

/-- The arguments that lines give to a part, in order. -/
def argumentsFor (k : Keyword) (tss : List (List String)) : List (List String) :=
  tss.filterMap (argumentsOf? k)

/-- The rules that lines state, in order. -/
def statedRules (tss : List (List String)) : List (Situation × Action) := tss.filterMap ruleOf?

section Meaning
variable {tokens args : List String} {k : Keyword} {s : Situation} {a : Action}

lemma Statement.arguments?_eq_some {t : Statement} :
    t.arguments? k = some args ↔ t = .directive k args := by
  cases t with
  | directive k' arguments =>
    rw [arguments?, Option.ite_none_right_eq_some, Option.some_inj, directive.injEq]
  | rule => simp [arguments?]

lemma Statement.rule?_eq_some {t : Statement} : t.rule? = some (s, a) ↔ t = .rule s a := by
  cases t <;> simp [rule?]

lemma argumentsOf?_eq_some : argumentsOf? k tokens = some args ↔ Sets tokens k args := by
  simp only [argumentsOf?, Option.bind_eq_some_iff, Statement.arguments?_eq_some]
  simp only [exists_eq_right, meaning?_eq_some, Says]

lemma ruleOf?_eq_some : ruleOf? tokens = some (s, a) ↔ StatesRule tokens s a := by
  simp only [ruleOf?, Option.bind_eq_some_iff, Statement.rule?_eq_some]
  simp only [exists_eq_right, meaning?_eq_some, Says]

lemma mem_statedRules {tss : List (List String)} :
    (s, a) ∈ statedRules tss ↔ ∃ ts ∈ tss, StatesRule ts s a := by
  simp only [statedRules, List.mem_filterMap, ruleOf?_eq_some]

end Meaning

section Clean
variable {ls : List NumberedLine} {l : NumberedLine}

/-- Two lines do not state rules for one situation. -/
def Apart (x y : NumberedLine) : Prop :=
  ∀ k a b, StatesRule x.tokens k a → ¬ StatesRule y.tokens k b

instance : Std.Symm Apart := ⟨fun _ _ h k a b hy hx => h k b a hx hy⟩

/-- Nothing is wrong with a line that says something and is apart from all lines before it. -/
lemma not_offends_iff : (∀ f, ¬ Offends ls l.tokens f) ↔
    (∃ s, Says l.tokens (.ok s)) ∧ ∀ x ∈ ls, Apart x l := by
  constructor
  · intro h
    refine ⟨?_, fun x hx k a b hstates hsame => h _ (.duplicate hsame hx hstates)⟩
    obtain ⟨f | s, hsays⟩ := Statement.exists_says l.tokens
    · exact absurd (.itself hsays) (h f)
    · exact ⟨s, hsays⟩
  · rintro ⟨⟨s, hsays⟩, apart⟩ f hoffends
    cases hoffends with
    | itself fault =>
      have hf := Statement.ofTokens_of_illFormed fault
      rw [Statement.ofTokens_eq_iff.2 hsays] at hf
      cases hf
    | duplicate states mem same => exact apart _ mem _ _ _ same states

/-- No line is at fault if every line says something and any two of them are apart. -/
theorem clean_iff :
    Clean ls ↔ (∀ l ∈ ls, ∃ s, Says l.tokens (.ok s)) ∧ ls.Pairwise Apart := by
  induction ls using List.reverseRecOn with
  | nil => simp [clean_nil]
  | append_singleton ls l ih =>
    have hpairwise : (ls ++ [l]).Pairwise Apart ↔ ls.Pairwise Apart ∧ ∀ x ∈ ls, Apart x l := by
      simp [List.pairwise_append]
    rw [clean_snoc, ih, not_offends_iff, forall_snoc, hpairwise]
    exact and_and_and_comm

lemma nodup_statedRules_iff :
    ((statedRules (ls.map NumberedLine.tokens)).map Prod.fst).Nodup ↔ ls.Pairwise Apart := by
  rw [List.Nodup, List.pairwise_map, statedRules, List.pairwise_filterMap, List.pairwise_map]
  refine List.Pairwise.iff fun x y => ?_
  simp only [Prod.forall, ruleOf?_eq_some, Apart]
  constructor
  · intro h q x a b hx hy
    exact h q x a hx q x b hy rfl
  · intro h q x a hx q' x' b hy heq
    cases heq
    exact h q x a b hx hy

/-- A situation has its rule from one line. -/
theorem eq_of_statesRule (hc : Clean ls) {l' : NumberedLine} {k : Situation} {a b : Action}
    (hl : l ∈ ls) (hl' : l' ∈ ls) (states : StatesRule l.tokens k a)
    (states' : StatesRule l'.tokens k b) : l = l' := by
  by_contra hne
  exact (clean_iff.1 hc).2.forall hl hl' hne k a b states states'

end Clean

section Parts
variable {k : Keyword} {ls : List NumberedLine} {o : Option (Nat × List String)}

lemma exists_lastSet (k : Keyword) (ls : List NumberedLine) : ∃ o, LastSet k ls o := by
  induction ls using List.reverseRecOn with
  | nil => exact ⟨none, lastSet_nil.2 rfl⟩
  | append_singleton ls l ih =>
    by_cases hl : ∃ args, Sets l.tokens k args
    · obtain ⟨args, sets⟩ := hl
      exact ⟨_, lastSet_snoc.2 (.inl ⟨args, sets, rfl⟩)⟩
    · obtain ⟨o, ho⟩ := ih
      exact ⟨o, lastSet_snoc.2 (.inr ⟨fun args sets => hl ⟨args, sets⟩, ho⟩)⟩

lemma argumentsFor_eq_nil (h : ∀ l ∈ ls, ∀ args, ¬ Sets l.tokens k args) :
    argumentsFor k (ls.map NumberedLine.tokens) = [] := by
  rw [argumentsFor, List.filterMap_eq_nil_iff, List.forall_mem_map]
  intro l hl
  rw [Option.eq_none_iff_forall_ne_some]
  exact fun args hargs => h l hl args (argumentsOf?_eq_some.1 hargs)

/-- The last directive for a part gives the last of its arguments. -/
lemma LastSet.getLast?_argumentsFor (h : LastSet k ls o) :
    (argumentsFor k (ls.map NumberedLine.tokens)).getLast? = o.map Prod.snd := by
  cases h with
  | none unset =>
    rw [argumentsFor_eq_nil unset]
    rfl
  | @some pre post l arguments sets last =>
    have hpost := argumentsFor_eq_nil last
    rw [argumentsFor] at hpost ⊢
    rw [List.map_append, List.map_cons, List.filterMap_append,
      List.filterMap_cons_some (argumentsOf?_eq_some.2 sets), hpost]
    simp

end Parts

/-- The lines of a description, given by their tokens, make up a machine: each of them says
something, no two state rules for one situation, each part is set by the last directive for it, the
rules are those that are stated, and the left-marker contract holds. -/
structure Loads (d : Defaults) (tss : List (List String)) (spec : Spec) : Prop where
  meaningful : ∀ ts ∈ tss, (meaning? ts).isSome
  distinct : ((statedRules tss).map Prod.fst).Nodup
  part (k : Keyword) :
    k.part spec = (argumentsFor k tss).getLast?.getD (k.part (Spec.ofDefaults d))
  rule (k : Situation) (a : Action) : spec.action? k.1 k.2 = some a ↔ (k, a) ∈ statedRules tss
  marked : spec.WellMarked

section Loads
variable {d : Defaults} {ls : List NumberedLine} {tss : List (List String)} {spec : Spec}

lemma meaningful_iff :
    (∀ ts ∈ ls.map NumberedLine.tokens, (meaning? ts).isSome) ↔
      ∀ l ∈ ls, ∃ s, Says l.tokens (.ok s) := by
  simp only [List.forall_mem_map, Option.isSome_iff_exists, meaning?_eq_some]

lemma part_iff (k : Keyword) :
    (∃ o, LastSet k ls o ∧ k.part spec = (o.map Prod.snd).getD (k.part (Spec.ofDefaults d))) ↔
      k.part spec = (argumentsFor k (ls.map NumberedLine.tokens)).getLast?.getD
        (k.part (Spec.ofDefaults d)) := by
  constructor
  · rintro ⟨o, ho, hpart⟩
    rw [hpart, ho.getLast?_argumentsFor]
  · intro hpart
    obtain ⟨o, ho⟩ := exists_lastSet k ls
    exact ⟨o, ho, by rw [hpart, ho.getLast?_argumentsFor]⟩

/-- Where lines stand, and how they are numbered, does not decide whether they are loaded. -/
theorem loads_iff : Loads d (ls.map NumberedLine.tokens) spec ↔
    Clean ls ∧ Describes d ls spec ∧ spec.WellMarked := by
  have hrule : ∀ k a, (k, a) ∈ statedRules (ls.map NumberedLine.tokens) ↔
      ∃ l ∈ ls, StatesRule l.tokens k a := by
    intro k a
    simp [mem_statedRules]
  rw [clean_iff, ← meaningful_iff, ← nodup_statedRules_iff]
  constructor
  · intro h
    exact ⟨⟨h.meaningful, h.distinct⟩, ⟨fun k => (part_iff k).2 (h.part k),
      fun k a => (h.rule k a).trans (hrule k a)⟩, h.marked⟩
  · rintro ⟨⟨meaningful, distinct⟩, describes, marked⟩
    exact ⟨meaningful, distinct, fun k => (part_iff k).1 (describes.part k),
      fun k a => (describes.rule k a).trans (hrule k a).symm, marked⟩

end Loads

section Directives
variable {tokens args : List String} {name : String} {k : Keyword} {s : Situation} {a : Action}

/-- The name of a directive, as it is written. -/
def directiveName? : List String → Option String
  | [] => none
  | first :: _ =>
    match first.toList with
    | '@' :: name => some (String.ofList name)
    | _ => none

lemma directiveName?_eq_some :
    directiveName? tokens = some name ↔ ∃ arguments, tokens = ("@" ++ name) :: arguments := by
  have hname : ("@" ++ name).toList = '@' :: name.toList := String.toList_append
  constructor
  · intro h
    unfold directiveName? at h
    split at h
    · cases h
    · next first rest =>
      split at h <;> cases h
      next name hfirst =>
      refine ⟨rest, congrArg (· :: rest) ?_⟩
      rw [← String.toList_inj, hfirst, String.toList_append]
      simp
  · rintro ⟨arguments, rfl⟩
    simp [directiveName?, hname]

instance : DecidablePred IsDirective := fun tokens =>
  decidable_of_iff ((directiveName? tokens).isSome = true) <| by
    simp only [Option.isSome_iff_exists, directiveName?_eq_some, IsDirective]

lemma Sets.arguments (h : Sets tokens k args) : args ≠ [] ∧ ∀ t ∈ args, t ∈ tokens := by
  cases h with
  | single => simp
  | list _ _ nonempty => exact ⟨nonempty, fun t ht => List.mem_cons_of_mem _ ht⟩

lemma Sets.isDirective (h : Sets tokens k args) : IsDirective tokens := by
  cases h with
  | single => exact ⟨_, _, rfl⟩
  | list => exact ⟨_, _, rfl⟩

lemma StatesRule.not_isDirective (h : StatesRule tokens s a) : ¬ IsDirective tokens := by
  cases h with
  | mk plain => exact plain

end Directives

section Count
variable {d : Defaults} {ls : List NumberedLine} {tss : List (List String)} {spec : Spec}

/-- A line that says something is a directive for a part, or it states a rule. -/
lemma sets_or_statesRule {tokens : List String} {s : Statement} (h : Says tokens (.ok s)) :
    IsDirective tokens ∧ (∃ k args, Sets tokens k args) ∨
      ¬ IsDirective tokens ∧ ∃ k a, StatesRule tokens k a := by
  match s, h with
  | .directive k args, sets => exact .inl ⟨sets.isDirective, k, args, sets⟩
  | .rule k a, states => exact .inr ⟨states.not_isDirective, k, a, states⟩

/-- There are as many rules as lines that are not directives. -/
lemma length_statedRules (h : ∀ l ∈ ls, ∃ s, Says l.tokens (.ok s)) :
    (statedRules (ls.map NumberedLine.tokens)).length =
      ls.countP fun l => ¬ IsDirective l.tokens := by
  rw [statedRules, List.length_filterMap_eq_countP, List.countP_map]
  refine List.countP_congr fun l hl => ?_
  obtain ⟨s, hs⟩ := h l hl
  have hrule : (ruleOf? l.tokens).isSome ↔ ∃ k a, StatesRule l.tokens k a := by
    simp only [Option.isSome_iff_exists, Prod.exists, ruleOf?_eq_some]
  rw [Function.comp_apply, hrule, decide_eq_true_eq]
  rcases sets_or_statesRule hs with ⟨directive, k, args, sets⟩ | ⟨plain, states⟩
  · exact iff_of_false (fun ⟨k, a, states⟩ => sets.not_statesRule states) (not_not.2 directive)
  · exact iff_of_true states plain

lemma mem_listing {r : Situation × Action} :
    r ∈ spec.listing ↔ spec.action? r.1.1 r.1.2 = some r.2 :=
  Std.ExtTreeMap.mem_toList_iff_getElem?_eq_some

lemma nodup_listing (spec : Spec) : (spec.listing.map Prod.fst).Nodup := by
  rw [List.Nodup, List.pairwise_map]
  refine Std.ExtTreeMap.distinct_keys_toList.imp fun hne heq => hne ?_
  rw [heq]
  exact Std.ReflCmp.compare_self

/-- A table has one entry for each of the rules that are stated. -/
lemma Loads.size_rules (h : Loads d tss spec) : spec.rules.size = (statedRules tss).length := by
  have hperm : spec.listing.Perm (statedRules tss) := by
    rw [List.perm_ext_iff_of_nodup (nodup_listing spec).of_map h.distinct.of_map]
    exact fun r => mem_listing.trans (h.rule r.1 r.2)
  rw [← Std.ExtTreeMap.length_toList]
  exact hperm.length_eq

end Count

lemma part_ne_nil {d : Defaults} {ls : List NumberedLine} {spec : Spec} (h : Describes d ls spec)
    (k : Keyword) : k.part spec ≠ [] := by
  obtain ⟨o, ho, hpart⟩ := h.part k
  rw [hpart]
  cases ho with
  | none => cases k <;> exact List.cons_ne_nil _ _
  | some sets => exact sets.arguments.1

/-- A loaded machine is what its description says. Each part has the arguments of the last directive
for it, or the default; the rules are those that the lines state, each of them on a single line, and
there are as many as lines that are not directives; and there are halting states of all kinds, so
that the machine falls into a halting state where no rule applies. -/
theorem loaded_says {d : Defaults} {text : String} {spec : Spec}
    (h : parseWith d text = .ok spec) :
    let ls := numbered (layout text.toList)
    (∀ k : Keyword, ∃ o, LastSet k ls o ∧
      k.part spec = (o.map Prod.snd).getD (k.part (Spec.ofDefaults d))) ∧
    (∀ q x a, spec.action? q x = some a ↔ ∃ l ∈ ls, StatesRule l.tokens (q, x) a) ∧
    (∀ q x a, spec.action? q x = some a → ∃! l, l ∈ ls ∧ ∃ b, StatesRule l.tokens (q, x) b) ∧
    (∀ l ∈ ls, IsDirective l.tokens ∧ (∃ k args, Sets l.tokens k args) ∨
      ¬ IsDirective l.tokens ∧ ∃ k a, StatesRule l.tokens k a) ∧
    spec.rules.size = (ls.countP fun l => ¬ IsDirective l.tokens) ∧
    spec.accept ≠ [] ∧ spec.reject ≠ [] ∧ spec.halt ≠ [] ∧
    spec.isHalting spec.haltState = true := by
  intro ls
  obtain ⟨clean, describes, marked⟩ := parseWith_eq_ok_iff.1 h
  have hsays := (clean_iff.1 clean).1
  have hrule : ∀ q x a, spec.action? q x = some a ↔ ∃ l ∈ ls, StatesRule l.tokens (q, x) a :=
    fun q x => describes.rule (q, x)
  refine ⟨describes.part, hrule, fun q x a ha => ?_, fun l hl => ?_, ?_,
    part_ne_nil describes .accept, part_ne_nil describes .reject, part_ne_nil describes .halt,
    Spec.isHalting_haltState (part_ne_nil describes .halt)⟩
  · obtain ⟨l, hl, states⟩ := (hrule q x a).1 ha
    refine ⟨l, ⟨hl, a, states⟩, fun l' hl' => ?_⟩
    obtain ⟨hmem, b, states'⟩ := hl'
    exact eq_of_statesRule clean hmem hl states' states
  · obtain ⟨s, hs⟩ := hsays l hl
    exact sets_or_statesRule hs
  · rw [(loads_iff.2 ⟨clean, describes, marked⟩).size_rules, length_statedRules hsays]

/-- Two parts are set twice, and once in capitals. -/
def revised : String := "@HALT a b\n@blank _\ns 1 -> t 1 right # go\n@halt done stop\n@blank -\n"

def revisedSpec : Spec :=
  { Spec.ofDefaults {} with
    blank := "-"
    halt := ["done", "stop"]
    rules := (∅ : Rules).insert ("s", "1") ⟨"t", "1", .right⟩ }

theorem loaded_says_revised :
    let ls := numbered (layout revised.toList)
    parseWith {} revised = .ok revisedSpec ∧
    (∀ k : Keyword, ∃ o, LastSet k ls o ∧
      k.part revisedSpec = (o.map Prod.snd).getD (k.part (Spec.ofDefaults {}))) ∧
    (∃! l, l ∈ ls ∧ ∃ a, StatesRule l.tokens ("s", "1") a) ∧
    revisedSpec.rules.size = (ls.countP fun l => ¬ IsDirective l.tokens) ∧
    revisedSpec.isHalting revisedSpec.haltState = true := by
  intro ls
  have hload : parseWith {} revised = .ok revisedSpec := by decide +kernel
  have hrule : revisedSpec.action? "s" "1" = some ⟨"t", "1", .right⟩ := by decide +kernel
  obtain ⟨part, -, unique, -, size, -, -, -, halting⟩ := loaded_says hload
  exact ⟨hload, part, unique _ _ _ hrule, size, halting⟩

end TapeMachine.Description
