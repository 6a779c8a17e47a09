import TapeMachine.Description.Print
import TapeMachine.Proofs.Description.Loaded
import TapeMachine.Proofs.Description.Words

/-! Which machines have a description, and that the printed description is one. A text is read into
tokens, so every name in a machine that was read is a token; the other way round, each printed line
states one part or one rule of the machine, and no two lines state rules for one situation. -/
namespace TapeMachine.Description
open Text

/-- The machines that can be written down: every name is a token, no list is empty, no line for a
rule looks like a directive, and the left-marker contract holds. -/
structure Writable (spec : Spec) : Prop where
  part (k : Keyword) : k.part spec ≠ [] ∧ ∀ t ∈ k.part spec, IsToken t
  rule (q : State) (x : Symbol) (a : Action) (h : spec.action? q x = some a) :
    IsToken q ∧ IsToken x ∧ IsToken a.next ∧ IsToken a.write
  plain (q : State) (x : Symbol) (a : Action) (h : spec.action? q x = some a) :
    ¬ ∃ name, q = "@" ++ name
  marked : spec.WellMarked

lemma LastSet.exists_mem {k : Keyword} {ls : List NumberedLine} {o : Nat × List String}
    (h : LastSet k ls (.some o)) : ∃ l ∈ ls, Sets l.tokens k o.2 := by
  cases h with
  | some sets => exact ⟨_, List.mem_append_right _ List.mem_cons_self, sets⟩

lemma isToken_default (k : Keyword) :
    k.part (Spec.ofDefaults {}) ≠ [] ∧ ∀ t ∈ k.part (Spec.ofDefaults {}), IsToken t := by
  cases k <;> simp [Keyword.part, Spec.ofDefaults, IsToken] <;> decide

/-- A machine that was read is made of tokens. -/
theorem writable_of_describes {text : List Char} {spec : Spec}
    (h : Describes {} (numbered (layout text)) spec) (marked : spec.WellMarked) :
    Writable spec where
  part k := by
    obtain ⟨o, ho, hpart⟩ := h.part k
    rw [hpart]
    cases o with
    | none => exact isToken_default k
    | some o =>
      obtain ⟨l, hl, sets⟩ := ho.exists_mem
      obtain ⟨hne, hargs⟩ := sets.arguments
      exact ⟨hne, fun t ht => isToken_of_mem_numbered hl (hargs t ht)⟩
  rule q x a ha := by
    obtain ⟨l, hl, states⟩ := (h.rule (q, x) a).1 ha
    have htoken : ∀ t ∈ l.tokens, IsToken t := fun t ht => isToken_of_mem_numbered hl ht
    generalize l.tokens = tokens at states htoken
    cases states
    simp only [List.mem_cons, forall_eq_or_imp] at htoken
    exact ⟨htoken.1, htoken.2.1, htoken.2.2.2.1, htoken.2.2.2.2.1⟩
  plain q x a ha := by
    obtain ⟨l, -, states⟩ := (h.rule (q, x) a).1 ha
    generalize l.tokens = tokens at states
    cases states with
    | mk plain => exact fun ⟨name, hname⟩ => plain ⟨name, _, by rw [hname]⟩
  marked := marked

section Print
variable {spec : Spec}

/-- The tokens of the line that sets a part. -/
def partTokens (spec : Spec) (k : Keyword) : List String := ("@" ++ k.name) :: k.part spec

def ruleTokens (r : Situation × Action) : List String :=
  [r.1.1, r.1.2, "->", r.2.next, r.2.write, r.2.move.letter]

def printTokens (spec : Spec) : List (List String) :=
  Keyword.all.map (partTokens spec) ++ spec.listing.map ruleTokens

lemma directiveLine_eq (k : Keyword) (arguments : List String) :
    directiveLine k arguments = " ".intercalate (("@" ++ k.name) :: arguments) :=
  String.intercalate_cons_append.symm

lemma print_eq (spec : Spec) : print spec =
    String.join (((printTokens spec).map " ".intercalate).map (· ++ "\n")) := by
  simp only [print, printLines, directiveLine_eq, printTokens, List.map_append, List.map_map]
  rfl

lemma Keyword.mem_all (k : Keyword) : k ∈ all := by cases k <;> decide

lemma mem_printTokens {ts : List String} : ts ∈ printTokens spec ↔
    (∃ k, partTokens spec k = ts) ∨ ∃ r ∈ spec.listing, ruleTokens r = ts := by
  simp [printTokens, Keyword.mem_all]

lemma Keyword.lowerCase_name (k : Keyword) : lowerCase k.name = k.name :=
  ofName?_eq_some.1 (ofName?_name k)

lemma sets_partTokens {k : Keyword} (h : k.part spec ≠ []) :
    Sets (partTokens spec k) k (k.part spec) := by
  have hname := k.lowerCase_name
  cases k with
  | blank => exact .single (by simp) hname
  | left => exact .single (by simp) hname
  | start => exact .single (by simp) hname
  | accept => exact .list (by simp) hname h
  | reject => exact .list (by simp) hname h
  | halt => exact .list (by simp) hname h

lemma Writable.statesRule (h : Writable spec) {r : Situation × Action} (hr : r ∈ spec.listing) :
    StatesRule (ruleTokens r) r.1 r.2 := by
  refine .mk ?_ (Move.ofSpelling?_eq_some.1 r.2.move.ofSpelling?_letter)
  rintro ⟨name, arguments, heq⟩
  exact h.plain _ _ _ (mem_listing.1 hr) ⟨name, (List.cons.inj heq).1⟩

lemma isToken_letter (m : Move) : IsToken m.letter := by cases m <;> decide

lemma Writable.isToken (h : Writable spec) {ts : List String} (hts : ts ∈ printTokens spec) :
    ∀ t ∈ ts, IsToken t := by
  rcases mem_printTokens.1 hts with ⟨k, rfl⟩ | ⟨r, hr, rfl⟩
  · have hname : IsToken ("@" ++ k.name) := by cases k <;> decide
    exact List.forall_mem_cons.2 ⟨hname, (h.part k).2⟩
  · obtain ⟨hq, hx, hnext, hwrite⟩ := h.rule _ _ _ (mem_listing.1 hr)
    have harrow : IsToken "->" := by decide
    simp [ruleTokens, hq, hx, harrow, hnext, hwrite, isToken_letter]

/-- A printed machine is read line by line. -/
lemma Writable.tokens_print (h : Writable spec) :
    (numbered (layout (print spec).toList)).map NumberedLine.tokens = printTokens spec := by
  rw [print_eq, numbered_layout_tokens fun ts hts => h.isToken hts, tokens_numberWords]
  intro ts hts
  rcases mem_printTokens.1 hts with ⟨k, rfl⟩ | ⟨r, -, rfl⟩ <;> exact List.cons_ne_nil _ _

lemma Writable.meaning?_part (h : Writable spec) (k : Keyword) :
    meaning? (partTokens spec k) = some (.directive k (k.part spec)) :=
  meaning?_eq_some.2 (sets_partTokens (h.part k).1)

lemma Writable.meaning?_rule (h : Writable spec) {r : Situation × Action}
    (hr : r ∈ spec.listing) : meaning? (ruleTokens r) = some (.rule r.1 r.2) :=
  meaning?_eq_some.2 (h.statesRule hr)

/-- There is one printed line for a part. -/
lemma Writable.argumentsFor_print (h : Writable spec) (k : Keyword) :
    argumentsFor k (printTokens spec) = [k.part spec] := by
  have hparts : (Keyword.all.map (partTokens spec)).filterMap (argumentsOf? k) =
      [k.part spec] := by
    have hpart : argumentsOf? k ∘ partTokens spec =
        fun k' => if k' = k then some (k'.part spec) else none := by
      funext k'
      rw [Function.comp_apply, argumentsOf?, h.meaning?_part]
      rfl
    rw [List.filterMap_map, hpart]
    cases k <;> rfl
  have hrules : (spec.listing.map ruleTokens).filterMap (argumentsOf? k) = [] := by
    rw [List.filterMap_eq_nil_iff, List.forall_mem_map]
    intro r hr
    rw [argumentsOf?, h.meaning?_rule hr]
    rfl
  rw [argumentsFor, printTokens, List.filterMap_append, hparts, hrules, List.append_nil]

lemma Writable.statedRules_print (h : Writable spec) :
    statedRules (printTokens spec) = spec.listing := by
  have hparts : (Keyword.all.map (partTokens spec)).filterMap ruleOf? = [] := by
    rw [List.filterMap_eq_nil_iff, List.forall_mem_map]
    intro k _
    rw [ruleOf?, h.meaning?_part]
    rfl
  have hrules : (spec.listing.map ruleTokens).filterMap ruleOf? = spec.listing := by
    rw [List.filterMap_map]
    refine Eq.trans (List.filterMap_congr fun r hr => ?_) List.filterMap_some
    rw [Function.comp_apply, ruleOf?, h.meaning?_rule hr]
    rfl
  rw [statedRules, printTokens, List.filterMap_append, hparts, hrules, List.nil_append]

/-- The printed lines make up the machine, whatever the defaults are. -/
theorem Writable.loads (h : Writable spec) (d : Defaults) : Loads d (printTokens spec) spec where
  meaningful ts hts := by
    rcases mem_printTokens.1 hts with ⟨k, rfl⟩ | ⟨r, hr, rfl⟩
    · rw [h.meaning?_part]
      rfl
    · rw [h.meaning?_rule hr]
      rfl
  distinct := by
    rw [h.statedRules_print]
    exact nodup_listing spec
  part k := by
    rw [h.argumentsFor_print]
    rfl
  rule k a := by
    rw [h.statedRules_print]
    exact (mem_listing (r := (k, a))).symm
  marked := h.marked

end Print

lemma parse_eq_ok_iff {text : String} {spec : Spec} : parse text = .ok spec ↔
    Clean (numbered (layout text.toList)) ∧
      Describes {} (numbered (layout text.toList)) spec ∧ spec.WellMarked :=
  parseWith_eq_ok_iff

/-- A machine has a description if and only if it can be written down, and then its printed
description is one. -/
theorem describable_iff_writable (spec : Spec) :
    ((∃ text, parse text = .ok spec) ↔ Writable spec) ∧
      (parse (print spec) = .ok spec ↔ Writable spec) := by
  have hread : ∀ text, parse text = .ok spec → Writable spec := by
    intro text h
    obtain ⟨-, describes, marked⟩ := parse_eq_ok_iff.1 h
    exact writable_of_describes describes marked
  have hprint : Writable spec → parse (print spec) = .ok spec := fun h =>
    parse_eq_ok_iff.2 (loads_iff.1 (h.tokens_print ▸ h.loads {}))
  exact ⟨⟨fun ⟨text, h⟩ => hread text h, fun h => ⟨_, hprint h⟩⟩, hread _, hprint⟩

/-- Names may look like other parts of a line. -/
example : (parse (print { Spec.ofDefaults {} with
      rules := (∅ : Rules).insert ("->", "@x") ⟨"@L", "->", .left⟩ })).toOption.map (·.listing) =
    some [(("->", "@x"), ⟨"@L", "->", .left⟩)] := by decide +kernel

end TapeMachine.Description
