import Mathlib.Data.List.Forall2
import TapeMachine.Proofs.Description.Loaded

/-! Descriptions that are written differently and mean the same. A name of a directive may change
its case and a move its spelling, and lines may change places as long as the directives of one name
keep their order; comments, white space and empty lines are not among the tokens of a line. -/
namespace TapeMachine.Description

/-- The tokens of the lines of a text, without empty lines. -/
def tokenRows (text : String) : List (List String) :=
  (numbered (layout text.toList)).map NumberedLine.tokens

/-- A line with another case of its directive's name, or with another word for its move. -/
inductive Respelled : List String → List String → Prop where
  | same (tokens : List String) : Respelled tokens tokens
  | directive {name name' : String} (arguments : List String)
      (folded : lowerCase name = lowerCase name') :
      Respelled (("@" ++ name) :: arguments) (("@" ++ name') :: arguments)
  | rule {state move move' : String} {m : Move} (read arrow next write : String)
      (plain : ∀ name, state ≠ "@" ++ name) (spelled : m.Spelled move)
      (spelled' : m.Spelled move') :
      Respelled [state, read, arrow, next, write, move] [state, read, arrow, next, write, move']

/-- The name of a directive in lower case. -/
def folded? (tokens : List String) : Option String := (directiveName? tokens).map lowerCase

/-- The same lines in another order, in which the directives of each name keep theirs. -/
structure Reordered (tss uss : List (List String)) : Prop where
  perm : tss.Perm uss
  directives (name : String) :
    (tss.filter fun ts => folded? ts = some name) = uss.filter fun ts => folded? ts = some name

/-- First the lines are respelled one by one, then they change places. -/
def Variant (tss uss : List (List String)) : Prop :=
  ∃ mid, List.Forall₂ Respelled tss mid ∧ Reordered mid uss

section Respelled
variable {ts us : List String} {tss uss : List (List String)}

lemma Keyword.ofName?_congr {name name' : String} (h : lowerCase name = lowerCase name') :
    ofName? name = ofName? name' := by
  refine Option.ext fun k => ?_
  rw [ofName?_eq_some, ofName?_eq_some, h]

/-- What is wrong with a line may be put in other words; what it says is not. -/
theorem Respelled.meaning?_eq (h : Respelled ts us) : meaning? ts = meaning? us := by
  cases h with
  | same => rfl
  | directive arguments folded =>
    rw [meaning?, meaning?, Statement.ofTokens_directive, Statement.ofTokens_directive,
      Statement.ofDirective, Statement.ofDirective, Keyword.ofName?_congr folded]
    split <;> rfl
  | @rule state _ _ _ read arrow next write plain spelled spelled' =>
    have hplain : ∀ move, ¬ IsDirective [state, read, arrow, next, write, move] := by
      rintro move ⟨name, arguments, heq⟩
      exact plain name (List.cons.inj heq).1
    rw [meaning?, meaning?, Statement.ofTokens_rule (hplain _), Statement.ofTokens_rule (hplain _),
      Statement.ofRule, Statement.ofRule, Move.ofSpelling?_eq_some.2 spelled,
      Move.ofSpelling?_eq_some.2 spelled']

lemma map_meaning?_eq (h : List.Forall₂ Respelled tss uss) :
    tss.map meaning? = uss.map meaning? := by
  rw [← List.forall₂_eq_eq_eq, List.forall₂_map_left_iff, List.forall₂_map_right_iff]
  exact h.imp fun _ _ => Respelled.meaning?_eq

end Respelled

section Loads
variable {d : Defaults} {tss uss : List (List String)} {spec : Spec}

lemma argumentsFor_eq (k : Keyword) (tss : List (List String)) :
    argumentsFor k tss = (tss.map meaning?).filterMap (·.bind (Statement.arguments? k)) := by
  rw [List.filterMap_map]
  rfl

lemma statedRules_eq (tss : List (List String)) :
    statedRules tss = (tss.map meaning?).filterMap (·.bind Statement.rule?) := by
  rw [List.filterMap_map]
  rfl

/-- What lines load to is decided by what each of them says. -/
lemma Loads.congr (hmap : tss.map meaning? = uss.map meaning?) (h : Loads d tss spec) :
    Loads d uss spec where
  meaningful := by
    have hall : ∀ m ∈ tss.map meaning?, m.isSome := List.forall_mem_map.2 h.meaningful
    rw [hmap] at hall
    exact List.forall_mem_map.1 hall
  distinct := by
    rw [statedRules_eq, ← hmap, ← statedRules_eq]
    exact h.distinct
  part k := by
    rw [argumentsFor_eq, ← hmap, ← argumentsFor_eq]
    exact h.part k
  rule k a := by
    rw [statedRules_eq, ← hmap, ← statedRules_eq]
    exact h.rule k a
  marked := h.marked

lemma Sets.folded?_eq {tokens args : List String} {k : Keyword} (h : Sets tokens k args) :
    folded? tokens = some k.name := by
  cases h with
  | single _ named | list _ named =>
    rw [folded?, directiveName?_eq_some.2 ⟨_, rfl⟩, Option.map_some, named]

/-- Only directives of its name give arguments to a part. -/
lemma argumentsFor_filter (k : Keyword) (tss : List (List String)) :
    argumentsFor k (tss.filter fun ts => folded? ts = some k.name) = argumentsFor k tss := by
  rw [argumentsFor, argumentsFor, List.filterMap_filter]
  refine List.filterMap_congr fun ts _ => ?_
  by_cases hts : folded? ts = some k.name
  · exact if_pos (decide_eq_true hts)
  · rw [if_neg (by simpa using hts), eq_comm, Option.eq_none_iff_forall_ne_some]
    exact fun args hargs => hts (argumentsOf?_eq_some.1 hargs).folded?_eq

lemma Reordered.symm (h : Reordered tss uss) : Reordered uss tss :=
  ⟨h.perm.symm, fun name => (h.directives name).symm⟩

/-- Duplicate rules are found in any order, and the last directive of a name stays the last. -/
lemma Loads.reorder (hr : Reordered tss uss) (h : Loads d tss spec) : Loads d uss spec := by
  have hrules : (statedRules tss).Perm (statedRules uss) := hr.perm.filterMap ruleOf?
  constructor
  · exact fun ts hts => h.meaningful ts (hr.perm.mem_iff.2 hts)
  · exact (hrules.map Prod.fst).nodup_iff.1 h.distinct
  · intro k
    rw [← argumentsFor_filter, ← hr.directives, argumentsFor_filter]
    exact h.part k
  · exact fun k a => (h.rule k a).trans hrules.mem_iff
  · exact h.marked

theorem Variant.loads_iff (h : Variant tss uss) : Loads d tss spec ↔ Loads d uss spec := by
  obtain ⟨mid, respelled, reordered⟩ := h
  have hmap := map_meaning?_eq respelled
  exact ⟨fun h => (h.congr hmap).reorder reordered,
    fun h => (h.reorder reordered.symm).congr hmap.symm⟩

end Loads

/-- Two descriptions with the same lines, up to the case of directive names, the spelling of moves
and the order of lines other than directives of one name, load to the same machine, or neither of
them loads. -/
theorem parseWith_eq_of_variant {d : Defaults} {text text' : String}
    (h : Variant (tokenRows text) (tokenRows text')) (spec : Spec) :
    parseWith d text = .ok spec ↔ parseWith d text' = .ok spec := by
  rw [parseWith_eq_ok_iff, parseWith_eq_ok_iff, ← loads_iff, ← loads_iff]
  exact h.loads_iff

def tidy : String := "@accept yes\n@accept ok\ns 0 -> ok 1 stay\ns 1 -> s 1 R\n"

/-- The lines of `tidy` in another order and with other words, white space, comments and line
ends. -/
def untidy : String :=
  "s 1 -> s 1 Right # on\r\n\r\n@ACCEPT yes\r\n\ts 0  -> ok 1 -\r\n# last\r@Accept ok"

def tidySpec : Spec :=
  { Spec.ofDefaults {} with
    accept := ["ok"]
    rules := ((∅ : Rules).insert ("s", "0") ⟨"ok", "1", .stay⟩).insert ("s", "1")
      ⟨"s", "1", .right⟩ }

theorem parseWith_eq_of_variant_untidy : Variant (tokenRows tidy) (tokenRows untidy) ∧
    parseWith {} tidy = .ok tidySpec ∧ parseWith {} untidy = .ok tidySpec := by
  have htidy : tokenRows tidy = [["@" ++ "accept", "yes"], ["@" ++ "accept", "ok"],
      ["s", "0", "->", "ok", "1", "stay"], ["s", "1", "->", "s", "1", "R"]] := by decide +kernel
  have huntidy : tokenRows untidy = [["s", "1", "->", "s", "1", "Right"],
      ["@" ++ "ACCEPT", "yes"], ["s", "0", "->", "ok", "1", "-"],
      ["@" ++ "Accept", "ok"]] := by decide +kernel
  have hvariant : Variant (tokenRows tidy) (tokenRows untidy) := by
    rw [htidy, huntidy]
    refine ⟨[["@" ++ "ACCEPT", "yes"], ["@" ++ "Accept", "ok"],
      ["s", "0", "->", "ok", "1", "-"], ["s", "1", "->", "s", "1", "Right"]], ?_, ?_, ?_⟩
    · have hstate : ∀ name, "s" ≠ "@" ++ name := by
        intro name h
        have hlist := congrArg String.toList h
        simp [String.toList_append] at hlist
      have hstay : Move.stay.Spelled "stay" ∧ Move.stay.Spelled "-" := by
        constructor <;> exact Move.ofSpelling?_eq_some.1 (by decide +kernel)
      have hright : Move.right.Spelled "R" ∧ Move.right.Spelled "Right" := by
        constructor <;> exact Move.ofSpelling?_eq_some.1 (by decide +kernel)
      exact .cons (.directive _ (by decide)) <| .cons (.directive _ (by decide)) <|
        .cons (.rule _ _ _ _ hstate hstay.1 hstay.2) <|
        .cons (.rule _ _ _ _ hstate hright.1 hright.2) .nil
    · decide
    · have hplain : folded? ["s", "0", "->", "ok", "1", "-"] = none ∧
          folded? ["s", "1", "->", "s", "1", "Right"] = none := by decide +kernel
      intro name
      simp [List.filter_cons, hplain]
  have hload : parseWith {} tidy = .ok tidySpec := by decide +kernel
  exact ⟨hvariant, hload, (parseWith_eq_of_variant hvariant tidySpec).1 hload⟩

end TapeMachine.Description
