import Mathlib.Tactic.Lemma
import TapeMachine.Description.Load

/-! What a line of a description says and what can be wrong with it by itself, as relations between
its tokens and the outcome. A line has exactly one outcome, and it is the one that is read. -/
namespace TapeMachine

/-- A word for a move; its ASCII case and white space around it do not matter. -/
def Move.Spelled (m : Move) (token : String) : Prop :=
  String.ofList ((Text.trim token.toList).map Char.toUpper) ∈ m.spellings

lemma Move.ofSpelling?_eq_some {m : Move} {token : String} :
    ofSpelling? token = some m ↔ m.Spelled token := by
  unfold ofSpelling? Spelled
  generalize String.ofList ((Text.trim token.toList).map Char.toUpper) = word
  constructor
  · intro h
    simpa using List.find?_some h
  · intro h
    cases m <;> simp only [spellings, List.mem_cons, List.not_mem_nil, or_false] at h
    · rcases h with rfl | rfl | rfl <;> rfl
    · rcases h with rfl | rfl | rfl <;> rfl
    · rcases h with rfl | rfl | rfl | rfl <;> rfl

namespace Description

def lowerCase (name : String) : String := String.ofList (name.toList.map Char.toLower)

def IsDirective (tokens : List String) : Prop :=
  ∃ name arguments, tokens = ("@" ++ name) :: arguments

/-- The line is a directive that sets a part of the machine. -/
inductive Sets : List String → Keyword → List String → Prop where
  | single {k : Keyword} {name value : String} (one : k = .blank ∨ k = .left ∨ k = .start)
      (named : lowerCase name = k.name) : Sets ["@" ++ name, value] k [value]
  | list {k : Keyword} {name : String} {arguments : List String}
      (many : k = .accept ∨ k = .reject ∨ k = .halt) (named : lowerCase name = k.name)
      (nonempty : arguments ≠ []) : Sets (("@" ++ name) :: arguments) k arguments

inductive StatesRule : List String → Situation → Action → Prop where
  | mk {state read next write move : String} {m : Move}
      (plain : ¬ IsDirective [state, read, "->", next, write, move]) (spelled : m.Spelled move) :
      StatesRule [state, read, "->", next, write, move] (state, read) ⟨next, write, m⟩

/-- The line is at fault, whatever stands on other lines. -/
inductive IllFormed : List String → Fault → Prop where
  | unknownDirective {name : String} {arguments : List String}
      (unknown : ∀ k : Keyword, lowerCase name ≠ k.name) :
      IllFormed (("@" ++ name) :: arguments) (.unknownDirective name)
  | single {k : Keyword} {name : String} {arguments : List String}
      (one : k = .blank ∨ k = .left ∨ k = .start) (named : lowerCase name = k.name)
      (count : arguments.length ≠ 1) : IllFormed (("@" ++ name) :: arguments)
        (.directiveArity (lowerCase name) "exactly 1 argument" arguments.length)
  | list {k : Keyword} {name : String} (many : k = .accept ∨ k = .reject ∨ k = .halt)
      (named : lowerCase name = k.name) :
      IllFormed ["@" ++ name] (.directiveArity (lowerCase name) "at least 1 state" 0)
  | malformed {tokens : List String} (plain : ¬ IsDirective tokens) (count : tokens.length ≠ 6) :
      IllFormed tokens (.malformedRule tokens.length)
  | badArrow {state read arrow next write move : String}
      (plain : ¬ IsDirective [state, read, arrow, next, write, move]) (other : arrow ≠ "->") :
      IllFormed [state, read, arrow, next, write, move] (.badArrow arrow)
  | invalidMove {state read next write move : String}
      (plain : ¬ IsDirective [state, read, "->", next, write, move])
      (unspelled : ∀ m : Move, ¬ m.Spelled move) :
      IllFormed [state, read, "->", next, write, move] (.invalidMove move)

def Says (tokens : List String) : Except Fault Statement → Prop
  | .error f => IllFormed tokens f
  | .ok (.directive k arguments) => Sets tokens k arguments
  | .ok (.rule k a) => StatesRule tokens k a

namespace Keyword

lemma ofName?_eq_some {name : String} {k : Keyword} :
    ofName? name = some k ↔ lowerCase name = k.name := by
  unfold ofName? lowerCase
  generalize String.ofList (name.toList.map Char.toLower) = lower
  constructor
  · intro h
    have hk := List.find?_some h
    exact (beq_iff_eq.1 hk).symm
  · intro heq
    subst heq
    cases k <;> rfl

end Keyword

namespace Statement

lemma ofTokens_directive (name : String) (arguments : List String) :
    ofTokens (("@" ++ name) :: arguments) = ofDirective name arguments := by
  have h : ("@" ++ name).toList = '@' :: name.toList := String.toList_append
  unfold ofTokens
  simp [h]

lemma ofTokens_rule {tokens : List String} (plain : ¬ IsDirective tokens) :
    ofTokens tokens = ofRule tokens := by
  unfold ofTokens
  split
  · rfl
  · next first rest =>
    split
    · next name h =>
      have hf : first = "@" ++ String.ofList name := by
        rw [← String.toList_inj, h, String.toList_append]
        simp
      exact absurd ⟨String.ofList name, rest, by rw [hf]⟩ plain
    · rfl

lemma ofTokens_of_sets {tokens arguments : List String} {k : Keyword}
    (h : Sets tokens k arguments) : ofTokens tokens = .ok (.directive k arguments) := by
  cases h with
  | single one named =>
    rw [ofTokens_directive, ofDirective, Keyword.ofName?_eq_some.2 named]
    rcases one with rfl | rfl | rfl <;> rfl
  | list many named nonempty =>
    have hl : 0 < arguments.length := List.length_pos_iff.2 nonempty
    rw [ofTokens_directive, ofDirective, Keyword.ofName?_eq_some.2 named]
    rcases many with rfl | rfl | rfl <;> exact if_pos hl

lemma ofTokens_of_statesRule {tokens : List String} {k : Situation} {a : Action}
    (h : StatesRule tokens k a) : ofTokens tokens = .ok (.rule k a) := by
  cases h with
  | mk plain spelled =>
    rw [ofTokens_rule plain, ofRule, if_pos rfl, Move.ofSpelling?_eq_some.2 spelled]

lemma ofTokens_of_illFormed {tokens : List String} {f : Fault} (h : IllFormed tokens f) :
    ofTokens tokens = .error f := by
  cases h with
  | @unknownDirective name arguments unknown =>
    have hn : Keyword.ofName? name = none := by
      rw [Option.eq_none_iff_forall_ne_some]
      intro k hk
      exact unknown k (Keyword.ofName?_eq_some.1 hk)
    rw [ofTokens_directive, ofDirective, hn]
  | single one named count =>
    rw [ofTokens_directive, ofDirective, Keyword.ofName?_eq_some.2 named, named]
    rcases one with rfl | rfl | rfl <;> exact if_neg count
  | list many named =>
    rw [ofTokens_directive, ofDirective, Keyword.ofName?_eq_some.2 named, named]
    rcases many with rfl | rfl | rfl <;> rfl
  | malformed plain count =>
    rw [ofTokens_rule plain]
    unfold ofRule
    split
    · exact absurd rfl count
    · rfl
  | badArrow plain other => rw [ofTokens_rule plain, ofRule, if_neg other]
  | @invalidMove state read next write move plain unspelled =>
    have hn : Move.ofSpelling? move = none := by
      rw [Option.eq_none_iff_forall_ne_some]
      intro m hm
      exact unspelled m (Move.ofSpelling?_eq_some.1 hm)
    rw [ofTokens_rule plain, ofRule, if_pos rfl, hn]

/-- Every line is at fault, sets a part or states a rule. -/
theorem exists_says (tokens : List String) : ∃ r, Says tokens r := by
  by_cases hd : IsDirective tokens
  · obtain ⟨name, arguments, rfl⟩ := hd
    by_cases hk : ∃ k : Keyword, lowerCase name = k.name
    · obtain ⟨k, named⟩ := hk
      have hk : (k = .blank ∨ k = .left ∨ k = .start) ∨ k = .accept ∨ k = .reject ∨ k = .halt := by
        cases k <;> simp
      rcases hk with one | many
      · match arguments with
        | [value] => exact ⟨.ok (.directive k [value]), .single one named⟩
        | [] => exact ⟨.error _, .single one named (by simp)⟩
        | _ :: _ :: _ => exact ⟨.error _, .single one named (by simp)⟩
      · by_cases ha : arguments = []
        · subst ha
          exact ⟨.error _, .list many named⟩
        · exact ⟨.ok (.directive k arguments), .list many named ha⟩
    · exact ⟨.error _, .unknownDirective fun k named => hk ⟨k, named⟩⟩
  · by_cases hl : tokens.length = 6
    · match tokens, hl with
      | [state, read, arrow, next, write, move], _ =>
        by_cases ha : arrow = "->"
        · subst ha
          by_cases hm : ∃ m : Move, m.Spelled move
          · obtain ⟨m, spelled⟩ := hm
            exact ⟨.ok (.rule (state, read) ⟨next, write, m⟩), .mk hd spelled⟩
          · exact ⟨.error _, .invalidMove hd fun m spelled => hm ⟨m, spelled⟩⟩
        · exact ⟨.error _, .badArrow hd ha⟩
    · exact ⟨.error _, .malformed hd hl⟩

/-- What is read from a line is what it says. -/
theorem ofTokens_eq_iff {tokens : List String} {r : Except Fault Statement} :
    ofTokens tokens = r ↔ Says tokens r := by
  have hread : ∀ r, Says tokens r → ofTokens tokens = r
    | .error _, h => ofTokens_of_illFormed h
    | .ok (.directive _ _), h => ofTokens_of_sets h
    | .ok (.rule _ _), h => ofTokens_of_statesRule h
  refine ⟨?_, hread r⟩
  intro heq
  subst heq
  obtain ⟨r, hr⟩ := exists_says tokens
  rwa [hread r hr]

end Statement
end Description
end TapeMachine
