import TapeMachine.Proofs.Gallery.Source
import TapeMachine.Proofs.Scene

/-! The unary addition machine of the gallery adds two numbers. It turns the plus sign between them
into a one, goes on to the end of the second number and erases the last one there; where the second
number is zero, that is the one that stood for the plus sign. -/
namespace TapeMachine.UnaryAddition
open Description

def rows : List (Situation × Action) :=
  [(("scan", ">>"), ⟨"scan", ">>", .right⟩), (("scan", "1"), ⟨"scan", "1", .right⟩),
    (("scan", "+"), ⟨"seek", "1", .right⟩),
    (("seek", "1"), ⟨"seek", "1", .right⟩), (("seek", "_"), ⟨"trim", "_", .left⟩),
    (("trim", "1"), ⟨"done", "_", .stay⟩)]

def machine : Spec where
  blank := "_"
  left := ">>"
  start := "scan"
  accept := ["yes"]
  reject := ["no"]
  halt := ["done"]
  rules := .ofRows rows

/-- The script of the gallery describes the machine with these rows. -/
theorem parse_source : parse Script.unaryAddition.source = .ok machine := by
  have lined : Script.unaryAddition.Lined := Script.lined_of_mem_all (by simp [Script.all])
  rw [Script.parse_source lined]
  simp only [Script.unaryAddition, List.map_cons, List.map_nil]
  repeat rw [String.toList_ofList]
  rfl

lemma hasRows : machine.HasRows rows := ⟨rfl, by decide⟩

/-- The cells that a number fills. -/
def ones (n : Nat) : List Symbol := List.replicate n "1"

lemma join_ones (n : Nat) : String.join (ones n) = String.ofList (List.replicate n '1') := by
  rw [← String.toList_inj]
  induction n with
  | zero => rfl
  | succ n ih => simpa [ones, List.replicate_succ] using ih

/-- A state that keeps its place in a number passes over it. -/
lemma keeps_ones {q : State} (h : ((q, "1"), ⟨q, "1", .right⟩) ∈ rows) (n : Nat) :
    ∀ x ∈ ones n, machine.action? q x = some ⟨q, x, .right⟩ := by
  intro x hx
  cases List.eq_of_mem_replicate hx
  exact hasRows.action?_of_mem h

/-- From the marker to the plus sign, which becomes a one. -/
lemma walks_plus (a b : Nat) : machine.Walks (a + 2) ⟨"scan", [], ">>" :: (ones a ++ "+" :: ones b)⟩
    ⟨"seek", "1" :: (ones a ++ [">>"]), ones b⟩ := by
  have hmarker : machine.Walks 1 ⟨"scan", [], ">>" :: (ones a ++ "+" :: ones b)⟩
      ⟨"scan", [">>"], ones a ++ "+" :: ones b⟩ :=
    .right (by decide) (hasRows.action?_of_mem (by decide)) fun _ => rfl
  have hsweep : machine.Walks (ones a).length ⟨"scan", [">>"], ones a ++ "+" :: ones b⟩
      ⟨"scan", (ones a).reverse ++ [">>"], "+" :: ones b⟩ :=
    .sweep_right (by decide) (keeps_ones (by decide) a)
  have hplus : machine.Walks 1 ⟨"scan", (ones a).reverse ++ [">>"], "+" :: ones b⟩
      ⟨"seek", "1" :: ((ones a).reverse ++ [">>"]), ones b⟩ :=
    .right (by decide) (hasRows.action?_of_mem (by decide)) (by simp)
  have hn : a + 2 = 1 + (ones a).length + 1 := by
    rw [ones, List.length_replicate]
    omega
  rw [hn]
  simpa [ones] using (hmarker.trans hsweep).trans hplus

/-- On to the end of the second number, where the last one is erased. -/
lemma walks_trim (a b : Nat) : machine.Walks (b + 2) ⟨"seek", "1" :: (ones a ++ [">>"]), ones b⟩
    ⟨"done", ones (a + b) ++ [">>"], []⟩ := by
  have hones : (ones b).reverse ++ "1" :: (ones a ++ [">>"]) =
      "1" :: (ones (a + b) ++ [">>"]) := by
    have hn : b + 1 + a = a + b + 1 := by omega
    simp only [ones]
    rw [List.reverse_replicate, List.append_cons, ← List.replicate_succ', ← List.append_assoc,
      List.replicate_append_replicate, hn]
    rfl
  have hturn : machine.Walks ((ones b).length + 1) ⟨"seek", "1" :: (ones a ++ [">>"]), ones b⟩
      ⟨"trim", ones (a + b) ++ [">>"], ["1", "_"]⟩ :=
    .turn (by decide) (keeps_ones (by decide) b) (hasRows.action?_of_mem (by decide)) hones
  have herase : machine.Walks 1 ⟨"trim", ones (a + b) ++ [">>"], ["1", "_"]⟩
      ⟨"done", ones (a + b) ++ [">>"], [] ++ ["_"] ++ ["_"]⟩ :=
    .stay (by decide) (hasRows.action?_of_mem (by decide)) (by simp)
  have htrim : machine.Walks 0 ⟨"done", ones (a + b) ++ [">>"], [] ++ ["_"] ++ ["_"]⟩
      ⟨"done", ones (a + b) ++ [">>"], []⟩ := Spec.Walks.hide_blank.trans .hide_blank
  have hn : b + 2 = (ones b).length + 1 + 1 + 0 := by rw [ones, List.length_replicate]
  rw [hn]
  exact (hturn.trans herase).trans htrim

/-- From the marker on, the machine halts on the sum. -/
theorem walks_sum (a b : Nat) :
    machine.Walks (a + b + 4) ⟨"scan", [], ">>" :: (ones a ++ "+" :: ones b)⟩
      ⟨"done", ones (a + b) ++ [">>"], []⟩ := by
  have hn : a + b + 4 = a + 2 + (b + 2) := by omega
  rw [hn]
  exact (walks_plus a b).trans (walks_trim a b)

/-- The unary addition machine of the gallery, with markers and states of its own, adds any two
numbers in unary, in either mode and with the same number of steps whatever the bound. It never
comes to a missing rule. -/
theorem outputs_sum (a b : Nat) :
    ∃ e, Gallery.find? "unary-addition" = some e ∧ parse e.script.source = .ok e.spec ∧
      e.spec.blank = "_" ∧ e.spec.left = ">>" ∧ e.spec.start = "scan" ∧ e.spec.halt = ["done"] ∧
      let c := e.spec.initial (List.replicate a "1" ++ "+" :: List.replicate b "1")
      (∀ n mode, a + b + 4 ≤ n → ∃ d, d.steps = a + b + 4 ∧ e.spec.run ⟨n, mode⟩ c =
        (.ok (.output (String.ofList (List.replicate (a + b) '1'))), d)) ∧
      ∀ modes, ¬ e.spec.Missing (after e.spec.step modes c) := by
  have hfind := Gallery.find?_name (by simp [Script.all]) parse_source
  refine ⟨_, hfind, parse_source, rfl, rfl, rfl, rfl, ?_⟩
  obtain ⟨d, hd, hsteps, hrun, hmissing⟩ :=
    (walks_sum a b).run (machine.shows_initial _) rfl
  have hlast : (ones (a + b)).getLast? ≠ some machine.blank := by
    intro h
    have := List.eq_of_mem_replicate (List.mem_of_getLast? h)
    simp [machine] at this
  have hverdict : machine.verdict d =
      .output (String.ofList (List.replicate (a + b) '1')) := by
    rw [Spec.verdict_eq, hd.state, hd.content_eq (x := ">>") (by simp [ones]) hlast, join_ones]
    rfl
  refine ⟨fun n mode hn => ⟨d, ?_, ?_⟩, hmissing⟩
  · rw [hsteps]
    exact Nat.zero_add _
  · rw [← hverdict]
    exact hrun n mode hn

/-- Two and three, as the script says it, and nothing and nothing, where the only one on the tape is
the former plus sign. -/
theorem outputs_sum_some_and_none : 2 + 3 + 4 ≤ 9 ∧ 0 + 0 + 4 ≤ 4 ∧
    ∃ e d d', Gallery.find? "unary-addition" = some e ∧
      d.steps = 9 ∧ e.spec.run ⟨9, .normal⟩ (e.spec.initial ["1", "1", "+", "1", "1", "1"]) =
        (.ok (.output "11111"), d) ∧
      d'.steps = 4 ∧ e.spec.run ⟨4, .strict⟩ (e.spec.initial ["+"]) = (.ok (.output ""), d') := by
  have hsome : 2 + 3 + 4 ≤ 9 := by decide
  have hnone : 0 + 0 + 4 ≤ 4 := by decide
  obtain ⟨e, hfind, -, -, -, -, -, hrun, -⟩ := outputs_sum 2 3
  obtain ⟨e', hfind', -, -, -, -, -, hrun', -⟩ := outputs_sum 0 0
  cases hfind.symm.trans hfind'
  obtain ⟨d, hsteps, hd⟩ := hrun 9 .normal hsome
  obtain ⟨d', hsteps', hd'⟩ := hrun' 4 .strict hnone
  exact ⟨hsome, hnone, e, d, d', hfind, hsteps, hd, hsteps', hd'⟩

end TapeMachine.UnaryAddition
