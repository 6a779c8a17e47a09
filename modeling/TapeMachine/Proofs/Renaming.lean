import Mathlib.Data.Prod.Basic
import TapeMachine.Proofs.Bounds
import TapeMachine.Proofs.Reaches
import TapeMachine.Proofs.TapeContent

/-! States and symbols are names without a meaning of their own. A machine whose states and symbols
are replaced by others, different ones by different ones, goes through the same configurations in
the new names and comes to the same result. -/
namespace TapeMachine
variable (f : State → State) (g : Symbol → Symbol)

def Action.rename (a : Action) : Action := ⟨f a.next, g a.write, a.move⟩

def MissingRule.rename (e : MissingRule) : MissingRule := ⟨f e.state, g e.symbol⟩

def StepResult.rename : StepResult → StepResult
  | .ok o => .ok (o.map (Action.rename f g))
  | .error e => .error (e.rename f g)

/-- The verdict in the new names: an output is made of the new names of the symbols in the cells
that the output of `t` is made of. -/
def Verdict.rename (t : Tape) : Verdict → Verdict
  | .accept => .accept
  | .reject => .reject
  | .output _ => .output (String.join ((t.segment 1 t.lastNonBlank).map g))
  | .diverged => .diverged

/-- The machine with `f` applied to its states and `g` to its symbols, in all its parts. -/
def Spec.rename (spec : Spec) : Spec where
  blank := g spec.blank
  left := g spec.left
  start := f spec.start
  accept := spec.accept.map f
  reject := spec.reject.map f
  halt := spec.halt.map f
  rules := .ofList (spec.listing.map (Prod.map (Prod.map f g) (Action.rename f g))) Situation.order

/-- The second tape is the first in the new names. -/
structure Tape.Renamed (t t' : Tape) : Prop where
  blank : t'.blank = g t.blank
  cells (p : Nat) : t'.read p = g (t.read p)
  rightmost : t'.rightmost = t.rightmost

/-- The second configuration is the first in the new names. -/
structure Config.Renamed (c c' : Config) : Prop where
  state : c'.state = f c.state
  tape : Tape.Renamed g c.tape c'.tape
  head : c'.head = c.head
  steps : c'.steps = c.steps

variable {f g}

namespace Tape.Renamed
variable {t t' : Tape}

lemma write (h : Tape.Renamed g t t') (p : Nat) (s : Symbol) :
    Tape.Renamed g (t.write p s) (t'.write p (g s)) where
  blank := by rw [blank_write, blank_write, h.blank]
  cells q := by
    rw [read_write, read_write, h.cells]
    split <;> rfl
  rightmost := by rw [rightmost_write, rightmost_write, h.rightmost]

lemma visit (h : Tape.Renamed g t t') (p : Nat) : Tape.Renamed g (t.visit p) (t'.visit p) where
  blank := h.blank
  cells := h.cells
  rightmost := by rw [rightmost_visit, rightmost_visit, h.rightmost]

lemma fill (h : Tape.Renamed g t t') (p : Nat) (input : List Symbol) :
    Tape.Renamed g (fill p input t) (fill p (input.map g) t') := by
  induction input generalizing p t t' with
  | nil => exact h
  | cons s input ih => exact ih ((h.visit p).write p s) (p + 1)

lemma ofInput (left blank : Symbol) (input : List Symbol) :
    Tape.Renamed g (ofInput left blank input) (ofInput (g left) (g blank) (input.map g)) := by
  have hempty : Tape.Renamed g (empty left blank) (empty (g left) (g blank)) := by
    refine ⟨rfl, fun p => ?_, rfl⟩
    rw [read_empty, read_empty]
    split <;> rfl
  exact hempty.fill 1 input

/-- Different symbols stay different, so the last cell that is not blank is the same one. -/
lemma lastNonBlank_eq (hg : g.Injective) (h : Tape.Renamed g t t') :
    t'.lastNonBlank = t.lastNonBlank := by
  have hread : ∀ p, t'.read p = t'.blank ↔ t.read p = t.blank := fun p => by
    rw [h.cells, h.blank, hg.eq_iff]
  obtain ⟨hlast, hgt⟩ := t.lastNonBlank_spec
  refine Tape.lastNonBlank_eq ?_ fun p hp => (hread p).2 (hgt p hp)
  exact hlast.imp_right (mt (hread _).1)

lemma segment_eq (h : Tape.Renamed g t t') (lo hi : Nat) :
    t'.segment lo hi = (t.segment lo hi).map g := by
  rw [segment, segment, List.map_map]
  exact List.map_congr_left fun p _ => h.cells p

end Tape.Renamed

namespace Config.Renamed
variable {c c' : Config}

lemma read_eq (h : Config.Renamed f g c c') : c'.read = g c.read := by
  rw [Config.read, h.head, h.tape.cells]
  rfl

lemma act (h : Config.Renamed f g c c') (a : Action) :
    Config.Renamed f g (c.act a) (c'.act (a.rename f g)) where
  state := rfl
  tape := by
    have hwrite := h.tape.write c.head a.write
    unfold Config.act Action.rename
    rw [h.head]
    dsimp only
    split
    · exact hwrite.visit _
    · exact hwrite
  head := by rw [head_act, head_act, h.head]; rfl
  steps := by rw [steps_act, steps_act, h.steps]

end Config.Renamed

namespace Spec
variable {c c' d : Config} {mode : Mode} {r : StepResult}

lemma contains_map (hf : f.Injective) (qs : List State) (q : State) :
    (qs.map f).contains (f q) = qs.contains q := by
  rw [Bool.eq_iff_iff]
  simp [hf.eq_iff]

/-- A state is of the same kind under its new name. -/
lemma kind_rename (hf : f.Injective) (spec : Spec) (q : State) :
    (spec.rename f g).isAccept (f q) = spec.isAccept q ∧
    (spec.rename f g).isReject (f q) = spec.isReject q ∧
    (spec.rename f g).isHalt (f q) = spec.isHalt q :=
  ⟨contains_map hf _ q, contains_map hf _ q, contains_map hf _ q⟩

lemma halted_rename (hf : f.Injective) (spec : Spec) (h : Config.Renamed f g c c') :
    (spec.rename f g).halted c' = spec.halted c := by
  obtain ⟨haccept, hreject, hhalt⟩ := kind_rename hf spec c.state (g := g)
  rw [halted, halted, h.state, isHalting, isHalting, haccept, hreject, hhalt]

/-- The rule for a renamed situation is the renamed rule. -/
lemma action?_rename (hf : f.Injective) (hg : g.Injective) (spec : Spec) (q : State) (x : Symbol) :
    (spec.rename f g).action? (f q) (g x) = (spec.action? q x).map (Action.rename f g) := by
  have hk : (Prod.map f g).Injective := hf.prodMap hg
  cases ha : spec.action? q x with
  | some a =>
    refine Std.ExtTreeMap.getElem?_ofList_of_mem (k := (f q, g x)) Std.ReflCmp.compare_self ?_ ?_
    · refine List.pairwise_map.2 (Std.ExtTreeMap.distinct_keys_toList.imp fun hne heq => hne ?_)
      rw [Std.LawfulEqCmp.compare_eq_iff_eq] at heq ⊢
      exact hk heq
    · exact List.mem_map_of_mem (f := Prod.map (Prod.map f g) (Action.rename f g))
        (Std.ExtTreeMap.mem_toList_iff_getElem?_eq_some.2 ha)
  | none =>
    refine Std.ExtTreeMap.getElem?_ofList_of_contains_eq_false ?_
    rw [List.map_map, Bool.eq_false_iff, Ne, List.contains_iff_mem, List.mem_map]
    rintro ⟨⟨k, a⟩, hmem, heq⟩
    have hsituation : k = (q, x) := hk heq
    subst hsituation
    have hs : spec.action? q x = some a := Std.ExtTreeMap.mem_toList_iff_getElem?_eq_some.1 hmem
    rw [ha] at hs
    cases hs

lemma haltState_rename {spec : Spec} (hh : spec.halt ≠ []) :
    (spec.rename f g).haltState = f spec.haltState := by
  obtain ⟨q, qs, hs⟩ := List.exists_cons_of_ne_nil hh
  simp [haltState, rename, hs]

lemma verdict_rename (hf : f.Injective) (hg : g.Injective) (spec : Spec)
    (h : Config.Renamed f g c c') :
    (spec.rename f g).verdict c' = (spec.verdict c).rename g c.tape := by
  have hcontent : c'.tape.content =
      String.join ((c.tape.segment 1 c.tape.lastNonBlank).map g) := by
    rw [Tape.content, h.tape.lastNonBlank_eq hg, h.tape.segment_eq]
  obtain ⟨haccept, hreject, hhalt⟩ := kind_rename hf spec c.state (g := g)
  rw [verdict_eq, verdict_eq, h.state, hcontent, haccept, hreject, hhalt]
  rw [apply_ite (Verdict.rename g _), apply_ite (Verdict.rename g _),
    apply_ite (Verdict.rename g _)]
  rfl

section Run
variable (hf : f.Injective) (hg : g.Injective) {spec : Spec} (hh : spec.halt ≠ [])
include hf hg hh

/-- A step in the new names is the step in the old ones. -/
theorem Transition.rename (ht : spec.Transition c mode r d) (h : Config.Renamed f g c c') :
    ∃ d', Config.Renamed f g d d' ∧
      (spec.rename f g).step mode c' = (StepResult.rename f g r, d') := by
  have hhalted := halted_rename hf spec h (g := g)
  have hrule : (spec.rename f g).action? c'.state c'.read =
      (spec.action? c.state c.read).map (Action.rename f g) := by
    rw [h.state, h.read_eq, action?_rename hf hg]
  cases ht with
  | rest halted => exact ⟨c', h, step_of_halted (hhalted.trans halted)⟩
  | @act _ a running rule =>
    rw [rule] at hrule
    exact ⟨_, h.act a, step_of_action (hhalted.trans running) hrule⟩
  | fall running missing =>
    rw [missing] at hrule
    exact ⟨{ c' with state := (spec.rename f g).haltState },
      ⟨haltState_rename hh, h.tape, h.head, h.steps⟩,
      step_normal_of_missing (hhalted.trans running) hrule⟩
  | fail running missing =>
    rw [missing] at hrule
    refine ⟨c', h, ?_⟩
    rw [step_strict_of_missing (hhalted.trans running) hrule, h.state, h.read_eq]
    rfl

/-- A run in the new names ends in the same configuration and with the same result. -/
theorem runFor_rename (mode : Mode) (n : Nat) (h : Config.Renamed f g c c') :
    let original := spec.runFor mode n c
    let renamed := (spec.rename f g).runFor mode n c'
    Config.Renamed f g original.2 renamed.2 ∧
      renamed.1 = (original.1.map (Verdict.rename g original.2.tape)).mapError
        (MissingRule.rename f g) := by
  induction n generalizing c c' with
  | zero => exact ⟨h, congrArg Except.ok (verdict_rename hf hg spec h)⟩
  | succ n ih =>
    have hhalted := halted_rename hf spec h (g := g)
    cases running : spec.halted c with
    | true =>
      rw [runFor_of_halted running, runFor_of_halted (hhalted.trans running)]
      exact ⟨h, congrArg Except.ok (verdict_rename hf hg spec h)⟩
    | false =>
      rcases hs : spec.step mode c with ⟨e | o, d⟩
      · obtain ⟨d', hd, hs'⟩ := Transition.rename hf hg hh (Transition.of_step hs) h
        rw [runFor_succ_of_error running hs, runFor_succ_of_error (hhalted.trans running) hs']
        exact ⟨hd, rfl⟩
      · obtain ⟨d', hd, hs'⟩ := Transition.rename hf hg hh (Transition.of_step hs) h
        rw [runFor_succ running hs, runFor_succ (hhalted.trans running) hs']
        exact ih hd

end Run

lemma renamed_initial (spec : Spec) (input : List Symbol) :
    Config.Renamed f g (spec.initial input) ((spec.rename f g).initial (input.map g)) where
  state := rfl
  tape := .ofInput spec.left spec.blank input
  head := rfl
  steps := rfl

/-- An output is what the cells read as, up to the last one that is not blank. -/
lemma output_of_runFor {spec : Spec} {n : Nat} {content : String}
    (h : spec.runFor mode n c = (.ok (.output content), d)) :
    content = String.join (d.tape.segment 1 d.tape.lastNonBlank) := by
  have hv := verdict_of_runFor h
  rw [verdict_eq] at hv
  split at hv
  · cases hv
  · split at hv
    · cases hv
    · split at hv
      · cases hv
        rfl
      · cases hv

/-- States and symbols are opaque: under injective renamings the machine makes the same number of
steps to the same place, its state and its cells are the renamed ones, it has reached and filled the
same cells, and its result is the renamed one. An accepting, a rejecting or a diverging run remains
one, an output consists of the new names of the symbols in the same cells, and a missing rule is
missing for the renamed state and symbol. -/
theorem run_rename {spec : Spec} (hh : spec.halt ≠ []) (hf : f.Injective) (hg : g.Injective)
    (input : List Symbol) (options : RunOptions) :
    let original := spec.run options (spec.initial input)
    let renamed := (spec.rename f g).run options ((spec.rename f g).initial (input.map g))
    let c := original.2
    let c' := renamed.2
    c'.steps = c.steps ∧ c'.head = c.head ∧ c'.state = f c.state ∧
    (∀ p, c'.tape.read p = g (c.tape.read p)) ∧
    c'.tape.rightmost = c.tape.rightmost ∧ c'.tape.lastNonBlank = c.tape.lastNonBlank ∧
    (∀ content, original.1 = .ok (.output content) →
      content = String.join (c.tape.segment 1 c.tape.lastNonBlank)) ∧
    renamed.1 = match original.1 with
      | .ok .accept => .ok .accept
      | .ok .reject => .ok .reject
      | .ok (.output _) =>
        .ok (.output (String.join ((c.tape.segment 1 c.tape.lastNonBlank).map g)))
      | .ok .diverged => .ok .diverged
      | .error e => .error ⟨f e.state, g e.symbol⟩ := by
  intro original renamed c c'
  obtain ⟨h, hresult⟩ :=
    runFor_rename hf hg hh options.mode options.maxSteps (spec.renamed_initial input)
  refine ⟨h.steps, h.head, h.state, h.tape.cells, h.tape.rightmost, h.tape.lastNonBlank_eq hg,
    fun content hcontent => output_of_runFor (Prod.ext hcontent rfl), hresult.trans ?_⟩
  change (original.1.map (Verdict.rename g c.tape)).mapError (MissingRule.rename f g) = _
  cases original.1 with
  | error e => rfl
  | ok v => cases v <;> rfl

/-- A machine that replaces a one by a symbol of two characters. -/
def doubling : Spec :=
  { ofDefaults {} with
    rules := ((∅ : Rules).insert ("s", "[>") ⟨"t", "[>", .right⟩).insert ("t", "1")
      ⟨"h", "10", .stay⟩ }

theorem run_rename_doubling :
    let f : State → State := ("q" ++ ·)
    let g : Symbol → Symbol := ("x" ++ ·)
    doubling.halt ≠ [] ∧ f.Injective ∧ g.Injective ∧
    doubling.run ⟨5, .strict⟩ (doubling.initial ["1"]) = (.ok (.output "10"),
      ((doubling.initial ["1"]).act ⟨"t", "[>", .right⟩).act ⟨"h", "10", .stay⟩) ∧
    ((doubling.rename f g).run ⟨5, .strict⟩ ((doubling.rename f g).initial ["x1"])).1 =
      .ok (.output "x10") ∧
    ((doubling.rename f g).run ⟨5, .strict⟩ ((doubling.rename f g).initial ["x2"])).1 =
      .error ⟨"qt", "x2"⟩ := by
  have hf : Function.Injective fun q : State => "q" ++ q := fun a b h => by simpa using h
  have hg : Function.Injective fun x : Symbol => "x" ++ x := fun a b h => by simpa using h
  have hh : doubling.halt ≠ [] := by decide
  have hrun : doubling.run ⟨5, .strict⟩ (doubling.initial ["1"]) = (.ok (.output "10"),
      ((doubling.initial ["1"]).act ⟨"t", "[>", .right⟩).act ⟨"h", "10", .stay⟩) := by rfl
  have hstrict : doubling.run ⟨5, .strict⟩ (doubling.initial ["2"]) =
      (.error ⟨"t", "2"⟩, (doubling.initial ["2"]).act ⟨"t", "[>", .right⟩) := by rfl
  intro f g
  have hone := (run_rename (g := g) hh hf hg ["1"] ⟨5, .strict⟩).2.2.2.2.2.2.2
  have htwo := (run_rename (g := g) hh hf hg ["2"] ⟨5, .strict⟩).2.2.2.2.2.2.2
  rw [hrun] at hone
  rw [hstrict] at htwo
  exact ⟨hh, hf, hg, hrun, hone, htwo⟩

end Spec
end TapeMachine
