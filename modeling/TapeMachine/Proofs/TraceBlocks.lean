import TapeMachine.Proofs.StepCount
import TapeMachine.Proofs.Tracing

/-! Which configurations a trace shows. The loop of a run comes to a turn for every number of rules
applied so far, up to the turn with which it ends, and a trace shows those turns whose step count is
a multiple of the distance asked for: each of them once, in order, and the last one also if the run
fails there. -/
namespace TapeMachine.Spec

/-- The machines that the loop of a bounded run finds running, turn by turn. -/
def turns (spec : Spec) (mode : Mode) : Nat → Config → List Config
  | 0, _ => []
  | n + 1, c =>
    if spec.halted c then []
    else
      match spec.step mode c with
      | (.ok _, d) => c :: turns spec mode n d
      | (.error _, _) => [c]

variable {spec : Spec} {c d : Config} {mode : Mode} {every i k n : Nat} {o : Option Action}
  {e : MissingRule}

lemma turns_of_halted (h : spec.halted c = true) (n : Nat) : spec.turns mode n c = [] := by
  cases n <;> simp [turns, h]

lemma turns_succ (running : spec.halted c = false) (hs : spec.step mode c = (.ok o, d)) :
    spec.turns mode (n + 1) c = c :: spec.turns mode n d := by
  simp [turns, running, hs]

lemma turns_succ_of_error (running : spec.halted c = false)
    (hs : spec.step mode c = (.error e, d)) : spec.turns mode (n + 1) c = [c] := by
  simp [turns, running, hs]

lemma turns_eq_nil_iff : spec.turns mode n c = [] ↔ spec.halted c = true ∨ n = 0 := by
  cases n with
  | zero => simp [turns]
  | succ n =>
    cases running : spec.halted c with
    | true => simp [turns_of_halted running]
    | false =>
      rcases hs : spec.step mode c with ⟨e | o, d⟩
      · simp [turns_succ_of_error running hs]
      · simp [turns_succ running hs]

lemma getElem?_turns_zero (running : spec.halted c = false) :
    (spec.turns mode (n + 1) c)[0]? = some c := by
  rcases hs : spec.step mode c with ⟨e | o, d⟩
  · rw [turns_succ_of_error running hs]
    rfl
  · rw [turns_succ running hs]
    rfl

/-- Of the turns, a trace shows those that are due. -/
theorem shown_traceFor (spec : Spec) (mode : Mode) (every n : Nat) (c : Config)
    (shown : List Config) : (spec.traceFor mode every n c shown).shown =
      shown.reverse ++ (spec.turns mode n c).filter (·.steps % every = 0) := by
  induction n generalizing c shown with
  | zero => exact (List.append_nil _).symm
  | succ n ih =>
    cases running : spec.halted c with
    | true =>
      rw [traceFor_of_halted running, turns_of_halted running, List.filter_nil, List.append_nil]
    | false =>
      have hdue : [c].filter (·.steps % every = 0) = due every c := by
        unfold due
        split <;> simp [*]
      rcases hs : spec.step mode c with ⟨e | o, d⟩
      · rw [traceFor_succ_of_error running hs, turns_succ_of_error running hs, hdue,
          List.reverse_append, reverse_due]
      · rw [traceFor_succ running hs, turns_succ running hs, ih, List.reverse_append, reverse_due,
          List.append_assoc, ← hdue, ← List.filter_append, List.singleton_append]

/-- A run ends with the step that it takes at its last turn, or where it started if there is
none. -/
theorem runFor_eq_getLast? (spec : Spec) (mode : Mode) (n : Nat) (c : Config) :
    spec.runFor mode n c =
      match (spec.turns mode n c).getLast? with
      | none => (.ok (spec.verdict c), c)
      | some last =>
        ((spec.step mode last).1.map fun _ => spec.verdict (spec.step mode last).2,
          (spec.step mode last).2) := by
  induction n generalizing c with
  | zero => rfl
  | succ n ih =>
    cases running : spec.halted c with
    | true =>
      rw [runFor_of_halted running, turns_of_halted running]
      rfl
    | false =>
      rcases hs : spec.step mode c with ⟨e | o, d⟩
      · rw [runFor_succ_of_error running hs, turns_succ_of_error running hs]
        simp [hs, Except.map]
      · rw [runFor_succ running hs, turns_succ running hs, ih, List.getLast?_cons]
        cases (spec.turns mode n d).getLast? with
        | none => simp [hs, Except.map]
        | some last => simp

lemma reaches_zero_iff : spec.Reaches 0 c d ↔ c = d := by
  constructor
  · intro h
    cases h
    rfl
  · intro heq
    subst heq
    exact .refl c

lemma reaches_succ_iff (running : spec.halted c = false) {a : Action}
    (rule : spec.action? c.state c.read = some a) :
    spec.Reaches (i + 1) c d ↔ spec.Reaches i (c.act a) d := by
  constructor
  · intro h
    cases h with
    | apply _ rule' rest =>
      cases rule.symm.trans rule'
      exact rest
  · exact .apply running rule

lemma Missing.not_reaches (h : spec.Missing c) : ¬ spec.Reaches (i + 1) c d := by
  intro hr
  cases hr with
  | apply _ rule _ => simp [h.2] at rule

/-- Only one turn is taken where no rule is found: after a fall the machine has halted. -/
lemma turns_of_missing (hh : spec.halt ≠ []) (h : spec.Missing c) (mode : Mode) (n : Nat) :
    spec.turns mode (n + 1) c = [c] := by
  cases mode with
  | normal =>
    have hfallen : spec.turns .normal n (spec.fallen c) = [] :=
      turns_of_halted (halted_fallen hh c) n
    have hturns : spec.turns .normal (n + 1) c = c :: spec.turns .normal n (spec.fallen c) :=
      turns_succ h.1 (step_normal_of_missing h.1 h.2)
    rw [hturns, hfallen]
  | strict => exact turns_succ_of_error h.1 (step_strict_of_missing h.1 h.2)

/-- A turn comes after as many rules as there have been turns before it. -/
theorem getElem?_turns (hh : spec.halt ≠ []) : (spec.turns mode n c)[i]? = some d ↔
    i < n ∧ spec.Reaches i c d ∧ spec.halted d = false := by
  induction n generalizing c i with
  | zero => simp [turns]
  | succ n ih =>
    cases running : spec.halted c with
    | true =>
      have hnone : ¬ (spec.Reaches i c d ∧ spec.halted d = false) := by
        rintro ⟨hr, hd⟩
        cases hr with
        | refl => simp [running] at hd
        | apply running' => simp [running] at running'
      simp [turns_of_halted running, hnone]
    | false =>
      cases i with
      | zero =>
        have hfirst : some c = some d ↔ c = d ∧ spec.halted d = false := by
          rw [Option.some_inj]
          exact ⟨fun heq => ⟨heq, heq ▸ running⟩, And.left⟩
        rw [getElem?_turns_zero running, reaches_zero_iff, hfirst, and_iff_right (Nat.succ_pos n)]
      | succ i =>
        cases rule : spec.action? c.state c.read with
        | some a =>
          rw [turns_succ running (step_of_action running rule), List.getElem?_cons_succ, ih,
            reaches_succ_iff running rule, Nat.succ_lt_succ_iff]
        | none =>
          have hmissing : spec.Missing c := ⟨running, rule⟩
          simp [turns_of_missing hh hmissing, hmissing.not_reaches]

/-- The turns are counted without a gap. -/
theorem map_steps_turns (hh : spec.halt ≠ []) : (spec.turns mode n c).map Config.steps =
    List.range' c.steps (spec.turns mode n c).length := by
  refine List.ext_getElem (by simp) fun i hi hi' => ?_
  rw [List.length_map] at hi
  have hturn := ((getElem?_turns hh).1 (List.getElem?_eq_getElem hi)).2.1
  rw [List.getElem_map, List.getElem_range', hturn.steps_eq, Nat.one_mul]

/-- The last turn finds the machine running, and the turns lead up to its step count. -/
lemma length_turns (hh : spec.halt ≠ []) {last : Config}
    (h : (spec.turns mode n c).getLast? = some last) :
    (spec.turns mode n c).length = last.steps + 1 - c.steps ∧ spec.halted last = false := by
  have hpos : 0 < (spec.turns mode n c).length := by
    refine List.length_pos_iff.2 fun hnil => ?_
    rw [hnil] at h
    cases h
  rw [List.getLast?_eq_getElem?, getElem?_turns hh] at h
  obtain ⟨-, hreaches, running⟩ := h
  have hsteps := hreaches.steps_eq
  exact ⟨by omega, running⟩

lemma map_steps_filter_turns (hh : spec.halt ≠ []) {last : Config}
    (h : (spec.turns mode n c).getLast? = some last) (every : Nat) :
    ((spec.turns mode n c).filter (·.steps % every = 0)).map Config.steps =
      (List.range' c.steps (last.steps + 1 - c.steps)).filter (· % every = 0) := by
  rw [← (length_turns hh h).1, ← map_steps_turns hh, List.filter_map]
  rfl

/-- What the step at the last turn does to the step count, and when it fails. -/
lemma step_of_running (running : spec.halted c = false) (mode : Mode) :
    (spec.Missing c ∧ (spec.step mode c).2.steps = c.steps ∨
      ¬ spec.Missing c ∧ (spec.step mode c).2.steps = c.steps + 1) ∧
    ∀ e, (spec.step mode c).1 = .error e ↔
      mode = .strict ∧ spec.Missing c ∧ e = ⟨c.state, c.read⟩ := by
  rcases hs : spec.step mode c with ⟨r, d⟩
  cases Transition.of_step hs with
  | rest halted => simp [running] at halted
  | @act _ a _ rule =>
    have hrule : ¬ spec.Missing c := fun h => by simp [h.2] at rule
    exact ⟨.inr ⟨hrule, rfl⟩, fun e => by simp [hrule]⟩
  | fall _ missing =>
    have h : spec.Missing c := ⟨running, missing⟩
    exact ⟨.inl ⟨h, rfl⟩, fun e => by simp⟩
  | fail _ missing =>
    have h : spec.Missing c := ⟨running, missing⟩
    exact ⟨.inl ⟨h, rfl⟩, fun e => by simp [h, eq_comm]⟩

/-- The blocks of a trace. The loop of a run comes to its turn `i` after `i` rules, as long as the
bound allows it and the machine has not halted; at its last turn either no rule is found, and the
step count stays what it is, or one more rule is applied. The step counts in the trace are those
from the first turn to the last that are multiples of the distance asked for, each of them once and
in increasing order, and a block shows the machine with that step count: its state, its head and the
cells around the head. A run that fails has all these blocks too, but no summary behind them. -/
theorem blocks_of_trace (hh : spec.halt ≠ []) (options : RunOptions) (settings : TraceSettings)
    (c : Config) :
    let every := max 1 settings.every
    let turns := spec.turns options.mode options.maxSteps c
    let trace := spec.trace options settings.every c
    let blocks := trace.shown.flatMap (Trace.block settings.radius)
    (∀ i d, turns[i]? = some d ↔
      i < options.maxSteps ∧ spec.Reaches i c d ∧ spec.halted d = false) ∧
    (turns = [] ↔ spec.halted c = true ∨ options.maxSteps = 0) ∧
    (turns = [] → trace.shown = [] ∧ trace.result = .ok (spec.verdict c)) ∧
    (∀ last, turns.getLast? = some last →
      (spec.Missing last ∧ trace.final.steps = last.steps ∨
        ¬ spec.Missing last ∧ trace.final.steps = last.steps + 1) ∧
      (∀ e, trace.result = .error e ↔
        options.mode = .strict ∧ spec.Missing last ∧ e = ⟨last.state, last.read⟩) ∧
      trace.shown.map Config.steps =
        (List.range' c.steps (last.steps + 1 - c.steps)).filter (· % every = 0)) ∧
    (∀ d ∈ trace.shown, spec.Reaches (d.steps - c.steps) c d ∧
      let r := min settings.radius 1000
      let lo := d.head - r
      let hi := d.head + r
      ∃ caret, Trace.block settings.radius d =
        [s!"step={d.steps} state={d.state} head={d.head} window=[{lo}..{hi}]",
          String.join ((List.range' lo (hi + 1 - lo)).map d.tape.read), caret, ""]) ∧
    (∀ v, trace.result = .ok v → trace.lines spec settings =
      Trace.header spec settings ++ blocks ++ Trace.footer v trace.final) ∧
    ∀ e, trace.result = .error e →
      trace.lines spec settings = Trace.header spec settings ++ blocks := by
  intro every turns trace blocks
  have hturns (i : Nat) (d : Config) : turns[i]? = some d ↔
      i < options.maxSteps ∧ spec.Reaches i c d ∧ spec.halted d = false := getElem?_turns hh
  have hshown : trace.shown = turns.filter (·.steps % every = 0) :=
    spec.shown_traceFor options.mode every options.maxSteps c []
  have hrun : (trace.result, trace.final) = spec.runFor options.mode options.maxSteps c :=
    spec.traceFor_eq_runFor options.mode every options.maxSteps c []
  rw [runFor_eq_getLast?] at hrun
  refine ⟨hturns, turns_eq_nil_iff, fun hnil => ?_, fun last hlast => ?_, fun d hd => ?_,
    fun v hv => ?_, fun e he => ?_⟩
  · have hnone : (spec.turns options.mode options.maxSteps c).getLast? = none :=
      List.getLast?_eq_none_iff.2 hnil
    rw [hnone] at hrun
    exact ⟨by rw [hshown, hnil, List.filter_nil], congrArg Prod.fst hrun⟩
  · have hsome : (spec.turns options.mode options.maxSteps c).getLast? = some last := hlast
    rw [hsome] at hrun
    have hresult : trace.result = (spec.step options.mode last).1.map fun _ =>
        spec.verdict (spec.step options.mode last).2 := congrArg Prod.fst hrun
    have hfinal : trace.final = (spec.step options.mode last).2 := congrArg Prod.snd hrun
    obtain ⟨hsteps, herror⟩ := step_of_running (length_turns hh hlast).2 options.mode
    refine ⟨by rwa [hfinal], fun e => ?_, ?_⟩
    · rw [← herror, hresult]
      cases (spec.step options.mode last).1 <;> simp [Except.map]
    · rw [hshown]
      exact map_steps_filter_turns hh hlast every
  · rw [hshown, List.mem_filter] at hd
    obtain ⟨i, hi⟩ := List.mem_iff_getElem?.1 hd.1
    have hreaches := ((hturns i d).1 hi).2.1
    have hcount : d.steps - c.steps = i := by rw [hreaches.steps_eq, Nat.add_sub_cancel_left]
    exact ⟨hcount ▸ hreaches, _, rfl⟩
  · rw [Trace.lines, hv]
  · rw [Trace.lines, he, List.append_nil]

/-- A machine that has taken three steps before its trace starts. -/
def resumed : Config := { straying.initial ["1"] with steps := 3 }

/-- The only block shows the turn at which no rule is found. -/
theorem blocks_of_trace_resumed :
    let last := resumed.act ⟨"s", "[>", .right⟩
    let settings : TraceSettings := ⟨"m", "1", 2, 2⟩
    let strict := straying.trace ⟨9, .strict⟩ 2 resumed
    let normal := straying.trace ⟨9, .normal⟩ 2 resumed
    straying.halt ≠ [] ∧ (straying.turns .strict 9 resumed).getLast? = some last ∧
    straying.Missing last ∧ strict.final.steps = 4 ∧
    strict.shown.map Config.steps = (List.range' 3 2).filter (· % 2 = 0) ∧
    last ∈ strict.shown ∧ straying.Reaches 1 resumed last ∧ strict.result = .error ⟨"s", "1"⟩ ∧
    strict.lines straying settings = Trace.header straying settings ++
      strict.shown.flatMap (Trace.block 2) ∧
    normal.result = .ok (.output "1") ∧
    normal.lines straying settings = Trace.header straying settings ++
      normal.shown.flatMap (Trace.block 2) ++ Trace.footer (.output "1") normal.final := by
  have hh : straying.halt ≠ [] := by decide
  have hlast : (straying.turns .strict 9 resumed).getLast? =
      some (resumed.act ⟨"s", "[>", .right⟩) := by rfl
  have hmissing : straying.Missing (resumed.act ⟨"s", "[>", .right⟩) := ⟨by rfl, by rfl⟩
  have hmem : resumed.act ⟨"s", "[>", .right⟩ ∈ (straying.trace ⟨9, .strict⟩ 2 resumed).shown := by
    decide +kernel
  have hnormal : (straying.trace ⟨9, .normal⟩ 2 resumed).result = .ok (.output "1") := by rfl
  intro last settings strict normal
  obtain ⟨-, -, -, hend, hshown, -, hfailed⟩ :=
    blocks_of_trace hh ⟨9, .strict⟩ settings resumed
  obtain ⟨hsteps, herror, hcounts⟩ := hend last hlast
  have hresult : strict.result = .error ⟨"s", "1"⟩ := (herror _).2 ⟨rfl, hmissing, rfl⟩
  obtain ⟨-, -, -, -, -, hended, -⟩ := blocks_of_trace hh ⟨9, .normal⟩ settings resumed
  have hfinal : strict.final.steps = 4 := by
    rcases hsteps with ⟨-, hsteps⟩ | ⟨hrule, -⟩
    · exact hsteps
    · exact absurd hmissing hrule
  exact ⟨hh, hlast, hmissing, hfinal, hcounts, hmem, (hshown last hmem).1, hresult,
    hfailed _ hresult, hnormal, hended _ hnormal⟩

end TapeMachine.Spec
