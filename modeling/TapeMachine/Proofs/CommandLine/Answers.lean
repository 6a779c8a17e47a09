import TapeMachine.CommandLine.Response
import TapeMachine.Proofs.Description.Files
import TapeMachine.Proofs.Gallery.Source
import TapeMachine.Proofs.Json.Reports
import TapeMachine.Proofs.StepCount
import TapeMachine.Proofs.Tracing

/-! One answer in three forms and from three sources. Whether the description of a machine comes
from a file, from standard input or from the gallery, and whether the result is written as a text,
as JSON or as a trace, the program fails at the same point with the same message, or it comes to
the same result. -/
namespace TapeMachine.CommandLine
open Description Json

/-- How the result of a run is written. -/
inductive Form where
  | plain
  | json
  | trace
  deriving DecidableEq, Repr

namespace Options
variable (o : Options)

/-- The options with the machine taken from the given source. -/
def reading : Source → Options
  | .builtin name => { o with list := false, builtin := some name, machine := none }
  | .file path => { o with list := false, builtin := none, machine := some path }
  | .standardInput => { o with list := false, builtin := none, machine := none }

def inForm : Form → Options
  | .plain => { o with json := false, trace := false }
  | .json => { o with json := true, trace := false }
  | .trace => { o with json := false, trace := true }

def limits : RunOptions := ⟨o.maxSteps, if o.strict then .strict else .normal⟩

/-- The answer to what loading a description gave; the machine goes by the given name. -/
def respondTo (loaded : Except LoadError Spec) (name : String) : Response :=
  match loaded with
  | .error e => .failure e.message
  | .ok spec =>
    match Input.symbols spec o.input with
    | .error e => .failure e.message
    | .ok symbols => o.answer ⟨name, spec⟩ symbols

end Options

section Sources
variable {o : Options} {source : Source} {loaded : Except LoadError Spec} {name : String}

lemma source_reading (o : Options) (source : Source) : (o.reading source).source = source := by
  cases source <;> rfl

lemma list_reading (o : Options) (source : Source) : (o.reading source).list = false := by
  cases source <;> rfl

lemma respondTo_reading (o : Options) (source : Source) (loaded : Except LoadError Spec)
    (name : String) : (o.reading source).respondTo loaded name = o.respondTo loaded name := by
  cases source <;> rfl

/-- A machine is answered for as soon as its description is loaded. -/
lemma respond_reading {bytes : Except ReadError ByteArray} (o : Options)
    (h : source.machine bytes = (loaded.map (⟨name, ·⟩)).mapError LoadError.message) :
    (o.reading source).respond bytes = o.respondTo loaded name := by
  rw [← respondTo_reading o source, Options.respond, list_reading, source_reading, h]
  cases loaded <;> rfl

lemma respondIn_file (o : Options) {tree : Directory} {path text : String}
    (hpath : tree.read path = .ok text.toUTF8) (stdin : ByteArray) :
    (o.reading (.file path)).respondIn tree stdin = o.respondTo (load text) path := by
  have hread : (o.reading (.file path)).respondIn tree stdin =
      (o.reading (.file path)).respond (tree.read path) := rfl
  rw [hread, hpath]
  refine respond_reading o ?_
  delta Source.machine
  simp only [loadFile_toUTF8]
  cases load text <;> rfl

lemma respondIn_standardInput (o : Options) (tree : Directory) (text : String) :
    (o.reading .standardInput).respondIn tree text.toUTF8 =
      o.respondTo (load text) "<stdin>" := by
  have hread : (o.reading .standardInput).respondIn tree text.toUTF8 =
      (o.reading .standardInput).respond (.ok text.toUTF8) := rfl
  rw [hread]
  refine respond_reading o ?_
  delta Source.machine
  simp only [decodeText_toUTF8]
  cases load text <;> rfl

lemma machine_builtin {e : Exhibit} (he : Gallery.find? name = some e)
    (bytes : Except ReadError ByteArray) :
    (Source.builtin name).machine bytes = .ok ⟨s!"builtin:{name}", e.spec⟩ := by
  -- As long as the source and the search are variables, no script is parsed to check this.
  obtain ⟨find, hfind⟩ : ∃ find, Gallery.find? = find := ⟨_, rfl⟩
  obtain ⟨source, hsource⟩ : ∃ source, Source.builtin name = source := ⟨_, rfl⟩
  rw [hfind] at he
  rw [hsource]
  delta Source.machine
  rw [hfind]
  subst hsource
  simp only [he]

lemma respondIn_builtin (o : Options) (tree : Directory) (stdin : ByteArray) {e : Exhibit}
    (he : Gallery.find? name = some e) : (o.reading (.builtin name)).respondIn tree stdin =
      o.respondTo (load e.script.source) s!"builtin:{name}" := by
  have hread : (o.reading (.builtin name)).respondIn tree stdin =
      (o.reading (.builtin name)).respond (.ok stdin) := rfl
  rw [hread]
  refine respond_reading o ?_
  rw [machine_builtin he, Gallery.load_of_find? he]
  rfl

end Sources

/-- A description comes to a message in place of a result: it was not loaded, the input does not fit
the machine, or a strict run comes to a missing rule. -/
inductive Fails (o : Options) : Except LoadError Spec → String → Prop where
  | load (e : LoadError) : Fails o (.error e) e.message
  | input {spec : Spec} {e : InputError} (refused : Input.symbols spec o.input = .error e) :
      Fails o (.ok spec) e.message
  | run {spec : Spec} {symbols : List Symbol} {e : MissingRule} {final : Config}
      (input : Input.symbols spec o.input = .ok symbols) (strict : o.strict = true)
      (failed : spec.run o.limits (spec.initial symbols) = (.error e, final)) :
      Fails o (.ok spec) e.message

/-- A description comes to a verdict: its machine runs on the input within the limits. -/
inductive Ends (o : Options) : Except LoadError Spec → Spec → Verdict → Config → Prop where
  | run {spec : Spec} {symbols : List Symbol} {v : Verdict} {final : Config}
      (input : Input.symbols spec o.input = .ok symbols)
      (ended : spec.run o.limits (spec.initial symbols) = (.ok v, final)) :
      Ends o (.ok spec) spec v final

section Answers
variable {o : Options} {loaded : Except LoadError Spec} {message : String} {spec : Spec}
  {v : Verdict} {final : Config}

lemma fails_or_ends (o : Options) (loaded : Except LoadError Spec) :
    (∃ message, Fails o loaded message) ∨ ∃ spec v final, Ends o loaded spec v final := by
  cases loaded with
  | error e => exact .inl ⟨_, .load e⟩
  | ok spec =>
    cases input : Input.symbols spec o.input with
    | error e => exact .inl ⟨_, .input input⟩
    | ok symbols =>
      rcases run : spec.run o.limits (spec.initial symbols) with ⟨e | v, final⟩
      · have hmode := Spec.strict_of_runFor_error run
        have strict : o.strict = true := by
          by_contra h
          simp [Options.limits, h] at hmode
        exact .inl ⟨_, .run input strict run⟩
      · exact .inr ⟨spec, v, final, .run input run⟩

lemma input_inForm (o : Options) (form : Form) : (o.inForm form).input = o.input := by
  cases form <;> rfl

lemma respondTo_of_error {e : InputError} (input : Input.symbols spec o.input = .error e)
    (form : Form) (name : String) :
    (o.inForm form).respondTo (.ok spec) name = .failure e.message := by
  rw [Options.respondTo, input_inForm, input]

/-- Once the input is read, the machine is run, and the result is written in the form asked for. -/
lemma respondTo_of_ok {symbols : List Symbol} (input : Input.symbols spec o.input = .ok symbols)
    (form : Form) (name : String) : (o.inForm form).respondTo (.ok spec) name =
      (o.inForm form).answer ⟨name, spec⟩ symbols := by
  rw [Options.respondTo, input_inForm, input]

lemma answer_plain (o : Options) (m : Named) (symbols : List Symbol) :
    (o.inForm .plain).answer m symbols =
      match m.spec.run o.limits (m.spec.initial symbols) with
      | (.ok v, _) => .success (v.text ++ "\n")
      | (.error e, _) => .failure e.message := rfl

lemma answer_json (o : Options) (m : Named) (symbols : List Symbol) :
    (o.inForm .json).answer m symbols =
      match m.spec.run o.limits (m.spec.initial symbols) with
      | (.ok v, final) => .success (writePretty (Report.of m.spec final v) ++ "\n")
      | (.error e, _) => .failure e.message := rfl

lemma answer_trace (o : Options) (m : Named) (symbols : List Symbol) :
    (o.inForm .trace).answer m symbols =
      let trace := m.spec.trace o.limits o.dumpEvery (m.spec.initial symbols)
      let text := trace.text m.spec ⟨m.name, o.input, o.radius, o.dumpEvery⟩
      match trace.result with
      | .ok _ => .success text
      | .error e => .failureAfter text e.message := rfl

/-- A trace has the result of the run that the limits allow. -/
lemma trace_eq_run (o : Options) (spec : Spec) (c : Config) :
    ((spec.trace o.limits o.dumpEvery c).result, (spec.trace o.limits o.dumpEvery c).final) =
      spec.run o.limits c :=
  spec.traceFor_eq_runFor _ _ _ _ _

/-- Whoever fails says why, and writes nothing else but the trace so far. -/
lemma Fails.respondTo (h : Fails o loaded message) (form : Form) (name : String) :
    let r := (o.inForm form).respondTo loaded name
    r.code = 1 ∧ r.stderr = s!"Error: {message}\n" ∧ (form ≠ .trace → r.stdout = "") := by
  cases h with
  | load e => exact ⟨rfl, rfl, fun _ => rfl⟩
  | input refused =>
    rw [respondTo_of_error refused]
    exact ⟨rfl, rfl, fun _ => rfl⟩
  | run input strict failed =>
    rw [respondTo_of_ok input]
    cases form with
    | plain =>
      rw [answer_plain, failed]
      exact ⟨rfl, rfl, fun _ => rfl⟩
    | json =>
      rw [answer_json, failed]
      exact ⟨rfl, rfl, fun _ => rfl⟩
    | trace =>
      rw [← trace_eq_run] at failed
      obtain ⟨hresult, -⟩ := Prod.mk.inj failed
      simp only [answer_trace, hresult]
      exact ⟨rfl, rfl, fun h => absurd rfl h⟩

lemma Ends.respondTo_plain (h : Ends o loaded spec v final) (name : String) :
    (o.inForm .plain).respondTo loaded name = .success (v.text ++ "\n") := by
  cases h with
  | run input ended => rw [respondTo_of_ok input, answer_plain, ended]

lemma Ends.respondTo_json (h : Ends o loaded spec v final) (name : String) :
    (o.inForm .json).respondTo loaded name =
      .success (writePretty (Report.of spec final v) ++ "\n") := by
  cases h with
  | run input ended => rw [respondTo_of_ok input, answer_json, ended]

lemma Ends.respondTo_trace (h : Ends o loaded spec v final) (name : String) :
    ∃ lines, (o.inForm .trace).respondTo loaded name =
      .success (String.join ((lines ++ Trace.footer v final).map (· ++ "\n"))) := by
  cases h with
  | run input ended =>
    rw [← trace_eq_run] at ended
    obtain ⟨hresult, hfinal⟩ := Prod.mk.inj ended
    rw [respondTo_of_ok input]
    simp only [answer_trace, hresult, Trace.text, Trace.lines, hfinal]
    exact ⟨_, rfl⟩

/-- The name of the machine is in the first line of a trace and nowhere else. -/
lemma exists_text_eq (spec : Spec) (t : Trace) (input : String) (radius every : Nat) :
    ∃ rest, ∀ name, t.text spec ⟨name, input, radius, every⟩ = s!"machine={name}\n" ++ rest := by
  let unnamed : TraceSettings := ⟨"", input, radius, every⟩
  let others := (Trace.header spec unnamed).tail ++ t.body unnamed
  refine ⟨String.join (others.map (· ++ "\n")), fun name => ?_⟩
  have hlines : t.lines spec ⟨name, input, radius, every⟩ = s!"machine={name}" :: others :=
    Trace.lines_eq _ _ _
  rw [Trace.text, hlines, List.map_cons, String.join_cons]
  rfl

/-- The answer does not depend on the name of the machine, but for the first line of a trace. -/
lemma respondTo_name (o : Options) (loaded : Except LoadError Spec) (form : Form) :
    let answer := (o.inForm form).respondTo loaded
    (∀ name other, answer name = answer other) ∨
      form = .trace ∧ ∃ code rest stderr, ∀ name,
        answer name = ⟨code, s!"machine={name}\n" ++ rest, stderr⟩ := by
  intro answer
  cases loaded with
  | error e => exact .inl fun _ _ => rfl
  | ok spec =>
    cases input : Input.symbols spec o.input with
    | error e =>
      have hanswer : ∀ name, answer name = .failure e.message := respondTo_of_error input form
      exact .inl fun name other => by rw [hanswer, hanswer]
    | ok symbols =>
      have hanswer : ∀ name, answer name = (o.inForm form).answer ⟨name, spec⟩ symbols :=
        respondTo_of_ok input form
      cases form with
      | plain => exact .inl fun name other => by rw [hanswer, hanswer, answer_plain, answer_plain]
      | json => exact .inl fun name other => by rw [hanswer, hanswer, answer_json, answer_json]
      | trace =>
        obtain ⟨rest, hrest⟩ := exists_text_eq spec
          (spec.trace o.limits o.dumpEvery (spec.initial symbols)) o.input o.radius o.dumpEvery
        refine .inr ⟨rfl, ?_⟩
        cases hresult : (spec.trace o.limits o.dumpEvery (spec.initial symbols)).result with
        | ok v =>
          refine ⟨0, rest, "", fun name => ?_⟩
          simp only [hanswer, answer_trace, hresult, hrest]
          rfl
        | error e =>
          refine ⟨1, rest, s!"Error: {e.message}\n", fun name => ?_⟩
          simp only [hanswer, answer_trace, hresult, hrest]
          rfl

/-- A run within a bound that can be written counts its steps with a number that can be. -/
lemma Ends.steps_lt (h : Ends o loaded spec v final) (hmax : o.maxSteps < Text.numberBound) :
    final.steps < Text.numberBound := by
  cases h with
  | @run _ symbols _ _ input ended =>
    have hle := spec.steps_runFor_le o.limits.mode o.limits.maxSteps (spec.initial symbols)
    have hzero : (spec.initial symbols).steps = 0 := rfl
    rw [Spec.run] at ended
    rw [ended, hzero, Nat.zero_add] at hle
    exact Nat.lt_of_le_of_lt hle hmax

lemma Ends.respondTo (h : Ends o loaded spec v final) (form : Form) (name : String) :
    let r := (o.inForm form).respondTo loaded name
    r.code = 0 ∧ r.stderr = "" := by
  cases form with
  | plain =>
    rw [h.respondTo_plain]
    exact ⟨rfl, rfl⟩
  | json =>
    rw [h.respondTo_json]
    exact ⟨rfl, rfl⟩
  | trace =>
    obtain ⟨lines, hlines⟩ := h.respondTo_trace name
    rw [hlines]
    exact ⟨rfl, rfl⟩

/-- A machine of the gallery is answered for as its description on standard input is. -/
lemma builtin_or_piped (o : Options) (form : Form) (tree : Directory) (other : ByteArray)
    {name : String} {e : Exhibit} (he : Gallery.find? name = some e) :
    let builtin := ((o.inForm form).reading (.builtin name)).respondIn tree other
    let piped := ((o.inForm form).reading .standardInput).respondIn tree e.script.source.toUTF8
    builtin = piped ∨ form = .trace ∧ ∃ code rest stderr,
      builtin = ⟨code, s!"machine=builtin:{name}\n" ++ rest, stderr⟩ ∧
      piped = ⟨code, "machine=<stdin>\n" ++ rest, stderr⟩ := by
  intro builtin piped
  have hbuiltin : builtin =
      (o.inForm form).respondTo (load e.script.source) s!"builtin:{name}" :=
    respondIn_builtin _ tree other he
  have hpiped : piped = (o.inForm form).respondTo (load e.script.source) "<stdin>" :=
    respondIn_standardInput _ tree _
  have horigin : "machine=" ++ s!"builtin:{name}" = s!"machine=builtin:{name}" :=
    String.append_assoc.symm
  rw [hbuiltin, hpiped]
  rcases respondTo_name o (load e.script.source) form with h | ⟨hform, code, rest, stderr, h⟩
  · exact .inl (h _ _)
  · refine .inr ⟨hform, code, rest, stderr, ?_, h _⟩
    rw [h, ← horigin]
    rfl

end Answers

/-- The sources and the forms agree. A description in a file and the same description on standard
input, with the result written in any of the three forms, give six answers: either all fail with
one message, in a trace perhaps after its first lines, or all succeed, and the text, the report
and the last lines of the trace say the same. A machine of the gallery is answered for as its
description on standard input is; only the line of a trace that names the machine differs. -/
theorem sources_and_forms_agree (o : Options) (hmax : o.maxSteps < Text.numberBound)
    (tree : Directory) {path text : String} (hpath : tree.read path = .ok text.toUTF8)
    (other : ByteArray) :
    let file form := ((o.inForm form).reading (.file path)).respondIn tree other
    let piped (text : String) form :=
      ((o.inForm form).reading .standardInput).respondIn tree text.toUTF8
    let builtin name form := ((o.inForm form).reading (.builtin name)).respondIn tree other
    ((∃ message, Fails o (load text) message ∧ ∀ form, ∀ r ∈ [file form, piped text form],
        r.code = 1 ∧ r.stderr = s!"Error: {message}\n" ∧ (form ≠ .trace → r.stdout = "")) ∨
      ∃ spec v final, Ends o (load text) spec v final ∧
        let report := Report.of spec final v
        let remark := if v = .diverged then " (did not halt within step limit)" else ""
        report.result = v.text ∧
        (∀ form, ∀ r ∈ [file form, piped text form], r.code = 0 ∧ r.stderr = "") ∧
        (∀ r ∈ [file .plain, piped text .plain], r.stdout = v.text ++ "\n") ∧
        (∀ r ∈ [file .json, piped text .json], readAs? Report r.stdout = some report) ∧
        ∀ r ∈ [file .trace, piped text .trace], ∃ lines,
          r.stdout = String.join ((lines ++ [s!"RESULT: {v.text}{remark}",
            s!"STEPS: {report.steps}", s!"FINAL STATE: {report.state}",
            s!"TAPE: {report.tape}"]).map (· ++ "\n"))) ∧
    ∀ name ∈ Gallery.names, ∃ e, Gallery.find? name = some e ∧ ∀ form,
      builtin name form = piped e.script.source form ∨
        form = .trace ∧ ∃ code rest stderr,
          builtin name form = ⟨code, s!"machine=builtin:{name}\n" ++ rest, stderr⟩ ∧
          piped e.script.source form = ⟨code, "machine=<stdin>\n" ++ rest, stderr⟩ := by
  intro file piped builtin
  have hfile (form : Form) : file form = (o.inForm form).respondTo (load text) path :=
    respondIn_file _ hpath other
  have hpiped (form : Form) :
      piped text form = (o.inForm form).respondTo (load text) "<stdin>" :=
    respondIn_standardInput _ tree text
  have both {P : Response → Prop} (form : Form)
      (h : ∀ name, P ((o.inForm form).respondTo (load text) name)) :
      ∀ r ∈ [file form, piped text form], P r := by
    rw [hfile, hpiped, List.forall_mem_cons, List.forall_mem_singleton]
    exact ⟨h _, h _⟩
  refine ⟨?_, fun name hname => ?_⟩
  · rcases fails_or_ends o (load text) with ⟨message, h⟩ | ⟨spec, v, final, h⟩
    · exact .inl ⟨message, h, fun form => both form (h.respondTo form)⟩
    · refine .inr ⟨spec, v, final, h, rfl, fun form => both form (h.respondTo form),
        both _ fun name => ?_, both _ fun name => ?_, both _ fun name => ?_⟩
      · rw [h.respondTo_plain]
        rfl
      · rw [h.respondTo_json]
        exact Report.readAs?_writePretty (h.steps_lt hmax) (space_newLine 0)
      · obtain ⟨lines, hlines⟩ := h.respondTo_trace name
        rw [hlines]
        exact ⟨lines, rfl⟩
  · obtain ⟨e, he⟩ := Gallery.exists_find? hname
    exact ⟨e, he, fun form => builtin_or_piped o form tree other he⟩

theorem sources_and_forms_agree_one :
    let o : Options := ⟨none, none, false, "1", 9, true, false, 3, 1, false⟩
    let text := "s [> -> s [> R\ns 1 -> h 1 S"
    let tree : Directory := [("m", .file text.toUTF8)]
    let file form := ((o.inForm form).reading (.file "m")).respondIn tree .empty
    let piped form := ((o.inForm form).reading .standardInput).respondIn tree text.toUTF8
    o.maxSteps < Text.numberBound ∧ tree.read "m" = .ok text.toUTF8 ∧
    file .plain = ⟨0, "1\n", ""⟩ ∧
    ∃ report, report.result = "1" ∧ readAs? Report (piped .json).stdout = some report := by
  intro o text tree file piped
  have hmax : o.maxSteps < Text.numberBound := by decide
  have hpath : tree.read "m" = .ok text.toUTF8 := by
    have hparts : "m".splitOn "/" = ["m"] := by
      rw [String.splitOn, if_neg (by decide), String.splitOnAux, if_neg (by decide),
        if_neg (by decide), String.splitOnAux, if_pos (by decide)]
      rfl
    have hrelative : "m".startsWith "/" = false := by decide +kernel
    rw [Directory.read, Directory.resolve, hparts, hrelative]
    rfl
  have hfile : file .plain = (o.inForm .plain).respondTo (load text) "m" :=
    respondIn_file _ hpath .empty
  have hplain : file .plain = ⟨0, "1\n", ""⟩ := by
    rw [hfile]
    decide +kernel
  refine ⟨hmax, hpath, hplain, ?_⟩
  obtain ⟨⟨message, -, h⟩ | ⟨spec, v, final, -, hresult, -, h, hjson, -⟩, -⟩ :=
    sources_and_forms_agree o hmax tree hpath .empty
  · have hcode : (file .plain).code = 1 := (h .plain _ List.mem_cons_self).1
    rw [hplain] at hcode
    cases hcode
  · have htext : (file .plain).stdout = v.text ++ "\n" := h _ List.mem_cons_self
    rw [hplain] at htext
    have hv : v.text = "1" := (String.append_left_inj "\n").1 htext.symm
    exact ⟨_, hresult.trans hv, hjson _ (List.mem_cons_of_mem _ List.mem_cons_self)⟩

end TapeMachine.CommandLine
