import TapeMachine.Proofs.CommandLine.Answers
import TapeMachine.Proofs.Worded

/-! Words from the description to the answer. Every machine that the program runs was read from a
text, whichever source it comes from, so all that a run shows is made of words, and a plain answer
is one line. -/
namespace TapeMachine.CommandLine
open Description Text

section Sources
variable {bytes : Except ReadError ByteArray}

lemma parse_of_load {text : String} {spec : Spec} (h : load text = .ok spec) :
    parse text = .ok spec := by
  unfold load at h
  split at h
  · cases h
  · exact h

lemma exists_parse_of_loadFile {path : String} {spec : Spec}
    (h : loadFile path bytes = .ok spec) : ∃ text, parse text = .ok spec := by
  unfold loadFile at h
  split at h
  · exact ⟨_, parse_of_load h⟩
  · cases h

/-- Whatever machine a source holds, some text describes it. -/
theorem exists_parse_of_machine {source : Source} {m : Named} (h : source.machine bytes = .ok m) :
    ∃ text, parse text = .ok m.spec := by
  -- As long as the search is a variable, no script is parsed to check this.
  obtain ⟨find, hfind⟩ : ∃ find, Gallery.find? = find := ⟨_, rfl⟩
  delta Source.machine at h
  rw [hfind] at h
  split at h
  · split at h
    · next hfound =>
      cases h
      rw [← hfind] at hfound
      exact ⟨_, parse_of_load (Gallery.load_of_find? hfound)⟩
    · cases h
  · split at h
    · next hload =>
      cases h
      exact exists_parse_of_loadFile hload
    · cases h
  · split at h
    · cases h
    · split at h
      · next hload =>
        cases h
        exact ⟨_, parse_of_load hload⟩
      · cases h

end Sources

section Answer
variable {o : Options} {bytes : Except ReadError ByteArray}

lemma inForm_plain (hjson : o.json = false) (htrace : o.trace = false) : o.inForm .plain = o := by
  cases o
  cases hjson
  cases htrace
  rfl

/-- Without a failure, the plain answer is the verdict on a run from a machine and an input that
were read, and a line end. -/
lemma exists_run_of_respond (hlist : o.list = false) (hjson : o.json = false)
    (htrace : o.trace = false) (hcode : (o.respond bytes).code = 0) :
    ∃ m symbols v final, o.source.machine bytes = .ok m ∧
      Input.symbols m.spec o.input = .ok symbols ∧
      m.spec.run o.limits (m.spec.initial symbols) = (.ok v, final) ∧
      (o.respond bytes).stdout = v.text ++ "\n" := by
  have hanswer (m : Named) (symbols : List Symbol) := answer_plain o m symbols
  rw [inForm_plain hjson htrace] at hanswer
  have hfailure (message : String) : (Response.failure message).code ≠ 0 := Nat.one_ne_zero
  unfold Options.respond at hcode ⊢
  rw [hlist] at hcode ⊢
  cases hm : o.source.machine bytes with
  | error message =>
    rw [hm] at hcode
    exact absurd hcode (hfailure _)
  | ok m =>
    cases hinput : Input.symbols m.spec o.input with
    | error e =>
      simp only [hm, hinput] at hcode
      exact absurd hcode (hfailure _)
    | ok symbols =>
      rcases hrun : m.spec.run o.limits (m.spec.initial symbols) with ⟨e | v, final⟩
      · simp only [hm, hinput, hanswer, hrun] at hcode
        exact absurd hcode (hfailure _)
      · refine ⟨m, symbols, v, final, rfl, hinput, hrun, ?_⟩
        simp only [hinput, hanswer, hrun]
        rfl

end Answer

/-- Words throughout. Of a machine and an input that were read from texts, the state and the symbols
of all cells are words after any steps in any modes, and so are the symbols of every window and the
names in the result of every step and in the failure of every run. So there is no white space in the
text of a verdict, in the output and in the tape as it is rendered, and what the program answers
without an option for another form and without a failure is one line. -/
theorem words_throughout :
    (∀ text spec raw symbols, parse text = .ok spec → Input.symbols spec raw = .ok symbols →
      ∀ modes, let c := after spec.step modes (spec.initial symbols)
        IsWord c.state ∧ (∀ p, IsWord (c.tape.read p)) ∧
        (∀ radius, ∀ s ∈ (c.window radius).cells, IsWord s) ∧
        (∀ mode, ∀ s ∈ StepResult.names (spec.step mode c).1, IsWord s) ∧
        (∀ options e d, spec.run options c = (.error e, d) → IsWord e.state ∧ IsWord e.symbol) ∧
        (∀ options v d, spec.run options c = (.ok v, d) → Solid v.text) ∧
        Solid (spec.output c) ∧ ∀ limit, Solid (c.tape.render limit)) ∧
    ∀ (o : Options) tree stdin, o.list = false → o.json = false → o.trace = false →
      let response := o.respondIn tree stdin
      response.code = 0 → ∃ line, Solid line ∧ response.stdout = line ++ "\n" := by
  refine ⟨fun text spec raw symbols hparse hinput modes => ?_,
    fun o tree stdin hlist hjson htrace => ?_⟩
  · intro c
    obtain ⟨hs, hstart⟩ := worded_of_read hparse hinput
    have hc : c.Worded := hs.calls hstart modes
    refine ⟨hc.state, hc.cell, fun radius s => Tape.isWord_of_mem_segment hc.cell,
      fun mode => ((Spec.Transition.of_step rfl).worded hs hc).2, fun options e d hrun => ?_,
      fun options v d => hs.solid_of_runFor hc, spec.solid_output hc, Tape.solid_render hc.cell⟩
    exact ((Spec.Runs.of_runFor hrun).worded hs hc).2 e rfl
  · intro response hcode
    obtain ⟨m, symbols, v, final, hm, hinput, hrun, hout⟩ :=
      exists_run_of_respond hlist hjson htrace hcode
    obtain ⟨text, hparse⟩ := exists_parse_of_machine hm
    obtain ⟨hs, hstart⟩ := worded_of_read hparse hinput
    exact ⟨v.text, hs.solid_of_runFor hstart hrun, hout⟩

/-- A description with a symbol of two characters, one beyond ASCII, and a comment. -/
def wordy : String := "s [> -> s [> R\ns ab -> h \u00e9 S # done"

def wordySpec : Spec :=
  { Spec.ofDefaults {} with
    rules := ((∅ : Rules).insert ("s", "[>") ⟨"s", "[>", .right⟩).insert ("s", "ab")
      ⟨"h", "\u00e9", .stay⟩ }

theorem words_throughout_wordy :
    let c := after wordySpec.step [.normal, .strict] (wordySpec.initial ["ab", "cd"])
    let o : Options := ⟨none, none, false, " ab\tcd ", 9, true, false, 3, 1, false⟩
    let response := o.respondIn [] wordy.toUTF8
    parse wordy = .ok wordySpec ∧ Input.symbols wordySpec o.input = .ok ["ab", "cd"] ∧
    c.state = "h" ∧ IsWord c.state ∧ c.tape.read 1 = "\u00e9" ∧ IsWord (c.tape.read 1) ∧
    wordySpec.output c = "\u00e9cd" ∧ Solid (wordySpec.output c) ∧
    response.code = 0 ∧ ∃ line, Solid line ∧ response.stdout = line ++ "\n" := by
  have hparse : parse wordy = .ok wordySpec := by decide +kernel
  have hinput : Input.symbols wordySpec " ab\tcd " = .ok ["ab", "cd"] := by decide +kernel
  intro c o response
  have hpiped : response = o.respondTo (load wordy) "<stdin>" := respondIn_standardInput o [] wordy
  have hcode : response.code = 0 := by
    rw [hpiped]
    decide +kernel
  obtain ⟨hrun, hplain⟩ := words_throughout
  obtain ⟨hstate, hcell, -, -, -, -, houtput, -⟩ :=
    hrun _ _ _ _ hparse hinput [.normal, .strict]
  exact ⟨hparse, hinput, by decide +kernel, hstate, by decide +kernel, hcell 1,
    by decide +kernel, houtput, hcode, hplain o [] _ rfl rfl rfl hcode⟩

end TapeMachine.CommandLine
