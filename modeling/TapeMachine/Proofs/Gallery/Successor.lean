import TapeMachine.Proofs.Gallery.Source
import TapeMachine.Proofs.Scene
import TapeMachine.Proofs.TapeContent

/-! The successor machine of the gallery adds one to a binary number. It goes to the right end of
the number and carries the one leftwards over the trailing ones. It stops at the last zero; where
there is none it runs back to the marker, and the number becomes one digit longer. -/
namespace TapeMachine.Successor
open Description

def rows : List (Situation × Action) :=
  [(("s", "[>"), ⟨"s", "[>", .right⟩), (("s", "0"), ⟨"s", "0", .right⟩),
    (("s", "1"), ⟨"s", "1", .right⟩), (("s", "u"), ⟨"c", "u", .left⟩),
    (("c", "0"), ⟨"h", "1", .stay⟩), (("c", "1"), ⟨"c", "0", .left⟩),
    (("c", "[>"), ⟨"p", "[>", .right⟩),
    (("p", "0"), ⟨"r", "1", .right⟩), (("p", "u"), ⟨"h", "1", .stay⟩),
    (("r", "0"), ⟨"r", "0", .right⟩), (("r", "u"), ⟨"h", "0", .stay⟩)]

def machine : Spec := { Spec.ofDefaults {} with rules := .ofRows rows }

/-- The script of the gallery describes the machine with these rows. -/
theorem parse_source : parse Script.successor.source = .ok machine := by
  have lined : Script.successor.Lined := Script.lined_of_mem_all (by simp [Script.all])
  rw [Script.parse_source lined]
  simp only [Script.successor, List.map_cons, List.map_nil]
  repeat rw [String.toList_ofList]
  rfl

lemma hasRows : machine.HasRows rows := ⟨rfl, by decide⟩

/-- The binary number one larger: the trailing ones become zeros, and the zero in front of them
becomes a one; a number without a zero gets a new first digit. -/
inductive Increment : List Char → List Char → Prop where
  | carry (w : List Char) (n : Nat) :
      Increment (w ++ '0' :: List.replicate n '1') (w ++ '1' :: List.replicate n '0')
  | overflow (n : Nat) : Increment (List.replicate n '1') ('1' :: List.replicate n '0')

namespace Increment
variable {w v : List Char}

lemma exists_increment (hw : ∀ c ∈ w, c = '0' ∨ c = '1') : ∃ v, Increment w v := by
  induction w using List.reverseRecOn with
  | nil => exact ⟨_, overflow 0⟩
  | append_singleton w c ih =>
    rcases hw c (by simp) with rfl | rfl
    · exact ⟨_, carry w 0⟩
    · obtain ⟨v, h⟩ := ih fun c hc => hw c (by simp [hc])
      cases h with
      | carry w n =>
        rw [List.append_assoc, List.cons_append, ← List.replicate_succ']
        exact ⟨_, carry w (n + 1)⟩
      | overflow n =>
        rw [← List.replicate_succ']
        exact ⟨_, overflow (n + 1)⟩

lemma value_replicate (n a : Nat) :
    Nat.ofDigitChars 2 (List.replicate n '1') a + 1 =
      Nat.ofDigitChars 2 (List.replicate n '0') (a + 1) := by
  induction n generalizing a with
  | zero => rfl
  | succ n ih =>
    rw [List.replicate_succ, List.replicate_succ, Nat.ofDigitChars_cons, Nat.ofDigitChars_cons]
    exact ih (2 * a + 1)

theorem value_eq (h : Increment w v) : Nat.ofDigitChars 2 v 0 = Nat.ofDigitChars 2 w 0 + 1 := by
  cases h with
  | carry w n =>
    rw [Nat.ofDigitChars_append, Nat.ofDigitChars_append, Nat.ofDigitChars_cons,
      Nat.ofDigitChars_cons]
    exact (value_replicate n _).symm
  | overflow n => exact (value_replicate n 0).symm

theorem length_eq (h : Increment w v) :
    v.length = if '0' ∈ w then w.length else w.length + 1 := by
  cases h with
  | carry w n => simp
  | overflow n => simp

theorem binary (h : Increment w v) (hw : ∀ c ∈ w, c = '0' ∨ c = '1') :
    ∀ c ∈ v, c = '0' ∨ c = '1' := by
  intro c hc
  cases h with
  | carry w n =>
    rcases List.mem_append.1 hc with hc | hc
    · exact hw c (List.mem_append_left _ hc)
    · simp only [List.mem_cons, List.mem_replicate] at hc
      exact hc.symm.imp_left And.right
  | overflow n =>
    simp only [List.mem_cons, List.mem_replicate] at hc
    exact hc.symm.imp_left And.right

end Increment

/-- The cells that a number fills. -/
def cells (w : List Char) : List Symbol := w.map String.singleton

lemma join_cells (w : List Char) : String.join (cells w) = String.ofList w := by
  rw [← String.toList_inj]
  simp [cells, List.flatMap_map]

lemma cells_replicate (n : Nat) (c : Char) :
    cells (List.replicate n c) = List.replicate n (String.singleton c) := by simp [cells]

lemma mem_cells {w : List Char} (hw : ∀ c ∈ w, c = '0' ∨ c = '1') {x : Symbol}
    (hx : x ∈ cells w) : x = "0" ∨ x = "1" := by
  obtain ⟨c, hc, rfl⟩ := List.mem_map.1 hx
  exact (hw c hc).imp (congrArg String.singleton) (congrArg String.singleton)

/-- The machine goes to the end of the number and turns round there. -/
lemma walks_scan {w before : List Symbol} {y : Symbol} (hw : ∀ x ∈ w, x = "0" ∨ x = "1")
    (hb : w.reverse ++ ["[>"] = y :: before) :
    machine.Walks (w.length + 2) ⟨"s", [], "[>" :: w⟩ ⟨"c", before, [y, "u"]⟩ := by
  have hmarker : machine.Walks 1 ⟨"s", [], "[>" :: w⟩ ⟨"s", ["[>"], w⟩ :=
    .right (by decide) (hasRows.action?_of_mem (by decide)) fun _ => rfl
  have hturn : machine.Walks (w.length + 1) ⟨"s", ["[>"], w⟩ ⟨"c", before, [y, "u"]⟩ := by
    refine .turn (by decide) (fun x hx => ?_) (hasRows.action?_of_mem (by decide)) hb
    rcases hw x hx with rfl | rfl <;> exact hasRows.action?_of_mem (by decide)
  have hn : w.length + 2 = 1 + (w.length + 1) := by omega
  rw [hn]
  exact hmarker.trans hturn

/-- On its way back the machine turns ones into zeros. -/
lemma walks_ones {n : Nat} {before l : List Symbol} {y z : Symbol}
    (hb : y :: before = List.replicate n "1" ++ z :: l) :
    machine.Walks n ⟨"c", before, [y, "u"]⟩ ⟨"c", l, z :: (List.replicate n "0" ++ ["u"])⟩ := by
  have h : machine.Walks (List.replicate n "1").length ⟨"c", before, [y, "u"]⟩ ⟨"c", l,
      z :: (((List.replicate n "1").map fun _ => "0").reverse ++ ["u"])⟩ := by
    refine .sweep_left (by decide) (fun x hx => ?_) hb
    cases List.eq_of_mem_replicate hx
    exact hasRows.action?_of_mem (by decide)
  simpa using h

/-- From the end of the number the machine comes back to the cell in front of the trailing ones. -/
lemma walks_back {w l : List Symbol} {n : Nat} {z : Symbol} (hw : ∀ x ∈ w, x = "0" ∨ x = "1")
    (hw' : w.reverse ++ ["[>"] = List.replicate n "1" ++ z :: l) :
    machine.Walks (w.length + 2 + n) ⟨"s", [], "[>" :: w⟩
      ⟨"c", l, z :: (List.replicate n "0" ++ ["u"])⟩ := by
  obtain ⟨y, before, hb⟩ : ∃ y before, w.reverse ++ ["[>"] = y :: before :=
    List.exists_cons_of_ne_nil (by simp)
  exact (walks_scan hw hb).trans (walks_ones (hb.symm.trans hw'))

/-- The carry stops at the last zero, which becomes a one. -/
lemma walks_carry {w : List Symbol} (hw : ∀ x ∈ w, x = "0" ∨ x = "1") (n : Nat) :
    machine.Walks (w.length + 2 * n + 4) ⟨"s", [], "[>" :: (w ++ "0" :: List.replicate n "1")⟩
      ⟨"h", w.reverse ++ ["[>"], "1" :: List.replicate n "0"⟩ := by
  have hdigits : ∀ x ∈ w ++ "0" :: List.replicate n "1", x = "0" ∨ x = "1" := by
    intro x hx
    simp only [List.mem_append, List.mem_cons, List.mem_replicate] at hx
    rcases hx with hx | rfl | ⟨-, rfl⟩
    · exact hw x hx
    · exact .inl rfl
    · exact .inr rfl
  have hback := walks_back (n := n) (z := "0") (l := w.reverse ++ ["[>"]) hdigits (by simp)
  have hstop : machine.Walks 1 ⟨"c", w.reverse ++ ["[>"], "0" :: (List.replicate n "0" ++ ["u"])⟩
      ⟨"h", w.reverse ++ ["[>"], "1" :: List.replicate n "0" ++ ["u"]⟩ :=
    .stay (by decide) (hasRows.action?_of_mem (by decide)) (by simp)
  have hn : w.length + 2 * n + 4 =
      (w ++ "0" :: List.replicate n "1").length + 2 + n + 1 + 0 := by
    simp only [List.length_append, List.length_cons, List.length_replicate]
    omega
  rw [hn]
  exact (hback.trans hstop).trans .hide_blank

/-- With nothing but ones the head comes back to the marker. The first cell behind the marker then
becomes a one, and the cell behind the zeros, still blank, the last zero. -/
lemma walks_overflow (n : Nat) : ∃ k t, k ≤ 3 * n + 4 ∧
    machine.Walks k ⟨"s", [], "[>" :: List.replicate n "1"⟩ t ∧ t.state = "h" ∧
      t.behind.reverse ++ t.ahead = "[>" :: "1" :: List.replicate n "0" := by
  have hback := walks_back (w := List.replicate n "1") (n := n) (z := "[>") (l := [])
    (fun x hx => .inr (List.eq_of_mem_replicate hx)) (by simp)
  have hmarker : machine.Walks 1 ⟨"c", [], "[>" :: (List.replicate n "0" ++ ["u"])⟩
      ⟨"p", ["[>"], List.replicate n "0" ++ ["u"]⟩ :=
    .right (by decide) (hasRows.action?_of_mem (by decide)) fun _ => rfl
  have hfront := hback.trans hmarker
  rw [List.length_replicate] at hfront
  -- The empty number has no first cell that could become a one: its blank does.
  cases n with
  | zero =>
    have hstop : machine.Walks 1 ⟨"p", ["[>"], ["u"]⟩ ⟨"h", ["[>"], ["1"]⟩ :=
      .stay (by decide) (hasRows.action?_of_mem (by decide)) (by simp)
    exact ⟨_, _, by omega, hfront.trans hstop, rfl, rfl⟩
  | succ n =>
    have hfirst : machine.Walks 1 ⟨"p", ["[>"], "0" :: (List.replicate n "0" ++ ["u"])⟩
        ⟨"r", ["1", "[>"], List.replicate n "0" ++ ["u"]⟩ :=
      .right (by decide) (hasRows.action?_of_mem (by decide)) (by simp)
    have hsweep : machine.Walks (List.replicate n "0").length
        ⟨"r", ["1", "[>"], List.replicate n "0" ++ ["u"]⟩
        ⟨"r", (List.replicate n "0").reverse ++ ["1", "[>"], ["u"]⟩ := by
      refine .sweep_right (by decide) fun x hx => ?_
      cases List.eq_of_mem_replicate hx
      exact hasRows.action?_of_mem (by decide)
    have hlast : machine.Walks 1 ⟨"r", (List.replicate n "0").reverse ++ ["1", "[>"], ["u"]⟩
        ⟨"h", (List.replicate n "0").reverse ++ ["1", "[>"], ["0"]⟩ :=
      .stay (by decide) (hasRows.action?_of_mem (by decide)) (by simp)
    refine ⟨_, _, ?_, ((hfront.trans hfirst).trans hsweep).trans hlast, rfl, ?_⟩
    · rw [List.length_replicate]
      omega
    · simp [List.replicate_succ']

/-- From the marker on, the machine halts on the number one larger. -/
theorem walks_increment {w v : List Char} (h : Increment w v)
    (hw : ∀ c ∈ w, c = '0' ∨ c = '1') : ∃ k t, k ≤ 3 * w.length + 4 ∧
      machine.Walks k ⟨"s", [], "[>" :: cells w⟩ t ∧ t.state = "h" ∧
      t.behind.reverse ++ t.ahead = "[>" :: cells v := by
  cases h with
  | carry w n =>
    have hcells : ∀ x ∈ cells w, x = "0" ∨ x = "1" :=
      fun x hx => mem_cells (fun c hc => hw c (List.mem_append_left _ hc)) hx
    have hwalk := walks_carry hcells n
    refine ⟨_, _, ?_, by simpa [cells] using hwalk, rfl, ?_⟩
    · simp only [List.length_append, List.length_cons, List.length_replicate]
      omega
    · simp [cells]
  | overflow n =>
    obtain ⟨k, t, hk, hwalk, hstate, ht⟩ := walks_overflow n
    refine ⟨k, t, by rwa [List.length_replicate], ?_, hstate, ?_⟩
    · rwa [cells_replicate]
    · rw [ht, cells, List.map_cons, List.map_replicate]
      rfl

/-- The successor machine of the gallery adds one to every number in binary, in either mode, within
a linear number of steps and without ever coming to a missing rule. It keeps leading zeros, and only
a number without a zero gets longer. -/
theorem outputs_increment (w : String) (hw : ∀ c ∈ w.toList, c = '0' ∨ c = '1') :
    ∃ e v, Gallery.find? "successor" = some e ∧ parse e.script.source = .ok e.spec ∧
      (∀ c ∈ v.toList, c = '0' ∨ c = '1') ∧
      Nat.ofDigitChars 2 v.toList 0 = Nat.ofDigitChars 2 w.toList 0 + 1 ∧
      v.length = (if '0' ∈ w.toList then w.length else w.length + 1) ∧
      let c := e.spec.initial (w.toList.map String.singleton)
      (∀ n mode, 3 * w.length + 4 ≤ n → (e.spec.run ⟨n, mode⟩ c).1 = .ok (.output v)) ∧
      ∀ modes, ¬ e.spec.Missing (after e.spec.step modes c) := by
  have hfind := Gallery.find?_name (by simp [Script.all]) parse_source
  obtain ⟨v, h⟩ := Increment.exists_increment hw
  obtain ⟨k, t, hk, hwalk, hstate, ht⟩ := walks_increment h hw
  rw [String.length_toList] at hk
  obtain ⟨d, hd, -, hrun, hmissing⟩ := hwalk.run (machine.shows_initial _) (by rw [hstate]; decide)
  have hbinary := h.binary hw
  have hblank : d.tape.blank = "u" := hd.blank
  have hread : ∀ p : Nat, d.tape.read p = ("[>" :: cells v)[p]?.getD d.tape.blank := by
    intro p
    rw [hd.cells, ht, hblank]
    rfl
  have hlast : (cells v).getLast? ≠ some d.tape.blank := by
    intro hl
    rw [hblank] at hl
    rcases mem_cells hbinary (List.mem_of_getLast? hl) with h | h <;> simp at h
  have hverdict : machine.verdict d = .output (String.ofList v) := by
    rw [Spec.verdict_eq, hd.state, hstate, Tape.content_eq hread hlast, join_cells]
    rfl
  refine ⟨_, String.ofList v, hfind, parse_source, ?_, ?_, ?_, fun n mode hn => ?_, hmissing⟩
  · rwa [String.toList_ofList]
  · rw [String.toList_ofList, h.value_eq]
  · rw [String.length_ofList, h.length_eq, String.length_toList]
  · change (machine.run ⟨n, mode⟩ (machine.initial (cells w.toList))).1 = _
    rw [hrun n mode (Nat.le_trans hk hn), hverdict]

theorem outputs_increment_ones :
    (∀ c ∈ "11".toList, c = '0' ∨ c = '1') ∧
    ∃ e v, Gallery.find? "successor" = some e ∧ v.length = 3 ∧ Nat.ofDigitChars 2 v.toList 0 = 4 ∧
      (e.spec.run ⟨10, .strict⟩ (e.spec.initial ["1", "1"])).1 = .ok (.output v) :=
  have hw : ∀ c ∈ "11".toList, c = '0' ∨ c = '1' := by simp
  have ⟨e, v, hfind, _, _, hvalue, hlength, hrun, _⟩ := outputs_increment "11" hw
  ⟨hw, e, v, hfind, hlength, hvalue, hrun 10 .strict (by decide)⟩

end TapeMachine.Successor
