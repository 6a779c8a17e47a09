import Mathlib.Data.List.Induction
import Mathlib.Tactic.Ring
import TapeMachine.Proofs.Gallery.Source
import TapeMachine.Proofs.Scene

/-! The palindrome machine of the gallery decides palindromes. From its start state it picks up the
first letter of what is left of the word, carries it to the right end, compares it with the last
letter, erases that too and goes back; the induction takes a letter off at either end. -/
namespace TapeMachine.Palindrome
open Description

def rows : List (Situation × Action) :=
  [(("s", "[>"), ⟨"s", "[>", .right⟩), (("s", "u"), ⟨"yes", "u", .stay⟩),
    (("s", "a"), ⟨"ra", "u", .right⟩), (("s", "b"), ⟨"rb", "u", .right⟩),
    (("ra", "a"), ⟨"ra", "a", .right⟩), (("ra", "b"), ⟨"ra", "b", .right⟩),
    (("ra", "u"), ⟨"ta", "u", .left⟩),
    (("rb", "a"), ⟨"rb", "a", .right⟩), (("rb", "b"), ⟨"rb", "b", .right⟩),
    (("rb", "u"), ⟨"tb", "u", .left⟩),
    (("ta", "a"), ⟨"back", "u", .left⟩), (("ta", "b"), ⟨"no", "b", .stay⟩),
    (("ta", "u"), ⟨"yes", "u", .stay⟩),
    (("tb", "b"), ⟨"back", "u", .left⟩), (("tb", "a"), ⟨"no", "a", .stay⟩),
    (("tb", "u"), ⟨"yes", "u", .stay⟩),
    (("back", "a"), ⟨"back", "a", .left⟩), (("back", "b"), ⟨"back", "b", .left⟩),
    (("back", "u"), ⟨"s", "u", .right⟩)]

def machine : Spec := { Spec.ofDefaults {} with rules := .ofRows rows }

/-- The script of the gallery describes the machine with these rows. -/
theorem parse_source : parse Script.palindrome.source = .ok machine := by
  have lined : Script.palindrome.Lined := Script.lined_of_mem_all (by simp [Script.all])
  rw [Script.parse_source lined]
  simp only [Script.palindrome, List.map_cons, List.map_nil]
  repeat rw [String.toList_ofList]
  rfl

lemma hasRows : machine.HasRows rows := ⟨rfl, by decide⟩

def letters : List Symbol := ["a", "b"]

/-- What the machine does about a letter: in the states named after it, it carries the letter to the
right end and tests it there. -/
structure Handles (x : Symbol) : Prop where
  carries : machine.isHalting ("r" ++ x) = false
  tests : machine.isHalting ("t" ++ x) = false
  pick : machine.action? "s" x = some ⟨"r" ++ x, "u", .right⟩
  carry : ∀ y ∈ letters, machine.action? ("r" ++ x) y = some ⟨"r" ++ x, y, .right⟩
  turn : machine.action? ("r" ++ x) "u" = some ⟨"t" ++ x, "u", .left⟩
  agree : machine.action? ("t" ++ x) x = some ⟨"back", "u", .left⟩
  differ : ∀ y ∈ letters, y ≠ x → machine.action? ("t" ++ x) y = some ⟨"no", y, .stay⟩
  alone : machine.action? ("t" ++ x) "u" = some ⟨"yes", "u", .stay⟩
  back : machine.action? "back" x = some ⟨"back", x, .left⟩

lemma handles {x : Symbol} (hx : x ∈ letters) : Handles x where
  carries := by revert x; decide
  tests := by revert x; decide
  pick := hasRows.action?_of_mem (by revert x; decide)
  carry y hy := hasRows.action?_of_mem (by revert x y; decide)
  turn := hasRows.action?_of_mem (by revert x; decide)
  agree := hasRows.action?_of_mem (by revert x; decide)
  differ y hy hne := hasRows.action?_of_mem (by revert x y; decide)
  alone := hasRows.action?_of_mem (by revert x; decide)
  back := hasRows.action?_of_mem (by revert x; decide)

section Walks
variable {x y z : Symbol} {l w : List Symbol}

/-- The first letter is picked up and carried over the rest of the word; the head comes to the last
cell that is not behind the word. -/
lemma walks_carry (hx : x ∈ letters) (hw : ∀ y ∈ w, y ∈ letters) {before : List Symbol}
    (hb : w.reverse ++ "u" :: z :: l = y :: before) :
    machine.Walks (w.length + 2) ⟨"s", z :: l, x :: w⟩ ⟨"t" ++ x, before, [y, "u"]⟩ := by
  have h := handles hx
  have hpick : machine.Walks 1 ⟨"s", z :: l, x :: w⟩ ⟨"r" ++ x, "u" :: z :: l, w⟩ :=
    .right (by decide) h.pick (by simp)
  have hturn : machine.Walks (w.length + 1) ⟨"r" ++ x, "u" :: z :: l, w⟩
      ⟨"t" ++ x, before, [y, "u"]⟩ :=
    .turn h.carries (fun y hy => h.carry y (hw y hy)) h.turn hb
  have hn : w.length + 2 = 1 + (w.length + 1) := by omega
  rw [hn]
  exact hpick.trans hturn

/-- The letter at the right end is the one that was carried: it is erased, and the head goes back to
what is left of the word. -/
lemma walks_back (hx : x ∈ letters) (hw : ∀ y ∈ w, y ∈ letters) :
    machine.Walks (w.length + 2) ⟨"t" ++ x, w.reverse ++ "u" :: z :: l, [x, "u"]⟩
      ⟨"s", "u" :: z :: l, w⟩ := by
  have h := handles hx
  obtain ⟨y, before, hb⟩ : ∃ y before, w.reverse ++ "u" :: z :: l = y :: before :=
    List.exists_cons_of_ne_nil (by simp)
  have herase : machine.Walks 1 ⟨"t" ++ x, y :: before, [x, "u"]⟩
      ⟨"back", before, [y, "u", "u"]⟩ := .left h.tests h.agree
  have hsweep : machine.Walks w.reverse.length ⟨"back", before, [y, "u", "u"]⟩
      ⟨"back", z :: l, "u" :: ((w.reverse.map id).reverse ++ ["u", "u"])⟩ :=
    .sweep_left (by decide) (fun y hy => (handles (hw y (by simpa using hy))).back) hb.symm
  have hstart : machine.Walks 1 ⟨"back", z :: l, "u" :: (w ++ ["u"] ++ ["u"])⟩
      ⟨"s", "u" :: z :: l, w ++ ["u"] ++ ["u"]⟩ :=
    .right (by decide) (hasRows.action?_of_mem (by decide)) fun _ => rfl
  have htrim : machine.Walks 0 ⟨"s", "u" :: z :: l, w ++ ["u"] ++ ["u"]⟩
      ⟨"s", "u" :: z :: l, w⟩ := Spec.Walks.hide_blank.trans .hide_blank
  have hn : w.length + 2 = 1 + w.reverse.length + 1 + 0 := by
    rw [List.length_reverse]
    omega
  rw [hb, hn]
  refine ((herase.trans ?_).trans hstart).trans htrim
  simpa using hsweep

/-- Where the outer letters are the same, the machine takes both off and starts again. -/
lemma walks_agree (hx : x ∈ letters) (hw : ∀ y ∈ w, y ∈ letters) :
    machine.Walks (2 * w.length + 5) ⟨"s", z :: l, x :: (w ++ [x])⟩ ⟨"s", "u" :: z :: l, w⟩ := by
  have hwx : ∀ y ∈ w ++ [x], y ∈ letters := by simpa [or_imp, forall_and] using ⟨hw, hx⟩
  have hcarry : machine.Walks ((w ++ [x]).length + 2) ⟨"s", z :: l, x :: (w ++ [x])⟩
      ⟨"t" ++ x, w.reverse ++ "u" :: z :: l, [x, "u"]⟩ := walks_carry hx hwx (by simp)
  have hn : 2 * w.length + 5 = (w ++ [x]).length + 2 + (w.length + 2) := by
    simp only [List.length_append, List.length_singleton]
    omega
  rw [hn]
  exact hcarry.trans (walks_back hx hw)

/-- Where they differ, it rejects. -/
lemma walks_differ (hx : x ∈ letters) (hy : y ∈ letters) (hyx : y ≠ x)
    (hw : ∀ c ∈ w, c ∈ letters) :
    machine.Walks (w.length + 4) ⟨"s", z :: l, x :: (w ++ [y])⟩
      ⟨"no", w.reverse ++ "u" :: z :: l, [y, "u"]⟩ := by
  have hwy : ∀ c ∈ w ++ [y], c ∈ letters := by simpa [or_imp, forall_and] using ⟨hw, hy⟩
  have hcarry : machine.Walks ((w ++ [y]).length + 2) ⟨"s", z :: l, x :: (w ++ [y])⟩
      ⟨"t" ++ x, w.reverse ++ "u" :: z :: l, [y, "u"]⟩ := walks_carry hx hwy (by simp)
  have hno : machine.Walks 1 ⟨"t" ++ x, w.reverse ++ "u" :: z :: l, [y, "u"]⟩
      ⟨"no", w.reverse ++ "u" :: z :: l, [y, "u"]⟩ :=
    .stay (handles hx).tests ((handles hx).differ y hy hyx) (by simp)
  have hn : w.length + 4 = (w ++ [y]).length + 2 + 1 := by
    simp only [List.length_append, List.length_singleton]
  rw [hn]
  exact hcarry.trans hno

/-- From its start state, with the word ahead, the machine finds out whether the word is a
palindrome. -/
theorem walks_word (w : List Symbol) (hw : ∀ x ∈ w, x ∈ letters) (z : Symbol) (l : List Symbol) :
    ∃ k t, k ≤ (w.length + 1) * (w.length + 2) / 2 ∧ machine.Walks k ⟨"s", z :: l, w⟩ t ∧
      t.state = if w = w.reverse then "yes" else "no" := by
  induction w using List.bidirectionalRec generalizing z l with
  | nil =>
    have hend : machine.Walks 0 ⟨"s", z :: l, []⟩ ⟨"s", z :: l, ["u"]⟩ := .show_blank
    have hyes : machine.Walks 1 ⟨"s", z :: l, ["u"]⟩ ⟨"yes", z :: l, ["u"]⟩ :=
      .stay (by decide) (hasRows.action?_of_mem (by decide)) (by simp)
    exact ⟨0 + 1, _, by simp, hend.trans hyes, rfl⟩
  | singleton x =>
    have h := handles (hw x List.mem_cons_self)
    have hcarry : machine.Walks 2 ⟨"s", z :: l, [x]⟩ ⟨"t" ++ x, z :: l, ["u", "u"]⟩ :=
      walks_carry (w := []) (hw x List.mem_cons_self) (by simp) rfl
    have hyes : machine.Walks 1 ⟨"t" ++ x, z :: l, ["u", "u"]⟩ ⟨"yes", z :: l, ["u", "u"]⟩ :=
      .stay h.tests h.alone (by simp)
    exact ⟨2 + 1, _, by simp, hcarry.trans hyes, by simp⟩
  | cons_append x m y ih =>
    have hx : x ∈ letters := hw x List.mem_cons_self
    have hm : ∀ c ∈ m, c ∈ letters := fun c hc => hw c (by simp [hc])
    have hy : y ∈ letters := hw y (by simp)
    have hbound : ((m.length + 2) + 1) * ((m.length + 2) + 2) / 2 =
        (m.length + 1) * (m.length + 2) / 2 + (2 * m.length + 5) := by
      rw [← Nat.add_mul_div_right _ _ Nat.two_pos]
      congr 1
      ring
    have hlength : (x :: (m ++ [y])).length = m.length + 2 := by simp
    rw [hlength, hbound]
    -- Where the outer letters agree, the word is a palindrome if and only if what is left of it is.
    by_cases hyx : y = x
    · subst hyx
      obtain ⟨k, t, hk, hwalk, ht⟩ := ih hm "u" (z :: l)
      exact ⟨_, t, by omega, (walks_agree hx hm).trans hwalk, by simp [ht]⟩
    · have hne : ¬ x = y := fun h => hyx h.symm
      exact ⟨_, _, by omega, walks_differ hx hy hyx hm, by simp [hne]⟩

end Walks

/-- From the marker on, the machine ends in its accepting or its rejecting state. -/
theorem walks_initial {w : List Symbol} (hw : ∀ x ∈ w, x ∈ letters) :
    ∃ k t, k ≤ 1 + (w.length + 1) * (w.length + 2) / 2 ∧
      machine.Walks k ⟨"s", [], "[>" :: w⟩ t ∧ t.state = if w = w.reverse then "yes" else "no" := by
  obtain ⟨k, t, hk, hwalk, ht⟩ := walks_word w hw "[>" []
  have hmarker : machine.Walks 1 ⟨"s", [], "[>" :: w⟩ ⟨"s", ["[>"], w⟩ :=
    .right (by decide) (hasRows.action?_of_mem (by decide)) fun _ => rfl
  exact ⟨1 + k, t, Nat.add_le_add_left hk 1, hmarker.trans hwalk, ht⟩

/-- The palindrome machine of the gallery accepts the words over its two letters that read the same
backwards, and rejects all others, in either mode, within a quadratic number of steps and without
ever coming to a missing rule. -/
theorem decides_reverse (w : String) (hw : ∀ c ∈ w.toList, c = 'a' ∨ c = 'b') :
    ∃ e, Gallery.find? "palindrome" = some e ∧ parse e.script.source = .ok e.spec ∧
      let c := e.spec.initial (w.toList.map String.singleton)
      (∀ n mode, 1 + (w.length + 1) * (w.length + 2) / 2 ≤ n →
        (e.spec.run ⟨n, mode⟩ c).1 =
          .ok (if w.toList = w.toList.reverse then .accept else .reject)) ∧
      ∀ modes, ¬ e.spec.Missing (after e.spec.step modes c) := by
  have hfind := Gallery.find?_name (by simp [Script.all]) parse_source
  refine ⟨_, hfind, parse_source, ?_⟩
  have hletters : ∀ x ∈ w.toList.map String.singleton, x ∈ letters := by
    intro x hx
    obtain ⟨c, hc, rfl⟩ := List.mem_map.1 hx
    rcases hw c hc with rfl | rfl <;> decide
  have hreverse : w.toList.map String.singleton = (w.toList.map String.singleton).reverse ↔
      w.toList = w.toList.reverse := by
    rw [← List.map_reverse]
    exact (List.map_injective_iff.2 fun c d h => by simpa using congrArg String.toList h).eq_iff
  obtain ⟨k, t, hk, hwalk, ht⟩ := walks_initial hletters
  rw [List.length_map, String.length_toList] at hk
  simp only [hreverse] at ht
  have hhalting : machine.isHalting t.state = true := by
    rw [ht]
    split <;> decide
  obtain ⟨d, hd, -, hrun, hmissing⟩ := hwalk.run (machine.shows_initial _) hhalting
  refine ⟨fun n mode hn => ?_, hmissing⟩
  rw [hrun n mode (Nat.le_trans hk hn)]
  have hverdict : machine.verdict d = if w.toList = w.toList.reverse then .accept else .reject := by
    rw [Spec.verdict_eq, hd.state, ht]
    by_cases h : w.toList = w.toList.reverse
    · rw [if_pos h, if_pos h]
      rfl
    · rw [if_neg h, if_neg h]
      rfl
  exact congrArg Except.ok hverdict

theorem decides_reverse_abba :
    (∀ c ∈ "abba".toList, c = 'a' ∨ c = 'b') ∧
    ∃ e, Gallery.find? "palindrome" = some e ∧
      (e.spec.run ⟨16, .strict⟩ (e.spec.initial ["a", "b", "b", "a"])).1 = .ok .accept :=
  have hw : ∀ c ∈ "abba".toList, c = 'a' ∨ c = 'b' := by simp
  have ⟨e, hfind, _, hrun, _⟩ := decides_reverse "abba" hw
  ⟨hw, e, hfind, hrun 16 .strict (by decide)⟩

end TapeMachine.Palindrome
