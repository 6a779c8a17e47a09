import TapeMachine.Proofs.Description.Classify
import TapeMachine.Proofs.Grammar.Reader

/-! The grammar reads every text, and what it reads is the plain split of the text into lines and
tokens. -/
namespace TapeMachine.Grammar
open Text Description

/-- `description` reads the whole of every text in one way, and gives the layout of the text. -/
theorem reads_layout (text : List Char) :
    ∃ pairs, lineTokensOf pairs = layout text ∧ ∀ out,
      Reads (place text) skipRule descriptionRule (place text) out ↔ out = some (pairs, []) := by
  obtain ⟨pairs, hr, hl⟩ := reads_description (place text) (tokenLines_eq text)
  refine ⟨pairs, hl, fun out => ⟨fun h => h.unique hr, ?_⟩⟩
  intro heq
  subst heq
  exact hr

/-- White space that ends no line. -/
def inLineSeparators : List Char := ['\u000b', '\u000c', '\u0085', '\u2028', '\u2029']

lemma separates_words {c : Char} (h : c ∈ inLineSeparators) :
    isWhiteSpace c = true ∧ isLineEnd c = false := by
  simp only [inLineSeparators, List.mem_cons, List.not_mem_nil, or_false] at h
  rcases h with rfl | rfl | rfl | rfl | rfl <;> exact ⟨by decide, by decide⟩

/-- On every text, the grammar succeeds and gives the plain split: a line for each source line, and
in it the words before its first comment sign, with their offsets. So no text is refused for its
syntax, and the lines that are loaded have their true numbers. -/
theorem description_eq_plainSplit (text : String) :
    ∃ pairs ls,
      (∀ out, Reads (place text.toList) skipRule descriptionRule (place text.toList) out ↔
        out = some (pairs, [])) ∧
      lineTokensOf pairs = ls ∧
      (∀ split, PlainSplit (place text.toList) split ↔ split = ls) ∧
      (∀ ts ∈ ls, ∀ t ∈ ts, ∃ before after, text.toList = before ++ t.text.toList ++ after ∧
        t.start = (String.ofList before).utf8ByteSize) ∧
      (∀ c ∈ inLineSeparators, isWhiteSpace c = true ∧ isLineEnd c = false) ∧
      tokenLines text.toList = .ok ls ∧
      (∀ l, l ∈ numbered ls ↔ 0 < l.number ∧
        ∃ ts, ls[l.number - 1]? = some ts ∧ ts ≠ [] ∧ l.tokens = ts.map Token.text) ∧
      (numbered ls).Pairwise (·.number < ·.number) ∧
      (∀ d, parseWith d text = ofLines d (numbered ls)) ∧
      ∀ d n, parseWith d text ≠ .error (.syntaxError n) := by
  obtain ⟨pairs, hl, hr⟩ := reads_layout text.toList
  refine ⟨pairs, layout text.toList, hr, hl, fun _ => plainSplit_iff,
    fun _ hts _ ht => start_of_mem_layout hts ht, fun _ => separates_words, tokenLines_eq _,
    fun _ => mem_numbered, numbered_pairwise _, fun d => parseWith_eq d text, fun d n h => ?_⟩
  rw [parseWith_eq, ofLines_eq_iff (numbered_pairwise _)] at h
  cases h

end TapeMachine.Grammar
