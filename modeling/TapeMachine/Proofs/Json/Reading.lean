import TapeMachine.Proofs.Json.Literals

/-! Values read back. The reader takes a value out of a text in front of whatever follows, white
space between the parts of an object included, and an object with its fields on lines of their own
is such a text. -/
namespace TapeMachine.Json

/-- White space as it may stand between the parts of a value. -/
def Space (s : List Char) : Prop := ∀ c ∈ s, isSpace c = true

/-- The reader takes the value from a text that starts with `cs` and leaves the rest, in which no
number goes on. Twice the length of `cs` is enough fuel. -/
def ReadsAs (v : Value) (cs : List Char) : Prop :=
  ∀ fuel rest, 2 * cs.length ≤ fuel → EndsNumber rest → value? fuel (cs ++ rest) = some (v, rest)

/-- After the quote that opens a key, the reader takes members and the end of their object. -/
def ReadsMembers (ms : List (List Char × Value)) (cs : List Char) : Prop :=
  ∀ fuel done rest, 2 * cs.length < fuel →
    members? fuel done ('"' :: cs ++ rest) = some (.object (done.reverse ++ ms), rest)

section Space
variable {s cs : List Char} {c : Char}

lemma skipSpace_append (hs : Space s) (cs : List Char) : skipSpace (s ++ cs) = skipSpace cs :=
  List.dropWhile_append_of_pos hs

lemma skipSpace_cons (hc : isSpace c = false) (cs : List Char) :
    skipSpace (c :: cs) = c :: cs := by simp [skipSpace, hc]

lemma value?_space (hs : Space s) (fuel : Nat) (cs : List Char) :
    value? fuel (s ++ cs) = value? fuel cs := by
  cases fuel with
  | zero => rfl
  | succ fuel => rw [value?, value?, skipSpace_append hs]

lemma members?_space (hs : Space s) (fuel : Nat) (done : List (List Char × Value))
    (cs : List Char) : members? fuel done (s ++ cs) = members? fuel done cs := by
  cases fuel with
  | zero => rfl
  | succ fuel => rw [members?, members?, skipSpace_append hs]

lemma endsNumber_space (hs : Space s) (h : EndsNumber cs) : EndsNumber (s ++ cs) := by
  cases s with
  | nil => exact h
  | cons c s =>
    rintro _ _ ⟨⟩
    have hc := hs c List.mem_cons_self
    simp only [isSpace, Bool.or_eq_true, beq_iff_eq] at hc
    rcases hc with ((rfl | rfl) | rfl) | rfl <;> decide

end Space

/-- A value that starts with a digit is a number. -/
lemma value?_of_isDigit {c : Char} (hc : c.isDigit = true) (fuel : Nat) (cs : List Char) :
    value? (fuel + 1) (c :: cs) =
      (number? (c :: cs)).map fun (literal, rest) => (.number literal, rest) := by
  have hne : ∀ d, d.isDigit = false → c ≠ d := by
    rintro d hd rfl
    rw [hd] at hc
    cases hc
  have hspace : isSpace c = false := by
    simp [isSpace, hne ' ' (by decide), hne '\n' (by decide), hne '\t' (by decide),
      hne '\r' (by decide)]
  rw [value?, skipSpace_cons hspace]
  simp [hne 'n' (by decide), hne 't' (by decide), hne 'f' (by decide), hne '"' (by decide),
    hne '[' (by decide), hne '{' (by decide)]

namespace ReadsAs

lemma bool (b : Bool) (level : Nat) : ReadsAs (.bool b) ((Value.bool b).pretty level) := by
  intro fuel rest hfuel _
  cases fuel with
  | zero => cases b <;> simp [Value.pretty] at hfuel
  | succ fuel => cases b <;> simp [Value.pretty, value?, skipSpace, isSpace]

lemma string (s : String) : ReadsAs (.ofString s) (quoted (escape s)) := by
  intro fuel rest hfuel _
  cases fuel with
  | zero => simp [quoted] at hfuel
  | succ fuel =>
    have hliteral := literalFrom_escape s rest
    simp [quoted, value?, skipSpace, isSpace, hliteral, Value.ofString]

lemma number (n : Nat) : ReadsAs (.ofNat n) (Nat.toDigits 10 n) := by
  intro fuel rest hfuel hrest
  have hnumber := number?_toDigits n hrest
  obtain ⟨c, cs, hcs, hc, -⟩ := exists_toDigits n
  cases fuel with
  | zero => simp [hcs] at hfuel
  | succ fuel =>
    rw [hcs, List.cons_append] at hnumber ⊢
    rw [value?_of_isDigit hc, hnumber, Value.ofNat, hcs]
    rfl

end ReadsAs

section Members
variable {v : Value} {ms : List (List Char × Value)} {cs tail s s' : List Char}

lemma value?_member (hs : Space s) (hv : ReadsAs v cs) {fuel : Nat} (hfuel : 2 * cs.length ≤ fuel)
    {rest : List Char} (hrest : EndsNumber rest) :
    value? fuel (s ++ (cs ++ rest)) = some (v, rest) := by
  rw [value?_space hs]
  exact hv fuel rest hfuel hrest

lemma skipSpace_quote (cs : List Char) : skipSpace ('"' :: cs) = '"' :: cs :=
  skipSpace_cons (by decide) cs

lemma skipSpace_colon (cs : List Char) : skipSpace (':' :: cs) = ':' :: cs :=
  skipSpace_cons (by decide) cs

/-- A brace after a member ends the object. -/
lemma members?_brace (k : String) {fuel : Nat} (done : List (List Char × Value))
    {text rest after : List Char} (hvalue : value? fuel text = some (v, rest))
    (hbrace : skipSpace rest = '}' :: after) :
    members? (fuel + 1) done ('"' :: (escape k ++ '"' :: ':' :: text)) =
      some (.object ((escape k, v) :: done).reverse, after) := by
  simp only [members?, skipSpace_quote, literalFrom_escape, skipSpace_colon, hvalue, hbrace]

/-- A comma after a member goes on to the next one. -/
lemma members?_comma (k : String) {fuel : Nat} (done : List (List Char × Value))
    {text rest after : List Char} (hvalue : value? fuel text = some (v, rest))
    (hcomma : skipSpace rest = ',' :: after) :
    members? (fuel + 1) done ('"' :: (escape k ++ '"' :: ':' :: text)) =
      members? fuel ((escape k, v) :: done) after := by
  simp only [members?, skipSpace_quote, literalFrom_escape, skipSpace_colon, hvalue, hcomma]

lemma ReadsMembers.last (hs : Space s) (hs' : Space s') (hv : ReadsAs v cs) (k : String) :
    ReadsMembers [(escape k, v)] (escape k ++ '"' :: ':' :: (s ++ (cs ++ (s' ++ ['}'])))) := by
  intro fuel done rest hfuel
  cases fuel with
  | zero => cases hfuel
  | succ fuel =>
    have hlength : 2 * cs.length ≤ fuel := by
      simp only [List.length_append, List.length_cons] at hfuel
      omega
    have hbrace : skipSpace (s' ++ '}' :: rest) = '}' :: rest := by
      rw [skipSpace_append hs', skipSpace_cons (by decide)]
    have hends : EndsNumber (s' ++ '}' :: rest) := by
      refine endsNumber_space hs' ?_
      rintro _ _ ⟨⟩
      decide
    have h := members?_brace k done (value?_member hs hv hlength hends) hbrace
    simpa using h

lemma ReadsMembers.cons (hs : Space s) (hs' : Space s') (hv : ReadsAs v cs) (k : String)
    (hms : ReadsMembers ms tail) : ReadsMembers ((escape k, v) :: ms)
      (escape k ++ '"' :: ':' :: (s ++ (cs ++ ',' :: (s' ++ '"' :: tail)))) := by
  intro fuel done rest hfuel
  cases fuel with
  | zero => cases hfuel
  | succ fuel =>
    simp only [List.length_append, List.length_cons] at hfuel
    have hends : EndsNumber (',' :: (s' ++ '"' :: tail ++ rest)) := by
      rintro _ _ ⟨⟩
      decide
    have hlength : 2 * cs.length ≤ fuel := by omega
    have h := members?_comma k done (value?_member hs hv hlength hends)
      (skipSpace_cons (by decide) _)
    have hmore := hms fuel ((escape k, v) :: done) rest (by omega)
    simp only [List.append_assoc, members?_space hs', hmore] at h
    simpa using h

/-- An object is read once its members are. -/
lemma ReadsAs.object (hs : Space s) (hms : ReadsMembers ms cs) :
    ReadsAs (.object ms) ('{' :: (s ++ '"' :: cs)) := by
  intro fuel rest hfuel _
  cases fuel with
  | zero => cases hfuel
  | succ fuel =>
    have hbrace : ∀ t, skipSpace ('{' :: t) = '{' :: t := skipSpace_cons (by decide)
    have hquote : ∀ t, skipSpace (s ++ '"' :: t) = '"' :: t := fun t => by
      rw [skipSpace_append hs, skipSpace_quote]
    have hmembers := hms fuel [] rest (by
      simp only [List.length_append, List.length_cons] at hfuel
      omega)
    simp only [List.cons_append, List.append_assoc, value?, hbrace, hquote]
    simpa using hmembers

lemma space_newLine (level : Nat) : Space (newLine level) := by
  intro c hc
  simp only [newLine, List.mem_cons, List.mem_replicate] at hc
  rcases hc with rfl | ⟨-, rfl⟩ <;> decide

lemma readsMembers_pretty (level : Nat) (k : String) (v : Value) (fields : List (String × Value))
    (hv : ReadsAs v (v.pretty (level + 1)))
    (h : ∀ field ∈ fields, ReadsAs field.2 (field.2.pretty (level + 1))) :
    ReadsMembers ((escape k, v) :: fields.map fun (k, v) => (escape k, v))
      (escape k ++ '"' :: ':' :: ([' '] ++ (v.pretty (level + 1) ++
        prettyMembers level (fields.map fun (k, v) => (escape k, v))))) := by
  have hblank : Space [' '] := by simp [Space, isSpace]
  induction fields generalizing k v with
  | nil => exact .last hblank (space_newLine level) hv k
  | cons field fields ih =>
    obtain ⟨hfield, hfields⟩ := List.forall_mem_cons.1 h
    have hrest := ih field.1 field.2 hfield hfields
    have hcons := ReadsMembers.cons hblank (space_newLine (level + 1)) hv k hrest
    simpa [prettyMembers, quoted] using hcons

/-- An object with one field to a line is read back, if its values are. -/
theorem ReadsAs.pretty_ofFields (level : Nat) (fields : List (String × Value))
    (hne : fields ≠ []) (h : ∀ field ∈ fields, ReadsAs field.2 (field.2.pretty (level + 1))) :
    ReadsAs (.ofFields fields) ((Value.ofFields fields).pretty level) := by
  obtain ⟨⟨k, v⟩, fields, rfl⟩ := List.exists_cons_of_ne_nil hne
  obtain ⟨hv, hfields⟩ := List.forall_mem_cons.1 h
  have hobject := ReadsAs.object (space_newLine (level + 1))
    (readsMembers_pretty level k v fields hv hfields)
  simpa [Value.ofFields, Value.pretty, quoted] using hobject

end Members

/-- A text is read as a value if nothing but white space follows the value. -/
theorem read?_of_readsAs {v : Value} {cs s : List Char} (h : ReadsAs v cs) (hs : Space s) :
    read? (String.ofList (cs ++ s)) = some v := by
  have hends : EndsNumber s := by
    have hnil : EndsNumber [] := by rintro _ _ ⟨⟩
    simpa using endsNumber_space hs hnil
  have hempty : skipSpace s = [] := List.dropWhile_eq_nil_iff.2 hs
  have hvalue := h (2 * (cs ++ s).length + 2) s (by simp only [List.length_append]; omega) hends
  rw [read?, String.toList_ofList]
  simp only [hvalue, hempty]
  rfl

end TapeMachine.Json
