import TapeMachine.Text.Lines

/-! The grammar of machine descriptions: a description is a sequence of lines, a line is a sequence
of tokens, and a token is a run of characters other than white space and the comment sign. Between
tokens and around lines, white space within the line and a comment are skipped. -/
namespace TapeMachine.Description
open Text

/-- A token and the byte offset at which it starts. -/
structure Token where
  start : Nat
  text : String
  deriving DecidableEq, Repr

/-- The token that a run of characters makes up. -/
def Token.ofRun (p : Placed) (run : List Placed) : Token :=
  ⟨p.offset, String.ofList (chars (p :: run))⟩

def isTokenChar (c : Char) : Bool := !isWhiteSpace c && c != '#'

/-- The white space that separates tokens: all of it but line ends. -/
def isSeparator (c : Char) : Bool := isWhiteSpace c && !isLineEnd c

/-- Skip white space within a line and then a comment, which runs to the end of its line. -/
def skip (ps : List Placed) : List Placed :=
  match ps.dropWhile (isSeparator ·.char) with
  | [] => []
  | p :: rest => if p.char = '#' then rest.dropWhile (!isLineEnd ·.char) else p :: rest

/-- Read a token that starts right here. -/
def token? (ps : List Placed) : Option (Token × List Placed) :=
  match ps.takeWhile (isTokenChar ·.char) with
  | [] => none
  | p :: run => some (.ofRun p run, ps.dropWhile (isTokenChar ·.char))

/-- Read a line end that starts right here. -/
def lineEnd? : List Placed → Option (List Placed)
  | ⟨_, '\n'⟩ :: rest => some rest
  | ⟨_, '\r'⟩ :: ⟨_, '\n'⟩ :: rest => some rest
  | ⟨_, '\r'⟩ :: rest => some rest
  | _ => none

theorem length_dropWhile_le (p : α → Bool) (xs : List α) : (xs.dropWhile p).length ≤ xs.length :=
  (List.dropWhile_sublist p).length_le

theorem length_skip_le (ps : List Placed) : (skip ps).length ≤ ps.length := by
  have h := length_dropWhile_le (isSeparator ·.char) ps
  unfold skip
  split
  · simp
  · next p rest hd =>
    rw [hd] at h
    have := length_dropWhile_le (!isLineEnd ·.char) rest
    split <;> grind

theorem length_lt_of_token? {ps rest : List Placed} {t : Token} (h : token? ps = some (t, rest)) :
    rest.length < ps.length := by
  have hs := congrArg List.length
    (List.takeWhile_append_dropWhile (p := (isTokenChar ·.char)) (l := ps))
  unfold token? at h
  split at h
  · simp at h
  · next p run hp =>
    simp only [Option.some.injEq, Prod.mk.injEq] at h
    rw [hp, h.2] at hs
    simp at hs
    omega

theorem length_lt_of_lineEnd? {ps rest : List Placed} (h : lineEnd? ps = some rest) :
    rest.length < ps.length := by
  unfold lineEnd? at h
  split at h <;> cases h <;> simp only [List.length_cons] <;> omega

/-- The tokens that follow, each after a skip; `done` holds the tokens before them in reverse. What
stands after the last token is left. -/
def moreTokens (done : List Token) (ps : List Placed) : List Token × List Placed :=
  match _h : token? (skip ps) with
  | none => (done.reverse, ps)
  | some (t, rest) => moreTokens (t :: done) rest
termination_by ps.length
decreasing_by
  exact Nat.lt_of_lt_of_le (length_lt_of_token? _h) (length_skip_le ps)

/-- Read the tokens of a line that starts right here. A line may be empty. -/
def line (ps : List Placed) : List Token × List Placed :=
  match token? ps with
  | none => ([], ps)
  | some (t, rest) => moreTokens [t] rest

theorem length_moreTokens_le (done : List Token) (ps : List Placed) :
    (moreTokens done ps).2.length ≤ ps.length := by
  fun_induction moreTokens done ps with
  | case1 => exact Nat.le_refl _
  | case2 done ps t rest h ih =>
    have := length_lt_of_token? h
    have := length_skip_le ps
    omega

theorem length_line_le (ps : List Placed) : (line ps).2.length ≤ ps.length := by
  unfold line
  split
  · exact Nat.le_refl _
  · next t rest h =>
    exact Nat.le_trans (length_moreTokens_le _ _) (Nat.le_of_lt (length_lt_of_token? h))

/-- The lines that follow, each after a line end; `done` holds the lines before them in reverse. If
something else than a line end stands after a line, that line's number is the failure. -/
def moreLines (done : List (List Token)) (ps : List Placed) : Except Nat (List (List Token)) :=
  match _h : lineEnd? (skip ps) with
  | none => if (skip ps).isEmpty then .ok done.reverse else .error done.length
  | some rest => moreLines ((line (skip rest)).1 :: done) (line (skip rest)).2
termination_by ps.length
decreasing_by
  have := length_lt_of_lineEnd? _h
  have := length_skip_le ps
  have := length_skip_le rest
  have := length_line_le (skip rest)
  omega

/-- Read a whole text as a description: the tokens of each of its lines. -/
def tokenLines (text : List Char) : Except Nat (List (List Token)) :=
  let first := line (skip (place text))
  moreLines [first.1] first.2

example : (tokenLines " a #b\r\n\n c".toList).toOption = some [[⟨1, "a"⟩], [], [⟨9, "c"⟩]] := by
  decide +kernel

end TapeMachine.Description
