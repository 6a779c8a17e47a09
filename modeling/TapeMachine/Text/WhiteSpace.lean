/-! White space in the sense of the Unicode property White_Space, trimming, and the maximal runs
of a list whose elements satisfy a test, with which a text is cut into words. -/
namespace TapeMachine.Text

/-- The characters with the Unicode property White_Space. -/
def isWhiteSpace (c : Char) : Bool :=
  let n := c.toNat
  (0x9 ≤ n && n ≤ 0xD) || n == 0x20 || n == 0x85 || n == 0xA0 || n == 0x1680 ||
    (0x2000 ≤ n && n ≤ 0x200A) || n == 0x2028 || n == 0x2029 || n == 0x202F || n == 0x205F ||
    n == 0x3000

def trimStart (cs : List Char) : List Char := cs.dropWhile isWhiteSpace

def trimEnd (cs : List Char) : List Char := (cs.reverse.dropWhile isWhiteSpace).reverse

def trim (cs : List Char) : List Char := trimEnd (trimStart cs)

/-- The loop of `runs`: the run under way and the finished runs are kept in reverse. -/
def runsFrom (p : α → Bool) : List α → List α → List (List α) → List (List α)
  | [], [], done => done.reverse
  | [], run@(_ :: _), done => (run.reverse :: done).reverse
  | x :: xs, run, done =>
    if p x then runsFrom p xs (x :: run) done
    else if run.isEmpty then runsFrom p xs [] done
    else runsFrom p xs [] (run.reverse :: done)

/-- The maximal runs of elements that satisfy `p`, in order. -/
def runs (p : α → Bool) (xs : List α) : List (List α) := runsFrom p xs [] []

/-- The words of a text: its maximal runs without white space. -/
def words (cs : List Char) : List (List Char) := runs (!isWhiteSpace ·) cs

@[simp] theorem runs_nil (p : α → Bool) : runs p [] = [] := rfl

@[simp] theorem words_nil : words [] = [] := rfl

/-- Joining the runs leaves exactly the elements that satisfy the test. -/
theorem flatten_runs (p : α → Bool) (xs : List α) : (runs p xs).flatten = xs.filter p := by
  suffices h : ∀ run done, (∀ x ∈ run, p x) →
      (runsFrom p xs run done).flatten = done.reverse.flatten ++ run.reverse ++ xs.filter p by
    simpa [runs] using h [] [] (by simp)
  intro run done hrun
  fun_induction runsFrom p xs run done with
  | case1 => simp
  | case2 => simp
  | case3 x xs run done h ih => rw [ih (by simpa [h] using hrun)]; simp [h]
  | case4 x xs run done h hr ih =>
    rw [ih (by simp)]
    simp_all
  | case5 x xs run done h hr ih => rw [ih (by simp)]; simp [h]

theorem runs_cons_of_neg {p : α → Bool} {x : α} (h : ¬ p x) (xs : List α) :
    runs p (x :: xs) = runs p xs := by
  simp [runs, runsFrom, h]

example : words "  one two\tthree ".toList = ["one", "two", "three"].map String.toList := by decide

example : trim "\u00a0 a b\n".toList = "a b".toList := by decide

end TapeMachine.Text
