/-! Trees of files and directories, and the paths that lead through them. A directory lists its
entries in whatever order it has them. -/
namespace TapeMachine

/-- Why a file or a directory cannot be read. -/
inductive ReadError where
  | system (text : String) (number : Nat)
  | invalidUtf8
  deriving DecidableEq, Repr

namespace ReadError

def noSuchFile : ReadError := system "No such file or directory" 2

def notDirectory : ReadError := system "Not a directory" 20

def isDirectory : ReadError := system "Is a directory" 21

def message : ReadError → String
  | system text number => s!"{text} (os error {number})"
  | invalidUtf8 => "stream did not contain valid UTF-8"

end ReadError

/-- A file with its bytes, or a directory with its named entries. -/
inductive Entry where
  | file (bytes : ByteArray)
  | directory (entries : List (String × Entry))

abbrev Directory := List (String × Entry)

namespace Directory

def entry? (name : String) (d : Directory) : Option Entry := d.lookup name

/-- Give a name an entry, in place of the one it has, if it has one. -/
def set (name : String) (e : Entry) (d : Directory) : Directory :=
  if (d.entry? name).isSome then d.map fun old => if old.1 = name then (name, e) else old
  else d ++ [(name, e)]

/-- Put a file into a tree, or make a directory if there is no content, and make the directories on
the way to it. -/
def add : List String → Option ByteArray → Directory → Directory
  | [], _, d => d
  | [name], some bytes, d => d.set name (.file bytes)
  | name :: path, content, d =>
    let below :=
      match d.entry? name with
      | some (.directory entries) => entries
      | _ => []
    d.set name (.directory (add path content below))

/-- A directory of which nothing is known but that it is there: no name is found in it. -/
def unknown : Directory := []

/-- Follow the parts of a path from an entry with the directories above it, the nearest first. Above
the last of them are directories again, of which nothing is known. -/
def follow : Entry → List Entry → List String → Except ReadError Entry
  | e, _, [] => .ok e
  | .file _, _, _ :: _ => .error .notDirectory
  | .directory d, above, part :: path =>
    if part = "" ∨ part = "." then follow (.directory d) above path
    else if part = ".." then follow (above.headD (.directory unknown)) above.tail path
    else
      match entry? part d with
      | some e => follow e (.directory d :: above) path
      | none => .error .noSuchFile

/-- The entry that a path leads to from a directory. The empty path leads nowhere, and a path that
begins with a slash starts at a directory of which nothing is known. -/
def resolve (d : Directory) (path : String) : Except ReadError Entry :=
  if path.isEmpty then .error .noSuchFile
  else follow (.directory (if path.startsWith "/" then unknown else d)) [] (path.splitOn "/")

def read (d : Directory) (path : String) : Except ReadError ByteArray :=
  match d.resolve path with
  | .ok (.file bytes) => .ok bytes
  | .ok (.directory _) => .error .isDirectory
  | .error e => .error e

def list (d : Directory) (path : String) : Except ReadError Directory :=
  match d.resolve path with
  | .ok (.directory entries) => .ok entries
  | .ok (.file _) => .error .notDirectory
  | .error e => .error e

example (d : Directory) : follow (.directory d) [] ["..", ".."] = .ok (.directory unknown) := rfl

example (d : Directory) : follow (.directory d) [] ["..", "a"] = .error .noSuchFile := rfl

end Directory
end TapeMachine
