import TapeMachine.Description.Load
import TapeMachine.FileTree

/-! Loading machines from files and from directories of files. -/
namespace TapeMachine.Description

def decodeText (bytes : Except ReadError ByteArray) : Except ReadError String :=
  match bytes with
  | .error e => .error e
  | .ok bytes =>
    match String.fromUTF8? bytes with
    | some text => .ok text
    | none => .error .invalidUtf8

/-- The machine that the file at a path describes, given what reading the file gave. -/
def loadFile (path : String) (bytes : Except ReadError ByteArray) : Except LoadError Spec :=
  match decodeText bytes with
  | .ok text => load text
  | .error e => .error (.file s!"failed to read file {path}: {e.message}")

/-- Names of descriptions end in `.tm` and have something in front of it. -/
def isDescriptionName (name : String) : Bool :=
  ".tm".toList.isSuffixOf name.toList && name != ".tm"

/-- The descriptions in a directory with their bytes, in increasing order of their names. -/
def descriptions (entries : Directory) : List (String × ByteArray) :=
  let files := entries.filterMap fun (name, e) =>
    match e with
    | .file bytes => if isDescriptionName name then some (name, bytes) else none
    | .directory _ => none
  files.mergeSort fun a b => a.1 ≤ b.1

def pathIn (directory name : String) : String :=
  if directory.endsWith "/" then directory ++ name else directory ++ "/" ++ name

structure Loaded where
  path : String
  spec : Spec
  deriving DecidableEq

/-- Load every description in a directory by itself, in order, given what listing the directory
gave. -/
def loadDirectory (directory : String) (entries : Except ReadError Directory) :
    List (Except LoadError Loaded) :=
  match entries with
  | .error e => [.error (.file s!"failed to read directory {directory}: {e.message}")]
  | .ok entries =>
    (descriptions entries).map fun (name, bytes) =>
      let path := pathIn directory name
      (loadFile path (.ok bytes)).map (⟨path, ·⟩)

example : ["a.tm", ".tm", "..tm", "a.tm.txt", "atm"].map isDescriptionName =
    [true, false, true, false, false] := by decide +kernel

end TapeMachine.Description
