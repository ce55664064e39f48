import TemplateTiming.IoError
import TemplateTiming.Path

/-! A file system as a value: files and directories by their names from the root, without links. A path is
followed name by name, and the first step that cannot be taken says why. -/

namespace TemplateTiming

inductive FileTree.Entry where
  | file (octets : List UInt8)
  | directory
  deriving DecidableEq, Repr

/-- The entries by their names from the root; the root itself is a directory. -/
structure FileTree where
  entries : List (List (List UInt8) × FileTree.Entry)

namespace FileTree

/-- The longest path and the longest name that the system takes, in bytes. -/
def maxPath : Nat := 4095
def maxName : Nat := 255

def entry? (t : FileTree) (names : List (List UInt8)) : Option Entry :=
  if names = [] then some .directory else (t.entries.find? (·.1 = names)).map (·.2)

/-- Follows the parts of a path from the place `here`. -/
def follow (t : FileTree) (here : List (List UInt8)) : List (List UInt8) → Except IoError (List (List UInt8))
  | [] => .ok here
  | part :: rest =>
    if t.entry? here ≠ some .directory then .error .notADirectory
    else if part = [] ∨ part = [Path.dot] then follow t here rest
    else if part = [Path.dot, Path.dot] then follow t here.dropLast rest
    else if maxName < part.length then .error .nameTooLong
    else if (t.entry? (here ++ [part])).isNone then .error .noSuchFile
    else follow t (here ++ [part]) rest

/-- The content of a file, for a process in the directory `workingDir`. -/
def read (t : FileTree) (workingDir p : Path) : Except IoError (List UInt8) :=
  if p.octets.contains 0 then .error .nulInName
  else if p.octets = [] then .error .noSuchFile
  else if maxPath < p.octets.length then .error .nameTooLong
  else do
    let here := if p.isAbsolute then [] else workingDir.components
    let names ← follow t here (Path.segments p.octets)
    match t.entry? names with
    | some (.file octets) => .ok octets
    | some .directory => .error .isADirectory
    | none => .error .noSuchFile

end FileTree

end TemplateTiming
