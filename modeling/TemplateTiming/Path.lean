import TemplateTiming.Text.Utf8

/-! File paths as byte sequences. A path is cut at its slashes; empty components and `.` carry no meaning, `..`
stays where it is because removing it would need the file system. An absolute path in normal form keeps the two
things that a slash can say beyond separating: exactly two leading slashes, and one trailing slash. -/

namespace TemplateTiming

structure Path where
  octets : List UInt8
  deriving DecidableEq, Repr, Inhabited

namespace Path

def slash : UInt8 := 0x2F
def dot : UInt8 := 0x2E

def ofString (s : String) : Path := ⟨Utf8.encode s.toList⟩

/-- The path for display, with U+FFFD for what is not UTF-8. -/
def shown (p : Path) : String := String.ofList (Utf8.lossy p.octets)

/-- The stretches between slashes, one more than there are slashes. -/
def segments : List UInt8 → List (List UInt8)
  | [] => [[]]
  | b :: rest =>
    match segments rest with
    | [] => [[b]]
    | first :: more => if b = slash then [] :: first :: more else (b :: first) :: more

/-- The components that name something: neither empty nor `.`. -/
def components (p : Path) : List (List UInt8) :=
  (segments p.octets).filter fun part => part ≠ [] ∧ part ≠ [dot]

def isAbsolute (p : Path) : Bool := p.octets.head? == some slash

def endsInSlash (octets : List UInt8) : Bool := octets.getLast? == some slash

/-- The last component, unless it is `..`. -/
def fileName? (p : Path) : Option (List UInt8) :=
  match p.components.getLast? with
  | none => none
  | some name => if name = [dot, dot] then none else some name

/-- What follows the last dot of a name, if something stands before that dot. -/
def extensionOf? (name : List UInt8) : Option (List UInt8) :=
  match name.reverse.dropWhile (· != dot) with
  | _ :: _ :: _ => some (name.reverse.takeWhile (· != dot)).reverse
  | _ => none

def extension? (p : Path) : Option (List UInt8) := p.fileName?.bind extensionOf?

/-- Where an absolute form of `p` starts: at a root, which is `//` for exactly two leading slashes, or else in
the working directory. -/
def origin (workingDir p : Path) : List UInt8 :=
  match p.octets with
  | a :: b :: c :: _ =>
    if a ≠ slash then workingDir.octets else if b = slash ∧ c ≠ slash then [slash, slash] else [slash]
  | [a, b] => if a ≠ slash then workingDir.octets else if b = slash then [slash, slash] else [slash]
  | [a] => if a ≠ slash then workingDir.octets else [slash]
  | [] => workingDir.octets

def withTrailingSlash (octets : List UInt8) : List UInt8 :=
  if endsInSlash octets then octets else octets ++ [slash]

/-- One component further down. -/
def descend (base part : List UInt8) : List UInt8 := withTrailingSlash base ++ part

/-- The path seen from the root. Only the text of the path is looked at, never a file. -/
def absolute (workingDir p : Path) : Path :=
  let joined := p.components.foldl descend (origin workingDir p)
  ⟨if endsInSlash p.octets then withTrailingSlash joined else joined⟩

end Path

end TemplateTiming
