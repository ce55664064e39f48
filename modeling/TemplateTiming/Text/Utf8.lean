/-! UTF-8. A byte sequence is cut into pieces by an automaton that reads one byte at a time: a piece is a
scalar value, or a broken run, which is a longest stretch that begins a scalar value and cannot be continued
to one. A byte outside 80..BF always ends the run before it, so pieces never reach across a whole character,
and no broken run has more than three bytes. Lossy text shows each broken run as one U+FFFD. -/

namespace TemplateTiming.Utf8

/-- A stretch of a byte sequence. -/
inductive Piece where
  | scalar (c : Char)
  | broken (octets : List UInt8)
  deriving DecidableEq, Repr

/-- What the automaton has read of an unfinished scalar value: the bytes themselves, the range of the next
byte, the number of bytes after that one, and the bits so far. -/
inductive State where
  | start
  | inside (seen : List UInt8) (low high : UInt8) (more : Nat) (bits : Nat)
  deriving DecidableEq, Repr

/-- Reads a byte with nothing before it. The narrowed ranges after E0, ED, F0 and F4 rule out overlong forms,
surrogates and values above U+10FFFF. -/
def enter (b : UInt8) : List Piece × State :=
  if b < 0x80 then ([.scalar (Char.ofNat b.toNat)], .start)
  else if b < 0xC2 then ([.broken [b]], .start)
  else if b < 0xE0 then ([], .inside [b] 0x80 0xBF 0 (b.toNat - 0xC0))
  else if b = 0xE0 then ([], .inside [b] 0xA0 0xBF 1 0)
  else if b = 0xED then ([], .inside [b] 0x80 0x9F 1 0xD)
  else if b < 0xF0 then ([], .inside [b] 0x80 0xBF 1 (b.toNat - 0xE0))
  else if b = 0xF0 then ([], .inside [b] 0x90 0xBF 2 0)
  else if b < 0xF4 then ([], .inside [b] 0x80 0xBF 2 (b.toNat - 0xF0))
  else if b = 0xF4 then ([], .inside [b] 0x80 0x8F 2 4)
  else ([.broken [b]], .start)

def step : State → UInt8 → List Piece × State
  | .start, b => enter b
  | .inside seen low high more bits, b =>
    if low ≤ b ∧ b ≤ high then
      let bits := bits * 64 + (b.toNat - 0x80)
      match more with
      | 0 => ([.scalar (Char.ofNat bits)], .start)
      | more + 1 => ([], .inside (seen ++ [b]) 0x80 0xBF more bits)
    else
      let (out, next) := enter b
      (.broken seen :: out, next)

/-- The piece that the end of the input completes. -/
def finish : State → List Piece
  | .start => []
  | .inside seen _ _ _ _ => [.broken seen]

def run : State → List UInt8 → List Piece
  | s, [] => finish s
  | s, b :: rest => (step s b).1 ++ run (step s b).2 rest

def pieces (octets : List UInt8) : List Piece := run .start octets

/-- The number of bytes of the input that a piece stands for. -/
def Piece.span : Piece → Nat
  | .scalar c => c.utf8Size
  | .broken octets => octets.length

def Piece.shown : Piece → Char
  | .scalar c => c
  | .broken _ => '\ufffd'

def Piece.scalar? : Piece → Option Char
  | .scalar c => some c
  | .broken _ => none

/-- The text of any bytes, each broken run shown as one U+FFFD. -/
def lossy (octets : List UInt8) : List Char := (pieces octets).map Piece.shown

/-- The text of well-formed bytes. -/
def decode? (octets : List UInt8) : Option (List Char) := (pieces octets).mapM Piece.scalar?

def encodeChar (c : Char) : List UInt8 :=
  let n := c.toNat
  if n < 0x80 then [n.toUInt8]
  else if n < 0x800 then [(0xC0 + n / 64).toUInt8, (0x80 + n % 64).toUInt8]
  else if n < 0x10000 then
    [(0xE0 + n / 4096).toUInt8, (0x80 + n / 64 % 64).toUInt8, (0x80 + n % 64).toUInt8]
  else
    [(0xF0 + n / 262144).toUInt8, (0x80 + n / 4096 % 64).toUInt8, (0x80 + n / 64 % 64).toUInt8,
      (0x80 + n % 64).toUInt8]

def encode (text : List Char) : List UInt8 := text.flatMap encodeChar

/-- The length of a text in bytes. -/
def size (text : List Char) : Nat := text.foldr (fun c size => c.utf8Size + size) 0

end TemplateTiming.Utf8
