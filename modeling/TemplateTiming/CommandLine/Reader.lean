import TemplateTiming.CommandLine.Basic

/-! Reading the arguments from left to right. An option takes its value from the same argument or from the next
one, which must not begin with a hyphen unless it is a single one. A value is checked when the argument after it
has turned out to be known, or at the end; an unknown argument is therefore reported even if the value before it
is wrong. Help and version end the reading, as an error does. -/

namespace TemplateTiming.CommandLine

/-- The options that take a value. -/
inductive ValueOption where
  | iterations
  | warmup
  | label
  | format
  | config
  deriving DecidableEq, Repr

inductive Switch where
  | monitor
  | verbose
  | help
  | version
  deriving DecidableEq, Repr

/-- Why a text is not a count. -/
inductive CountFault where
  | empty
  | badDigit
  | tooLarge
  deriving DecidableEq, Repr

/-- How a command line can be wrong. -/
inductive Misuse where
  | valueMissing (what : String)
  | badCount (value what : String) (reason : CountFault)
  | notUtf8
  | repeated (what : String)
  | unneededValue (value what : String)
  | unknown (argument : String)
  deriving DecidableEq, Repr

/-- What ends the reading early. -/
inductive Ending where
  | help
  | version
  | misuse (m : Misuse)
  deriving DecidableEq, Repr

def ValueOption.shown : ValueOption → String
  | .iterations => "--iterations <ITERATIONS>"
  | .warmup => "--warmup <WARMUP>"
  | .label => "--label <LABEL>"
  | .format => "--format <FORMAT>"
  | .config => "--config <CONFIG>"

def Switch.shown : Switch → String
  | .monitor => "--monitor"
  | .verbose => "--verbose"
  | .help => "--help"
  | .version => "--version"

def fileShown : String := "[FILE]"

def CountFault.message : CountFault → String
  | .empty => "cannot parse integer from empty string"
  | .badDigit => "invalid digit found in string"
  | .tooLarge => "number too large to fit in target type"

def Misuse.message : Misuse → String
  | .valueMissing what => "a value is required for '" ++ what ++ "' but none was supplied"
  | .badCount value what reason =>
    "invalid value '" ++ value ++ "' for '" ++ what ++ "': " ++ reason.message
  | .notUtf8 => "invalid UTF-8 was detected in one or more arguments"
  | .repeated what => "the argument '" ++ what ++ "' cannot be used multiple times"
  | .unneededValue value what =>
    "unexpected value '" ++ value ++ "' for '" ++ what ++ "' found; no more were expected"
  | .unknown argument => "unexpected argument '" ++ argument ++ "' found"

/-- The digits of a count after those that make up `n`. -/
def countFrom (n : Nat) : List Char → Except CountFault UInt64
  | [] => .ok n.toUInt64
  | c :: cs =>
    if !Decimal.isDigit c then .error .badDigit
    else
      let n := 10 * n + Decimal.digitValue c
      if UInt64.size ≤ n then .error .tooLarge else countFrom n cs

/-- A count of 64 bits in decimal, with or without a plus sign. -/
def readCount : List Char → Except CountFault UInt64
  | [] => .error .empty
  | ['+'] => .error .badDigit
  | '+' :: c :: cs => countFrom 0 (c :: cs)
  | c :: cs => countFrom 0 (c :: cs)

/-- A value that is not checked yet, or an option that still waits for its value. -/
inductive Pending where
  | waiting (o : ValueOption)
  | value (o : ValueOption) (octets : List UInt8)
  | file (octets : List UInt8)
  deriving DecidableEq, Repr

structure State where
  line : CommandLine
  pending : Option Pending
  fileSeen : Bool
  operandsOnly : Bool
  deriving DecidableEq, Repr

def State.start : State := ⟨.empty, none, false, false⟩

def misuse {α : Type} (m : Misuse) : Except Ending α := .error (.misuse m)

def toText (octets : List UInt8) : Except Ending String :=
  match Utf8.decode? octets with
  | some cs => .ok (String.ofList cs)
  | none => misuse .notUtf8

def toCount (o : ValueOption) (octets : List UInt8) : Except Ending UInt64 := do
  let text ← toText octets
  match readCount text.toList with
  | .ok n => .ok n
  | .error reason => misuse (.badCount text o.shown reason)

/-- Paths must not be empty. -/
def toPath (what : String) (octets : List UInt8) : Except Ending Path :=
  if octets.isEmpty then misuse (.valueMissing what) else .ok ⟨octets⟩

/-- Writes a value down, unless the option has one. -/
def accept (line : CommandLine) (o : ValueOption) (octets : List UInt8) : Except Ending CommandLine :=
  match o with
  | .iterations => do
    if line.iterations.isSome then misuse (.repeated o.shown)
    .ok { line with iterations := some (← toCount o octets) }
  | .warmup => do
    if line.warmup.isSome then misuse (.repeated o.shown)
    .ok { line with warmup := some (← toCount o octets) }
  | .label => do
    if line.label.isSome then misuse (.repeated o.shown)
    .ok { line with label := some (← toText octets) }
  | .format => do
    if line.format.isSome then misuse (.repeated o.shown)
    .ok { line with format := some (← toText octets) }
  | .config => do
    if line.config.isSome then misuse (.repeated o.shown)
    .ok { line with config := some (← toPath o.shown octets) }

/-- Checks the value that is pending. -/
def settle (s : State) : Except Ending State :=
  match s.pending with
  | none => .ok s
  | some (.waiting o) => misuse (.valueMissing o.shown)
  | some (.value o octets) => do .ok { s with line := ← accept s.line o octets, pending := none }
  | some (.file octets) => do
    let path ← toPath fileShown octets
    .ok { s with line := { s.line with input := some path }, pending := none }

def giveValue (s : State) (o : ValueOption) (octets : List UInt8) : Except Ending State := do
  let s ← settle s
  .ok { s with line := ← accept s.line o octets }

def awaitValue (s : State) (o : ValueOption) : Except Ending State := do
  let s ← settle s
  .ok { s with pending := some (.waiting o) }

def flip (s : State) (w : Switch) : Except Ending State := do
  let s ← settle s
  match w with
  | .help => .error .help
  | .version => .error .version
  | .monitor =>
    if s.line.monitor then misuse (.repeated w.shown)
    else .ok { s with line := { s.line with monitor := true } }
  | .verbose =>
    if s.line.verbose then misuse (.repeated w.shown)
    else .ok { s with line := { s.line with verbose := true } }

/-- An option by its long name. -/
def longName? (name : List Char) : Option (ValueOption ⊕ Switch) :=
  if name = "iterations".toList then some (.inl .iterations)
  else if name = "warmup".toList then some (.inl .warmup)
  else if name = "label".toList then some (.inl .label)
  else if name = "format".toList then some (.inl .format)
  else if name = "config".toList then some (.inl .config)
  else if name = "monitor".toList then some (.inr .monitor)
  else if name = "verbose".toList then some (.inr .verbose)
  else if name = "help".toList then some (.inr .help)
  else if name = "version".toList then some (.inr .version)
  else none

/-- An option by its letter. -/
def letter? (c : Char) : Option (ValueOption ⊕ Switch) :=
  if c = 'n' then some (.inl .iterations)
  else if c = 'c' then some (.inl .config)
  else if c = 'v' then some (.inr .verbose)
  else if c = 'h' then some (.inr .help)
  else if c = 'V' then some (.inr .version)
  else none

def hyphen : UInt8 := 0x2D
def equals : UInt8 := 0x3D

def lossy (octets : List UInt8) : String := String.ofList (Utf8.lossy octets)

/-- An argument after its two hyphens: a name, and perhaps a value behind the first equals sign. -/
def readLong (s : State) (octets : List UInt8) : Except Ending State :=
  let name := octets.takeWhile (· ≠ equals)
  let attached := octets.dropWhile (· ≠ equals)
  match (Utf8.decode? name).bind longName?, attached with
  | none, _ => misuse (.unknown ("--" ++ lossy name))
  | some (.inl o), [] => awaitValue s o
  | some (.inl o), _ :: value => giveValue s o value
  | some (.inr w), [] => flip s w
  | some (.inr w), _ :: value => misuse (.unneededValue (lossy value) w.shown)

/-- The letters after a single hyphen. The first one that takes a value takes what is left, without the equals
sign that may stand between them. -/
def readLetters : Nat → State → List UInt8 → Except Ending State
  | 0, s, _ => .ok s
  | _ + 1, s, [] => .ok s
  | steps + 1, s, octets =>
    match Utf8.pieces octets with
    | .scalar c :: _ =>
      let rest := octets.drop c.utf8Size
      match letter? c with
      | none => misuse (.unknown (String.ofList ['-', c]))
      | some (.inr w) => do readLetters steps (← flip s w) rest
      | some (.inl o) =>
        match rest with
        | [] => awaitValue s o
        | b :: value => giveValue s o (if b = equals then value else b :: value)
    | _ => misuse (.unknown ("-" ++ lossy octets))

/-- An argument that is the file to convert; there is at most one. -/
def readOperand (s : State) (octets : List UInt8) : Except Ending State :=
  if s.fileSeen then misuse (.unknown (lossy octets))
  else do
    let s ← settle s
    .ok { s with pending := some (.file octets), fileSeen := true }

def step (s : State) (argument : List UInt8) : Except Ending State :=
  if s.operandsOnly then readOperand s argument
  else if argument = [hyphen, hyphen] then .ok { s with operandsOnly := true }
  else
    match argument with
    | a :: b :: rest =>
      if a = hyphen ∧ b = hyphen then readLong s rest
      else if a = hyphen then readLetters (rest.length + 1) s (b :: rest)
      else readValue s argument
    | _ => readValue s argument
where
  /-- An argument without a hyphen in front belongs to the option that waits for a value, if one does. -/
  readValue (s : State) (octets : List UInt8) : Except Ending State :=
    match s.pending with
    | some (.waiting o) => .ok { s with pending := some (.value o octets) }
    | _ => readOperand s octets

/-- What a list of arguments asks for. -/
def read (arguments : List (List UInt8)) : Except Ending CommandLine := do
  let s ← arguments.foldlM step .start
  .ok (← settle s).line

def usage : String := "usage: mjml-bench path/to/file.mjml"

def versionText : String := "mjml-bench 0.1.0\n"

def helpText : String :=
  "Time repeated MJML to HTML conversions of a single template\n" ++
  "\n" ++
  "Usage: mjml-bench [OPTIONS] [FILE]\n" ++
  "\n" ++
  "Arguments:\n" ++
  "  [FILE]  Path to the .mjml template to convert\n" ++
  "\n" ++
  "Options:\n" ++
  "  -n, --iterations <ITERATIONS>  Number of timed conversions [default: 100]\n" ++
  "      --warmup <WARMUP>          Untimed conversions to run before the timed loop [default: 0]\n" ++
  "      --label <LABEL>            Label printed in front of the elapsed time [default: mjml]\n" ++
  "      --format <FORMAT>          Report format: text or json [default: text]\n" ++
  "  -c, --config <CONFIG>          Path to TOML configuration file\n" ++
  "      --monitor                  Log CPU and memory usage around the timed loop\n" ++
  "  -v, --verbose                  Enable verbose output\n" ++
  "  -h, --help                     Print help\n" ++
  "  -V, --version                  Print version\n"

end TemplateTiming.CommandLine
