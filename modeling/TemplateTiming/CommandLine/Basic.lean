import TemplateTiming.FileConfig.Reader
import TemplateTiming.Settings

/-! What a command line asks for, and the settings that follow from it. A value given on the command line wins
over the configuration file, which wins over the defaults. Monitoring is on if either asks for it. -/

namespace TemplateTiming

structure CommandLine where
  input : Option Path
  iterations : Option UInt64
  warmup : Option UInt64
  label : Option String
  format : Option String
  config : Option Path
  monitor : Bool
  verbose : Bool
  deriving DecidableEq, Repr

namespace CommandLine

def empty : CommandLine := ⟨none, none, none, none, none, none, false, false⟩

instance : Inhabited CommandLine := ⟨empty⟩

/-- The settings of the file, or the defaults without a file, with the given values written over them. -/
def merge (c : CommandLine) (file : Option FileConfig) : Except Error Settings := do
  let base ← match file with
    | some f => Settings.ofFile f
    | none => .ok Settings.default
  let format ← match c.format with
    | some s => ReportFormat.parse s
    | none => .ok base.format
  .ok { base with
    input := c.input <|> base.input
    iterations := c.iterations.getD base.iterations
    warmup := c.warmup.getD base.warmup
    label := c.label.getD base.label
    format := format
    monitor := base.monitor || c.monitor }

/-- The named configuration file, read and checked. -/
def loadFile (c : CommandLine) (env : Environment) (fileContent : Path → Except IoError (List UInt8)) :
    Except Error (Option FileConfig) :=
  match c.config with
  | none => .ok none
  | some path => do
    let file ← FileConfig.load env fileContent path
    file.validate
    .ok (some file)

/-- The settings of the run, checked. -/
def toSettings (c : CommandLine) (env : Environment) (fileContent : Path → Except IoError (List UInt8)) :
    Except Error Settings := do
  let settings ← c.merge (← c.loadFile env fileContent)
  settings.validate
  .ok settings

end CommandLine

end TemplateTiming
