import TemplateTiming.FileConfig.Basic

/-! The settings of a run: what the defaults, a configuration file and the command line make of it. -/

namespace TemplateTiming

structure Settings where
  input : Option Path
  iterations : UInt64
  warmup : UInt64
  label : String
  format : ReportFormat
  monitor : Bool
  logLevel : Option String
  render : RenderSettings
  deriving DecidableEq, Repr

namespace Settings

def default : Settings := ⟨none, 100, 0, "mjml", .text, false, none, ⟨none, none⟩⟩

instance : Inhabited Settings := ⟨default⟩

/-- The settings of a file, with the defaults for what it leaves open. -/
def ofFile (c : FileConfig) : Except Error Settings := do
  let format ← c.reportFormat
  .ok {
    input := c.bench.input
    iterations := c.bench.iterations.getD default.iterations
    warmup := c.bench.warmup.getD default.warmup
    label := c.bench.label.getD default.label
    format := format.getD default.format
    monitor := c.monitoringEnabled
    logLevel := c.logLevel?
    render := c.render
  }

def validate (s : Settings) : Except Error Unit := do
  FileConfig.check s.input (Validation.path "input")
  Validation.atLeast "iterations" s.iterations 1
  Validation.notBlank "label" s.label

/-- An optional value in a record of settings. -/
def shownOption {α : Type} (shown : α → String) : Option α → String
  | some a => "Some(" ++ shown a ++ ")"
  | none => "None"

def shownBool (b : Bool) : String := if b then "true" else "false"

/-- The settings as a record of named values. -/
def shown (s : Settings) : String :=
  "BenchSettings \x7b input: " ++ shownOption (fun p => Quoted.octets p.octets) s.input
    ++ ", iterations: " ++ Decimal.text s.iterations.toNat
    ++ ", warmup: " ++ Decimal.text s.warmup.toNat
    ++ ", label: " ++ Quoted.text s.label
    ++ ", format: " ++ (match s.format with | .text => "Text" | .json => "Json")
    ++ ", monitor: " ++ shownBool s.monitor
    ++ ", log_level: " ++ shownOption Quoted.text s.logLevel
    ++ ", render: RenderSettings \x7b disable_comments: " ++ shownOption shownBool s.render.disableComments
    ++ ", social_icon_origin: " ++ shownOption Quoted.text s.render.socialIconOrigin ++ " \x7d \x7d"

end Settings

end TemplateTiming
