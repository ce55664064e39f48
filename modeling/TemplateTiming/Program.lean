import TemplateTiming.CommandLine.Reader
import TemplateTiming.Log.Filter
import TemplateTiming.Markup.Converter
import TemplateTiming.Template.Load

/-! A whole run of the program as a function: from the arguments, the environment and the files to the exit
status and what is written. Standard output holds the report, a help text or the usage line and nothing else.
The run is cut in two where time is taken: before it the settings and the template are made ready, behind it the
report is written. -/

namespace TemplateTiming

/-- What a process finds around it. -/
structure World where
  environment : Environment
  workingDir : Path
  fileContent : Path → Except IoError (List UInt8)

structure Outcome where
  exit : Nat
  stdout : String
  /-- The events that pass the filter. -/
  log : List LogEvent
  /-- The form of the log, which is that of the report. -/
  logFormat : ReportFormat
  /-- The messages to the user on standard error. -/
  messages : List String

/-- A run that is ready to convert. -/
structure Job where
  settings : Settings
  template : Template
  filter : Log.Filter
  log : List LogEvent

namespace Outcome

/-- Only standard output is written. -/
def printed (exit : Nat) (text : String) : Outcome := ⟨exit, text, [], .text, []⟩

/-- The arguments cannot be read, or ask for help. -/
def ofEnding : CommandLine.Ending → Outcome
  | .help => printed 0 CommandLine.helpText
  | .version => printed 0 CommandLine.versionText
  | .misuse m => ⟨2, "", [], .text, ["error: " ++ m.message]⟩

/-- The line that says how the program is called. -/
def usage : Outcome := printed 1 (CommandLine.usage ++ "\n")

/-- A run that ends with an error, after the events of `log`. -/
def failed (filter : Log.Filter) (format : ReportFormat) (log : List LogEvent) (e : Error) : Outcome :=
  ⟨e.exitCode, "", (log ++ [LogEvent.failed e]).filter filter.admits, format,
    ["❌ " ++ e.friendly, "💡 Suggestion: " ++ e.suggestion]⟩

end Outcome

namespace Program

/-- The extensions that a template is expected to have. -/
def extensions : List String := ["mjml"]

/-- The log about an input whose extension is not expected; it is converted all the same. -/
def extensionLog (input : Path) : List LogEvent :=
  match Validation.fileExtension "input" input extensions with
  | .ok () => []
  | .error e => [.unusualExtension e]

/-- Makes everything ready that comes before the first conversion. -/
def prepare (w : World) (arguments : List (List UInt8)) : Except Outcome Job :=
  match CommandLine.read arguments with
  | .error ending => .error (.ofEnding ending)
  | .ok line =>
    if line.input.isNone ∧ line.config.isNone then .error .usage
    else
      match line.toSettings w.environment w.fileContent with
      | .error e => .error (.failed (Log.filterFor w.environment line.verbose none) .text [] e)
      | .ok settings =>
        let filter := Log.filterFor w.environment line.verbose settings.logLevel
        let log := [.effectiveSettings settings]
        match settings.input with
        | none => .error { Outcome.usage with log := log.filter filter.admits, logFormat := settings.format }
        | some input =>
          let log := log ++ extensionLog input
          match Template.load w.workingDir w.fileContent input with
          | .error e => .error (.failed filter settings.format log e)
          | .ok template => .ok ⟨settings, template, filter, log ++ [.loaded template.size template.path]⟩

/-- The configuration file that a run reads first. -/
def configFile? (arguments : List (List UInt8)) : Option Path :=
  match CommandLine.read arguments with
  | .ok line => line.config
  | .error _ => none

/-- The template that a run reads next. -/
def templateFile? (w : World) (arguments : List (List UInt8)) : Option Path :=
  match CommandLine.read arguments with
  | .error _ => none
  | .ok line =>
    match line.toSettings w.environment w.fileContent with
    | .ok settings => settings.input.bind fun p => (Template.resolve w.workingDir p).toOption
    | .error _ => none

/-- The engine that the settings ask for. -/
def engineFor {δ : Type} (r : Markup.Routine δ) (settings : Settings) : Engine Unit :=
  (Engine.ofSettings (r.converter settings.render) () settings).withMonitoring settings.monitor

/-- The engine of a job, with the real converter. -/
def engine (job : Job) : Engine Unit := engineFor Markup.routine job.settings

/-- Writes the report of a job whose conversions are done. -/
def conclude (job : Job) (run : Run Unit) : Outcome :=
  let log := job.log ++ run.log
  match run.result.bind (·.render job.settings.format) with
  | .ok report => ⟨0, report ++ "\n", log.filter job.filter.admits, job.settings.format, []⟩
  | .error e => .failed job.filter job.settings.format log e

/-- A whole run with some routine for the conversions. -/
def runWith {δ : Type} (r : Markup.Routine δ) (w : World) (m : Measured) (arguments : List (List UInt8)) : Outcome :=
  match prepare w arguments with
  | .error outcome => outcome
  | .ok job => conclude job ((engineFor r job.settings).run job.template m)

def run (w : World) (m : Measured) (arguments : List (List UInt8)) : Outcome := runWith Markup.routine w m arguments

end Program

end TemplateTiming
