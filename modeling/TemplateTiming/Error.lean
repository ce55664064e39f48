import TemplateTiming.IoError
import TemplateTiming.Path
import TemplateTiming.Json.Value

/-! What can end a run early. Each error belongs to a category, the category decides the severity, and the
severity decides the exit status, which is never zero. A converter reports its own failures in its own words,
so those errors carry a text. -/

namespace TemplateTiming

/-- Why a report cannot be written as JSON. -/
inductive SerializationFault where
  | badText (e : Json.TextError)
  | meanOutOfRange
  deriving DecidableEq, Repr

def SerializationFault.message : SerializationFault → String
  | .badText e => e.message
  | .meanOutOfRange => "mean iteration time is out of range"

inductive Error where
  | io (cause : IoError)
  | templateRead (path : Path) (cause : IoError)
  | parse (message : String)
  | render (message : String)
  | serialization (cause : SerializationFault)
  | config (message : String)
  | configValidation (field message : String)
  | invalidValue (field value reason : String)
  deriving DecidableEq, Repr

inductive Category where
  | io
  | conversion
  | configuration
  | serialization
  deriving DecidableEq, Repr

def Category.name : Category → String
  | .io => "Io"
  | .conversion => "Conversion"
  | .configuration => "Configuration"
  | .serialization => "Serialization"

inductive Severity where
  | medium
  | high
  | critical
  deriving DecidableEq, Repr

namespace Severity

def name : Severity → String
  | .medium => "Medium"
  | .high => "High"
  | .critical => "Critical"

def rank : Severity → Nat
  | .medium => 0
  | .high => 1
  | .critical => 2

instance : Ord Severity := ⟨fun a b => compare a.rank b.rank⟩

def exitCode : Severity → Nat
  | .high => 1
  | .medium => 2
  | .critical => 3

end Severity

def Category.severity : Category → Severity
  | .io | .conversion => .high
  | .configuration => .medium
  | .serialization => .critical

namespace Error

def category : Error → Category
  | .io _ | .templateRead _ _ => .io
  | .parse _ | .render _ => .conversion
  | .serialization _ => .serialization
  | .config _ | .configValidation _ _ | .invalidValue _ _ _ => .configuration

def severity (e : Error) : Severity := e.category.severity

def exitCode (e : Error) : Nat := e.severity.exitCode

/-- The error in full. -/
def message : Error → String
  | .io cause => "IO error: " ++ cause.message
  | .templateRead path cause => "Failed to read template '" ++ path.shown ++ "': " ++ cause.message
  | .parse m => "MJML parse error: " ++ m
  | .render m => "MJML render error: " ++ m
  | .serialization cause => "Serialization error: " ++ cause.message
  | .config m => "Configuration error: " ++ m
  | .configValidation field m => "Configuration validation failed for '" ++ field ++ "': " ++ m
  | .invalidValue field value reason =>
    "Invalid value '" ++ value ++ "' for '" ++ field ++ "': " ++ reason

/-- The error as it is put to the user. -/
def friendly : Error → String
  | .templateRead path cause =>
    if cause.isMissing then "Template not found: " ++ path.shown
    else if cause.isRefused then "Permission denied reading template: " ++ path.shown
    else "Could not read template " ++ path.shown ++ ": " ++ cause.message
  | .parse m => "The template could not be parsed as MJML: " ++ m
  | .render m => "The template could not be rendered to HTML: " ++ m
  | e => e.message

/-- What the user can do about it. -/
def suggestion : Error → String
  | .io _ | .templateRead _ _ => "Check that the path exists and points to a readable .mjml file"
  | .parse _ => "Make sure the template starts with an <mjml> root element"
  | .render _ => "Simplify the template until the failing component is isolated"
  | .serialization _ => "Retry with --format text"
  | .config _ | .configValidation _ _ => "Check the TOML syntax of the config file"
  | .invalidValue _ _ _ => "Run with --help to see accepted values"

/-- The text of the failure behind the error, if another one lies behind it. -/
def source? : Error → Option String
  | .io cause | .templateRead _ cause => some cause.message
  | .serialization cause => some cause.message
  | _ => none

end Error

end TemplateTiming
