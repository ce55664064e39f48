import TemplateTiming.FileConfig.Basic
import TemplateTiming.Text.Quoted

/-! The TOML text of a configuration: a table for each section and a line for each field that is present, with
decimal integers and basic strings. A section without fields may be left out, except that a monitoring section
always says whether monitoring is on. -/

namespace TemplateTiming

namespace Toml

/-- A character in a basic string: quotes, backslashes and controls are escaped. -/
def writeChar (c : Char) : List Char :=
  if c = '"' then ['\\', '"']
  else if c = '\\' then ['\\', '\\']
  else if c = '\x08' then ['\\', 'b']
  else if c = '\t' then ['\\', 't']
  else if c = '\n' then ['\\', 'n']
  else if c = '\x0c' then ['\\', 'f']
  else if c = '\r' then ['\\', 'r']
  else if c.toNat < 0x20 ∨ c.toNat = 0x7F then
    ['\\', 'u', '0', '0', Quoted.hexDigit true (c.toNat / 16), Quoted.hexDigit true (c.toNat % 16)]
  else [c]

def writeString (s : List Char) : List Char := '"' :: s.flatMap writeChar ++ ['"']

def writeBool (b : Bool) : List Char := if b then "true".toList else "false".toList

/-- A key, its value, and the end of the line. -/
def writeLine (key : String) (value : List Char) : List Char := key.toList ++ " = ".toList ++ value ++ ['\n']

/-- A table with its lines. -/
def writeTable (name : String) (lines : List (List Char)) : List Char :=
  '[' :: name.toList ++ [']', '\n'] ++ lines.flatten

end Toml

open Toml

/-- The line of a field that may be missing. -/
def FileConfig.fieldLine {α : Type} (key : String) (write : α → List Char) (value : Option α) : List (List Char) :=
  (value.map fun a => writeLine key (write a)).toList

def BenchSection.lines (s : BenchSection) : List (List Char) :=
  FileConfig.fieldLine "input" (fun p => Toml.writeString (Utf8.lossy p.octets)) s.input
    ++ FileConfig.fieldLine "iterations" (fun n => Decimal.digits n.toNat) s.iterations
    ++ FileConfig.fieldLine "warmup" (fun n => Decimal.digits n.toNat) s.warmup
    ++ FileConfig.fieldLine "label" (fun l => Toml.writeString l.toList) s.label
    ++ FileConfig.fieldLine "format" (fun f => Toml.writeString f.toList) s.format

def RenderSettings.lines (s : RenderSettings) : List (List Char) :=
  FileConfig.fieldLine "disable_comments" writeBool s.disableComments
    ++ FileConfig.fieldLine "social_icon_origin" (fun o => Toml.writeString o.toList) s.socialIconOrigin

def Monitoring.lines (m : Monitoring) : List (List Char) :=
  writeLine "enabled" (writeBool m.enabled)
    :: FileConfig.fieldLine "log_level" (fun l => Toml.writeString l.toList) m.logLevel

namespace FileConfig

/-- The tables of a configuration, in a fixed order. -/
def tables (c : FileConfig) : List (List Char) :=
  [writeTable "bench" c.bench.lines, writeTable "render" c.render.lines]
    ++ (c.monitoring.map fun m => writeTable "monitoring" m.lines).toList

def write (c : FileConfig) : List Char := c.tables.flatten

end FileConfig

end TemplateTiming
