import TemplateTiming.CommandLine.Reader

/-! The arguments that ask for what a command line asks for. Every option is written with its value in one
argument, behind an equals sign, and the file stands behind `--`; so neither a value nor the file can be taken
for an option, whatever it begins with. -/

namespace TemplateTiming.CommandLine

def ValueOption.name : ValueOption → String
  | .iterations => "iterations"
  | .warmup => "warmup"
  | .label => "label"
  | .format => "format"
  | .config => "config"

def ValueOption.written (o : ValueOption) (value : List UInt8) : List UInt8 :=
  [hyphen, hyphen] ++ Utf8.encode o.name.toList ++ [equals] ++ value

def Switch.written (w : Switch) : List UInt8 := Utf8.encode w.shown.toList

/-- One argument for every option that is given, in a fixed order. -/
def optionArguments (c : CommandLine) : List (List UInt8) :=
  let count (o : ValueOption) (n : UInt64) : List UInt8 := o.written (Utf8.encode (Decimal.digits n.toNat))
  let text (o : ValueOption) (s : String) : List UInt8 := o.written (Utf8.encode s.toList)
  (c.iterations.map (count .iterations)).toList ++ (c.warmup.map (count .warmup)).toList
    ++ (c.label.map (text .label)).toList ++ (c.format.map (text .format)).toList
    ++ (c.config.map fun p => ValueOption.config.written p.octets).toList
    ++ (if c.monitor then [Switch.monitor.written] else [])
    ++ (if c.verbose then [Switch.verbose.written] else [])

/-- The file, behind the mark that ends the options. -/
def operandArguments (c : CommandLine) : List (List UInt8) :=
  match c.input with
  | some p => [[hyphen, hyphen], p.octets]
  | none => []

end TemplateTiming.CommandLine
