import TemplateTiming.Error
import TemplateTiming.Text.Blank

/-! Checks of single values. Each takes the name of the field that an error is to mention. -/

namespace TemplateTiming.Validation

/-- A path must name something and must not hold a NUL, which the system could not open. -/
def path (field : String) (p : Path) : Except Error Unit :=
  let display := Utf8.lossy p.octets
  if p.octets.isEmpty then .error (.invalidValue field (String.ofList display) "Path cannot be empty")
  else if display.contains '\x00' then
    .error (.invalidValue field (String.ofList display) "Path contains null bytes")
  else .ok ()

def atLeast (field : String) (value least : UInt64) : Except Error Unit :=
  if value < least then
    .error (.invalidValue field (Decimal.text value.toNat) ("Value must be at least " ++ Decimal.text least.toNat))
  else .ok ()

/-- The extension, compared exactly, must be one of those allowed; one that is not UTF-8 counts as missing. -/
def fileExtension (field : String) (p : Path) (allowed : List String) : Except Error Unit :=
  match p.extension?.bind Utf8.decode? with
  | none => .error (.invalidValue field p.shown "File has no extension")
  | some ext =>
    let ext := String.ofList ext
    if allowed.contains ext then .ok ()
    else .error (.invalidValue field p.shown
      ("Unexpected file extension: " ++ ext ++ ". Expected: " ++ ", ".intercalate allowed))

def notBlank (field value : String) : Except Error Unit :=
  if Text.allBlank value.toList then
    .error (.invalidValue field value "Value cannot be empty or whitespace-only")
  else .ok ()

def oneOf (field value : String) (allowed : List String) : Except Error Unit :=
  if allowed.contains value then .ok ()
  else .error (.invalidValue field value ("Unsupported value. Valid values: " ++ ", ".intercalate allowed))

end TemplateTiming.Validation
