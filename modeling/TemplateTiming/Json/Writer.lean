import TemplateTiming.Json.Value
import TemplateTiming.Number.Shortest
import TemplateTiming.Text.Quoted

/-! Writing JSON: strings with the escapes that the format demands and no others, whole numbers in decimal, and
doubles with the shortest digits that read back. A double is written positionally from 10^-5 up to below
10^16 and with an exponent elsewhere; one that is not finite is written as `null`. -/

namespace TemplateTiming.Json

def escapeChar (c : Char) : List Char :=
  if c = '"' then ['\\', '"']
  else if c = '\\' then ['\\', '\\']
  else if c = '\x08' then ['\\', 'b']
  else if c = '\x0c' then ['\\', 'f']
  else if c = '\n' then ['\\', 'n']
  else if c = '\r' then ['\\', 'r']
  else if c = '\t' then ['\\', 't']
  else if c.toNat < 0x20 then
    ['\\', 'u', '0', '0', Quoted.hexDigit false (c.toNat / 16), Quoted.hexDigit false (c.toNat % 16)]
  else [c]

def writeString (s : List Char) : List Char := '"' :: s.flatMap escapeChar ++ ['"']

def layout : DecimalLayout := ⟨fun e => -5 ≤ e ∧ e ≤ 15, true⟩

def writeBinary64 : Binary64 → List Char
  | .finite units => Binary64.layOut layout units
  | _ => ['n', 'u', 'l', 'l']

/-- An object from its keys and the written forms of their values. -/
def writeObject (members : List (List Char × List Char)) : List Char :=
  let written := members.map fun (key, value) => writeString key ++ [':'] ++ value
  '{' :: (written.intersperse [',']).flatten ++ ['}']

end TemplateTiming.Json
