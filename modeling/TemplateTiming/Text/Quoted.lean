import TemplateTiming.Text.Printable
import TemplateTiming.Text.Utf8

/-! Quoted text for messages and records. A text stands between double quotes; the quote, the backslash and the
common controls get a backslash form, other characters that would not be visible on their own a hexadecimal
one. Bytes are quoted alike, with each byte of a broken run as two hexadecimal digits. -/

namespace TemplateTiming.Quoted

def hexDigit (upper : Bool) (n : Nat) : Char :=
  if n < 10 then Char.ofNat (48 + n) else Char.ofNat ((if upper then 55 else 87) + n)

/-- Lower case hexadecimal digits without superfluous zeros. -/
def hexDigits (n : Nat) : List Char :=
  if n < 16 then [hexDigit false n] else hexDigits (n / 16) ++ [hexDigit false (n % 16)]

def escapeChar (c : Char) : List Char :=
  if c = '\x00' then ['\\', '0']
  else if c = '\t' then ['\\', 't']
  else if c = '\r' then ['\\', 'r']
  else if c = '\n' then ['\\', 'n']
  else if c = '"' then ['\\', '"']
  else if c = '\\' then ['\\', '\\']
  else if Text.isPrintable c && !Text.isGraphemeExtend c then [c]
  else ['\\', 'u', Char.ofNat 0x7B] ++ hexDigits c.toNat ++ [Char.ofNat 0x7D]

def text (s : String) : String :=
  String.ofList ('"' :: s.toList.flatMap escapeChar ++ ['"'])

def escapePiece : Utf8.Piece → List Char
  | .scalar c => escapeChar c
  | .broken octets =>
    octets.flatMap fun b => ['\\', 'x', hexDigit true (b.toNat / 16), hexDigit true (b.toNat % 16)]

def octets (bytes : List UInt8) : String :=
  String.ofList ('"' :: (Utf8.pieces bytes).flatMap escapePiece ++ ['"'])

end TemplateTiming.Quoted
