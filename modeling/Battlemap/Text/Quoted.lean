import Battlemap.Text.Unprintable

/-!
# `Battlemap.Text.Quoted`: text in quotation marks

Messages quote text so that every character can be told from its
neighbours: quotation marks and backslashes are escaped, the common
control characters have letters, and whatever else has no visible form
is written by its code point.
-/

set_option autoImplicit false

namespace Battlemap

/-- A character as it stands between quotation marks. -/
def quotedChar (c : Char) : List Char :=
  if c.toNat = 0 then ['\\', '0']
  else if c = '\t' then ['\\', 't']
  else if c = '\r' then ['\\', 'r']
  else if c = '\n' then ['\\', 'n']
  else if c = '"' ∨ c = '\\' then ['\\', c]
  else if isUnprintable c then
    ['\\', 'u', '\x7b'] ++ Nat.toDigits 16 c.toNat ++ ['\x7d']
  else [c]

/-- The text in quotation marks. -/
def quoted (text : List Char) : String :=
  String.ofList ('"' :: text.flatMap quotedChar ++ ['"'])

end Battlemap
