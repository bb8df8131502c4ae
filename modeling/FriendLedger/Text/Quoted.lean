import FriendLedger.Text.GraphemeExtend
import FriendLedger.Text.Printable

/-! Quoted text for messages: in double quotes, with an escape for every
character that a reader could not see or would take for the closing quote. -/

namespace FriendLedger.Text

set_option autoImplicit false

/-- The code point in base sixteen between braces, without leading zeros. -/
def codeEscape (c : Char) : List Char :=
  ['\\', 'u', '\x7b'] ++ Nat.toDigits 16 c.toNat ++ ['\x7d']

def quotedChar (c : Char) : List Char :=
  if c = '\x00' then ['\\', '0']
  else if c = '\t' then ['\\', 't']
  else if c = '\r' then ['\\', 'r']
  else if c = '\n' then ['\\', 'n']
  else if c = '"' || c = '\\' then ['\\', c]
  else if isExtender c || !isPrintable c then codeEscape c
  else [c]

def quoted (s : String) : String :=
  String.ofList ('"' :: s.toList.flatMap quotedChar ++ ['"'])

end FriendLedger.Text
