import FriendLedger.Amount
import FriendLedger.Text.Hexadecimal

/-! JSON documents. A document keeps its texts and numbers as they are written;
whoever uses one decodes it. So a document may hold, where nobody looks, a text
that names no characters or a number out of every range. -/

namespace FriendLedger

set_option autoImplicit false

inductive Json
  | null
  | bool (b : Bool)
  | number (written : List Char)
  | text (written : List Char)
  | array (items : List Json)
  | object (fields : List (List Char × Json))
deriving Repr

namespace Json

def unit? (a b c d : Char) : Option Nat := Text.hexNumber? [a, b, c, d]

def escapeLetter? (c : Char) : Option Char :=
  if c = '"' ∨ c = '\\' ∨ c = '/' then some c
  else if c = 'b' then some '\x08'
  else if c = 'f' then some '\x0c'
  else if c = 'n' then some '\n'
  else if c = 'r' then some '\r'
  else if c = 't' then some '\t'
  else none

/-- Quote, backslash and the controls below the space are escaped, nothing else. -/
def escapeChar (c : Char) : List Char :=
  if c = '"' ∨ c = '\\' then ['\\', c]
  else if c = '\x08' then ['\\', 'b']
  else if c = '\x0c' then ['\\', 'f']
  else if c = '\n' then ['\\', 'n']
  else if c = '\r' then ['\\', 'r']
  else if c = '\t' then ['\\', 't']
  else if c.toNat < 0x20 then ['\\', 'u', '0', '0', Text.hexChar (c.toNat / 16),
    Text.hexChar (c.toNat % 16)]
  else [c]

def escape (s : String) : List Char := s.toList.flatMap escapeChar

def isHighHalf (n : Nat) : Bool := 0xD800 ≤ n && n < 0xDC00

def isLowHalf (n : Nat) : Bool := 0xDC00 ≤ n && n < 0xE000

/-- The code points and code units of a written text, in order. -/
def units? : List Char → Option (List Nat)
  | [] => some []
  | '\\' :: 'u' :: a :: b :: c :: d :: r => do return (← unit? a b c d) :: (← units? r)
  | '\\' :: e :: r => do return (← escapeLetter? e).toNat :: (← units? r)
  | c :: r => do return c.toNat :: (← units? r)

/-- The characters that code units name. A half of a surrogate pair names one
only together with the other half. -/
def joinHalves? : List Nat → Option (List Char)
  | [] => some []
  | [n] => if isHighHalf n || isLowHalf n then none else some [Char.ofNat n]
  | n :: m :: r =>
    if isHighHalf n then
      if isLowHalf m then
        (joinHalves? r).map (Char.ofNat (0x10000 + (n - 0xD800) * 0x400 + (m - 0xDC00)) :: ·)
      else none
    else if isLowHalf n then none
    else (joinHalves? (m :: r)).map (Char.ofNat n :: ·)

def decodeChars? (written : List Char) : Option (List Char) := (units? written).bind joinHalves?

def ofText (s : String) : Json := .text (escape s)

def ofInt (n : Int) : Json := .number (Text.writeInt n)

def ofAmount (a : Amount) : Json := .number a.toChars

def ofFields (fields : List (String × Json)) : Json :=
  .object (fields.map fun f => (escape f.1, f.2))

def text? : Json → Option String
  | .text written => (decodeChars? written).map String.ofList
  | _ => none

/-- Whole numbers have neither fraction nor exponent; minus zero is none. -/
def int? : Json → Option Int
  | .number written => if written = ['-', '0'] then none else Text.readInt? written
  | _ => none

def amount? (j : Json) : Option Amount := j.int?.bind Amount.ofInt?

def bool? : Json → Option Bool
  | .bool b => some b
  | _ => none

def items? : Json → Option (List Json)
  | .array items => some items
  | _ => none

def fields? : Json → Option (List (String × Json))
  | .object fields => fields.mapM fun f => (decodeChars? f.1).map fun key => (String.ofList key, f.2)
  | _ => none

end Json
end FriendLedger
