import FriendLedger.Text.Hexadecimal

/-! Percent codes: a percent sign and two hexadecimal digits stand for a byte.
A percent sign without them stands for itself. -/

namespace FriendLedger.Text

set_option autoImplicit false

def bytesOf (s : String) : List UInt8 := s.toUTF8.data.toList

/-- The text that bytes encode, if they encode one. -/
def ofBytes? (bs : List UInt8) : Option String := String.fromUTF8? ⟨bs.toArray⟩

def hexByte? (hi lo : UInt8) : Option UInt8 := do
  let h ← hexValue? (Char.ofNat hi.toNat)
  let l ← hexValue? (Char.ofNat lo.toNat)
  return UInt8.ofNat (h * 16 + l)

def percentSign : UInt8 := 37

def decodePercent : List UInt8 → List UInt8
  | c :: hi :: lo :: r =>
    match (if c = percentSign then hexByte? hi lo else none) with
    | some b => b :: decodePercent r
    | none => c :: decodePercent (hi :: lo :: r)
  | bs => bs
termination_by bs => bs.length

/-- The text behind percent codes, unless its bytes encode none. -/
def decodePercentText? (s : String) : Option String := ofBytes? (decodePercent (bytesOf s))

end FriendLedger.Text
