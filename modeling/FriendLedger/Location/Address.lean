import FriendLedger.Text.Hexadecimal

/-! The form of addresses: a scheme, a colon and the rest. A rest that starts with
two slashes goes on with an authority: information on a user up to an at sign, a
host, and a number after a colon. -/

namespace FriendLedger.Address

set_option autoImplicit false

/-- Spaces and controls at the ends do not count, nor do tabs and line ends. -/
def significant (cs : List Char) : List Char :=
  let outer := fun c : Char => decide (c.toNat ≤ 0x20)
  ((cs.dropWhile outer).reverse.dropWhile outer).reverse.filter fun c =>
    c ≠ '\t' && c ≠ '\n' && c ≠ '\r'

def isSchemeChar (c : Char) : Bool := c.isAlphanum || c = '+' || c = '-' || c = '.'

def splitScheme? (cs : List Char) : Option (List Char × List Char) :=
  match cs.takeWhile isSchemeChar, cs.dropWhile isSchemeChar with
  | c :: scheme, ':' :: r => if c.isAlpha then some (c :: scheme, r) else none
  | _, _ => none

/-- A number from 0 to 255 without a needless zero in front. -/
def isByte (cs : List Char) : Bool :=
  !cs.isEmpty && cs.all Char.isDigit && (cs.length = 1 || cs.head? ≠ some '0') &&
    cs.length ≤ 3 && Nat.ofDigitChars 10 cs 0 < 256

/-- Four such numbers with points between them. -/
def isDottedQuad (cs : List Char) : Bool :=
  let parts := cs.splitOn '.'
  parts.length = 4 && parts.all isByte

/-- Eight groups of up to four hexadecimal digits with colons between them, the last
two perhaps as a dotted quad; two colons stand once for the groups that are left
out. `count` groups have been read. The fuel bounds the groups. -/
def areGroups : Nat → Nat → Bool → List Char → Bool
  | _, count, shortened, [] => shortened || count = 8
  | 0, _, _, _ :: _ => false
  | fuel + 1, count, shortened, c :: cs =>
    if count = 8 then false
    else if c = ':' then !shortened && areGroups fuel (count + 1) true cs
    else
      let digits := ((c :: cs).takeWhile Text.isHexDigit).take 4
      match (c :: cs).drop digits.length with
      | [] => areGroups fuel (count + 1) shortened []
      | '.' :: _ =>
        !digits.isEmpty && count ≤ 6 && isDottedQuad (c :: cs) && (shortened || count = 6)
      | ':' :: r => !r.isEmpty && areGroups fuel (count + 1) shortened r
      | _ => false

/-- The address of a host as it stands in brackets. -/
def isNumericHost : List Char → Bool
  | ':' :: ':' :: cs => areGroups cs.length 1 true cs
  | ':' :: _ => false
  | cs => 2 ≤ cs.length && areGroups cs.length 0 false cs

def isHostChar (c : Char) : Bool := !"\x00\t\n\r #/:<>?@[\\]^|".toList.contains c

def isHost : List Char → Bool
  | '[' :: cs => cs.getLast? = some ']' && isNumericHost cs.dropLast
  | cs => cs.all isHostChar

/-- The host at the head of a text: it ends at a colon outside of brackets. -/
def takeHost (inBrackets : Bool) : List Char → List Char
  | [] => []
  | c :: cs =>
    if c = ':' && !inBrackets then []
    else c :: takeHost (c = '[' || (inBrackets && c ≠ ']')) cs

/-- Digits of a number below 65536; what a backslash follows is no part of it. -/
def isHostNumber (cs : List Char) : Bool :=
  Nat.ofDigitChars 10 (cs.takeWhile Char.isDigit) 0 < 65536 &&
    ((cs.dropWhile Char.isDigit).head?.all (· = '\\'))

/-- An authority; `ended` says that nothing comes after it. -/
def isAuthority (cs : List Char) (ended : Bool) : Bool :=
  let after := (cs.reverse.takeWhile (· ≠ '@')).reverse
  let user := (cs.take (cs.length - after.length)).dropLast
  let host := takeHost false after
  if cs.head? = some '@' && user.isEmpty && after.isEmpty && !ended then false
  else
    match after.drop host.length with
    | [] => isHost host && (!host.isEmpty || user.isEmpty || user = [':'])
    | _ :: number => !host.isEmpty && isHost host && isHostNumber number

/-- Whether a text is an address of the scheme `sqlite`. -/
def isSqlite (cs : List Char) : Bool :=
  match splitScheme? (significant cs) with
  | none => false
  | some (scheme, r) =>
    decide (scheme.map Char.toLower = "sqlite".toList) &&
      match r with
      | '/' :: '/' :: r =>
        let inside := fun c : Char => c ≠ '/' && c ≠ '?' && c ≠ '#'
        isAuthority (r.takeWhile inside) (r.dropWhile inside).isEmpty
      | _ => true

end FriendLedger.Address
