import FriendLedger.Json

/-! Reading documents. The text must be one document in strict notation, with
blanks around its parts only; texts and numbers are checked and kept as written. -/

namespace FriendLedger.Json

set_option autoImplicit false

def isBlank (c : Char) : Bool := c = ' ' || c = '\n' || c = '\t' || c = '\r'

def skipBlanks (cs : List Char) : List Char := cs.dropWhile isBlank

/-- A text up to its closing quote, and what follows. -/
def scanText : List Char → Option (List Char × List Char)
  | '"' :: r => some ([], r)
  | '\\' :: 'u' :: a :: b :: c :: d :: r =>
    if (unit? a b c d).isSome then
      (scanText r).map fun p => ('\\' :: 'u' :: a :: b :: c :: d :: p.1, p.2)
    else none
  | '\\' :: e :: r =>
    if (escapeLetter? e).isSome then (scanText r).map fun p => ('\\' :: e :: p.1, p.2) else none
  | c :: r => if c.toNat < 0x20 then none else (scanText r).map fun p => (c :: p.1, p.2)
  | [] => none

def spanDigits (cs : List Char) : List Char × List Char :=
  (cs.takeWhile Char.isDigit, cs.dropWhile Char.isDigit)

/-- Digits without a needless leading zero. -/
def scanWhole (cs : List Char) : Option (List Char × List Char) :=
  match spanDigits cs with
  | ([], _) => none
  | ('0' :: _ :: _, _) => none
  | p => some p

def scanFraction : List Char → Option (List Char × List Char)
  | '.' :: cs =>
    match spanDigits cs with
    | ([], _) => none
    | (ds, r) => some ('.' :: ds, r)
  | cs => some ([], cs)

/-- The sign of an exponent, if there is one. -/
def splitSign : List Char → List Char × List Char
  | c :: cs => if c = '+' ∨ c = '-' then ([c], cs) else ([], c :: cs)
  | [] => ([], [])

def scanExponent : List Char → Option (List Char × List Char)
  | c :: cs =>
    if c = 'e' ∨ c = 'E' then
      let sign := splitSign cs
      match spanDigits sign.2 with
      | ([], _) => none
      | (ds, r) => some (c :: sign.1 ++ ds, r)
    else some ([], c :: cs)
  | [] => some ([], [])

def scanUnsigned (cs : List Char) : Option (List Char × List Char) := do
  let whole ← scanWhole cs
  let fraction ← scanFraction whole.2
  let exponent ← scanExponent fraction.2
  return (whole.1 ++ fraction.1 ++ exponent.1, exponent.2)

def scanNumber : List Char → Option (List Char × List Char)
  | '-' :: cs => (scanUnsigned cs).map fun p => ('-' :: p.1, p.2)
  | cs => scanUnsigned cs

mutual
/-- A document at the head of a text without leading blanks, and what follows. -/
def scanValue : Nat → List Char → Option (Json × List Char)
  | 0, _ => none
  | fuel + 1, cs =>
    match cs with
    | 'n' :: 'u' :: 'l' :: 'l' :: r => some (.null, r)
    | 't' :: 'r' :: 'u' :: 'e' :: r => some (.bool true, r)
    | 'f' :: 'a' :: 'l' :: 's' :: 'e' :: r => some (.bool false, r)
    | '"' :: r => (scanText r).map fun p => (.text p.1, p.2)
    | '[' :: r =>
      match skipBlanks r with
      | ']' :: r => some (.array [], r)
      | r => (scanItems fuel r).map fun p => (.array p.1, p.2)
    | '\x7b' :: r =>
      match skipBlanks r with
      | '\x7d' :: r => some (.object [], r)
      | r => (scanFields fuel r).map fun p => (.object p.1, p.2)
    | cs => (scanNumber cs).map fun p => (.number p.1, p.2)

/-- One or more items up to the closing bracket. -/
def scanItems : Nat → List Char → Option (List Json × List Char)
  | 0, _ => none
  | fuel + 1, cs => do
    let (x, r) ← scanValue fuel cs
    match skipBlanks r with
    | ']' :: r => some ([x], r)
    | ',' :: r => (scanItems fuel (skipBlanks r)).map fun p => (x :: p.1, p.2)
    | _ => none

/-- One or more fields up to the closing brace. -/
def scanFields : Nat → List Char → Option (List (List Char × Json) × List Char)
  | fuel + 1, '"' :: cs => do
    let (k, r) ← scanText cs
    match skipBlanks r with
    | ':' :: r =>
      let (v, r) ← scanValue fuel (skipBlanks r)
      match skipBlanks r with
      | '\x7d' :: r => some ([(k, v)], r)
      | ',' :: r => (scanFields fuel (skipBlanks r)).map fun p => ((k, v) :: p.1, p.2)
      | _ => none
    | _ => none
  | _, _ => none
end

def ofChars? (cs : List Char) : Option Json :=
  match scanValue (cs.length + 1) (skipBlanks cs) with
  | some (j, r) => if skipBlanks r = [] then some j else none
  | none => none

def read? (s : String) : Option Json := ofChars? s.toList

end FriendLedger.Json
