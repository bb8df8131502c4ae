import FriendLedger.Settings.Tree
import FriendLedger.Text.Hexadecimal

/-! The words of settings files: blanks and comments, ends of lines, texts in quotes
and keys. A scanner answers what it has found and the characters that follow. -/

namespace FriendLedger.Settings.Document

set_option autoImplicit false

def skipSpaces (cs : List Char) : List Char := cs.dropWhile Step.isSpace

/-- Controls other than the tab, which stand nowhere in a line. -/
def isControl (c : Char) : Bool := (c.toNat < 0x20 && c ≠ '\t') || c.toNat = 0x7F

/-- What follows the end of a line, which a carriage return may precede. The end of
the file ends its last line. -/
def afterBreak? : List Char → Option (List Char)
  | [] => some []
  | '\n' :: r => some r
  | '\r' :: '\n' :: r => some r
  | _ => none

/-- What follows this line, if nothing but a comment is left of it. -/
def afterLine? (cs : List Char) : Option (List Char) :=
  match skipSpaces cs with
  | '#' :: comment => afterBreak? (comment.dropWhile fun c => !isControl c)
  | r => afterBreak? r

def skipBreaks : List Char → List Char
  | '\r' :: '\n' :: r => skipBreaks r
  | c :: r => if Step.isSpace c || c = '\n' then skipBreaks r else c :: r
  | [] => []

def escapeLetter? (c : Char) : Option Char :=
  if c = '"' ∨ c = '\\' then some c
  else if c = 'b' then some '\x08'
  else if c = 't' then some '\t'
  else if c = 'n' then some '\n'
  else if c = 'f' then some '\x0c'
  else if c = 'r' then some '\r'
  else if c = 'e' then some '\x1b'
  else none

/-- The letters that a character's number follows, and the number's length. -/
def escapeLength? (c : Char) : Option Nat :=
  if c = 'x' then some 2 else if c = 'u' then some 4 else if c = 'U' then some 8 else none

def charOfHex? (cs : List Char) : Option Char := do
  let n ← Text.hexNumber? cs
  if n.isValidChar then some (Char.ofNat n) else none

/-- The character that is written after a backslash. -/
def scanEscape : List Char → Option (Char × List Char)
  | [] => none
  | c :: r =>
    match escapeLength? c with
    | some n =>
      if r.length < n then none else (charOfHex? (r.take n)).map fun x => (x, r.drop n)
    | none => (escapeLetter? c).map fun x => (x, r)

/-- A text up to the closing apostrophe, without escapes. -/
def scanLiteral : List Char → Option (List Char × List Char)
  | [] => none
  | c :: r =>
    if c = '\x27' then some ([], r)
    else if isControl c then none
    else (scanLiteral r).map fun p => (c :: p.1, p.2)

/-- A text up to the closing quote. The fuel bounds its length. -/
def scanQuoted : Nat → List Char → Option (List Char × List Char)
  | 0, _ => none
  | fuel + 1, cs =>
    match cs with
    | [] => none
    | '"' :: r => some ([], r)
    | '\\' :: r => do
      let (x, r) ← scanEscape r
      (scanQuoted fuel r).map fun p => (x :: p.1, p.2)
    | c :: r =>
      if isControl c then none else (scanQuoted fuel r).map fun p => (c :: p.1, p.2)

/-- What follows three quotes that may close a text of several lines: up to two more
are part of the text. -/
def scanClosing (quote : Char) (cs : List Char) : List Char × List Char :=
  let own := (cs.takeWhile (· = quote)).take 2
  (own, cs.drop own.length)

/-- A text of several lines up to three closing quotes. If it has escapes, a backslash
at the end of a line joins the lines and leaves out the blanks between them. The
fuel bounds the length. -/
def scanLines (quote : Char) (escapes : Bool) : Nat → List Char → Option (List Char × List Char)
  | 0, _ => none
  | fuel + 1, cs =>
    if [quote, quote, quote].isPrefixOf cs then some (scanClosing quote (cs.drop 3))
    else
      match cs with
      | [] => none
      | '\r' :: '\n' :: r =>
        (scanLines quote escapes fuel r).map fun p => ('\r' :: '\n' :: p.1, p.2)
      | c :: r =>
        if c = '\\' && escapes then
          if (afterBreak? (skipSpaces r)).isSome then scanLines quote escapes fuel (skipBreaks r)
          else do
            let (x, r) ← scanEscape r
            (scanLines quote escapes fuel r).map fun p => (x :: p.1, p.2)
        else if isControl c && c ≠ '\n' then none
        else (scanLines quote escapes fuel r).map fun p => (c :: p.1, p.2)

def scanString : List Char → Option (List Char × List Char)
  | '"' :: r => scanQuoted (r.length + 1) r
  | c :: r => if c = '\x27' then scanLiteral r else none
  | [] => none

/-- A text in one line, or in several between three quotes each. The end of the line
that such a text opens in is no part of it. -/
def scanText (cs : List Char) : Option (List Char × List Char) :=
  let inLines (quote : Char) (escapes : Bool) :=
    let r := cs.drop 3
    scanLines quote escapes (r.length + 1) ((afterBreak? r).getD r)
  if ['"', '"', '"'].isPrefixOf cs then inLines '"' true
  else if ['\x27', '\x27', '\x27'].isPrefixOf cs then inLines '\x27' false
  else scanString cs

/-- One part of a key: bare or in quotes. -/
def scanKeyPart (cs : List Char) : Option (String × List Char) :=
  match scanString cs with
  | some (key, r) => some (String.ofList key, r)
  | none =>
    match cs.takeWhile Step.isNameChar with
    | [] => none
    | key => some (String.ofList key, cs.dropWhile Step.isNameChar)

/-- A key with its parts separated by points. The fuel bounds the parts. -/
def scanKey : Nat → List Char → Option (List String × List Char)
  | 0, _ => none
  | fuel + 1, cs => do
    let (key, r) ← scanKeyPart (skipSpaces cs)
    match skipSpaces r with
    | '.' :: r => (scanKey fuel r).map fun p => (key :: p.1, p.2)
    | r => some ([key], r)

end FriendLedger.Settings.Document
