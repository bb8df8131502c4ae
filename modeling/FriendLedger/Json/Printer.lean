import FriendLedger.Json

/-! The two written forms of a document: on one line without blanks, and
indented by two blanks a level with one item or field a line. -/

namespace FriendLedger.Json

set_option autoImplicit false

def quote (written : List Char) : List Char := '"' :: written ++ ['"']

mutual
def compact : Json → List Char
  | .null => ['n', 'u', 'l', 'l']
  | .bool true => ['t', 'r', 'u', 'e']
  | .bool false => ['f', 'a', 'l', 's', 'e']
  | .number written => written
  | .text written => quote written
  | .array [] => ['[', ']']
  | .array (x :: xs) => '[' :: compact x ++ compactItems xs
  | .object [] => ['\x7b', '\x7d']
  | .object ((k, v) :: fs) => '\x7b' :: quote k ++ ':' :: compact v ++ compactFields fs

/-- The items after the first, with the closing bracket. -/
def compactItems : List Json → List Char
  | [] => [']']
  | x :: xs => ',' :: compact x ++ compactItems xs

/-- The fields after the first, with the closing brace. -/
def compactFields : List (List Char × Json) → List Char
  | [] => ['\x7d']
  | (k, v) :: fs => ',' :: quote k ++ ':' :: compact v ++ compactFields fs
end

def newline (level : Nat) : List Char := '\n' :: List.replicate (2 * level) ' '

mutual
/-- The indented form of a document that stands at a level. -/
def indented (level : Nat) : Json → List Char
  | .array (x :: xs) =>
    '[' :: newline (level + 1) ++ indented (level + 1) x ++ indentedItems level xs
  | .object ((k, v) :: fs) =>
    '\x7b' :: newline (level + 1) ++ quote k ++ ':' :: ' ' :: indented (level + 1) v ++
      indentedFields level fs
  | .null => ['n', 'u', 'l', 'l']
  | .bool true => ['t', 'r', 'u', 'e']
  | .bool false => ['f', 'a', 'l', 's', 'e']
  | .number written => written
  | .text written => quote written
  | .array [] => ['[', ']']
  | .object [] => ['\x7b', '\x7d']

def indentedItems (level : Nat) : List Json → List Char
  | [] => newline level ++ [']']
  | x :: xs => ',' :: newline (level + 1) ++ indented (level + 1) x ++ indentedItems level xs

def indentedFields (level : Nat) : List (List Char × Json) → List Char
  | [] => newline level ++ ['\x7d']
  | (k, v) :: fs =>
    ',' :: newline (level + 1) ++ quote k ++ ':' :: ' ' :: indented (level + 1) v ++
      indentedFields level fs
end

def line (j : Json) : String := String.ofList j.compact

def page (j : Json) : String := String.ofList (j.indented 0)

end FriendLedger.Json
