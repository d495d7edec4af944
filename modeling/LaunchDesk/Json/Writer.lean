import LaunchDesk.Json.Value

/-!
# Writing documents

The compact text of a value: no blanks, members in order, and in strings only the quote, the
backslash and controls escaped.
-/

namespace LaunchDesk.Json

/-- A hexadecimal digit in lower case. -/
def hexDigit (n : Nat) : Char := Nat.digitChar n

/-- What stands for `c` in a string. -/
def escapeChar (c : Char) : List Char :=
  match c with
  | '\x22' => ['\x5c', '\x22']
  | '\x5c' => ['\x5c', '\x5c']
  | '\x08' => ['\x5c', 'b']
  | '\x0c' => ['\x5c', 'f']
  | '\x0a' => ['\x5c', 'n']
  | '\x0d' => ['\x5c', 'r']
  | '\x09' => ['\x5c', 't']
  | c =>
    if c.toNat < 0x20 then
      ['\x5c', 'u', '0', '0', hexDigit (c.toNat / 16), hexDigit (c.toNat % 16)]
    else [c]

def escape (s : String) : List Char := s.toList.flatMap escapeChar

def stringChars (s : String) : List Char := '\x22' :: escape s ++ ['\x22']

def numberChars : Number → List Char
  | .whole i _ _ => if i < 0 then '-' :: Nat.toDigits 10 i.natAbs else Nat.toDigits 10 i.natAbs
  | .real x => x.documentText.toList

mutual

def chars : Json → List Char
  | .null => ['n', 'u', 'l', 'l']
  | .bool true => ['t', 'r', 'u', 'e']
  | .bool false => ['f', 'a', 'l', 's', 'e']
  | .number n => numberChars n
  | .string s => stringChars s
  | .array items => '[' :: itemsChars items
  | .object members => '\x7b' :: membersChars members

/-- The items and the closing bracket. -/
def itemsChars : List Json → List Char
  | [] => [']']
  | [j] => chars j ++ [']']
  | j :: js => chars j ++ ',' :: itemsChars js

/-- The members and the closing brace. -/
def membersChars : List (String × Json) → List Char
  | [] => ['\x7d']
  | [(k, j)] => stringChars k ++ ':' :: chars j ++ ['\x7d']
  | (k, j) :: ms => stringChars k ++ ':' :: chars j ++ ',' :: membersChars ms

end

/-- The compact text of a value. -/
def text (j : Json) : String := String.ofList j.chars

end LaunchDesk.Json
