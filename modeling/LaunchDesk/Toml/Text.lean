import LaunchDesk.Json.Doc

/-!
# Texts and keys of settings files

Basic texts stand in double quotes and have escapes, literal texts stand in single quotes and have
none. Three quotes in a row begin a text of several lines.
-/

namespace LaunchDesk.Toml

/-- A reading: what was read, and the rest. -/
abbrev Reading (α : Type) : Type := Option (α × List Char)

def isSpace (c : Char) : Bool := c == ' ' || c == '\t'

def skipSpaces (cs : List Char) : List Char := cs.dropWhile isSpace

/-- Characters of one line; no control characters. -/
def isPlain (c : Char) : Bool := c == '\t' || (decide (' ' ≤ c) && c != '\x7f')

/-- The character of a short escape. -/
def shortEscape? : Char → Option Char
  | 'b' => some '\x08'
  | 't' => some '\t'
  | 'n' => some '\n'
  | 'f' => some '\x0c'
  | 'r' => some '\r'
  | '\x22' => some '\x22'
  | '\\' => some '\\'
  | _ => none

/-- The character with a number in hexadecimal digits. -/
def numbered? (ds : List Char) : Option Char := do
  let values ← ds.mapM Doc.hexDigit?
  let n := values.foldl (fun n d => n * 16 + d) 0
  if n.isValidChar then some (Char.ofNat n) else none

/-! ## Texts of one line -/

/-- A basic text after its first quote. -/
def basicLine (acc : List Char) : List Char → Reading String
  | '\x22' :: cs => some (String.ofList acc.reverse, cs)
  | '\\' :: 'u' :: a :: b :: c :: d :: cs =>
    (numbered? [a, b, c, d]).bind fun x => basicLine (x :: acc) cs
  | '\\' :: 'U' :: a :: b :: c :: d :: e :: f :: g :: h :: cs =>
    (numbered? [a, b, c, d, e, f, g, h]).bind fun x => basicLine (x :: acc) cs
  | '\\' :: c :: cs => (shortEscape? c).bind fun x => basicLine (x :: acc) cs
  | c :: cs => if isPlain c then basicLine (c :: acc) cs else none
  | [] => none

/-- A literal text after its first quote. -/
def literalLine (acc : List Char) : List Char → Reading String
  | '\'' :: cs => some (String.ofList acc.reverse, cs)
  | c :: cs => if isPlain c then literalLine (c :: acc) cs else none
  | [] => none

/-! ## Texts of several lines -/

/-- What stands behind a newline, if there is one at the start. -/
def newline? : List Char → Option (List Char)
  | '\n' :: cs => some cs
  | '\r' :: '\n' :: cs => some cs
  | _ => none

/-- The quotes at the start of the end of a text: up to two of them belong to the text. -/
def closing? (quote : Char) (acc cs : List Char) : Reading String :=
  let n := (cs.takeWhile (· == quote)).length
  if 3 ≤ n then
    let own := min (n - 3) 2
    some (String.ofList (acc.reverse ++ List.replicate own quote), cs.drop (own + 3))
  else none

/-- Whether a backslash ends the line: only spaces follow. -/
def endsLine (cs : List Char) : Bool := (newline? (skipSpaces cs)).isSome

/-- A basic text of several lines. While `skipping`, white space is left out. -/
def basicLines (skipping : Bool) (acc : List Char) : List Char → Reading String
  | '\\' :: 'u' :: a :: b :: c :: d :: cs =>
    (numbered? [a, b, c, d]).bind fun x => basicLines false (x :: acc) cs
  | '\\' :: 'U' :: a :: b :: c :: d :: e :: f :: g :: h :: cs =>
    (numbered? [a, b, c, d, e, f, g, h]).bind fun x => basicLines false (x :: acc) cs
  | '\\' :: c :: cs =>
    if endsLine (c :: cs) then basicLines true acc cs
    else (shortEscape? c).bind fun x => basicLines false (x :: acc) cs
  | '\x22' :: cs =>
    match closing? '\x22' acc ('\x22' :: cs) with
    | some r => some r
    | none => basicLines false ('\x22' :: acc) cs
  | '\n' :: cs => basicLines skipping (if skipping then acc else '\n' :: acc) cs
  | '\r' :: '\n' :: cs => basicLines skipping (if skipping then acc else '\n' :: acc) cs
  | c :: cs =>
    if skipping && isSpace c then basicLines true acc cs
    else if isPlain c then basicLines false (c :: acc) cs
    else none
  | [] => none

/-- A literal text of several lines. -/
def literalLines (acc : List Char) : List Char → Reading String
  | '\'' :: cs =>
    match closing? '\'' acc ('\'' :: cs) with
    | some r => some r
    | none => literalLines ('\'' :: acc) cs
  | '\n' :: cs => literalLines ('\n' :: acc) cs
  | '\r' :: '\n' :: cs => literalLines ('\n' :: acc) cs
  | c :: cs => if isPlain c then literalLines (c :: acc) cs else none
  | [] => none

/-- A text; a newline right behind three quotes does not belong to it. -/
def text? : List Char → Reading String
  | '\x22' :: '\x22' :: '\x22' :: cs => basicLines false [] ((newline? cs).getD cs)
  | '\x22' :: cs => basicLine [] cs
  | '\'' :: '\'' :: '\'' :: cs => literalLines [] ((newline? cs).getD cs)
  | '\'' :: cs => literalLine [] cs
  | _ => none

/-! ## Keys -/

def isBare (c : Char) : Bool := c.isAlphanum || c == '_' || c == '-'

/-- A part of a key: bare, or a text of one line. -/
def keyPart? : List Char → Reading String
  | '\x22' :: cs => basicLine [] cs
  | '\'' :: cs => literalLine [] cs
  | cs =>
    match cs.takeWhile isBare with
    | [] => none
    | name => some (String.ofList name, cs.dropWhile isBare)

/-- The parts of a key, with dots between them, and white space around those. -/
def key? : Nat → List Char → Reading (List String)
  | 0, _ => none
  | fuel + 1, cs =>
    match keyPart? (skipSpaces cs) with
    | none => none
    | some (part, cs) =>
      match skipSpaces cs with
      | '.' :: cs => (key? fuel cs).map fun (parts, cs) => (part :: parts, cs)
      | cs => some ([part], cs)

end LaunchDesk.Toml
