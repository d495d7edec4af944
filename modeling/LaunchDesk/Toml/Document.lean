import LaunchDesk.Toml.Text
import LaunchDesk.Toml.Tree

/-!
# Settings files

A settings file is a list of lines: a key with its value, the header of a table, or nothing but a
comment. Its value is the table of all of them.
-/

namespace LaunchDesk.Toml

/-! ## Numbers -/

/-- Digits and underscores, never two underscores in a row. -/
def separated (isDigit : Char → Bool) : List Char → Bool
  | '_' :: '_' :: _ => false
  | c :: cs => (isDigit c || c == '_') && separated isDigit cs
  | [] => true

/-- Digits without the underscores between them. -/
def digits? (isDigit : Char → Bool) (cs : List Char) : Option (List Char) :=
  if cs.head?.any isDigit && cs.getLast?.any isDigit && separated isDigit cs then
    some (cs.filter (· != '_'))
  else none

/-- A whole number without a zero in front. -/
def wholeDigits? (cs : List Char) : Option (List Char) :=
  (digits? Char.isDigit cs).bind fun
    | '0' :: _ :: _ => none
    | ds => some ds

def word? (negative : Bool) (n : Nat) : Option Given :=
  let n : Int := if negative then -n else n
  if Given.isWord n then some (.whole n) else none

/-- The value of the digits of another base. -/
def radix? (base : Nat) (cs : List Char) : Option Given := do
  let isDigit (c : Char) : Bool := (Doc.hexDigit? c).any fun d => decide (d < base)
  let ds ← digits? isDigit cs
  word? false ((ds.filterMap Doc.hexDigit?).foldl (fun n d => n * base + d) 0)

/-- An exponent after its letter. -/
def exponent? (cs : List Char) : Option Int := do
  let (down, cs) : Bool × List Char :=
    match cs with
    | '-' :: cs => (true, cs)
    | '+' :: cs => (false, cs)
    | cs => (false, cs)
  let ds ← digits? Char.isDigit cs
  let k : Int := Nat.ofDigitChars 10 ds 0
  return if down then -k else k

/-- A decimal number without its sign: whole, or with a fraction or an exponent. A positive one that
is too large is refused. -/
def decimal? (negative : Bool) (cs : List Char) : Option Given := do
  let isMark (c : Char) : Bool := c == 'e' || c == 'E'
  let body := cs.takeWhile fun c => !isMark c
  let exponent := cs.dropWhile fun c => !isMark c
  let whole ← wholeDigits? (body.takeWhile (· != '.'))
  let point := body.dropWhile (· != '.')
  if point.isEmpty && exponent.isEmpty then word? negative (Nat.ofDigitChars 10 whole 0)
  else
    let fraction ← if point.isEmpty then some [] else digits? Char.isDigit (point.drop 1)
    let e ← if exponent.isEmpty then some 0 else exponent? (exponent.drop 1)
    match Real.ofDigits negative (whole ++ fraction) (e - fraction.length) with
    | .infinite false => none
    | x => some (.real x)

/-- A number with a sign. -/
def signed? (negative : Bool) : List Char → Option Given
  | ['i', 'n', 'f'] => some (.real (.infinite negative))
  | ['n', 'a', 'n'] => some (.real .notANumber)
  | cs => decimal? negative cs

/-- A truth value or a number. -/
def atom? : List Char → Option Given
  | ['t', 'r', 'u', 'e'] => some (.bool true)
  | ['f', 'a', 'l', 's', 'e'] => some (.bool false)
  | '0' :: 'x' :: cs => radix? 16 cs
  | '0' :: 'o' :: cs => radix? 8 cs
  | '0' :: 'b' :: cs => radix? 2 cs
  | '-' :: cs => signed? true cs
  | '+' :: cs => signed? false cs
  | cs => signed? false cs

/-- Characters of truth values and numbers. -/
def isAtomic (c : Char) : Bool := c.isAlphanum || c == '_' || c == '+' || c == '-' || c == '.'

/-! ## Values -/

/-- What stands behind a comment and its line; none if the comment holds a control character. -/
def skipComment : List Char → Option (List Char)
  | '#' :: cs =>
    match cs.dropWhile isPlain with
    | [] => some []
    | cs => (newline? cs).map fun _ => cs
  | cs => some cs

/-- Skips white space, comments and newlines. -/
def skipLines : Nat → List Char → Option (List Char)
  | 0, _ => none
  | fuel + 1, cs =>
    match skipSpaces cs with
    | '#' :: cs => (skipComment ('#' :: cs)).bind (skipLines fuel)
    | cs =>
      match newline? cs with
      | some cs => skipLines fuel cs
      | none => some cs

mutual

/-- A value; `fuel` bounds the number of parts. -/
def value? : Nat → List Char → Option (Given × List Char)
  | 0, _ => none
  | fuel + 1, cs =>
    match cs with
    | '[' :: cs => (items? fuel [] cs).map fun (items, cs) => (.list items, cs)
    | '\x7b' :: cs =>
      match skipSpaces cs with
      | '\x7d' :: cs => some (.table [], cs)
      | cs => (members? fuel [] cs).map fun (es, cs) => (.table (entriesToGiven es), cs)
    | '\x22' :: _ => (text? cs).map fun (s, cs) => (.text s, cs)
    | '\'' :: _ => (text? cs).map fun (s, cs) => (.text s, cs)
    | cs => (atom? (cs.takeWhile isAtomic)).map fun v => (v, cs.dropWhile isAtomic)

/-- The items of a list, up to its bracket; the last may have a comma behind it. -/
def items? : Nat → List Given → List Char → Option (List Given × List Char)
  | 0, _, _ => none
  | fuel + 1, acc, cs => do
    match ← skipLines fuel cs with
    | ']' :: cs => some (acc.reverse, cs)
    | cs =>
      let (v, cs) ← value? fuel cs
      match ← skipLines fuel cs with
      | ',' :: cs => items? fuel (v :: acc) cs
      | ']' :: cs => some ((v :: acc).reverse, cs)
      | _ => none

/-- The members of a table on one line, up to its brace. -/
def members? : Nat → Entries → List Char → Option (Entries × List Char)
  | 0, _, _ => none
  | fuel + 1, es, cs => do
    let (path, v, cs) ← pair? fuel cs
    let es ← es.setDotted path.dropLast (path.getLast?.getD "") v
    match skipSpaces cs with
    | ',' :: cs => members? fuel es cs
    | '\x7d' :: cs => some (es, cs)
    | _ => none

/-- A key and its value. -/
def pair? : Nat → List Char → Option (List String × Given × List Char)
  | 0, _ => none
  | fuel + 1, cs => do
    let (path, cs) ← key? fuel cs
    match cs with
    | '=' :: cs =>
      let (v, cs) ← value? fuel (skipSpaces cs)
      some (path, v, cs)
    | _ => none

end

/-! ## Lines -/

/-- A document so far: its tables, and the header that keys are under. -/
structure Document where
  entries : Entries := []
  header : List String := []

namespace Document

/-- Changes the table under the last header. -/
def inTable (d : Document) (change : Entries → Option Entries) : Option Document :=
  (Entries.within false (fun _ es => change es) d.header .header d.entries).map fun es =>
    { d with entries := es }

/-- Begins a table, or one more row of tables. -/
def begin (d : Document) (row : Bool) (path : List String) : Option Document :=
  let key := path.getLast?.getD ""
  let change : Entries → Option Entries :=
    if row then Entries.openRow key else Entries.openTable key
  (Entries.within false (fun _ es => change es) path.dropLast .header d.entries).map fun es =>
    { entries := es, header := path }

/-- The header of a table, after its first bracket. -/
def header? (fuel : Nat) (d : Document) : List Char → Option (Document × List Char)
  | '[' :: cs => do
    let (path, cs) ← key? fuel cs
    match cs with
    | ']' :: ']' :: cs => (d.begin true path).map fun d => (d, cs)
    | _ => none
  | cs => do
    let (path, cs) ← key? fuel cs
    match cs with
    | ']' :: cs => (d.begin false path).map fun d => (d, cs)
    | _ => none

/-- What a line says; one with nothing or only a comment says nothing. -/
def statement? (fuel : Nat) (d : Document) (cs : List Char) :
    Option (Document × List Char) :=
  match cs with
  | [] => some (d, [])
  | '#' :: _ => some (d, cs)
  | '[' :: cs => header? fuel d cs
  | _ =>
    if (newline? cs).isSome then some (d, cs)
    else
      match pair? fuel cs with
      | none => none
      | some (path, v, cs) =>
        (d.inTable fun es => es.setDotted path.dropLast (path.getLast?.getD "") v).map
          fun d => (d, cs)

/-- Reads line by line; every line but the last ends with a newline. -/
def lines? : Nat → Document → List Char → Option Document
  | 0, _, _ => none
  | fuel + 1, d, cs => do
    let (d, cs) ← statement? fuel d (skipSpaces cs)
    match ← skipComment (skipSpaces cs) with
    | [] => some d
    | cs => lines? fuel d (← newline? cs)

end Document

/-- The table that a document writes. -/
def read? (s : String) : Option Given :=
  let cs := s.toList
  let cs := if cs.head? = some '\ufeff' then cs.drop 1 else cs
  (Document.lines? (2 * cs.length + 4) {} cs).map fun d => .table (entriesToGiven d.entries)

end LaunchDesk.Toml
