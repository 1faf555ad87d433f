import PrintPath.Toml.Quoted
import PrintPath.Toml.Scalar
import PrintPath.Toml.Table

/-!
# Reading a configuration text

A configuration text is a list of statements, one a line: a header opens a table, a
header in double brackets adds an element to a list of tables, and an assignment
gives a name in the open table its value.  Values in brackets and in braces may go
over several lines and may nest, but not deeper than `nestingLimit`, which is also
how many parts a name may have.  In braces a line may end wherever a space may
stand, except inside a name.

A reader takes a text and gives what it read and the rest of the text, or fails.
Every reader consumes at least one character of what it accepts, so the length of
the text bounds the number of elements of a list and of statements of a document.
-/

namespace PrintPath
namespace Toml

/-- What is read from the start of a text, and the rest. -/
abbrev Reader (α : Type) := List Char → Option (α × List Char)

/-- How deep values may nest, and how many parts a name may have. -/
def nestingLimit : Nat := 80

/-! ## Blanks and comments -/

/-- A text without the spaces and tabs at its start. -/
def skipSpace (text : List Char) : List Char :=
  text.dropWhile isSpace

/-- A text without the comment that it is in the middle of. -/
def skipComment : List Char → Option (List Char)
  | [] => some []
  | '\n' :: rest => some ('\n' :: rest)
  | '\r' :: '\n' :: rest => some ('\n' :: rest)
  | c :: rest => if isControl c then none else skipComment rest

/-- A text without the blanks, line ends and comments at its start.  The flag says
whether the text starts in the middle of a comment. -/
def skipTrivia : Bool → List Char → Option (List Char)
  | _, [] => some []
  | _, '\n' :: rest => skipTrivia false rest
  | _, '\r' :: '\n' :: rest => skipTrivia false rest
  | true, c :: rest => if isControl c then none else skipTrivia true rest
  | false, c :: rest =>
    if c = ' ' ∨ c = '\t' then skipTrivia false rest
    else if c = '#' then skipTrivia true rest
    else some (c :: rest)

/-- The text behind the end of a statement: spaces, a comment and a line end may
stand here. -/
def endStatement (text : List Char) : Option (List Char) := do
  let rest ← match skipSpace text with
    | '#' :: rest => skipComment rest
    | rest => some rest
  match rest with
  | [] => some []
  | '\n' :: rest => some rest
  | '\r' :: '\n' :: rest => some rest
  | _ => none

/-! ## Names -/

/-- Whether a character can stand in a name without quotes. -/
def isBare (c : Char) : Bool :=
  c.isAlphanum || c == '_' || c == '-'

/-- A simple name. -/
def simpleName : Reader String := fun text =>
  match singleLine? text with
  | some (characters, rest) => some (String.ofList characters, rest)
  | none =>
    let name := text.takeWhile isBare
    if name = [] then none else some (String.ofList name, text.dropWhile isBare)

/-- A name of at most `count` parts divided by points. -/
def nameParts : Nat → Reader (List String)
  | 0, _ => none
  | count + 1, text => do
    let (part, rest) ← simpleName (skipSpace text)
    match skipSpace rest with
    | '.' :: rest => do
      let (parts, rest) ← nameParts count rest
      some (part :: parts, rest)
    | rest => some ([part], rest)

/-- A name: the parts that lead to a table, and the last part. -/
def name : Reader (List String × String) := fun text => do
  let (parts, rest) ← nameParts nestingLimit text
  let last ← parts.getLast?
  some ((parts.dropLast, last), rest)

/-! ## Values -/

/-- The elements of a list up to the closing bracket, at most `count` of them.
Elements are divided by commas, and one may stand behind the last. -/
def elements {α : Type} (close : Char) (element : Reader α) : Nat → Reader (List α)
  | 0, _ => none
  | count + 1, text => do
    let text ← skipTrivia false text
    if text.head? = some close then some ([], text.drop 1)
    else
      let (first, rest) ← element text
      match (← skipTrivia false rest) with
      | ',' :: rest => do
        let (more, rest) ← elements close element count rest
        some (first :: more, rest)
      | c :: rest => if c = close then some ([first], rest) else none
      | [] => none

/-- A name, an equals sign and a value; `skip` says what may stand between them. -/
def assignment (skip : List Char → Option (List Char)) (value : Reader Value) :
    Reader ((List String × String) × Value) := fun text => do
  let (name, rest) ← name text
  match (← skip rest) with
  | '=' :: rest => do
    let (v, rest) ← value (← skip rest)
    some ((name, v), rest)
  | _ => none

/-- A value without brackets or braces. -/
def scalar : Reader Value := fun text =>
  match text with
  | '"' :: _ => (quoted? text).map fun read => (.text (String.ofList read.1), read.2)
  | '\'' :: _ => (quoted? text).map fun read => (.text (String.ofList read.1), read.2)
  | _ =>
    let token := splitToken text
    (ofToken? token.1).map fun value => (value, token.2)

/-- A value in which others nest to at most a given depth. -/
def value : Nat → Reader Value
  | 0, text => scalar text
  | depth + 1, text =>
    match text with
    | '[' :: rest => do
      let (items, rest) ← elements ']' (value depth) (rest.length + 1) rest
      some (.array false items, rest)
    | '\x7b' :: rest => do
      let (assignments, rest) ←
        elements '\x7d' (assignment (skipTrivia false) (value depth)) (rest.length + 1) rest
      let table ← inlineTable assignments
      some (table, rest)
    | text => scalar text

/-! ## Documents -/

/-- A line of a configuration text. -/
inductive Statement where
  /-- Define a table and open it. -/
  | table (path : List String) (name : String)
  /-- Add an element to a list of tables and open it. -/
  | element (path : List String) (name : String)
  /-- Give a name in the open table its value. -/
  | assign (path : List String) (name : String) (value : Value)

/-- A statement without what may stand behind it on its line. -/
def statement : Reader Statement := fun text =>
  match text with
  | '[' :: '[' :: rest => do
    let (name, rest) ← name rest
    match rest with
    | ']' :: ']' :: rest => some (.element name.1 name.2, rest)
    | _ => none
  | '[' :: rest => do
    let (name, rest) ← name rest
    match rest with
    | ']' :: rest => some (.table name.1 name.2, rest)
    | _ => none
  | _ => (assignment (fun text => some (skipSpace text)) (value nestingLimit) text).map
      fun read => (.assign read.1.1.1 read.1.1.2 read.1.2, read.2)

/-- The statements of a text, at most `count` of them. -/
def statements : Nat → List Char → Option (List Statement)
  | 0, _ => none
  | count + 1, text => do
    match (← skipTrivia false text) with
    | [] => some []
    | text => do
      let (first, rest) ← statement text
      let rest ← endStatement rest
      let more ← statements count rest
      some (first :: more)

/-- A document that is being read: its tables, and the names that lead to the open
one. -/
structure Document where
  origin : Origin
  entries : Entries
  opened : List String

namespace Document

/-- The document without statements. -/
def empty : Document := ⟨.header, [], []⟩

/-- Carry out a statement. -/
def apply (d : Document) : Statement → Option Document
  | .table path name => do
    let (origin, entries) ← changeAtHeader (openTable name) path d.origin d.entries
    some ⟨origin, entries, path ++ [name]⟩
  | .element path name => do
    let (origin, entries) ← changeAtHeader (openElement name) path d.origin d.entries
    some ⟨origin, entries, path ++ [name]⟩
  | .assign path name value => do
    let (origin, entries) ←
      changeAtHeader (Toml.assign path name value) d.opened d.origin d.entries
    some ⟨origin, entries, d.opened⟩

end Document

/-- A text without the byte order mark at its start. -/
def skipByteOrderMark : List Char → List Char
  | '\uFEFF' :: rest => rest
  | text => text

/-- The table that a configuration text denotes. -/
def read? (text : List Char) : Option Entries := do
  let text := skipByteOrderMark text
  let statements ← statements (text.length + 1) text
  let document ← statements.foldlM Document.apply .empty
  some document.entries

end Toml
end PrintPath
