import ReplicaSum.Toml.Date
import ReplicaSum.Toml.Number

/-!
# TOML documents

A document is a sequence of lines: assignments, headers, comments and blank lines. Its text is
read as a list of statements first, and `Table.ofSections` makes the table out of them. The main
function is `Table.parse?`.
-/

namespace ReplicaSum.Toml

open Reader

/-! ### Values -/

/-- A value that isn't made up of others. A number that reads as a date or as a float isn't an
integer. -/
def scalar : Reader Value :=
  (do return .string (← anyString))
    <|> (skipAll ['t', 'r', 'u', 'e'] *> pure (.boolean true))
    <|> (skipAll ['f', 'a', 'l', 's', 'e'] *> pure (.boolean false))
    <|> datetime <|> float <|> integer

/-- An array of values. It may run over several lines, and a comma may stand behind its last
element. -/
def array (value : Reader Value) : Reader Value := do
  skip '['
  let items ← separated (blankLines *> value <* blankLines) (skip ',')
  if !items.isEmpty then
    let _ ← option? (skip ',')
  blankLines
  skip ']'
  return .array items

/-- A key, an equals sign and a value. -/
def assignment (value : Reader Value) : Reader Assignment := do
  let (path, key) ← dottedKey
  skip '='
  blanks
  let (value, place) ← placed value
  return ⟨path, key, value, place⟩

/-- An inline table, on one line. -/
def inlineTable (value : Reader Value) : Reader Value := do
  skip '\x7b'
  let body ← separated (assignment value <* blanks) (skip ',')
  blanks
  skip '\x7d'
  match Table.assignAll body [] with
  | some t => return .table .inline t
  | none => refuse

/-- A value in which arrays and inline tables lie inside of each other up to a depth. -/
def value : Nat → Reader Value
  | 0 => scalar
  | depth + 1 => array (value depth) <|> inlineTable (value depth) <|> scalar

/-! ### Statements -/

/-- A line of a document that isn't blank. -/
inductive Statement where
  | assign (assignment : Assignment)
  | header (kind : HeaderKind) (path : List Key) (key : Key) (place : Span)

/-- A line with a header: a key between brackets, or between double ones. -/
def header : Reader Statement := do
  let key (kind : HeaderKind) (opening closing : List Char) :
      Reader (HeaderKind × List Key × Key) := do
    skipAll opening
    let (path, key) ← dottedKey
    skipAll closing
    return (kind, path, key)
  let ((kind, path, key), place) ←
    placed (key .element ['[', '['] [']', ']'] <|> key .table ['['] [']'])
  lineTail
  return .header kind path key place

/-- A line with an assignment. -/
def assignmentLine : Reader Statement := do
  let a ← assignment (value (nestingLimit - 1))
  lineTail
  return .assign a

/-- A line of any kind. -/
def line : Reader (Option Statement) :=
  (some <$> header) <|> (some <$> assignmentLine) <|> (comment *> lineEnd *> pure none)
    <|> (newline *> pure none)

/-- The statements of a document, which may start with a byte order mark. -/
def statements : Reader (List Statement) := do
  let _ ← option? (skip (Char.ofNat 0xfeff))
  blanks
  let lines ← many (line <* blanks)
  return lines.filterMap id

/-- Gather the assignments in front of the first header, and those below each header. -/
def sections (statements : List Statement) : List Assignment × List Section :=
  statements.foldr gather ([], [])
where
  /-- Put a statement in front of what was gathered from those behind it. -/
  gather : Statement → List Assignment × List Section → List Assignment × List Section
    | .assign a, (body, sections) => (a :: body, sections)
    | .header kind path key place, (body, sections) =>
      ([], ⟨kind, path, key, place, body⟩ :: sections)

/-- Read a document. The answer is `none` if its text is malformed or defines a key twice. -/
def Table.parse? (text : String) : Option Table := do
  let (preamble, sections) := sections (← statements.run? text)
  Table.ofSections preamble sections

end ReplicaSum.Toml
