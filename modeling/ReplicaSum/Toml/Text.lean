import ReplicaSum.Toml.Reader
import ReplicaSum.Toml.Table

/-!
# The text of a TOML document

Blanks, line ends, comments, strings and keys. A string is written in one of four ways: between
quotation marks, where a backslash starts an escape, or between apostrophes, where nothing
does; and with one delimiter on either side or with three, when it may run over several lines.
-/

namespace ReplicaSum.Toml

open Reader

/-! ### Characters -/

/-- The quotation mark. -/
def quotation : Char := Char.ofNat 0x22

/-- The apostrophe. -/
def apostrophe : Char := Char.ofNat 0x27

/-- The backslash. -/
def backslash : Char := Char.ofNat 0x5c

/-- A character outside of ASCII. -/
def isWide (c : Char) : Bool := 0x80 ≤ c.toNat

/-- A space or a tab. -/
def isBlank (c : Char) : Bool := c = ' ' || c = '\t'

/-- A character that may stand in a comment: anything but a control character, and a tab. -/
def isPlain (c : Char) : Bool := c = '\t' || (0x20 ≤ c.toNat && c.toNat ≤ 0x7e) || isWide c

/-- A character that stands for itself in a string with escapes. -/
def isUnescaped (c : Char) : Bool := isPlain c && c ≠ quotation && c ≠ backslash

/-- A character that stands for itself in a string without escapes. -/
def isLiteral (c : Char) : Bool := isPlain c && c ≠ apostrophe

/-- A hexadecimal digit. -/
def isHexDigit (c : Char) : Bool :=
  c.isDigit || ('a' ≤ c && c ≤ 'f') || ('A' ≤ c && c ≤ 'F')

/-- A character of a key without quotes. -/
def isBare (c : Char) : Bool := c.isAlphanum || c = '-' || c = '_'

/-- The value of a hexadecimal digit. -/
def hexDigitValue (c : Char) : Nat :=
  if c.isDigit then c.toNat - '0'.toNat
  else if 'a' ≤ c then c.toNat - 'a'.toNat + 10
  else c.toNat - 'A'.toNat + 10

/-- The number that digits of a base spell out. -/
def digitsValue (base : Nat) (digits : List Char) : Nat :=
  digits.foldl (fun n c => n * base + hexDigitValue c) 0

/-! ### Blanks and lines -/

/-- Blanks, if there are any. -/
def blanks : Reader Unit := do
  let _ ← many (satisfy isBlank)

/-- The end of a line. -/
def newline : Reader Unit := skip '\n' <|> skipAll ['\r', '\n']

/-- A comment, up to the end of its line. -/
def comment : Reader Unit := do
  skip '#'
  let _ ← many (satisfy isPlain)

/-- The end of a line, or of the document. -/
def lineEnd : Reader Unit := newline <|> atEnd

/-- What may follow on a line behind a value or a header. -/
def lineTail : Reader Unit := do
  blanks
  let _ ← option? comment
  lineEnd

/-- Blanks, line ends and comments, if there are any. -/
def blankLines : Reader Unit := do
  let _ ← many (many1 (satisfy isBlank) *> pure () <|> newline <|> (comment *> newline))

/-! ### Strings -/

/-- The character with a given code, if there is one. -/
def scalar? (code : Nat) : Reader Char :=
  if code.isValidChar then return Char.ofNat code else refuse

/-- An escape, behind its backslash. -/
def escaped : Reader Char := do
  match ← satisfy fun _ => true with
  | 'b' => return Char.ofNat 0x08
  | 't' => return '\t'
  | 'n' => return '\n'
  | 'f' => return Char.ofNat 0x0c
  | 'r' => return '\r'
  | 'u' => scalar? (digitsValue 16 (← exactly isHexDigit 4))
  | 'U' => scalar? (digitsValue 16 (← exactly isHexDigit 8))
  | c => if c = quotation || c = backslash then return c else refuse

/-- A string on one line, with escapes. -/
def basicString : Reader String := do
  skip quotation
  let chars ← many (satisfy isUnescaped <|> (skip backslash *> escaped))
  skip quotation
  return String.ofList chars

/-- A string on one line, without escapes. -/
def literalString : Reader String := do
  skip apostrophe
  let chars ← many (satisfy isLiteral)
  skip apostrophe
  return String.ofList chars

/-- One or two delimiters inside of a string that three of them end. -/
def innerDelimiters (d : Char) : Reader (List Char) :=
  (skipAll [d, d] *> notNext d *> pure [d, d]) <|> (skip d *> notNext d *> pure [d])

/-- The end of a string that three delimiters end. Up to two more of them belong to the
string. -/
def outerDelimiters (d : Char) : Reader (List Char) :=
  (skipAll [d, d, d, d, d] *> pure [d, d]) <|> (skipAll [d, d, d, d] *> pure [d])
    <|> (skipAll [d, d, d] *> pure [])

/-- A string between three delimiters on either side, made up of pieces. A line end right
behind the opening delimiters doesn't count, and every other one is a line feed. -/
def longString (d : Char) (piece : Reader (List Char)) : Reader String := do
  skipAll [d, d, d]
  let _ ← option? newline
  let pieces ← many (piece <|> (newline *> pure ['\n']) <|> innerDelimiters d)
  let tail ← outerDelimiters d
  return String.ofList (pieces.flatten ++ tail)

/-- A backslash at the end of a line, which takes away the white space up to the next text. -/
def foldedLine : Reader Unit := do
  blanks
  newline
  let _ ← many (many1 (satisfy isBlank) *> pure () <|> newline)

/-- A piece of a long string with escapes. -/
def basicPiece : Reader (List Char) :=
  (return [← satisfy isUnescaped])
    <|> (skip backslash *> ((foldedLine *> pure []) <|> (return [← escaped])))

/-- A string of any kind. -/
def anyString : Reader String :=
  longString quotation basicPiece <|> longString apostrophe (return [← satisfy isLiteral])
    <|> basicString <|> literalString

/-! ### Keys -/

/-- One part of a key: bare characters, or a string on one line. -/
def keyPart : Reader String :=
  basicString <|> literalString <|> (return String.ofList (← many1 (satisfy isBare)))

/-- The number of parts that a key has to stay below, and the depth that values have to. -/
def nestingLimit : Nat := 80

/-- A key: its dotted parts, and the last one of them. -/
def dottedKey : Reader (List Key × Key) := do
  let part : Reader Key := do
    blanks
    let (text, place) ← placed keyPart
    blanks
    return ⟨text, place⟩
  let first ← part
  let rest ← many (skip '.' *> part)
  if nestingLimit ≤ rest.length + 1 then refuse
  return ((first :: rest).dropLast, rest.getLastD first)

end ReplicaSum.Toml
