import ReplicaSum.Span

/-!
# Excerpts

A problem with a part of a document is reported with the line that the part starts on, and with
marks under the part: one for each of its bytes, up to the end of the line, and at least one.
Lines and columns are counted from one, columns in characters.
-/

namespace ReplicaSum.Toml

/-- The characters within the first so many bytes of a text, and the others. -/
def splitBytes : Nat → List Char → List Char × List Char
  | _, [] => ([], [])
  | bytes, c :: rest =>
    if bytes = 0 then ([], c :: rest)
    else
      match splitBytes (bytes - c.utf8Size) rest with
      | (before, rest) => (c :: before, rest)

/-- The number of bytes of a text. -/
def byteCount (text : List Char) : Nat := text.foldl (fun n c => n + c.utf8Size) 0

/-- A report of a problem with the part of a document at `place`. -/
def excerpt (document : String) (place : Span) (problem : String) : String :=
  let (before, rest) := splitBytes place.start document.toList
  let lead := (before.reverse.takeWhile (· ≠ '\n')).reverse
  let line := lead ++ rest.takeWhile (· ≠ '\n')
  let number := toString (before.count '\n' + 1)
  let column := lead.length
  let marks := max 1 (min place.length (byteCount line - column))
  let gutter := String.ofList (List.replicate (number.length + 1) ' ')
  let indent := String.ofList (List.replicate (column + 1) ' ')
  s!"TOML parse error at line {number}, column {column + 1}\n"
    ++ s!"{gutter}|\n"
    ++ s!"{number} | {String.ofList line}\n"
    ++ s!"{gutter}|{indent}{String.ofList (List.replicate marks (Char.ofNat 0x5e))}\n"
    ++ s!"{problem}\n"

end ReplicaSum.Toml
