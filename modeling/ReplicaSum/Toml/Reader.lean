import ReplicaSum.Span

/-!
# Readers

A reader takes something off the front of a text, or refuses. It works on the characters that
are left and counts the bytes that it has passed, so that places in the text can be told. A
reader that refuses leaves nothing behind: alternatives start over from the same character.
-/

namespace ReplicaSum.Toml

/-- A place in a text: the characters from here on and the number of bytes before them. -/
structure Cursor where
  rest : List Char
  offset : Nat

/-- A reader of an `α`. -/
abbrev Reader := StateT Cursor Option

namespace Reader

variable {α β : Type}

/-- Refuse. -/
def refuse : Reader α := fun _ => none

/-- The next character, which stays where it is. -/
def peek : Reader (Option Char) := fun c => some (c.rest.head?, c)

/-- Take a character of a class. -/
def satisfy (p : Char → Bool) : Reader Char := fun c =>
  match c.rest with
  | [] => none
  | ch :: rest => if p ch then some (ch, ⟨rest, c.offset + ch.utf8Size⟩) else none

/-- Take the given character. -/
def skip (ch : Char) : Reader Unit := do
  let _ ← satisfy (· == ch)

/-- Take the given characters. -/
def skipAll : List Char → Reader Unit
  | [] => return
  | ch :: rest => do
    skip ch
    skipAll rest

/-- Make sure that nothing is left. -/
def atEnd : Reader Unit := fun c => if c.rest.isEmpty then some ((), c) else none

/-- Make sure that the next character is not the given one. -/
def notNext (ch : Char) : Reader Unit := fun c =>
  if c.rest.head? = some ch then none else some ((), c)

/-- Read something if it is there. -/
def option? (r : Reader α) : Reader (Option α) := (some <$> r) <|> pure none

/-- Read as many things as there are. A reader that takes nothing is not run again. -/
def many (r : Reader α) : Reader (List α) := fun c =>
  match r c with
  | none => some ([], c)
  | some (a, c') =>
    if _h : c'.rest.length < c.rest.length then (many r c').map fun (as, c) => (a :: as, c)
    else some ([a], c')
termination_by c => c.rest.length

/-- Read one thing or more. -/
def many1 (r : Reader α) : Reader (List α) := do
  return (← r) :: (← many r)

/-- Read things with separators between them. -/
def separated (r : Reader α) (separator : Reader β) : Reader (List α) :=
  (do return (← r) :: (← many (separator *> r))) <|> pure []

/-- Take a given number of characters of a class. -/
def exactly (p : Char → Bool) : Nat → Reader (List Char)
  | 0 => return []
  | n + 1 => do return (← satisfy p) :: (← exactly p n)

/-- Read something and tell its place. -/
def placed (r : Reader α) : Reader (α × Span) := do
  let start ← get
  let a ← r
  let stop ← get
  return (a, ⟨start.offset, stop.offset⟩)

/-- Read something and give the characters that it took. -/
def taken (r : Reader α) : Reader (List Char) := do
  let start ← get
  let _ ← r
  let stop ← get
  return start.rest.take (start.rest.length - stop.rest.length)

/-- Read a whole text. -/
def run? (r : Reader α) (text : String) : Option α :=
  ((r <* atEnd) ⟨text.toList, 0⟩).map Prod.fst

end Reader

end ReplicaSum.Toml
