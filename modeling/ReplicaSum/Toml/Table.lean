import ReplicaSum.Span

/-!
# TOML tables

A TOML document is a table: a list of entries with distinct keys, in the order in which they
came to be. Every key remembers where it stands in the text, and so does every value that is
written in one piece.

A table can be written in several ways, and the way decides what may still be added to it:

* a *header* opens a table once;
* a longer header, such as `[a.b]`, *implies* the table `a`, which may be opened later;
* a *dotted* key, such as `a.b = 1`, makes the table `a`, to which further dotted keys may add;
* an *inline* table is complete as it stands.

`Table.assign` and `Table.openSection` are the rules for adding; they answer `none` when an
addition would define something twice.
-/

namespace ReplicaSum.Toml

/-- A key and its place in the text. -/
structure Key where
  text : String
  place : Span
deriving DecidableEq, Repr

/-- The way in which a table was written. -/
inductive Origin where
  | header
  | implied
  | dotted
  | inline
deriving DecidableEq, Repr

/-- A key with its value, and the place of the value if it is written in one piece. -/
structure Entry (α : Type) where
  key : Key
  value : α
  place : Option Span

/-- A value of a TOML document. -/
inductive Value where
  | string (text : String)
  | integer (number : Int)
  | float (number : Float)
  | boolean (flag : Bool)
  | datetime (text : String)
  | array (items : List Value)
  /-- An array of tables, each element of which was opened by a header of its own. -/
  | tables (elements : List (List (Entry Value)))
  | table (origin : Origin) (entries : List (Entry Value))

/-- The entries of a table, in order. -/
abbrev Table := List (Entry Value)

/-- A value to be added under a key, which may have dotted parts in front of it. -/
structure Assignment where
  path : List Key
  key : Key
  value : Value
  place : Span

/-- Whether a header opens a table or one more element of an array of tables. -/
inductive HeaderKind where
  | table
  | element
deriving DecidableEq, Repr

/-- A header, with brackets, and the assignments below it. -/
structure Section where
  kind : HeaderKind
  path : List Key
  key : Key
  place : Span
  body : List Assignment

namespace Table

/-- Replace the entry of a key, or add one. The function is given the present entry. -/
def alter (key : Key) (f : Option (Entry Value) → Option (Entry Value)) : Table → Option Table
  | [] => (f none).map ([·])
  | e :: rest =>
    if e.key.text = key.text then (f (some e)).map (· :: rest)
    else (alter key f rest).map (e :: ·)

/-- The entry of a key, and the table without it. -/
def extract (key : Key) : Table → Option (Entry Value) × Table
  | [] => (none, [])
  | e :: rest =>
    if e.key.text = key.text then (some e, rest)
    else
      match extract key rest with
      | (found, rest) => (found, e :: rest)

/-- Change the last element of an array of tables. -/
def alterLast (f : Table → Option Table) : List Table → Option (List Table)
  | [] => none
  | [t] => (f t).map ([·])
  | t :: rest => (alterLast f rest).map (t :: ·)

/-- Add an assignment. Dotted keys pass through tables that dotted keys or longer headers made,
and through the last element of an array of tables; the table that they end in has to be made
by a dotted key. -/
def assign (key : Key) (value : Value) (place : Span) : List Key → Table → Option Table
  | [], t => t.alter key fun
    | none => some ⟨key, value, some place⟩
    | some _ => none
  | k :: path, t => t.alter k fun
    | none => (assign key value place path []).map fun t => ⟨k, .table .dotted t, none⟩
    | some e =>
      match e.value with
      | .table .dotted t =>
        (assign key value place path t).map fun t => { e with value := .table .dotted t }
      | .table .implied t =>
        if path.isEmpty then none
        else (assign key value place path t).map fun t => { e with value := .table .implied t }
      | .tables ts =>
        if path.isEmpty then none
        else (alterLast (assign key value place path) ts).map fun ts =>
          { e with value := .tables ts }
      | _ => none

/-- Add several assignments, one after the other. -/
def assignAll (body : List Assignment) (t : Table) : Option Table :=
  body.foldlM (fun t a => t.assign a.key a.value a.place a.path) t

/-- Change the table that the dotted parts of a header lead to. They pass through tables of any
kind but inline ones, and through the last element of an array of tables. -/
def within (f : Table → Option Table) : List Key → Table → Option Table
  | [], t => f t
  | k :: path, t => t.alter k fun
    | none => (within f path []).map fun t => ⟨k, .table .implied t, none⟩
    | some e =>
      match e.value with
      | .table .inline _ => none
      | .table origin t => (within f path t).map fun t => { e with value := .table origin t }
      | .tables ts => (alterLast (within f path) ts).map fun ts => { e with value := .tables ts }
      | _ => none

/-- The place of a section: from its header to the end of the last value below it. -/
def sectionPlace (s : Section) : Span :=
  s.body.foldl (fun place a => ⟨place.start, a.place.stop⟩) s.place

/-- Open the table of a section inside of its parent. A table that was only implied so far is
opened with what it holds, and takes its place behind the other entries. -/
def openTable (s : Section) (parent : Table) : Option Table :=
  match parent.extract s.key with
  | (none, parent) => close parent []
  | (some ⟨_, .table .implied t, _⟩, parent) => close parent t
  | (some _, _) => none
where
  /-- Fill the table of the section and put it behind the entries of its parent. -/
  close (parent t : Table) : Option Table :=
    (assignAll s.body t).map fun t =>
      parent ++ [⟨s.key, .table .header t, some (sectionPlace s)⟩]

/-- Append the table of a section to an array of tables inside of its parent. The place of the
array runs from its first element to its last one. -/
def openElement (s : Section) (parent : Table) : Option Table := do
  let t ← assignAll s.body []
  let place := sectionPlace s
  parent.alter s.key fun
    | none => some ⟨s.key, .tables [t], some place⟩
    | some e =>
      match e.value with
      | .tables ts =>
        some { e with
          value := .tables (ts ++ [t])
          place := e.place.map fun old => ⟨old.start, place.stop⟩ }
      | _ => none

/-- Add a section to the table of a document. -/
def openSection (t : Table) (s : Section) : Option Table :=
  match s.kind with
  | .table => t.within (openTable s) s.path
  | .element => t.within (openElement s) s.path

/-- The table of a document: assignments in front of the first header, and sections. -/
def ofSections (preamble : List Assignment) (sections : List Section) : Option Table := do
  let t ← assignAll preamble []
  sections.foldlM openSection t

end Table

end ReplicaSum.Toml
