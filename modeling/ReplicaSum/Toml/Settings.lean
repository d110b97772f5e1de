import ReplicaSum.Config
import ReplicaSum.Decimal.Shortest
import ReplicaSum.Text.Quoted
import ReplicaSum.Toml.Document
import ReplicaSum.Toml.Excerpt

/-!
# Settings in TOML documents

A configuration may be read from a TOML document with up to four keys, each of which may be left
out:

    block_len = 32
    n_pipeline = 4
    transfer = "threaded"
    wait_timeout_ms = 500

The keys may come in any order. A document that has another key, or a value that doesn't fit its
key, is rejected because of the first such entry.

Reading documents is the business of a TOML library, whose place this reader takes when the program
runs. Nothing else depends on it: `Config.ofText` works with any reader.
-/

namespace ReplicaSum

/-- The mode with a given name in a document. -/
def TransferMode.ofName? : String → Option TransferMode
  | "immediate" => some .immediate
  | "threaded" => some .threaded
  | _ => none

/-! ### Problems -/

/-- The kinds of numbers that a key takes. -/
inductive NumberKind where
  /-- A number of things in memory. -/
  | count
  /-- A number of milliseconds. -/
  | duration
deriving DecidableEq, Repr

/-- The name of a kind of numbers in messages. -/
def NumberKind.text : NumberKind → String
  | .count => "usize"
  | .duration => "u64"

/-- What is wrong with an entry of a configuration. -/
inductive ConfigFault where
  /-- No setting has this name. -/
  | unknownField (name : String)
  /-- The value isn't an integer. -/
  | wrongType (found : Toml.Value) (expected : NumberKind)
  /-- The value is a negative integer. -/
  | negative (found : Int) (expected : NumberKind)
  /-- No transfer mode has this name. -/
  | unknownMode (name : String)
  /-- A table that should name a mode by its only key is empty. -/
  | noMode
  /-- A table that should name a mode by its only key has several. -/
  | severalModes
  /-- There is something in the table or in the array of a mode. -/
  | modeNotEmpty
  /-- There are headers that open tables for a mode, one after the other. -/
  | modeTables
  /-- A mode has neither a table nor an array. -/
  | modeValue (found : Toml.Value)
  /-- The value can't name a transfer mode. -/
  | wrongKind

/-- A fault, and the part of the document that it lies in. -/
structure ConfigProblem where
  fault : ConfigFault
  place : Span

/-- The reasons for which a text isn't a configuration. -/
inductive ConfigError where
  /-- The text isn't a TOML document. -/
  | malformed
  /-- The document has an entry that doesn't fit. -/
  | unfit (document : String) (problem : ConfigProblem)

/-- The phrase for an unexpected value, where a number was expected. -/
def Toml.Value.phrase : Toml.Value → String
  | .string text => s!"string {Text.quoted text}"
  | .integer number => s!"integer `{number}`"
  | .float number => s!"floating point `{floatText number}`"
  | .boolean flag => s!"boolean `{flag}`"
  | .array _ => "sequence"
  | .tables _ => "sequence"
  | .datetime _ => "map"
  | .table _ _ => "map"

/-- The name of the kind of a value. -/
def Toml.Value.kindName : Toml.Value → String
  | .string _ => "string"
  | .integer _ => "integer"
  | .float _ => "float"
  | .boolean _ => "boolean"
  | .array _ => "array"
  | .tables _ => "array of tables"
  | .datetime _ => "datetime"
  | .table _ _ => "table"

/-- The sentence that describes a fault. -/
def ConfigFault.message : ConfigFault → String
  | .unknownField name =>
    s!"unknown field `{name}`, expected one of "
      ++ "`block_len`, `n_pipeline`, `transfer`, `wait_timeout_ms`"
  | .wrongType found expected => s!"invalid type: {found.phrase}, expected {expected.text}"
  | .negative found expected =>
    s!"invalid value: integer `{found}`, expected {expected.text}"
  | .unknownMode name => s!"unknown variant `{name}`, expected `immediate` or `threaded`"
  | .noMode => "wanted exactly 1 element, found 0 elements"
  | .severalModes => "wanted exactly 1 element, more than 1 element"
  | .modeNotEmpty => "expected empty table"
  | .modeTables => "expected empty array"
  | .modeValue found => s!"expected table, found {found.kindName}"
  | .wrongKind => "wanted string or table"

/-- The report of a configuration error. -/
def ConfigError.message : ConfigError → String
  | .malformed => "the text isn't a TOML document"
  | .unfit document problem => Toml.excerpt document problem.place problem.fault.message

/-! ### Decoding -/

namespace Config

/-- The part of the document that stands for an entry: its value or, if that isn't written in
one piece, its key. -/
def placeOf (e : Toml.Entry Toml.Value) : Span := e.place.getD e.key.place

/-- The number that an entry sets. -/
def number (kind : NumberKind) (e : Toml.Entry Toml.Value) : Except ConfigProblem Nat :=
  match e.value with
  | .integer n =>
    if n < 0 then .error ⟨.negative n kind, placeOf e⟩ else .ok n.toNat
  | found => .error ⟨.wrongType found kind, placeOf e⟩

/-- What is wrong with the value behind the name of a mode. Only an empty table and an empty array
are fine. -/
def modeFault : Toml.Value → Option ConfigFault
  | .table _ entries => if entries.isEmpty then none else some .modeNotEmpty
  | .array items => if items.isEmpty then none else some .modeNotEmpty
  | .tables elements => if elements.isEmpty then none else some .modeTables
  | found => some (.modeValue found)

/-- The mode that an entry sets: a string names it, or a table by its only key. -/
def mode (e : Toml.Entry Toml.Value) : Except ConfigProblem TransferMode :=
  match e.value with
  | .string name =>
    match TransferMode.ofName? name with
    | some mode => .ok mode
    | none => .error ⟨.unknownMode name, placeOf e⟩
  | .table _ [] => .error ⟨.noMode, placeOf e⟩
  | .table _ [only] =>
    match TransferMode.ofName? only.key.text, modeFault only.value with
    | none, _ => .error ⟨.unknownMode only.key.text, only.key.place⟩
    | some _, some fault => .error ⟨fault, only.place.getD (placeOf e)⟩
    | some mode, none => .ok mode
  | .table _ _ => .error ⟨.severalModes, placeOf e⟩
  | _ => .error ⟨.wrongKind, placeOf e⟩

/-- Take an entry of a document into a configuration. -/
def set (c : Config) (e : Toml.Entry Toml.Value) : Except ConfigProblem Config :=
  match e.key.text with
  | "block_len" => (number .count e).map fun n => { c with blockLen := n }
  | "n_pipeline" => (number .count e).map fun n => { c with nPipeline := some n }
  | "transfer" => (mode e).map fun m => { c with transfer := m }
  | "wait_timeout_ms" => (number .duration e).map fun n => { c with waitTimeoutMs := some n }
  | name => .error ⟨.unknownField name, e.key.place⟩

/-- The configuration that a table describes. -/
def ofTable (t : Toml.Table) : Except ConfigProblem Config := t.foldlM set {}

/-- The configuration that a text describes. -/
def parse (text : String) : Except ConfigError Config :=
  match Toml.Table.parse? text with
  | none => .error .malformed
  | some t =>
    match ofTable t with
    | .ok c => .ok c
    | .error problem => .error (.unfit text problem)

end Config

end ReplicaSum
