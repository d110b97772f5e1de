import ReplicaSum.Text.Hidden

/-!
# Quoted text

A text between quotation marks, on one line and legible whatever it holds: the marks and the
backslash are escaped, and so is every character without a glyph of its own.
-/

namespace ReplicaSum.Text

/-- The hexadecimal digits of a character code. -/
def hexCode (c : Char) : List Char := Nat.toDigits 16 c.toNat

/-- The escape of a character: a backslash and what follows it. -/
def escape (c : Char) : Option (List Char) :=
  match c with
  | '\x00' => some ['0']
  | '\t' => some ['t']
  | '\n' => some ['n']
  | '\r' => some ['r']
  | _ =>
    if c.toNat = 0x22 ∨ c.toNat = 0x5c then some [c]
    else if isHidden c then
      some (['u', Char.ofNat 0x7b] ++ hexCode c ++ [Char.ofNat 0x7d])
    else none

/-- A character as it stands in a quoted text. -/
def quotedChar (c : Char) : List Char :=
  match escape c with
  | some code => Char.ofNat 0x5c :: code
  | none => [c]

/-- A text between quotation marks. -/
def quoted (text : String) : String :=
  let mark := Char.ofNat 0x22
  String.ofList ([mark] ++ text.toList.flatMap quotedChar ++ [mark])

end ReplicaSum.Text
