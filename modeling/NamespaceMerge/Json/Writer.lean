import NamespaceMerge.Json.Basic
import NamespaceMerge.Text.Hex

/-! JSON documents as text: on one line, or one item a line. Strings are escaped either down to
printable ASCII or only where a document has to be. Every value is written, however deeply it is
nested and however long its integers are. -/

namespace NamespaceMerge.Json

/-- What is written as itself in strings. -/
inductive Charset
  /-- Printable ASCII only. -/
  | ascii
  /-- Everything that a document may hold unescaped. -/
  | unicode

def unitEscape (unit : UInt16) : Text := '\\' :: 'u' :: Hex.digits 4 unit.toNat

/-- The two-character escape of a unit that has one. -/
def shortEscape? (unit : UInt16) : Option Text :=
  match unit.toNat with
  | 0x22 => some ['\\', '"']
  | 0x5c => some ['\\', '\\']
  | 0x0a => some ['\\', 'n']
  | 0x0d => some ['\\', 'r']
  | 0x09 => some ['\\', 't']
  | 0x0c => some ['\\', 'f']
  | 0x08 => some ['\\', 'b']
  | _ => none

def asciiUnit (unit : UInt16) : Text :=
  match shortEscape? unit with
  | some escape => escape
  | none =>
    if 0x20 ≤ unit.toNat ∧ unit.toNat < 0x7f then [Char.ofNat unit.toNat] else unitEscape unit

/-- A character as itself unless it needs an escape; a lone surrogate always does. -/
def unicodePiece : Utf16.Piece → Text
  | .inr unit => unitEscape unit
  | .inl c =>
    if c.toNat < 0x80 then
      match shortEscape? c.toNat.toUInt16 with
      | some escape => escape
      | none => if 0x20 ≤ c.toNat then [c] else unitEscape c.toNat.toUInt16
    else [c]

def writeString (charset : Charset) (units : Utf16) : Text :=
  let body := match charset with
    | .ascii => units.flatMap asciiUnit
    | .unicode => (Utf16.pieces units).flatMap unicodePiece
  '"' :: (body ++ ['"'])

/-- Where lines end: nowhere, or after every item, indented by `width` per level. -/
structure Style where
  charset : Charset
  width : Option Nat

namespace Style

/-- What starts the next item on nesting level `level`. -/
def itemStart (style : Style) (level : Nat) : Text :=
  match style.width with
  | none => []
  | some width => '\n' :: List.replicate (width * level) ' '

/-- What stands between two items on nesting level `level`. -/
def separator (style : Style) (level : Nat) : Text :=
  match style.width with
  | none => [',', ' ']
  | some _ => ',' :: style.itemStart level

end Style

mutual

/-- The text of a value that stands on nesting level `level`. -/
def writeAt (style : Style) (level : Nat) : Json → Text
  | null => "null".toList
  | bool true => "true".toList
  | bool false => "false".toList
  | number n => n.write Number.document
  | string units => writeString style.charset units
  | array [] => ['[', ']']
  | array (item :: items) =>
    '[' :: (style.itemStart (level + 1) ++ writeAt style (level + 1) item
      ++ writeItems style (level + 1) items ++ style.itemStart level ++ [']'])
  | object [] => ['\x7b', '\x7d']
  | object ((key, value) :: members) =>
    '\x7b' :: (style.itemStart (level + 1) ++ writeString style.charset key ++ [':', ' ']
      ++ writeAt style (level + 1) value ++ writeMembers style (level + 1) members
      ++ style.itemStart level ++ ['\x7d'])

/-- The further items of an array, each after its separator. -/
def writeItems (style : Style) (level : Nat) : List Json → Text
  | [] => []
  | item :: items =>
    style.separator level ++ writeAt style level item ++ writeItems style level items

/-- The further members of an object, each after its separator. -/
def writeMembers (style : Style) (level : Nat) : List (Utf16 × Json) → Text
  | [] => []
  | (key, value) :: members =>
    style.separator level ++ writeString style.charset key ++ [':', ' ']
      ++ writeAt style level value ++ writeMembers style level members

end

/-- One line of printable ASCII. -/
def write (value : Json) : Text := writeAt ⟨.ascii, none⟩ 0 value

/-- One line, with characters outside ASCII as themselves. -/
def writeUnicode (value : Json) : Text := writeAt ⟨.unicode, none⟩ 0 value

/-- One item a line, each level indented by `width`. -/
def writeIndented (width : Nat) (value : Json) : Text := writeAt ⟨.ascii, some width⟩ 0 value

end NamespaceMerge.Json
