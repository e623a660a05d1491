import NamespaceMerge.Json.Basic
import NamespaceMerge.Text.Hex

/-! JSON documents read from text. Beyond the standard, `NaN`, `Infinity` and `-Infinity` are
numbers. A refusal names its cause and the offset at which it was found.

A reader that runs on a stack stops at a document that is nested too deeply for it. How many levels
it goes down is a parameter here, and without a limit every document is read. A limit on the digits
of an integer is left out: an integer of any length is read and written. -/

namespace NamespaceMerge.Json

inductive ReadCause
  | byteOrderMark
  | value
  | propertyName
  | colon
  | comma
  | extraData
  | controlCharacter
  | escape
  | unicodeEscape
  | unterminatedString
  /-- An array or object lies deeper than the reader goes. -/
  | nesting
deriving DecidableEq

/-- The document is refused for `cause`, found where `rest` was left to read. -/
structure Refusal where
  cause : ReadCause
  rest : Text

abbrev Reader (α : Type) := Text → Except Refusal (α × Text)

def isSpace (c : Char) : Bool := c == ' ' || c == '\t' || c == '\n' || c == '\r'

def skipSpace (text : Text) : Text := text.dropWhile isSpace

def simpleEscape? (c : Char) : Option UInt16 :=
  match c with
  | '"' => some 0x22
  | '\\' => some 0x5c
  | '/' => some 0x2f
  | 'b' => some 0x08
  | 'f' => some 0x0c
  | 'n' => some 0x0a
  | 'r' => some 0x0d
  | 't' => some 0x09
  | _ => none

/-- The unit that four hexadecimal digits name; one more character has to follow them. -/
def unitOfHex? : Text → Option (UInt16 × Text)
  | a :: b :: c :: d :: e :: rest =>
    (Hex.read? [a, b, c, d]).map fun n => (n.toUInt16, e :: rest)
  | _ => none

theorem unitOfHex?_length {text rest : Text} {unit : UInt16}
    (h : unitOfHex? text = some (unit, rest)) : rest.length < text.length := by
  match text, h with
  | a :: b :: c :: d :: e :: tail, h =>
    simp only [unitOfHex?, Option.map_eq_some_iff] at h
    obtain ⟨n, -, h⟩ := h
    simp only [Prod.mk.injEq] at h
    simp [← h.2]

/-- The units of a string and what follows its closing quote. `opening` is the text from the
opening quote on. -/
def readUnits (opening : Text) (text : Text) : Except Refusal (Utf16 × Text) :=
  match text with
  | [] => .error ⟨.unterminatedString, opening⟩
  | '"' :: rest => .ok ([], rest)
  | ['\\'] => .error ⟨.unterminatedString, opening⟩
  | '\\' :: 'u' :: rest =>
    match h : unitOfHex? rest with
    | none => .error ⟨.unicodeEscape, 'u' :: rest⟩
    | some (unit, rest') =>
      have := unitOfHex?_length h
      (readUnits opening rest').map fun (units, after) => (unit :: units, after)
  | '\\' :: c :: rest =>
    match simpleEscape? c with
    | none => .error ⟨.escape, '\\' :: c :: rest⟩
    | some unit => (readUnits opening rest).map fun (units, after) => (unit :: units, after)
  | c :: rest =>
    if c.toNat < 0x20 then .error ⟨.controlCharacter, c :: rest⟩
    else (readUnits opening rest).map fun (units, after) => (Utf16.ofChar c ++ units, after)
termination_by text.length

/-- The fraction digits after a point, if there are any. -/
def readFraction (text : Text) : Option (Text × Text) :=
  match text with
  | '.' :: rest =>
    let (digits, rest) := Decimal.spanDigits rest
    if digits.isEmpty then none else some (digits, rest)
  | _ => none

/-- The exponent, if the text starts with a whole one. -/
def readExponent (text : Text) : Option (Int × Text) :=
  match text with
  | c :: rest =>
    if c = 'e' ∨ c = 'E' then
      let (negative, rest) := match rest with
        | '-' :: rest => (true, rest)
        | '+' :: rest => (false, rest)
        | rest => (false, rest)
      let (digits, rest) := Decimal.spanDigits rest
      let size : Int := Decimal.value digits
      if digits.isEmpty then none else some (if negative then -size else size, rest)
    else none
  | [] => none

/-- A number: an integer unless it has a fraction or an exponent. -/
def readNumber? (text : Text) : Option (Number × Text) :=
  let (negative, text) := match text with
    | '-' :: rest => (true, rest)
    | rest => (false, rest)
  let (whole, rest) := match text with
    | '0' :: rest => (['0'], rest)
    | text => Decimal.spanDigits text
  if whole.isEmpty then none
  else
    let fraction := readFraction rest
    let rest := (fraction.map (·.2)).getD rest
    let exponent := readExponent rest
    let rest := (exponent.map (·.2)).getD rest
    match fraction, exponent with
    | none, none =>
      let size : Int := Decimal.value whole
      some (.integer (if negative then -size else size), rest)
    | _, _ =>
      let decimals := (fraction.map (·.1)).getD []
      let power := (exponent.map (·.1)).getD 0
      let digits := Decimal.value (whole ++ decimals)
      some (.real (Binary64.ofDecimal negative digits (power - decimals.length)), rest)

/-- The words that are values. -/
def words : List (Text × Json) :=
  [("null".toList, .null), ("true".toList, .bool true), ("false".toList, .bool false),
    ("NaN".toList, .number (.real (Float.ofBits 0x7ff8000000000000))),
    ("Infinity".toList, .number (.real (Float.ofBits 0x7ff0000000000000))),
    ("-Infinity".toList, .number (.real (Float.ofBits 0xfff0000000000000)))]

def readWord? (text : Text) : Option (Json × Text) :=
  words.findSome? fun (word, value) => (Text.dropStart? word text).map fun rest => (value, rest)

mutual

/-- A value. At most `levels` arrays and objects are read within each other, if there is a limit;
`depth` bounds the steps. -/
def readValue (levels : Option Nat) (depth : Nat) (text : Text) : Except Refusal (Json × Text) :=
  match depth with
  | 0 => .error ⟨.value, text⟩
  | depth + 1 =>
    match text with
    | '"' :: rest => (readUnits text rest).map fun (units, rest) => (.string units, rest)
    | '[' :: rest =>
      if levels = some 0 then .error ⟨.nesting, text⟩
      else
        match skipSpace rest with
        | ']' :: rest => .ok (.array [], rest)
        | rest =>
          (readItems (levels.map (· - 1)) depth rest).map fun (items, rest) => (.array items, rest)
    | '\x7b' :: rest =>
      if levels = some 0 then .error ⟨.nesting, text⟩
      else
        match skipSpace rest with
        | '\x7d' :: rest => .ok (.object [], rest)
        | rest =>
          (readMembers (levels.map (· - 1)) depth rest).map fun (members, rest) =>
            (.object (Members.ofList members), rest)
    | text =>
      match readWord? text with
      | some found => .ok found
      | none =>
        match readNumber? text with
        | some (n, rest) => .ok (.number n, rest)
        | none => .error ⟨.value, text⟩

/-- The items of an array up to its closing bracket. -/
def readItems (levels : Option Nat) (depth : Nat) (text : Text) :
    Except Refusal (List Json × Text) :=
  match depth with
  | 0 => .error ⟨.value, text⟩
  | depth + 1 => do
    let (item, rest) ← readValue levels depth text
    match skipSpace rest with
    | ']' :: rest => .ok ([item], rest)
    | ',' :: rest =>
      (readItems levels depth (skipSpace rest)).map fun (items, rest) => (item :: items, rest)
    | rest => .error ⟨.comma, rest⟩

/-- The members of an object up to its closing brace. -/
def readMembers (levels : Option Nat) (depth : Nat) (text : Text) :
    Except Refusal (List (Utf16 × Json) × Text) :=
  match depth with
  | 0 => .error ⟨.value, text⟩
  | depth + 1 =>
    match text with
    | '"' :: rest => do
      let (key, rest) ← readUnits text rest
      match skipSpace rest with
      | ':' :: rest =>
        let (value, rest) ← readValue levels depth (skipSpace rest)
        match skipSpace rest with
        | '\x7d' :: rest => .ok ([(key, value)], rest)
        | ',' :: rest =>
          (readMembers levels depth (skipSpace rest)).map fun (members, rest) =>
            ((key, value) :: members, rest)
        | rest => .error ⟨.comma, rest⟩
      | rest => .error ⟨.colon, rest⟩
    | text => .error ⟨.propertyName, text⟩

end

/-- A whole document. No value in a text is nested deeper than the text is long, and each level
takes two steps. -/
def readDocument (text : Text) (levels : Option Nat := none) : Except Refusal Json :=
  if text.head? = some '\ufeff' then .error ⟨.byteOrderMark, text⟩
  else do
    let (value, rest) ← readValue levels (2 * text.length + 2) (skipSpace text)
    match skipSpace rest with
    | [] => .ok value
    | rest => .error ⟨.extraData, rest⟩

def ReadCause.message : ReadCause → String
  | byteOrderMark => "Unexpected UTF-8 BOM (decode using utf-8-sig)"
  | value => "Expecting value"
  | propertyName => "Expecting property name enclosed in double quotes"
  | colon => "Expecting ':' delimiter"
  | comma => "Expecting ',' delimiter"
  | extraData => "Extra data"
  | controlCharacter => "Invalid control character at"
  | escape => "Invalid \\escape"
  | unicodeEscape => "Invalid \\uXXXX escape"
  | unterminatedString => "Unterminated string starting at"
  | nesting => "Nested too deeply"

/-- Why a document was refused, and the offset in it. -/
structure ReadError where
  cause : ReadCause
  line : Nat
  column : Nat
  offset : Nat

def ReadError.message (e : ReadError) : String :=
  s!"{e.cause.message}: line {e.line} column {e.column} (char {e.offset})"

/-- The place of a refusal in the document: lines and columns count from one. -/
def Refusal.locate (refusal : Refusal) (document : Text) : ReadError :=
  let offset := document.length - refusal.rest.length
  let before := document.take offset
  { cause := refusal.cause
    line := before.count '\n' + 1
    column := (before.reverse.takeWhile (· ≠ '\n')).length + 1
    offset }

/-- The value of a document, whose arrays and objects are read down to `levels` levels only if there
is a limit. -/
def read (document : Text) (levels : Option Nat := none) : Except ReadError Json :=
  (readDocument document levels).mapError (·.locate document)

end NamespaceMerge.Json
