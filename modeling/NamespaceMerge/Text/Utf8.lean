import NamespaceMerge.Text.Hex
import NamespaceMerge.Number.Decimal

/-! Text as UTF-8 bytes, written and read. Reading is strict: overlong forms, surrogates and code
points beyond the last are refused, and a refusal says which bytes are at fault. -/

namespace NamespaceMerge.Utf8

abbrev Bytes := List UInt8

inductive Fault
  | startByte
  | continuationByte
  | endOfData

/-- Why bytes are refused: those from offset `start` up to, not including, `stop`. -/
structure DecodeError where
  fault : Fault
  start : Nat
  stop : Nat
  /-- The first byte at fault. -/
  byte : UInt8

def isContinuation (b : UInt8) : Bool := 0x80 ≤ b.toNat && b.toNat < 0xc0

/-- Whether `second` may follow the first byte of a sequence of three or four: it must leave the
code point neither too small for the length, nor a surrogate, nor beyond the last one. -/
def maySecond (first second : UInt8) : Bool :=
  isContinuation second &&
    match first.toNat with
    | 0xe0 => 0xa0 ≤ second.toNat
    | 0xed => second.toNat < 0xa0
    | 0xf0 => 0x90 ≤ second.toNat
    | 0xf4 => second.toNat < 0x90
    | _ => true

def bits (b : UInt8) : Nat := b.toNat % 64

/-- The character that starts with the byte `first` and how many of the bytes after it belong to
it, or the fault and the number of bytes that show it. -/
def sequence (first : UInt8) (rest : Bytes) : Except (Fault × Nat) (Char × Nat) :=
  let n := first.toNat
  if n < 0x80 then .ok (Char.ofNat n, 0)
  else if n < 0xc2 then .error (.startByte, 1)
  else if n < 0xe0 then
    match rest with
    | [] => .error (.endOfData, 1)
    | b :: _ =>
      if isContinuation b then .ok (Char.ofNat ((n - 0xc0) * 64 + bits b), 1)
      else .error (.continuationByte, 1)
  else if n < 0xf0 then
    match rest with
    | [] => .error (.endOfData, 1)
    | [b] => if maySecond first b then .error (.endOfData, 2) else .error (.continuationByte, 1)
    | b :: c :: _ =>
      if !maySecond first b then .error (.continuationByte, 1)
      else if !isContinuation c then .error (.continuationByte, 2)
      else .ok (Char.ofNat (((n - 0xe0) * 64 + bits b) * 64 + bits c), 2)
  else if n < 0xf5 then
    match rest with
    | [] => .error (.endOfData, 1)
    | [b] => if maySecond first b then .error (.endOfData, 2) else .error (.continuationByte, 1)
    | [b, c] =>
      if !maySecond first b then .error (.continuationByte, 1)
      else if !isContinuation c then .error (.continuationByte, 2)
      else .error (.endOfData, 3)
    | b :: c :: d :: _ =>
      if !maySecond first b then .error (.continuationByte, 1)
      else if !isContinuation c then .error (.continuationByte, 2)
      else if !isContinuation d then .error (.continuationByte, 3)
      else .ok (Char.ofNat ((((n - 0xf0) * 64 + bits b) * 64 + bits c) * 64 + bits d), 3)
  else .error (.startByte, 1)

/-- Decodes bytes of which the first stands at `offset`. -/
def decodeFrom (offset : Nat) (bytes : Bytes) : Except DecodeError Text :=
  match bytes with
  | [] => .ok []
  | b :: rest =>
    match sequence b rest with
    | .error (fault, count) => .error ⟨fault, offset, offset + count, b⟩
    | .ok (c, more) => (decodeFrom (offset + 1 + more) (rest.drop more)).map (c :: ·)
termination_by bytes.length
decreasing_by simp only [List.length_drop, List.length_cons]; omega

def decode (bytes : Bytes) : Except DecodeError Text := decodeFrom 0 bytes

def encodeChar (c : Char) : Bytes :=
  let n := c.toNat
  let tail (shift : Nat) : UInt8 := (0x80 + n / Nat.pow 2 shift % 64).toUInt8
  if n < 0x80 then [n.toUInt8]
  else if n < 0x800 then [(0xc0 + n / 64).toUInt8, tail 0]
  else if n < 0x10000 then [(0xe0 + n / 4096).toUInt8, tail 6, tail 0]
  else [(0xf0 + n / 262144).toUInt8, tail 12, tail 6, tail 0]

def encode (text : Text) : Bytes := text.flatMap encodeChar

def Fault.message : Fault → String
  | startByte => "invalid start byte"
  | continuationByte => "invalid continuation byte"
  | endOfData => "unexpected end of data"

def DecodeError.message (e : DecodeError) : String :=
  let subject :=
    if e.stop = e.start + 1 then
      s!"byte 0x{String.ofList (Hex.digits 2 e.byte.toNat)} in position {e.start}"
    else s!"bytes in position {e.start}-{e.stop - 1}"
  s!"'utf-8' codec can't decode {subject}: {e.fault.message}"

end NamespaceMerge.Utf8
