import NamespaceMerge.Text.Utf8

/-! Base64, written with padding and read strictly. `alphabetIndex?_symbol` says that reading a
symbol undoes writing it. -/

namespace NamespaceMerge.Base64

open Utf8 (Bytes)

/-- The symbol for a value below 64. -/
def symbol (n : Nat) : Char :=
  if n < 26 then Char.ofNat ('A'.toNat + n)
  else if n < 52 then Char.ofNat ('a'.toNat + (n - 26))
  else if n < 62 then Char.ofNat ('0'.toNat + (n - 52))
  else if n = 62 then '+' else '/'

def alphabetIndex? (c : Char) : Option Nat :=
  if 'A' ≤ c ∧ c ≤ 'Z' then some (c.toNat - 'A'.toNat)
  else if 'a' ≤ c ∧ c ≤ 'z' then some (c.toNat - 'a'.toNat + 26)
  else if '0' ≤ c ∧ c ≤ '9' then some (c.toNat - '0'.toNat + 52)
  else if c = '+' then some 62
  else if c = '/' then some 63
  else none

theorem alphabetIndex?_symbol : ∀ n < 64, alphabetIndex? (symbol n) = some n := by decide

def encode : Bytes → Text
  | [] => []
  | [a] => [symbol (a.toNat / 4), symbol (a.toNat % 4 * 16), '=', '=']
  | [a, b] =>
    [symbol (a.toNat / 4), symbol (a.toNat % 4 * 16 + b.toNat / 16), symbol (b.toNat % 16 * 4), '=']
  | a :: b :: c :: rest =>
    symbol (a.toNat / 4) :: symbol (a.toNat % 4 * 16 + b.toNat / 16)
      :: symbol (b.toNat % 16 * 4 + c.toNat / 64) :: symbol (c.toNat % 64) :: encode rest

inductive Fault
  | leadingPadding
  | excessData
  | alphabet
  | discontinuousPadding
  /-- One symbol more than whole groups of four; `count` symbols in all. -/
  | loneSymbol (count : Nat)
  | padding

/-- How far reading has come: the symbols of the unfinished group, the padding marks that count
towards finishing it, whether padding has started, and the number of symbols. -/
structure Progress where
  group : List Nat := []
  pads : Nat := 0
  padded : Bool := false
  count : Nat := 0

/-- The bytes that an unfinished group of symbols holds whole. -/
def groupBytes : List Nat → Bytes
  | [a, b] => [(a * 4 + b / 16).toUInt8]
  | [a, b, c] => [(a * 4 + b / 16).toUInt8, (b % 16 * 16 + c / 4).toUInt8]
  | [a, b, c, d] =>
    [(a * 4 + b / 16).toUInt8, (b % 16 * 16 + c / 4).toUInt8, (c % 4 * 64 + d).toUInt8]
  | _ => []

def decodeFrom (p : Progress) : Text → Except Fault Bytes
  | [] =>
    match p.group.length with
    | 0 => .ok []
    | 1 => .error (.loneSymbol p.count)
    | _ => .error .padding
  | c :: rest =>
    if c = '=' then
      if 2 ≤ p.group.length then
        let pads := p.pads + 1
        if 4 ≤ p.group.length + pads then
          if rest.isEmpty then .ok (groupBytes p.group) else .error .excessData
        else decodeFrom { p with pads, padded := true } rest
      else decodeFrom { p with padded := true } rest
    else
      match alphabetIndex? c with
      | none => .error .alphabet
      | some n =>
        if p.padded then .error .discontinuousPadding
        else
          let group := p.group ++ [n]
          if group.length = 4 then
            (decodeFrom { p with group := [], pads := 0, count := p.count + 1 } rest).map
              (groupBytes group ++ ·)
          else decodeFrom { p with group, pads := 0, count := p.count + 1 } rest

def decode (text : Text) : Except Fault Bytes :=
  if text.head? = some '=' then .error .leadingPadding else decodeFrom {} text

def Fault.message : Fault → String
  | leadingPadding => "Leading padding not allowed"
  | excessData => "Excess data after padding"
  | alphabet => "Only base64 data is allowed"
  | discontinuousPadding => "Discontinuous padding not allowed"
  | loneSymbol count =>
    s!"Invalid base64-encoded string: number of data characters ({count}) "
      ++ "cannot be 1 more than a multiple of 4"
  | padding => "Incorrect padding"

end NamespaceMerge.Base64
