import NamespaceMerge.Number.Shortest

/-! Numbers as the documents and reports hold them: integers without bound, and doubles. An
integer stays one until it meets a double. -/

namespace NamespaceMerge

inductive Number
  | integer (i : Int)
  | real (x : Float)

namespace Number

def toFloat : Number → Float
  | integer i => Binary64.ofInt i
  | real x => x

def add : Number → Number → Number
  | integer i, integer j => integer (i + j)
  | a, b => real (a.toFloat + b.toFloat)

def sub : Number → Number → Number
  | integer i, integer j => integer (i - j)
  | a, b => real (a.toFloat - b.toFloat)

/-- How doubles are written: which powers of ten of the leading digit are written without an
exponent, the least number of digits of an exponent, and the names of what is not finite. -/
structure Format where
  least : Int
  greatest : Int
  exponentDigits : Nat
  infinite : Text
  nan : Text

/-- The layout of a positive decimal `digits * 10 ^ power`. A whole number keeps `.0`. -/
def Format.decimal (n : Format) (digits : Nat) (power : Int) : Text :=
  let ds := Decimal.digits digits
  let leading := power + ds.length - 1
  if n.least ≤ leading ∧ leading ≤ n.greatest then
    if 0 ≤ power then ds ++ List.replicate power.toNat '0' ++ ['.', '0']
    else if 0 ≤ leading then
      ds.take (leading + 1).toNat ++ '.' :: ds.drop (leading + 1).toNat
    else '0' :: '.' :: List.replicate (-leading - 1).toNat '0' ++ ds
  else
    let mantissa := if ds.length = 1 then ds else ds.take 1 ++ '.' :: ds.drop 1
    let sign := if leading < 0 then '-' else '+'
    mantissa ++ 'e' :: sign :: Decimal.padded n.exponentDigits leading.natAbs

/-- A double in the given notation: its shortest digits, and `0.0` or `-0.0` for zero. -/
def Format.real (n : Format) (x : Float) : Text :=
  let signed (negative : Bool) (text : Text) := if negative then '-' :: text else text
  match Binary64.decode x with
  | .nan => n.nan
  | .infinite negative => signed negative n.infinite
  | .finite negative 0 _ => signed negative "0.0".toList
  | .finite negative mantissa exponent =>
    let (digits, power) := Shortest.decimal mantissa exponent
    signed negative (n.decimal digits power)

/-- Positional from `0.0001` to below `10 ^ 16`, else with an exponent of at least two digits. -/
def plain : Format := ⟨-4, 15, 2, "inf".toList, "nan".toList⟩

/-- As `plain`, with the names that documents give to what is not finite. -/
def document : Format := { plain with infinite := "Infinity".toList, nan := "NaN".toList }

def write (n : Format) : Number → Text
  | integer i => Decimal.integer i
  | real x => n.real x

end Number

end NamespaceMerge
