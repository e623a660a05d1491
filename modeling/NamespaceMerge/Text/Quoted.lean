import NamespaceMerge.Text.Printable
import NamespaceMerge.Text.Hex

/-! Quoted text, as messages show it: in single quotes, or in double quotes when the text holds
single quotes only. The quote in use, the backslash and what cannot be shown are escaped. -/

namespace NamespaceMerge.Quoted

/-- The quote for a text: the double one only if that saves escaping. -/
def quoteFor (text : Text) : Char :=
  if text.contains '\'' && !text.contains '"' then '"' else '\''

/-- The shortest of the three numeric escapes that has room for the code point `n`. -/
def numeric (n : Nat) : Text :=
  if n < 0x100 then '\\' :: 'x' :: Hex.digits 2 n
  else if n < 0x10000 then '\\' :: 'u' :: Hex.digits 4 n
  else '\\' :: 'U' :: Hex.digits 8 n

def escape (quote c : Char) : Text :=
  if c = quote ∨ c = '\\' then ['\\', c]
  else if c = '\n' then ['\\', 'n']
  else if c = '\r' then ['\\', 'r']
  else if c = '\t' then ['\\', 't']
  else if isPrintable c then [c]
  else numeric c.toNat

def quote (text : Text) : Text :=
  let mark := quoteFor text
  mark :: (text.flatMap (escape mark) ++ [mark])

end NamespaceMerge.Quoted

namespace NamespaceMerge

/-- A string in quotes, as messages show it. -/
def quoted (s : String) : String := String.ofList (Quoted.quote s.toList)

end NamespaceMerge
