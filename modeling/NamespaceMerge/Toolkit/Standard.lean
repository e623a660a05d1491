import NamespaceMerge.Options.Settings
import NamespaceMerge.Script.Grammar
import NamespaceMerge.Script.Mapping

/-! The toolkit of the program: a parser and a printer of ECMAScript 5, and source maps of what was
printed. -/

namespace NamespaceMerge

/-- The map of printed fragments, for a script of the given name. -/
def SourceMap.ofFragments (fragments : List Script.Fragment) (name : String) : Json.Members :=
  encoded ["about:invalid"] [] (Script.Mapping.text fragments) name

namespace Script

def Fragment.printed (fragments : List Fragment) : Printed where
  text := textOf fragments
  map := SourceMap.ofFragments fragments
  keyed := SourceMap.keyed_encoded _ _ _

def Fault.toParseFault : Fault → ParseFault
  | refused fault => .refused fault.message
  | stopped cause => .stopped cause.describe

end Script

namespace Toolkit

/-- Parses and prints ECMAScript 5, and reads maps of any nesting. -/
def standard : Toolkit where
  parse keepComments script := (Script.parse keepComments script).mapError (·.toParseFault)
  print unit statements := .ok (Script.Fragment.printed (Script.print unit statements))

/-- The toolkit with a reader that goes down to a level, at least to that of a plain map. -/
def within (t : Toolkit) (levels : Nat) : Toolkit :=
  { t with
    levels := some (max 2 levels)
    two_le_levels := fun _ hn => Option.some.inj hn ▸ Nat.le_max_left 2 levels }

/-- The toolkit of the program, whose stack has room for that many levels. -/
def program : Toolkit := standard.within 960

end Toolkit

/-- The settings of the program where no option is given. -/
def Settings.standard : Settings := { toolkit := .program }

end NamespaceMerge
