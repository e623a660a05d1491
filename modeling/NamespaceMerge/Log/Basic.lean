/-! The merge log: what is said while files are merged. -/

namespace NamespaceMerge

/-- How important an entry is. A rank without a name is passed on as it is. -/
inductive Level
  | verbose
  | information
  | warning
  | error
  | success
  | unnamed (rank : Int)
deriving DecidableEq

namespace Level

def rank : Level → Int
  | verbose => 0
  | information => 1
  | warning => 2
  | error => 3
  | success => 4
  | unnamed rank => rank

def ofRank : Int → Level
  | 0 => verbose
  | 1 => information
  | 2 => warning
  | 3 => error
  | 4 => success
  | rank => unnamed rank

/-- The objection to a level without a name. -/
def objection? : Level → Option String
  | unnamed rank => some s!"{rank} is not a valid LogLevel"
  | _ => none

theorem rank_ofRank (rank : Int) : (ofRank rank).rank = rank := by
  unfold ofRank
  split <;> rfl

end Level

structure Entry where
  message : String
  level : Level := .information
  /-- Whether a line ends after the message. -/
  newline : Bool := true

namespace Entry

def isError (e : Entry) : Bool := e.level == .error

end Entry

end NamespaceMerge
