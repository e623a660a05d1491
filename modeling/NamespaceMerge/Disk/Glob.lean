import NamespaceMerge.Disk.Basic
import NamespaceMerge.Disk.Wildcard

/-! Files by pattern. The components of a path pattern are names, patterns of names, or `**` for
any number of directories. -/

namespace NamespaceMerge.Glob

inductive Component
  | name (name : Text)
  | wildcards (pattern : List Wildcard)
  | anyDirectories

/-- A component of a path pattern; `**` may not stand next to anything else. -/
def Component.ofText? (text : Text) : Option Component :=
  if text = ['*', '*'] then some .anyDirectories
  else if Text.includes ['*', '*'] text then none
  else if text.any Wildcard.isMagic then some (.wildcards (Wildcard.ofText text))
  else some (.name text)

/-- What is said of a pattern that cannot be. -/
def invalidPattern : String := "Invalid pattern: '**' can only be an entire path component"

/-- The directories at and below a path. -/
def directoriesFrom (d : Disk) (path : List Text) : List (List Text) :=
  match d.follow path with
  | .ok (.directory place) =>
    path :: d.directories.filterMap fun other =>
      if place ≠ other ∧ place.isPrefixOf other then some (path ++ other.drop place.length)
      else none
  | _ => []

def isDirectory (d : Disk) (path : List Text) : Bool :=
  match d.follow path with
  | .ok (.directory _) => true
  | _ => false

/-- The names in the directory at a path. -/
def namesIn (d : Disk) (path : List Text) : List Text :=
  match d.follow path with
  | .ok (.directory place) => d.children place
  | _ => []

/-- The paths that go on from a path along a pattern. All but the last are directories. -/
def select (d : Disk) : List Component → List Text → List (List Text)
  | [], path => [path]
  | component :: rest, path =>
    let onward (next : List (List Text)) : List (List Text) :=
      (next.filter fun path => rest.isEmpty || isDirectory d path).flatMap (select d rest)
    match component with
    | .name name => onward ([path ++ [name]].filter fun path => (d.follow path).isOk)
    | .wildcards pattern =>
      let names := (namesIn d path).filter (Wildcard.matchesName pattern)
      onward (names.map fun name => path ++ [name])
    | .anyDirectories => onward (directoriesFrom d path)

/-- The order of paths: component by component. -/
def pathBefore : List Text → List Text → Bool
  | [], _ => true
  | _ :: _, [] => false
  | x :: a, y :: b => if x = y then pathBefore a b else x.before y

/-- The files that a pattern stands for, in order. Fails if a `**` stands next to something. -/
def expand? (d : Disk) (pattern : Text) : Option (List (List Text)) := do
  let components := FileName.components pattern
  let isFixed (component : Text) : Bool := !component.any Wildcard.isMagic
  let base := components.takeWhile isFixed
  let steps ← (components.dropWhile isFixed).mapM Component.ofText?
  let found :=
    if steps.isEmpty then [base]
    else if isDirectory d base then select d steps base
    else []
  return ((found.filter fun path => d.isFile (FileName.ofComponents path)).eraseDups).mergeSort
    pathBefore

end NamespaceMerge.Glob
