import NamespaceMerge.Text.Basic

/-! Names of output files. The marker of merged files stands in front of the extension:
`widget.d.ts` becomes `widget.merged.d.ts`. An empty marker leaves the name as it is. -/

namespace NamespaceMerge.FileName

def declarationExtension : Text := ".d.ts".toList

def scriptExtension : Text := ".js".toList

/-- The extension with the marker in front. Doubled points become one. -/
def markedExtension (marker extension : Text) : Text :=
  Text.replacePair '.' '.' ['.'] ('.' :: (marker ++ extension))

/-- Whether the name ends with the extension; ASCII letters match in either case. -/
def hasExtension (extension name : Text) : Bool :=
  (Text.lower extension).isSuffixOf (Text.lower name)

/-- The part of a path after its last separator. -/
def lastComponent (path : Text) : Text := (path.reverse.takeWhile (· ≠ '/')).reverse

/-- Splits a path before the last point of its last component. Points that start the component
start no suffix. -/
def splitSuffix (path : Text) : Text × Text :=
  let component := lastComponent path
  match Text.lastIndexOf '.' component with
  | none => (path, [])
  | some index =>
    if (component.take index).all (· == '.') then (path, [])
    else path.splitAt (path.length - (component.length - index))

/-- The name of the merged file. A name without the extension gets the marker before its own
suffix. -/
def output (name extension marker : Text) : Text :=
  if hasExtension extension name then
    name.take (name.length - extension.length) ++ markedExtension marker extension
  else
    match splitSuffix name with
    | (_, []) => name ++ Text.dropTrailing '.' (markedExtension marker [])
    | (stem, suffix) => stem ++ markedExtension marker suffix

def sourceMap (scriptName : Text) : Text := scriptName ++ ".map".toList

/-- Whether a name carries the marker between points. The empty marker marks nothing. -/
def hasMarker (name marker : Text) : Bool :=
  !marker.isEmpty && Text.includes ('.' :: (marker ++ ['.'])) name

/-- Whether a component says nothing: it is empty, or stays in place. -/
def saysNothing (component : Text) : Bool := component.isEmpty || component == ['.']

/-- The component of the root. A path goes on from the root wherever it stands. -/
def root : Text := ['/']

/-- What stands between the separators of a path, behind the root if the path starts there. -/
def split : Text → List Text
  | '/' :: rest => root :: Text.splitAll '/' rest
  | path => Text.splitAll '/' path

/-- The names on a path, wherever it starts. -/
def names (path : Text) : List Text := (Text.splitAll '/' path).filter (!saysNothing ·)

/-- The components of a path that say something. -/
def components (path : Text) : List Text := (split path).filter (!saysNothing ·)

/-- The suffix of a component: from its last point on, unless that is at either end. -/
def suffix (component : Text) : Text :=
  match Text.lastIndexOf '.' component with
  | some index => if index = 0 ∨ index + 1 = component.length then [] else component.drop index
  | none => []

def isDeclarationPath (path : Text) : Bool := hasExtension declarationExtension path

def isScriptPath (path : Text) : Bool :=
  Text.lower (suffix ((components path).getLast?.getD [])) == scriptExtension

end NamespaceMerge.FileName
