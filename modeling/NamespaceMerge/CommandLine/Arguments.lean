import NamespaceMerge.Text.Quoted

/-! The arguments of a command line: options with their values, and patterns. Options may be
shortened to the start of a long spelling that only one has; letters after one hyphen combine. -/

namespace NamespaceMerge.CommandLine

/-- What an option asks for. -/
inductive Request
  | help
  | marker
  | outDirectory
  | skipDeclarations
  | skipScripts
  | skipSourceMaps
  | failFast
  | logger
  | jsonLogs
  | report
  | version
deriving DecidableEq

namespace Request

def all : List Request :=
  [help, marker, outDirectory, skipDeclarations, skipScripts, skipSourceMaps, failFast, logger,
    jsonLogs, report, version]

def spellings : Request → List String
  | help => ["-h", "--help"]
  | marker => ["--extension-prefix", "--extensionPrefix"]
  | outDirectory => ["-o", "--out-dir", "--outDir"]
  | skipDeclarations => ["-D", "--skip-declarations", "--skipDeclarations"]
  | skipScripts => ["-S", "--skip-scripts", "--skipScripts"]
  | skipSourceMaps => ["-M", "--skip-source-maps", "--skipSourceMaps"]
  | failFast => ["--fail-fast"]
  | logger => ["--logger"]
  | jsonLogs => ["--json-logs"]
  | report => ["--report"]
  | version => ["-V", "--version"]

def takesValue : Request → Bool
  | marker | outDirectory | logger => true
  | _ => false

/-- Every spelling, with its request. -/
def spelled : List (Text × Request) :=
  all.flatMap fun request => request.spellings.map fun spelling => (spelling.toList, request)

def ofSpelling? (spelling : Text) : Option Request := spelled.lookup spelling

end Request

/-- Why a command line is refused. -/
inductive Refusal
  | ambiguous (word : Text) (spellings : List Text)
  | noValue (request : Request)
  | needlessValue (request : Request) (value : Text)
  | invalidLogger (value : Text)
  | unrecognized (words : List Text)

/-- What a command line comes to when it is no run. -/
inductive Stop
  | help
  | version
  | refused (refusal : Refusal)
  /-- A value of two hyphens is dropped, and the option is left without any. -/
  | droppedValue

structure Arguments where
  marker : Text := "merged".toList
  outDirectory : Option Text := none
  logger : Text := "console".toList
  skipDeclarations : Bool := false
  skipScripts : Bool := false
  skipSourceMaps : Bool := false
  failFast : Bool := false
  jsonLogs : Bool := false
  report : Bool := false
  patterns : List Text := []

/-- What a word of the command line is. -/
inductive Word
  | plain (text : Text)
  /-- Two hyphens: no word after them is an option. -/
  | hyphens
  /-- A spelling of an option, and the value that stands in the same word. -/
  | option (request : Request) (spelling : Text) (value : Option Text)
  | unknown (text : Text)

namespace Word

def text : Word → Text
  | plain text | unknown text | option _ text none => text
  | hyphens => ['-', '-']
  | option _ spelling (some value) => spelling ++ '=' :: value

def isOption : Word → Bool
  | option .. | unknown _ => true
  | plain _ | hyphens => false

def isNegativeNumber : Text → Bool
  | '-' :: rest =>
    let (whole, fraction) := rest.span Char.isDigit
    match fraction with
    | [] => !whole.isEmpty
    | '.' :: digits => !digits.isEmpty && digits.all Char.isDigit
    | _ => false
  | _ => false

/-- The options that a word may be short for, each with its spelling and value: a long one by the
start of its spelling, a short one by its letter, before which the value starts. -/
def candidates (word : Text) : List (Request × Text × Option Text) :=
  match word with
  | '-' :: '-' :: _ =>
    let (start, value) := match Text.splitOnce '=' word with
      | some (start, value) => (start, some value)
      | none => (word, none)
    (Request.spelled.filter fun (spelling, _) => start.isPrefixOf spelling).map
      fun (spelling, request) => (request, spelling, value)
  | hyphen :: letter :: value =>
    ((Request.ofSpelling? [hyphen, letter]).map (·, [hyphen, letter], some value)).toList
  | _ => []

/-- The option that a word spells out, with a value after an equals sign. -/
def exactly? (word : Text) : Option Word :=
  match Request.ofSpelling? word with
  | some request => some (option request word none)
  | none => do
    let (spelling, value) ← Text.splitOnce '=' word
    return option (← Request.ofSpelling? spelling) spelling (some value)

/-- What a word is, before any two hyphens. -/
def ofText (word : Text) : Except Refusal Word :=
  match word with
  | '-' :: _ :: _ =>
    match exactly? word with
    | some spelledOut => .ok spelledOut
    | none =>
      match candidates word with
      | [(request, spelling, value)] => .ok (option request spelling value)
      | [] => .ok (if isNegativeNumber word || word.contains ' ' then plain word else unknown word)
      | several => .error (.ambiguous word (several.map (·.2.1)))
  | word => .ok (plain word)

def ofTexts : List Text → Except Refusal (List Word)
  | [] => .ok []
  | word :: rest =>
    if word = ['-', '-'] then .ok (hyphens :: rest.map plain)
    else do return (← ofText word) :: (← ofTexts rest)

end Word

/-- A request with its value. -/
abbrev Order := Request × Option Text

/-- The orders of a word whose option is `request`, and the request that still needs the next word
for its value. Letters behind a short option without value are options themselves. -/
def ordersOf (isShort : Bool) (request : Request) (value : Option Text) :
    Except Refusal (List Order × Option Request) :=
  match request.takesValue, value with
  | true, none => .ok ([], some request)
  | true, some value => .ok ([(request, some value)], none)
  | false, none => .ok ([(request, none)], none)
  | false, some value =>
    match value with
    | [] => .error (.needlessValue request [])
    | letter :: more =>
      match if isShort then Request.ofSpelling? ['-', letter] else none with
      | none => .error (.needlessValue request (letter :: more))
      | some next => do
        let (orders, open') ← match more with
          | [] => ordersOf true next none
          | c :: more => ordersOf true next (some (c :: more))
        return ((request, none) :: orders, open')
termination_by value.map (·.length + 1) |>.getD 0

namespace Arguments

/-- The arguments after an order. -/
def apply (a : Arguments) (order : Order) : Except Stop Arguments :=
  let value := order.2.getD []
  if order.2 = some ['-', '-'] then .error .droppedValue
  else
    match order.1 with
    | .help => .error .help
    | .version => .error .version
    | .marker => .ok { a with marker := value }
    | .outDirectory => .ok { a with outDirectory := some value }
    | .logger =>
      if value = "none".toList ∨ value = "console".toList then .ok { a with logger := value }
      else .error (.refused (.invalidLogger value))
    | .skipDeclarations => .ok { a with skipDeclarations := true }
    | .skipScripts => .ok { a with skipScripts := true }
    | .skipSourceMaps => .ok { a with skipSourceMaps := true }
    | .failFast => .ok { a with failFast := true }
    | .jsonLogs => .ok { a with jsonLogs := true }
    | .report => .ok { a with report := true }

end Arguments

/-- Whether patterns may still come: all of them stand together. -/
inductive Stage
  | before
  | among
  | after

/-- How far a command line is read. -/
structure Reading where
  arguments : Arguments := {}
  stage : Stage := .before
  unrecognized : List Text := []

namespace Reading

/-- Takes a word that is no option. The two hyphens are no pattern, but they are not recognized
when no pattern may come. -/
def take (r : Reading) (word : Word) : Reading :=
  match r.stage, word with
  | .after, word => { r with unrecognized := r.unrecognized ++ [word.text] }
  | _, .hyphens => { r with stage := .among }
  | _, word =>
    let patterns := r.arguments.patterns ++ [word.text]
    { r with stage := .among, arguments := { r.arguments with patterns } }

/-- An option comes; after patterns no more of them may. -/
def pass (r : Reading) : Reading :=
  match r.stage with
  | .among => { r with stage := .after }
  | _ => r

def obey (r : Reading) (orders : List Order) : Except Stop Reading := do
  return { r with arguments := ← orders.foldlM Arguments.apply r.arguments }

/-- Reads words, the options in the order in which they stand. -/
def readWords (r : Reading) : List Word → Except Stop Reading
  | [] => .ok r
  | .plain text :: rest => (r.take (.plain text)).readWords rest
  | .hyphens :: rest => (r.take .hyphens).readWords rest
  | .unknown text :: rest =>
    { r.pass with unrecognized := r.unrecognized ++ [text] }.readWords rest
  | .option request spelling value :: rest => do
    let isShort := spelling[1]? ≠ some '-'
    let (orders, waiting) ← (ordersOf isShort request value).mapError .refused
    match waiting, rest with
    | none, rest => (← r.pass.obey orders).readWords rest
    | some request, .plain value :: rest =>
      (← r.pass.obey (orders ++ [(request, some value)])).readWords rest
    | some request, _ => .error (.refused (.noValue request))

end Reading

/-- Reads the words of a command line. -/
def Arguments.ofWords (words : List Text) : Except Stop Arguments := do
  let words ← (Word.ofTexts words).mapError .refused
  let reading ← Reading.readWords {} words
  if reading.unrecognized.isEmpty then return reading.arguments
  else .error (.refused (.unrecognized reading.unrecognized))

end NamespaceMerge.CommandLine
