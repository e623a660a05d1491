import NamespaceMerge.CommandLine.Arguments
import NamespaceMerge.Logger.Record

/-! What the command line says about itself. -/

namespace NamespaceMerge.CommandLine

def usage : String := "usage: tsmerge pattern0 [pattern1 ... patternN] [OPTIONS]\n"

def versionLine : String := s!"TypeScript Merger (tsmerge) {Record.version}\n"

def helpLines : List String :=
  [
    "usage: tsmerge pattern0 [pattern1 ... patternN] [OPTIONS]",
    "",
    "tsmerge – merges the namespace blocks of TypeScript output files",
    "pattern0...patternN: glob patterns with the .d.ts / .js files to be merged",
    "",
    "positional arguments:",
    "  pattern               Glob pattern of files to merge.",
    "",
    "options:",
    "  -h, --help            show this help message and exit",
    "",
    "Output:",
    "  --extension-prefix PREFIX, --extensionPrefix PREFIX",
    "                        Token inserted before the extension of output files (default: 'merged').",
    "                        An empty string overwrites the input files.",
    "  -o DIR, --out-dir DIR, --outDir DIR",
    "                        Directory receiving the merged files (default: next to each input).",
    "",
    "Processing:",
    "  -D, --skip-declarations, --skipDeclarations",
    "                        Do not merge .d.ts files.",
    "  -S, --skip-scripts, --skipScripts",
    "                        Do not merge .js files.",
    "  -M, --skip-source-maps, --skipSourceMaps",
    "                        Do not generate .map files.",
    "  --fail-fast           Abort the whole run on the first file that fails to merge.",
    "",
    "Miscellaneous:",
    "  --logger \x7bnone,console\x7d",
    "                        Merge log output (default: console).",
    "  --json-logs           Emit log records as JSON lines.",
    "  --report              Print the run report as JSON on stdout.",
    "  -V, --version         show program's version number and exit"
  ]

def help : String := String.join (helpLines.map (· ++ "\n"))

/-- The spellings of an option, by which messages name it. -/
def Request.describe (r : Request) : String := "/".intercalate r.spellings

def Refusal.message : Refusal → String
  | ambiguous word spellings =>
    s!"ambiguous option: {String.ofList word} could match "
      ++ ", ".intercalate (spellings.map String.ofList)
  | noValue request => s!"argument {request.describe}: expected one argument"
  | needlessValue request value =>
    s!"argument {request.describe}: ignored explicit argument "
      ++ String.ofList (Quoted.quote value)
  | invalidLogger value =>
    s!"argument {Request.logger.describe}: invalid choice: {String.ofList (Quoted.quote value)}"
      ++ " (choose from 'none', 'console')"
  | unrecognized words =>
    "unrecognized arguments: " ++ " ".intercalate (words.map String.ofList)

/-- What is said when a command line is refused. -/
def Refusal.text (r : Refusal) : String := usage ++ s!"tsmerge: error: {r.message}\n"

end NamespaceMerge.CommandLine
