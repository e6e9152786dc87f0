/-!
# The command line

Arguments are read from left to right.  Each option may be given once; the
first request for help and the first argument that fits nowhere decide.  The
help is a text in pieces, some of which stand out where what shows them
understands control sequences.
-/

namespace Enrollment.Text

/-- A piece of text and how it stands out. -/
inductive Piece where
  | plain (text : String)
  | strong (text : String)
  /-- It is bold and underlined. -/
  | heading (text : String)

namespace Piece

def text : Piece → String
  | plain t => t
  | strong t => t
  | heading t => t

/-- The control sequences that are in force within a piece. -/
def controls : Piece → String
  | plain _ => ""
  | strong _ => "\x1b[1m"
  | heading _ => "\x1b[1m\x1b[4m"

/-- The control sequence that ends all others. -/
def ending : String := "\x1b[0m"

/-- A piece with the control sequences that make it stand out. -/
def emphasised : Piece → String
  | plain t => t
  | p => p.controls ++ p.text ++ ending

end Piece

/-- The text that pieces make up by themselves. -/
def unadorned (ps : List Piece) : String :=
  String.join (ps.map Piece.text)

/-- The text that pieces make up with control sequences around those that stand out. -/
def emphasised (ps : List Piece) : String :=
  String.join (ps.map Piece.emphasised)

end Enrollment.Text

namespace Enrollment.CommandLine

structure Options where
  debug : Bool := false
  /-- The path of the configuration, if one is given. -/
  config : Option String := none
  deriving DecidableEq

/-- What the arguments ask for. -/
inductive Request where
  | help
  | run (options : Options)
  | misuse
  deriving DecidableEq

/-- Whether an argument asks for help: by its long name, or as the first of short options. -/
def asksHelp (a : String) : Bool :=
  a = "--help" || ['-', 'h'].isPrefixOf a.toList

/-- Whether an argument can be the path that an option before it calls for: not an empty one,
and none that looks like an option. -/
def isPath (a : String) : Bool :=
  a ≠ "" && (a = "-" || a.toList.head? ≠ some '-')

/-- What the path option is called where its path comes with it. -/
def configStart : List Char := "--config=".toList

/-- The path that an argument holds together with the name of its option. -/
def attachedPath? (a : String) : Option String :=
  if configStart.isPrefixOf a.toList then some (String.ofList (a.toList.drop configStart.length))
  else none

/-- Reads arguments after some options. -/
def scan : Options → List String → Request
  | o, [] => .run o
  | o, "--config" :: p :: rest =>
    if o.config = none ∧ isPath p then scan { o with config := some p } rest else .misuse
  | o, a :: rest =>
    if asksHelp a then .help
    else if a = "--" then (if rest = [] then .run o else .misuse)
    else if a = "--debug" then (if o.debug then .misuse else scan { o with debug := true } rest)
    else match attachedPath? a with
      | some p =>
        if o.config = none ∧ p ≠ "" then scan { o with config := some p } rest else .misuse
      | none => .misuse

def read (args : List String) : Request :=
  scan {} args

def unlines (lines : List String) : String :=
  String.join (lines.map (· ++ "\n"))

/-- What a request for help is answered with.  What has to be typed stands out. -/
def help : List Text.Piece := [
  .plain "In-memory student roster demo\n\n",
  .heading "Usage:", .plain " ", .strong "roster", .plain " [OPTIONS]\n\n",
  .heading "Options:", .plain "\n      ",
  .strong "--debug",
  .plain "          Write debug logs to /tmp/roster-debug.log (tail -f to inspect)\n      ",
  .strong "--config",
  .plain " <PATH>  Config file to use instead of ~/.config/roster/config.toml\n  ",
  .strong "-h", .plain ", ", .strong "--help", .plain "           Print help\n"]

/-- A text that misuse is answered with.  What is said of the arguments stands for several texts
that tell one misuse from another. -/
def usageText : String := unlines [
  "error: unexpected arguments",
  "",
  "Usage: roster [OPTIONS]",
  "",
  "For more information, try '--help'."]

end Enrollment.CommandLine
