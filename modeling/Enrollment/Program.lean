import Enrollment.CommandLine
import Enrollment.Registrar
import Enrollment.Settings.Load

/-!
# The program

One run of the program: settings are loaded and the sample is run with them.
Nothing is printed unless loading succeeds.  Where debugging is asked for, the
events of the run are for a log.  It can be opened here whenever it is asked for,
and the filter that `RUST_LOG` can name for what is written to it is left out.
-/

namespace Enrollment.Program

/-- What a run comes to. -/
structure Outcome where
  code : Nat
  stdout : Bytes := []
  /-- What is printed about an error. -/
  stderr : String := ""
  /-- The events to be logged, after the line that opens the log. -/
  log : List Event := []

/-- The level and the message of the line that opens the log. -/
def opening : String × String := ("INFO", "roster debug log started")

/-- What stands before every line of a reason. -/
def margin : List Char := "    ".toList

/-- A text with the margin before every line, an empty one included. -/
def indent (cs : List Char) : List Char :=
  margin ++ cs.flatMap fun c => if c = '\n' then c :: margin else [c]

/-- The report of an error with the reason behind it, which is moved in. -/
def report (message reason : String) : String :=
  "Error: " ++ message ++ "\n\nCaused by:\n" ++ String.ofList (indent reason.toList) ++ "\n"

def failed (f : Settings.Failure) : Outcome :=
  { code := 1, stderr := report f.message f.reason }

def completed : Except SinkFault Unit × Registrar → Outcome
  | (.ok (), r) => { code := 0, stdout := r.sink.written, log := r.log }
  | (.error fault, r) =>
    { code := 1, stdout := r.sink.written, stderr := report fault.message fault.text, log := r.log }

def demonstrate (files : Files) (env : Environment) (path : Option String) : Outcome :=
  let o := match Settings.load files env path with
    | .ok settings => completed (Sample.run settings {})
    | .error f => failed f
  { o with log := Settings.loadEvents env path ++ o.log }

/-- Whether the environment asks for emphasis in what is printed.  A wish for none prevails. -/
def wantsEmphasis (env : Environment) : Bool :=
  env.isFilled "CLICOLOR_FORCE" && !env.isFilled "NO_COLOR"

def helpText (env : Environment) : String :=
  if wantsEmphasis env then Text.emphasised CommandLine.help else Text.unadorned CommandLine.help

def run (files : Files) (env : Environment) (args : List String) : Outcome :=
  match CommandLine.read args with
  | .help => { code := 0, stdout := bytesOf (helpText env) }
  | .misuse => { code := 2, stderr := CommandLine.usageText }
  | .run options =>
    let o := demonstrate files env options.config
    if options.debug then o else { o with log := [] }

end Enrollment.Program
