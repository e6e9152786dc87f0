import Enrollment.Program

/-!
# Running the program

The thin layer between the program and the system it runs on.
-/

namespace Enrollment.Shell

/-- Splits bytes at a separator. -/
def splitBytes (separator : UInt8) (bs : Bytes) : List Bytes :=
  bs.foldr (fun b parts =>
    match parts with
    | p :: ps => if b = separator then [] :: p :: ps else (b :: p) :: ps
    | [] => [[b]]) [[]]

/-- The variables in the form in which the system lists them, each with a zero byte after it. -/
def parseEnvironment (bs : Bytes) : Environment :=
  (splitBytes 0 bs).filterMap fun v =>
    match v.dropWhile (· ≠ '='.toUInt8) with
    | _ :: value => some (v.takeWhile (· ≠ '='.toUInt8), value)
    | [] => none

/-- The environment of the process. -/
def readEnvironment : IO Environment := do
  let bytes ← IO.FS.readBinFile "/proc/self/environ"
  return parseEnvironment bytes.toList

/-- The content of the regular file at a path, if there is one. -/
def readRegular (path : String) : IO (Option Bytes) := do
  try
    let file := (← IO.currentDir) / path
    if (← file.metadata).type == .file then
      return some (← IO.FS.readBinFile file).toList
    else
      return none
  catch _ =>
    return none

/-- The working directory of the process. -/
def readDirectory : IO Directory := do
  return Directory.ofPath (← IO.currentDir).toString.toList

/-- The files that loading may look at. -/
def readFiles (env : Environment) (path : Option String) : IO Files := do
  let directory ← readDirectory
  let first := Settings.pathUsed env path
  let paths := first :: (Settings.secondPath? directory first).toList
  paths.foldlM (fun files p => do
    match ← readRegular p with
    | some content => return files.write p content
    | none => return files) (Files.empty directory)

/-- An event as a line of the log. -/
def logLine (e : Event) : String :=
  e.level.name ++ " " ++ e.message ++ (match e with
    | .inserted id => " id=" ++ id
    | .rejected id => " id=" ++ id
    | .listing count => " count=" ++ toString count
    | .loading path => " path=" ++ path) ++ "\n"

/-- Opens the log and appends the events of the debug level, as it is written without a filter. -/
def writeLog (events : List Event) : IO Unit := do
  let log ← IO.FS.Handle.mk "/tmp/roster-debug.log" .append
  log.putStr (Program.opening.1 ++ " " ++ Program.opening.2 ++ "\n")
  for e in events do
    if e.level = .debug then
      log.putStr (logLine e)

end Enrollment.Shell

open Enrollment Enrollment.Shell in
/-- Answers the arguments of the process. -/
def main (args : List String) : IO UInt32 := do
  let env ← readEnvironment
  let files ← match CommandLine.read args with
    | .run options => readFiles env options.config
    | _ => Files.empty <$> readDirectory
  let outcome := Program.run files env args
  unless outcome.log.isEmpty do
    writeLog outcome.log
  (← IO.getStderr).putStr outcome.stderr
  let out ← IO.getStdout
  out.write ⟨outcome.stdout.toArray⟩
  out.flush
  return UInt32.ofNat outcome.code
