import Enrollment.Basic
import Enrollment.Path
import Enrollment.Settings.Environment
import Enrollment.Settings.Reading
import Enrollment.Toml.Document

/-!
# Loading settings

Settings are gathered in layers: the standard ones, those of a file, those of
the environment.  A file that is missing adds nothing; one that is no document
makes loading fail before the environment is looked at, and the environment
before any value is read.  Nothing fixes the order in which the entries of a
layer are laid and the settings of a table are read: it is a parameter.
-/

namespace Enrollment

namespace Settings

/-! ## Which file -/

/-- The directory below which a configuration is looked for by default. -/
def configHome (env : Environment) : List Char :=
  match env.text? "XDG_CONFIG_HOME" with
  | some home => home.toList
  | none => Path.join ((env.text? "HOME").getD ".").toList ".config".toList

/-- The path of the file that is looked for by default. -/
def defaultPath (env : Environment) : String :=
  String.ofList (Path.join (Path.join (configHome env) "roster".toList) "config.toml".toList)

def pathUsed (env : Environment) (path : Option String) : String :=
  path.getD (defaultPath env)

/-- What is looked for where a path leads to no file: the path from the root with an ending
added.  It is the working directory that takes the ending where the path names nothing else. -/
def secondPath? (d : Directory) (path : String) : Option String :=
  (Path.addEnding? (d.full path.toList) ".toml".toList).map String.ofList

/-- How the values of a file name it: by the way to it from the working directory. -/
def nameOf (d : Directory) (path : String) : String :=
  String.ofList (d.relative path.toList)

/-- A file found: the path to it, as its values name it, and its content. -/
structure Source where
  path : String
  content : Bytes
  deriving DecidableEq

def sourceAt? (files : Files) (path : String) : Option Source :=
  (files path).map fun content => ⟨nameOf files.workingDirectory path, content⟩

/-- The file that a path leads to, or else the one that it leads to with an ending added. -/
def source? (files : Files) (path : String) : Option Source :=
  (sourceAt? files path).or ((secondPath? files.workingDirectory path).bind (sourceAt? files))

/-! ## Layers -/

/-- The tree that gathering begins with. -/
def base : Value :=
  .table none [("output", .table none [
    ("header", .leaf none (.text standard.header)),
    ("announce_additions", .leaf none (.boolean standard.announceAdditions))])]

/-- The bytes of a file without a byte order mark in front. -/
def withoutMark : Bytes → Bytes
  | 0xEF :: 0xBB :: 0xBF :: bs => bs
  | bs => bs

def Source.text (s : Source) : List Char :=
  Utf8.decodeLossy (withoutMark s.content)

def Source.layer (s : Source) : Except Failure (Entries Value) :=
  match Toml.document? s.text with
  | some es => .ok (Tree.renoteEntries (some s.path) es)
  | none => .error (.unparsed s.path)

/-- The layer of the file that a path leads to, empty if there is none. -/
def fileLayer (files : Files) (path : String) : Except Failure (Entries Value) :=
  match source? files path with
  | some s => s.layer
  | none => .ok []

/-! ## Loading -/

/-- The orders that nothing fixes: of the entries of each layer, and of the settings in a table.
The keys of a table are merged one by one as well, but of them no two are the same. -/
structure Visits where
  file : Arrangement (String × Value)
  environment : Arrangement (String × Value)
  /-- The setting that is read first. -/
  first : Setting

/-- Entries are laid as they come, and the header is read first. -/
def Visits.arrival : Visits := ⟨.arrival, .arrival, .header⟩

def gather (file environment : Entries Value) : Value :=
  Value.lay environment (Value.lay file base)

/-- The settings in a gathered tree; where none are left the standard ones hold. -/
def ofGathered (first : Setting) (tree : Value) : Except Failure Settings :=
  match Value.get? [.key "output"] tree with
  | some v => read first v
  | none => .ok standard

def loadIn (visits : Visits) (files : Files) (env : Environment) (path : Option String) :
    Except Failure Settings := do
  let file ← fileLayer files (pathUsed env path)
  let environment ← env.layer
  ofGathered visits.first
    (gather (visits.file.arrange file) (visits.environment.arrange environment))

def load (files : Files) (env : Environment) (path : Option String) : Except Failure Settings :=
  loadIn .arrival files env path

/-- What loading tells an observer. -/
def loadEvents (env : Environment) (path : Option String) : List Event :=
  [.loading (pathUsed env path)]

end Settings

end Enrollment
