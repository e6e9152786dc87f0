import Enrollment.Path

/-!
# File trees

Directories and files below the root, one of them the working directory.  A path
is followed segment by segment: every segment, an empty one and a dot included,
is looked up in a directory that has to exist, and two dots lead to the
directory above.
-/

namespace Enrollment

/-- A place in a file tree: the names that lead to it from the root, the last one first. -/
structure Place where
  names : List (List Char)
  deriving DecidableEq

namespace Place

def root : Place := ⟨[]⟩

def ofDirectory (d : Directory) : Place :=
  ⟨d.names.reverse⟩

/-- The place above, which for the root is the root itself. -/
def above (p : Place) : Place :=
  ⟨p.names.tail⟩

/-- The place below of a given name. -/
def below (p : Place) (name : List Char) : Place :=
  ⟨name :: p.names⟩

/-- Whether the way from the root to a second place leads to or through the first. -/
def isOnWayTo (p q : Place) : Bool :=
  p.names.isSuffixOf q.names

def step (p : Place) (segment : List Char) : Place :=
  if Path.isIdle segment then p
  else if segment = Path.upward then p.above
  else p.below segment

end Place

/-- The directories and files that have been made, the latest first.  The working directory
and those above it need not be made. -/
structure FileTree where
  workingDirectory : Directory := default
  directories : List Place := []
  files : List (Place × Bytes) := []

namespace FileTree

/-- Whether a place is a directory.  All on the way to a directory are directories. -/
def isDirectory (t : FileTree) (p : Place) : Bool :=
  (Place.ofDirectory t.workingDirectory :: t.directories).any p.isOnWayTo

/-- The place that segments lead to, if every one of them is looked up in a directory. -/
def follow (t : FileTree) : Place → List (List Char) → Option Place
  | p, [] => some p
  | p, s :: ss => if t.isDirectory p then t.follow (p.step s) ss else none

/-- The content of the regular file at a place, which a directory is not. -/
def contentAt? (t : FileTree) (p : Place) : Option Bytes :=
  if t.isDirectory p then none else t.files.lookup p

/-- The content of the regular file that a path leads to, from the working directory or from
the root. -/
def content? (t : FileTree) : Files where
  workingDirectory := t.workingDirectory
  fromRoot? path := (t.follow .root (Path.segments path)).bind t.contentAt?

/-- Makes the directories that segments lead through and to. -/
def makeDirectories : Place → List (List Char) → FileTree → Place × FileTree
  | p, [], t => (p, t)
  | p, s :: ss, t =>
    let q := p.step s
    makeDirectories q ss { t with directories := q :: t.directories }

def addDirectory (t : FileTree) (path : String) : FileTree :=
  (makeDirectories .root (Path.segments (t.workingDirectory.full path.toList)) t).2

/-- Makes a file with a content, and the directories that lead to it. -/
def addFile (t : FileTree) (path : String) (content : Bytes) : FileTree :=
  let ss := Path.segments (t.workingDirectory.full path.toList)
  let (p, t) := makeDirectories .root ss.dropLast t
  match ss.getLast? with
  | some name => { t with files := (p.step name, content) :: t.files }
  | none => t

end FileTree

end Enrollment
