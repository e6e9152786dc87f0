import Enrollment.Text.Utf8

/-!
# Paths and files

Paths as texts with slashes between their segments.  An empty segment and a
single dot stay where they are; they are no components of the path.  A path
that does not begin at the root begins at a working directory, and what is found
at a path may be named by the way that leads to it from there.
-/

namespace Enrollment

namespace Path

/-- The texts between the slashes, of which there is always one more than slashes. -/
def segments : List Char → List (List Char)
  | [] => [[]]
  | c :: cs =>
    if c = '/' then [] :: segments cs
    else match segments cs with
      | [] => [[c]]
      | s :: ss => (c :: s) :: ss

/-- Whether a segment leads nowhere. -/
def isIdle (s : List Char) : Bool :=
  s = [] || s = ['.']

/-- The segment that leads to the directory above. -/
def upward : List Char := ['.', '.']

/-- Whether a segment is a name that something in a directory can have. -/
def isName (s : List Char) : Bool :=
  !isIdle s && s ≠ upward && !s.contains '/'

def components (path : List Char) : List (List Char) :=
  (segments path).filter fun s => !isIdle s

def isAbsolute (path : List Char) : Bool :=
  path.head? = some '/'

/-- The path with the given components and a slash in front if it starts at the root. -/
def ofComponents (absolute : Bool) (cs : List (List Char)) : List Char :=
  (if absolute then ['/'] else []) ++ ['/'].intercalate cs

/-- Goes on from a path, unless what follows starts at the root.  A slash comes between if there
is something before it that does not end in one. -/
def join (path part : List Char) : List Char :=
  if isAbsolute part then part
  else if path = [] ∨ path.getLast? = some '/' then path ++ part
  else path ++ '/' :: part

/-- The way from one place to another, both given by components from the root: up from all
that only the first has, and down to the second. -/
def way : List (List Char) → List (List Char) → List (List Char)
  | a :: as, b :: bs =>
    if a = b then way as bs else List.replicate (as.length + 1) upward ++ b :: bs
  | as, bs => List.replicate as.length upward ++ bs

/-! ## Endings -/

/-- Whether a name has an ending: a dot that is not its first character. -/
def hasEnding (name : List Char) : Bool :=
  (name.drop 1).contains '.'

/-- The name that an ending is added to where nothing is written. -/
def placeholder : List Char := ".placeholder".toList

def endSegment (segment ending : List Char) : List Char :=
  (if segment = [] then placeholder else segment) ++ ending

/-- A path with an ending added to it as it is written. -/
def endText (path ending : List Char) : List Char :=
  ['/'].intercalate ((segments path).dropLast ++ [endSegment ((segments path).getLastD []) ending])

/-- A path with an ending added to its final component; what is written after it is left out. -/
def endName (path ending : List Char) : List Char :=
  let ss := ((segments path).reverse.dropWhile isIdle).reverse
  ['/'].intercalate (ss.dropLast ++ [ss.getLastD [] ++ ending])

/-- A path with an ending added, if its final component is a name: two dots are none.  A name
that has an ending already is left as it is, and so is what is written after it; any other
name takes the ending itself. -/
def addEnding? (path ending : List Char) : Option (List Char) :=
  match (components path).getLast? with
  | none => none
  | some name =>
    if name = upward then none
    else some (if hasEnding name then endText path ending else endName path ending)

end Path

/-! ## Directories -/

/-- A directory by the names that lead to it from the root. -/
structure Directory where
  names : List (List Char)
  isName : names.all Path.isName := by decide

namespace Directory

/-- Some directory below the root, for paths of which it does not matter where they begin. -/
instance : Inhabited Directory := ⟨{ names := ["home".toList, "work".toList] }⟩

/-- The directory that the names in a path lead to. -/
def ofPath (path : List Char) : Directory where
  names := (Path.components path).filter Path.isName
  isName := by simp

/-- The path to a directory from the root. -/
def path (d : Directory) : List Char :=
  Path.ofComponents true d.names

/-- A path as it leads on from a directory. -/
def full (d : Directory) (path : List Char) : List Char :=
  Path.join d.path path

/-- The way from a directory to where a path leads. -/
def relative (d : Directory) (path : List Char) : List Char :=
  Path.ofComponents false (Path.way d.names (Path.components (d.full path)))

end Directory

/-! ## Files -/

/-- Files as they are seen from a working directory. -/
structure Files where
  workingDirectory : Directory
  /-- The content of the regular file that a path from the root leads to, if there is one. -/
  fromRoot? : List Char → Option Bytes

namespace Files

/-- The content of the regular file at a path, if there is one. -/
def at? (files : Files) (path : String) : Option Bytes :=
  files.fromRoot? (files.workingDirectory.full path.toList)

instance : CoeFun Files fun _ => String → Option Bytes := ⟨at?⟩

/-- No files. -/
def empty (d : Directory) : Files :=
  ⟨d, fun _ => none⟩

/-- The files with a content at a path, whatever was there. -/
def write (files : Files) (path : String) (content : Bytes) : Files :=
  { files with
    fromRoot? := fun p =>
      if p = files.workingDirectory.full path.toList then some content else files.fromRoot? p }

end Files

end Enrollment
