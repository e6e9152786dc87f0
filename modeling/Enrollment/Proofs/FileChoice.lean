import Enrollment.FileTree
import Enrollment.Proofs.Output
import Enrollment.Proofs.PathText

/-!
# Which file is read

Of all files, loading sees those that two paths lead to, and of these it reads one.  The path
that is looked at first is the one that is given, or else the one below a base that the
environment names (`NamedPath.text_standard`).  The other is that path with an ending
(`NamedPath.second`); it is looked at only where the first leads to no file.  It is written
from the root then, but leads to the same file as where it is not
(`NamedPath.source?_text`).
-/

namespace Enrollment

/-! ## The path without an argument -/

namespace Path

theorem inFront_append (front : List Char) {part : List Char} (hne : part ≠ [])
    (hlast : part.getLast? ≠ some '/') : inFront (front ++ part) = front ++ (part ++ ['/']) := by
  rw [inFront, List.append_assoc, if_neg]
  rintro (h | h)
  · exact hne (List.append_eq_nil_iff.1 h).2
  · rw [List.getLast?_append_of_ne_nil _ hne] at h
    exact hlast h

end Path

namespace NamedPath

open Enrollment.Path Settings

/-- The directory below the base that the environment names.  The home directory counts only
where there is no other base. -/
def standardDirectory (env : Environment) : List Char :=
  match env.text? "XDG_CONFIG_HOME", env.text? "HOME" with
  | some base, _ => inFront base.toList ++ "roster/".toList
  | none, some home => inFront home.toList ++ ".config/roster/".toList
  | none, none => "./.config/roster/".toList

/-- The path that is used where none is given. -/
def standard (env : Environment) : NamedPath where
  directory := standardDirectory env
  name := "config.toml".toList
  slashes := 0
  endsInSlash := by
    unfold standardDirectory
    split
    · exact endsInSlash_append (endsInSlash_inFront _) (.inr rfl)
    · exact endsInSlash_append (endsInSlash_inFront _) (.inr rfl)
    · exact .inr rfl

theorem inFront_configHome (env : Environment) :
    inFront (configHome env) ++ "roster/".toList = standardDirectory env := by
  rw [configHome, standardDirectory]
  cases env.text? "XDG_CONFIG_HOME" with
  | some base => rfl
  | none =>
    have hconfig : ∀ base, inFront (join base ".config".toList) ++ "roster/".toList =
        inFront base ++ ".config/roster/".toList := by
      intro base
      rw [join_eq _ rfl, inFront_append _ (by decide) (by decide), List.append_assoc]
      rfl
    cases env.text? "HOME" with
    | some home => exact hconfig home.toList
    | none => exact hconfig ".".toList

theorem text_standard (env : Environment) : (standard env).text = defaultPath env := by
  have hroster : inFront (join (configHome env) "roster".toList) = standardDirectory env := by
    rw [join_eq _ rfl, inFront_append _ (by decide) (by decide), ← inFront_configHome]
    rfl
  rw [defaultPath, join_eq _ rfl, hroster]
  rfl

/-! ## The file that is found -/

/-- A file as it is read from a path. -/
def source (d : Directory) (p : NamedPath) (content : Bytes) : Source :=
  ⟨nameOf d p.text, content⟩

theorem sourceAt?_text (files : Files) (p : NamedPath) :
    sourceAt? files p.text = (files p.text).map (source files.workingDirectory p) :=
  rfl

theorem sourceAt?_full (files : Files) (p : NamedPath) :
    sourceAt? files (String.ofList (files.workingDirectory.full p.letters)) =
      sourceAt? files p.text := by
  simp only [sourceAt?, Files.at?, nameOf, Directory.relative, text, String.toList_ofList,
    Directory.full_full]

theorem source?_text (files : Files) (p : NamedPath) :
    source? files p.text =
      ((files p.text).map (source files.workingDirectory p)).or
        ((files p.second.text).map (source files.workingDirectory p.second)) := by
  rw [source?, sourceAt?_text, secondPath?_text, Option.bind_some, sourceAt?_full, sourceAt?_text]

end NamedPath

/-! ## Loading -/

namespace Settings

/-- Loading with a layer in the place of the file's. -/
def loadOver (file : Except Failure (Entries Value)) (env : Environment) :
    Except Failure Settings := do
  let file ← file
  let environment ← env.layer
  ofGathered .header (gather file environment)

theorem load_eq_loadOver (files : Files) (env : Environment) (path : Option String) :
    load files env path = loadOver (fileLayer files (pathUsed env path)) env :=
  rfl

section

variable {files : Files} {p : NamedPath} {content : Bytes}

theorem fileLayer_of_first (h : files p.text = some content) :
    fileLayer files p.text = (p.source files.workingDirectory content).layer := by
  rw [fileLayer, p.source?_text files, h]
  rfl

theorem fileLayer_of_second (h : files p.text = none)
    (hsecond : files p.second.text = some content) :
    fileLayer files p.text = (p.second.source files.workingDirectory content).layer := by
  rw [fileLayer, p.source?_text files, h, hsecond]
  rfl

theorem fileLayer_of_none (h : files p.text = none) (hsecond : files p.second.text = none) :
    fileLayer files p.text = .ok [] := by
  rw [fileLayer, p.source?_text files, h, hsecond]
  rfl

theorem source?_congr {other : Files} (hdirectory : other.workingDirectory = files.workingDirectory)
    (h : other p.text = files p.text)
    (hsecond : files p.text = none → other p.second.text = files p.second.text) :
    source? other p.text = source? files p.text := by
  rw [p.source?_text, p.source?_text, hdirectory, h]
  cases hfiles : files p.text with
  | some content => rfl
  | none => rw [hsecond hfiles]

end

/-- The first of two paths that leads to a regular file says what the file's layer is, and no
other file plays a part. -/
theorem load_reads_first_file (files : Files) (env : Environment) (path : Option NamedPath) :
    let p := path.getD (NamedPath.standard env)
    let d := files.workingDirectory
    let loaded := fun fs : Files => load fs env (path.map NamedPath.text)
    pathUsed env (path.map NamedPath.text) = p.text ∧
    (∀ content, files p.text = some content →
      loaded files = loadOver (p.source d content).layer env) ∧
    (files p.text = none → ∀ content, files p.second.text = some content →
      loaded files = loadOver (p.second.source d content).layer env) ∧
    (files p.text = none → files p.second.text = none →
      loaded files = loadOver (.ok []) env) ∧
    ∀ other : Files, other.workingDirectory = d → other p.text = files p.text →
      (files p.text = none → other p.second.text = files p.second.text) →
      loaded other = loaded files := by
  intro p d loaded
  have hused : pathUsed env (path.map NamedPath.text) = p.text := by
    cases path with
    | some given => rfl
    | none => exact (NamedPath.text_standard env).symm
  have hloaded : ∀ fs, loaded fs = loadOver (fileLayer fs p.text) env := by
    intro fs
    rw [← hused]
    exact load_eq_loadOver _ _ _
  refine ⟨hused, ?_, ?_, ?_, ?_⟩
  · intro content h
    rw [hloaded, fileLayer_of_first h]
  · intro h content hsecond
    rw [hloaded, fileLayer_of_second h hsecond]
  · intro h hsecond
    rw [hloaded, fileLayer_of_none h hsecond]
  · intro other hdirectory h hsecond
    apply load_eq_of_source?_eq
    rw [hused]
    exact source?_congr hdirectory h hsecond

/-- The content of a file that sets a header. -/
def headerContent : Bytes :=
  bytesOf "[output]\nheader = \"B\"\n"

/-- A directory, beside it a file of its name with an ending, two such files of which the first
is no document, and a file below another directory that is a home. -/
def pairedTree : FileTree :=
  let tree := ({} : FileTree).addDirectory "c"
  (((tree.addFile "c.toml" headerContent).addFile "e" (bytesOf "[")).addFile "e.toml"
    headerContent).addFile "/home/u/.config/roster/config.toml" headerContent

/-- A file that is no document is read all the same, a directory is not, and where there is
nothing the standard settings hold.  A home leads to a file from the root. -/
theorem load_reads_first_file_pairs :
    pathUsed [(bytesOf "XDG_CONFIG_HOME", [])] none = "roster/config.toml" ∧
    (pairedTree.content? "e" = some (bytesOf "[") ∧
      load pairedTree.content? [] (some "e") = .error (.unparsed "e")) ∧
    (pairedTree.content? "c/" = none ∧ pairedTree.content? "c.toml" = some headerContent ∧
      load pairedTree.content? [] (some "c/") = .ok ⟨"B", true⟩) ∧
    (pairedTree.content? "d" = none ∧ pairedTree.content? "d.toml" = none ∧
      load pairedTree.content? [] (some "d") = .ok standard) ∧
    load (pairedTree.addFile "d" headerContent).content? [] (some "c/") =
      load pairedTree.content? [] (some "c/") ∧
    (pathUsed [(bytesOf "HOME", bytesOf "/home/u/")] none =
        "/home/u/.config/roster/config.toml" ∧
      pairedTree.content? "/home/u/.config/roster/config.toml" = some headerContent ∧
      load pairedTree.content? [(bytesOf "HOME", bytesOf "/home/u/")] none = .ok ⟨"B", true⟩) := by
  let c : NamedPath := { directory := [], name := ['c'], slashes := 1, endsInSlash := .inl rfl }
  let d : NamedPath := { directory := [], name := ['d'], slashes := 0, endsInSlash := .inl rfl }
  let e : NamedPath := { directory := [], name := ['e'], slashes := 0, endsInSlash := .inl rfl }
  let home : Environment := [(bytesOf "HOME", bytesOf "/home/u/")]
  obtain ⟨he, hc, hcsecond, hd, hdsecond, hhome⟩ :
      pairedTree.content? e.text = some (bytesOf "[") ∧
      pairedTree.content? c.text = none ∧
      pairedTree.content? c.second.text = some headerContent ∧
      pairedTree.content? d.text = none ∧ pairedTree.content? d.second.text = none ∧
      pairedTree.content? (NamedPath.standard home).text = some headerContent := by
    decide +kernel
  obtain ⟨hstandard, -⟩ :=
    load_reads_first_file pairedTree.content? [(bytesOf "XDG_CONFIG_HOME", [])] none
  obtain ⟨-, hefirst, -⟩ := load_reads_first_file pairedTree.content? [] (some e)
  obtain ⟨-, -, hcloaded, -, hcother⟩ := load_reads_first_file pairedTree.content? [] (some c)
  obtain ⟨-, -, -, hdloaded, -⟩ := load_reads_first_file pairedTree.content? [] (some d)
  obtain ⟨hused, hhomefirst, -⟩ := load_reads_first_file pairedTree.content? home none
  refine ⟨hstandard.trans (by decide +kernel), ⟨he, ?_⟩, ⟨hc, hcsecond, ?_⟩, ⟨hd, hdsecond, ?_⟩, ?_,
    hused.trans (by decide +kernel), by decide +kernel, ?_⟩
  · exact (hefirst _ he).trans (by decide +kernel)
  · exact (hcloaded hc _ hcsecond).trans (by decide +kernel)
  · exact (hdloaded hd hdsecond).trans (by decide +kernel)
  · exact hcother (pairedTree.addFile "d" headerContent).content? rfl (by decide +kernel) fun _ => by
      decide +kernel
  · exact (hhomefirst _ hhome).trans (by decide +kernel)

/-- A slash after a name that has an ending is not dropped: a file beside the directory, of its
name with one more ending, is passed over. -/
theorem load_passes_over_extended :
    let tree := (({} : FileTree).addDirectory "c.toml").addFile "c.toml.toml" headerContent
    let p : NamedPath :=
      { directory := [], name := "c.toml".toList, slashes := 1, endsInSlash := .inl rfl }
    p.text = "c.toml/" ∧ p.extended.text = "c.toml.toml" ∧
    tree.content? p.text = none ∧ tree.content? p.extended.text = some headerContent ∧
    load tree.content? [] (some p.text) ≠
      loadOver (p.extended.source tree.workingDirectory headerContent).layer [] := by
  decide +kernel

end Settings

end Enrollment
