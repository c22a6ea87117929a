import Orchestration.Failure

namespace Orchestration

/-- A place in a file tree: the names on the way to it from the root. -/
abbrev Place := List String

/-- The files of a machine, as far as they matter, the working directory, directories beside those
on the way to files, and links with the places that they stand for. -/
structure FileTree where
  workplace : Place
  files : List (Place × Except FileFault String)
  directories : List Place := []
  links : List (Place × Place) := []

namespace FileTree

def names (path : String) : List String :=
  (path.toList.splitOnP (· == '/')).map String.ofList

/-- Paths of so many bytes, and longer ones, are refused. -/
def pathBound : Nat := 4096

/-- The working directory. Its own name is one that no path can spell: a path does not come back
to it by name. -/
def freshWorkplace : Place := ["tmp", "/"]

/-- The directories that stand at the root of every machine. -/
def rootDirectories : List Place :=
  ["boot", "etc", "home", "media", "mnt", "opt", "root", "run", "srv", "sys", "usr", "var"].map
    fun name => [name]

/-- The null device, a file that is always empty. -/
def nullDevice : Place := ["dev", "null"]

def openFiles : Place := ["proc", "self", "fd"]

def standardInput : Place := openFiles ++ ["0"]

/-- The tree of a working directory that holds some files and nothing else. Nothing comes from the
standard input. -/
def ofFiles (files : List (String × Except FileFault String)) : FileTree where
  workplace := freshWorkplace
  files := [(nullDevice, .ok ""), (standardInput, .ok "")] ++
    files.map fun file => (freshWorkplace ++ (names file.1).filter (!·.isEmpty), file.2)
  directories := rootDirectories
  links := [(["dev", "stdin"], standardInput), (["dev", "fd"], openFiles),
    (["proc", "self", "cwd"], freshWorkplace)]

def file? (t : FileTree) (place : Place) : Option (Except FileFault String) :=
  (t.files.find? fun file => file.1 = place).map Prod.snd

/-- Whether the second place lies below the first one. -/
def isAbove (place below : Place) : Bool := place.isPrefixOf below && place != below

def isDirectory (t : FileTree) (place : Place) : Bool :=
  (t.workplace :: t.directories).any (place.isPrefixOf ·) ||
    t.files.any fun file => isAbove place file.1

/-- The place that a link stands for; any other place stands for itself. -/
def follow (t : FileTree) (place : Place) : Place :=
  ((t.links.find? fun link => link.1 = place).map Prod.snd).getD place

/-- Walks one name further. Only a directory can be walked through, also to itself or upwards. -/
def walk (t : FileTree) (place : Place) (name : String) : Option Place :=
  if !t.isDirectory place then none
  else if name = "" ∨ name = "." then some place
  else if name = ".." then some place.dropLast
  else some (t.follow (place ++ [name]))

/-- The place that a path leads to. The empty path leads nowhere. -/
def locate? (t : FileTree) (path : String) : Option Place :=
  match path.toList with
  | [] => none
  | c :: _ =>
    if path.utf8ByteSize < pathBound then
      (names path).foldlM t.walk (if c = '/' then [] else t.workplace)
    else none

/-- The content of the file at the end of a path. -/
def read (t : FileTree) (path : String) : Except FileFault String :=
  ((t.locate? path).bind t.file?).getD (.error .missing)

/-- Makes sure that there is a file at a place, unless a directory is there or a file in the way. -/
def touch (t : FileTree) (place : Place) : FileTree :=
  if (t.file? place).isSome || t.isDirectory place ||
      t.files.any (fun file => isAbove file.1 place) then t
  else { t with files := t.files ++ [(place, .ok "")] }

/-- Adds to the end of the file at a place, if there is one. -/
def append (t : FileTree) (place : Place) (text : String) : FileTree :=
  { t with
    files := t.files.map fun file =>
      if file.1 = place then (file.1, file.2.map (· ++ text)) else file }

end FileTree

end Orchestration
