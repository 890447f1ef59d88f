import ClusterQuery.Program

/-!
# File trees

A tree of files in memory, which can be the host of a run. A path is followed from the root
or from the directory in which the run takes place, one name after another; every name but the
last has to be that of a directory, and what is above the root is the root. A directory exists
when it is listed or when something stands in it. Names and paths have a greatest length in
bytes, which a path is held to as a whole before any of it is followed. A file that is written
brings the directories with it that its path passes through.
-/

namespace ClusterQuery

structure FileTree where
  files : List (List String × ByteArray)
  directories : List (List String)
  /-- Where the run takes place, which is the home directory as well. -/
  here : List String

namespace FileTree

inductive Entry
  | file (contents : ByteArray)
  | directory

def missing : FileError :=
  .cannotOpen "No such file or directory (os error 2)"

def notDirectory : FileError :=
  .cannotOpen "Not a directory (os error 20)"

def nameTooLong : FileError :=
  .cannotOpen "File name too long (os error 36)"

def isDirectory : FileError :=
  .cannotRead "Is a directory (os error 21)"

/-- The most bytes in a name. -/
def nameLimit : Nat := 255

/-- The most bytes in a path. -/
def pathLimit : Nat := 4095

def components (path : String) : List String :=
  (path.toList.splitOn '/').map String.ofList

/-- The place that a name leads to from a directory. -/
def step (place : List String) (name : String) : List String :=
  if name = "" ∨ name = "." then place
  else if name = ".." then place.dropLast
  else place ++ [name]

/-- The places in which names are looked up, one after another. -/
def passed (place : List String) : List String → List (List String)
  | [] => []
  | name :: names => place :: passed (step place name) names

variable (t : FileTree)

/-- Where the names of a path begin. -/
def start (path : String) : List String :=
  if path.toList.head? = some '/' then [] else t.here

/-- Later files stand before the earlier ones whose places they take. -/
def write (path : String) (contents : ByteArray) : FileTree where
  files := ((components path).foldl step (t.start path), contents) :: t.files
  directories := passed (t.start path) (components path) ++ t.directories
  here := t.here

def file? (place : List String) : Option ByteArray :=
  t.files.lookup place

def hasDirectory (place : List String) : Bool :=
  (t.here :: t.directories ++ t.files.map Prod.fst).any place.isPrefixOf

/-- Follows names from a directory. -/
def walk (place : List String) : List String → Except FileError Entry
  | [] => .ok .directory
  | name :: names =>
    if nameLimit < name.utf8ByteSize then .error nameTooLong
    else
      match t.file? (step place name) with
      | some contents => if names = [] then .ok (.file contents) else .error notDirectory
      | none =>
        if t.hasDirectory (step place name) then walk (step place name) names
        else .error missing

def entry (path : String) : Except FileError Entry :=
  if path = "" then .error missing
  else if pathLimit < path.utf8ByteSize then .error nameTooLong
  else t.walk (t.start path) (components path)

def read (path : String) : Except FileError ByteArray :=
  match t.entry path with
  | .ok (.file contents) => .ok contents
  | .ok .directory => .error isDirectory
  | .error e => .error e

def defaultConfig : Option String :=
  match t.entry ".config/pvq/config.toml" with
  | .ok _ => some ".config/pvq/config.toml"
  | .error _ => none

/-- The directories that stand under the root of every machine. -/
def standardDirectories : List (List String) :=
  ["bin", "boot", "dev", "etc", "home", "lib", "media", "mnt", "opt", "proc", "root", "run",
    "sbin", "srv", "sys", "tmp", "usr", "var"].map fun name => [name]

/-- The null device reads as an empty file, and the input has names as well. -/
def devices (input : ByteArray) : List (List String × ByteArray) :=
  [(["dev", "null"], ByteArray.empty), (["dev", "stdin"], input), (["dev", "fd", "0"], input)]

/-- A machine that has been given nothing but an input. -/
def bare (input : ByteArray) : FileTree :=
  ⟨devices input, standardDirectories, ["tmp", "run"]⟩

/-- A machine on which these files have been written, in this order. -/
def ofFiles (files : List (String × ByteArray)) (input : ByteArray) : FileTree :=
  files.foldl (fun t f => t.write f.1 f.2) (bare input)

/-- A run in this tree, with an input and a value of the configuration variable. -/
def host (input : ByteArray) (configured : Option String) : Host Id where
  configVariable := configured
  defaultConfig := t.defaultConfig
  read
    | .input => .ok input
    | .file path => t.read path
  refusedRecords _ _ := "not a list of records"
  refusedConfig _ := "not a configuration"

end FileTree

end ClusterQuery
