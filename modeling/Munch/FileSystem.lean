/-!
# File systems

To a reader of sources a file system is what opening each path gives. `Tree.open` is that function
for a tree of directories and files with a working directory in it.
-/

namespace Munch

inductive Fault where
  | noSuchFile
  | isDirectory
  | notDirectory
  | nameTooLong
  | permissionDenied
  | inputOutput
  deriving DecidableEq, Repr

def Fault.message : Fault → String
  | noSuchFile => "No such file or directory"
  | isDirectory => "Is a directory"
  | notDirectory => "Not a directory"
  | nameTooLong => "File name too long"
  | permissionDenied => "Permission denied"
  | inputOutput => "Input/output error"

/-- An opened file: reading it gives its bytes, or fails at once. -/
abbrev Contents := Except Fault (List UInt8)

abbrev FileSystem := String → Except Fault Contents

inductive Entry where
  | directory
  | file (contents : Contents)

/-- A tree of directories and files, by the names that lead to them from the root. -/
structure Tree where
  entries : List (List String × Entry) := []

namespace Tree

def names (path : String) : List String := path.splitOn "/"

/-- Paths that do not start with a slash start here. Its names are empty, so that no path reaches
it by name. -/
def home : List String := ["", ""]

/-- The file system's own device whose file opens but cannot be read. -/
def memory : List String := ["proc", "self", "mem"]

def empty : Tree :=
  { entries := [([], .directory), ([""], .directory), (home, .directory), (["proc"], .directory),
      (["proc", "self"], .directory), (memory, .file (.error .inputOutput))] }

/-- Adds an entry below the working directory, and the directories that lead to it. An entry that
is there already stays. -/
def add (t : Tree) (path : String) (entry : Entry) : Tree :=
  let place := (names path).filter fun name => name != "" && name != "."
  let parents := (List.range place.length).map fun n => (home ++ place.take n, Entry.directory)
  { entries := t.entries ++ parents ++ [(home ++ place, entry)] }

def ofListing (directories : List String) (files : List (String × List UInt8)) : Tree :=
  let t := directories.foldl (fun t path => t.add path .directory) empty
  files.foldl (fun t (path, bytes) => t.add path (.file (.ok bytes))) t

def find? (t : Tree) (place : List String) : Option Entry := t.entries.lookup place

/-- Follows names from a place. A name has at most 255 bytes. -/
def walk (t : Tree) (place : List String) : List String → Except Fault Entry
  | [] => match t.find? place with
    | some entry => .ok entry
    | none => .error .noSuchFile
  | name :: rest =>
    match t.find? place with
    | none => .error .noSuchFile
    | some (.file _) => .error .notDirectory
    | some .directory =>
      -- also the empty names between slashes need a directory to stand in
      if name = "" ∨ name = "." then t.walk place rest
      else if name = ".." then t.walk place.dropLast rest
      else if 255 < name.utf8ByteSize then .error .nameTooLong
      else t.walk (place ++ [name]) rest

/-- Opens a path, of at most 4095 bytes. Directories do not open. -/
def openPath (t : Tree) (path : String) : Except Fault Contents :=
  if path = "" then .error .noSuchFile
  else if 4096 ≤ path.utf8ByteSize then .error .nameTooLong
  else
    let start := if path.front = '/' then [] else home
    match t.walk start (names path) with
    | .error fault => .error fault
    | .ok .directory => .error .isDirectory
    | .ok (.file contents) => .ok contents

end Tree

end Munch
