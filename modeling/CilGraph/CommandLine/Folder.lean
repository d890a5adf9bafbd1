import CilGraph.Error

namespace CilGraph
namespace CommandLine

/-!
# Folders

A folder is a set of files with their places, and the directories are those
that the places lead through.

A path is followed name by name.  Every name but the last leads into a directory
that exists; one dot stays, and two dots climb.  Paths may climb out of the
folder or begin at the top of the file system, and what is known of these parts
is only that they are directories.
-/

/-- Where a path begins, or what is left of it after climbing. -/
inductive Origin where
  /-- The working folder. -/
  | working
  /-- The directories above the working folder. -/
  | above
  /-- The top of the file system. -/
  | top
deriving DecidableEq, Repr

/-- A place in the file system: the names that lead to it. -/
structure Place where
  origin : Origin
  names : List String := []
deriving DecidableEq, Repr

namespace Place

/-- The place with the given name in a directory. -/
def child (place : Place) (name : String) : Place :=
  { place with names := place.names ++ [name] }

/-- The directory in which a place is.  Nothing is above the top. -/
def parent (place : Place) : Place :=
  if place.names.isEmpty then
    match place.origin with
    | .working => ⟨.above, []⟩
    | origin => ⟨origin, []⟩
  else { place with names := place.names.dropLast }

/-- Climbing from a name in a directory leads back to the directory. -/
theorem parent_child (place : Place) (name : String) : (place.child name).parent = place := by
  simp [child, parent]

end Place

/-! ## Paths -/

/-- A path, divided at its slashes. -/
structure Path where
  origin : Origin
  /-- The names that lead to the directory of the last. -/
  directories : List String
  /-- The last name, unless there is none at all. -/
  last : Option String
  /-- Whether a slash is at the end. -/
  endsWithSlash : Bool
deriving DecidableEq, Repr

namespace Path

/-- The longest name, in bytes. -/
def longestName : Nat := 255

/-- The longest path, in bytes. -/
def longestPath : Nat := 4095

/-- Divide a path at its slashes.  Repeated slashes are as one. -/
def ofText (text : String) : Path :=
  let names := (text.toList.splitOnP (· == '/')).filter (fun name => !name.isEmpty)
  {
    origin := if text.toList.head? = some '/' then .top else .working
    directories := names.dropLast.map String.ofList
    last := names.getLast?.map String.ofList
    endsWithSlash := text.toList.getLast? == some '/' }

/-- Refuse a path that is empty or too long. -/
def read (text : String) : Except FileFault Path :=
  if text.isEmpty then .error .notFound
  else if text.utf8ByteSize > longestPath then .error .nameTooLong
  else .ok (ofText text)

end Path

/-! ## Files -/

/-- The files of a file system, each with its place. -/
structure Folder where
  files : List (Place × List UInt8)
deriving DecidableEq, Repr

namespace Folder

/-- What a place holds. -/
inductive Content where
  | file (bytes : List UInt8)
  | directory
deriving DecidableEq, Repr

/-- Replace a file or add it. -/
def put (place : Place) (bytes : List UInt8) :
    List (Place × List UInt8) -> List (Place × List UInt8)
  | [] => [(place, bytes)]
  | file :: rest =>
    if file.1 = place then (place, bytes) :: rest else file :: put place bytes rest

/-- The folder with the given files.  Of two with one path the later counts. -/
def ofList (files : List (String × List UInt8)) : Folder :=
  ⟨files.foldl
    (fun known file =>
      let path := Path.ofText file.1
      let names := (path.directories ++ path.last.toList).filter (· != ".")
      put ⟨.working, names⟩ file.2 known)
    []⟩

/-- What is at a place. -/
def content? (folder : Folder) (place : Place) : Option Content :=
  match folder.files.lookup place with
  | some bytes => some (.file bytes)
  | none =>
    let leadsOn := folder.files.any
      (fun file => file.1.origin = place.origin && place.names.isPrefixOf file.1.names)
    if place.names.isEmpty || leadsOn then some .directory else none

/-- Look a name up in a directory. -/
def find (folder : Folder) (directory : Place) (name : String) :
    Except FileFault (Option Content) :=
  if name.utf8ByteSize > Path.longestName then .error .nameTooLong
  else .ok (folder.content? (directory.child name))

/-- Go from a directory into another. -/
def enter (folder : Folder) (directory : Place) (name : String) : Except FileFault Place :=
  if name = "." then .ok directory
  else if name = ".." then .ok directory.parent
  else do
    match ← folder.find directory name with
    | some .directory => .ok (directory.child name)
    | some (.file _) => .error .notDirectory
    | none => .error .notFound

/-- Go to the directory that holds the last name of a path. -/
def approach (folder : Folder) (path : Path) : Except FileFault Place :=
  path.directories.foldlM folder.enter ⟨path.origin, []⟩

/-- The last name of a path, if it does not stand for a directory by its
form. -/
def properName? (path : Path) : Option String :=
  path.last.filter (fun name => name != "." && name != "..")

/-- The contents of a file.  A path with a slash at its end asks for a
directory. -/
def read (folder : Folder) (text : String) : Except FileFault (List UInt8) := do
  let path ← Path.read text
  let directory ← folder.approach path
  match properName? path with
  | none => .error .isDirectory
  | some name =>
    match ← folder.find directory name with
    | some (.file bytes) => if path.endsWithSlash then .error .notDirectory else .ok bytes
    | some .directory => .error .isDirectory
    | none => .error .notFound

/-- Write a file into a directory that exists.  A directory cannot be written,
and a slash at the end asks for one. -/
def write (folder : Folder) (text : String) (bytes : List UInt8) : Except FileFault Folder := do
  let path ← Path.read text
  let directory ← folder.approach path
  match properName? path with
  | none => .error .isDirectory
  | some name =>
    if path.endsWithSlash then .error .isDirectory
    else
      match ← folder.find directory name with
      | some .directory => .error .isDirectory
      | _ => .ok ⟨put (directory.child name) bytes folder.files⟩

/-! ## What a file system keeps -/

/-- What is put at a place is found there. -/
theorem lookup_put (place : Place) (bytes : List UInt8) (files : List (Place × List UInt8)) :
    (put place bytes files).lookup place = some bytes := by
  induction files with
  | nil => simp [put]
  | cons file rest ih =>
    rcases file with ⟨found, kept⟩
    by_cases h : found = place
    · simp [put, h]
    · have other : (place == found) = false := by simpa using fun same => h same.symm
      simp [put, h, List.lookup_cons, other, ih]

end Folder
end CommandLine
end CilGraph
