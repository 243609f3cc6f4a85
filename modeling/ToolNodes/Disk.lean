import ToolNodes.Text.Words

/-!
# A disk

Files, directories and devices, by place: the names on the way from the working directory, or from
the root behind an empty name; `..` leads above the working directory. A path that is asked for may
have dot and parent components anywhere, and is walked component by component: everything before the
last must be a directory that may be walked through. What the system refuses at an entry is part of
the entry, with the cause that it names.

A file is written in two steps. Opening it empties it, or makes it, or is refused and changes nothing.
What is written then may break off, and the front of it that got through stays in the file.
-/

namespace ToolNodes

inductive DiskError where
  | notFound
  | alreadyExists
  | notDirectory
  | isDirectory
  | nameTooLong
  | nulInPath
  | invalidUtf8
  /-- Any other cause that the system names, by its number. -/
  | os (number : Nat) (words : String)
deriving DecidableEq, Repr

def DiskError.message : DiskError → String
  | notFound => "No such file or directory (os error 2)"
  | alreadyExists => "File exists (os error 17)"
  | notDirectory => "Not a directory (os error 20)"
  | isDirectory => "Is a directory (os error 21)"
  | nameTooLong => "File name too long (os error 36)"
  | nulInPath => "file name contained an unexpected NUL byte"
  | invalidUtf8 => "stream did not contain valid UTF-8"
  | os number words => words ++ " (os error " ++ toString number ++ ")"

/-- What the system refuses at an entry, and why: to read it, to write to it or make something in it,
and to walk on from it. -/
structure Disk.Access where
  read : Option DiskError := none
  write : Option DiskError := none
  search : Option DiskError := none
deriving DecidableEq

inductive Disk.Entry where
  | file (content : List UInt8) (access : Disk.Access := {})
  | directory (access : Disk.Access := {})
  /-- Something that is always read as the same and keeps nothing of what is written to it. -/
  | device (content : List UInt8) (access : Disk.Access := {})
deriving DecidableEq

/-- The entries of a disk by place, and how many bytes of a file can be written before that breaks
off, with the cause. The working directory, those above it and the root are there without an entry. -/
structure Disk where
  entries : List (List String × Disk.Entry) := []
  room : Option (Nat × DiskError) := none
deriving DecidableEq

/-- A path with another behind it. -/
def joinPath (front back : String) : String :=
  if front.isEmpty || front.endsWith "/" then front ++ back else front ++ "/" ++ back

/-- The parts of a path between its slashes, empty ones included. -/
def pathParts (path : String) : List String :=
  (Text.splitOn (· = '/') path.toList).map String.ofList

/-- The components of a path that count: no empty ones and no dots but a leading one. The first is
empty if the path is absolute. -/
def pathComponents (path : String) : List String :=
  match pathParts path with
  | [] => []
  | first :: rest =>
    let rest := rest.filter fun c => c ≠ "" && c ≠ "."
    if first = "" then (if path = "" then [] else "" :: rest) else first :: rest

namespace Disk

/-- The longest name of a file, in bytes. -/
def maxName : Nat := 255

/-- The longest path, in bytes. -/
def maxPath : Nat := 4095

def accessAt (d : Disk) (place : List String) : Access :=
  match d.entries.lookup place with
  | some (.directory access) => access
  | _ => {}

/-- The entry at a place. The working directory, those above it and the root are directories. -/
def entryAt? (d : Disk) (place : List String) : Option Entry :=
  if place = [""] || place.all (· = "..") then some (.directory (d.accessAt place))
  else d.entries.lookup place

/-- The place above a place. The root is above itself. -/
def above (place : List String) : List String :=
  if place = [""] then place
  else if place.all (· = "..") then place ++ [".."]
  else place.dropLast

structure Target where
  place : List String
  /-- Whether the path ends in a slash or a dot, so that only a directory will do. -/
  directory : Bool

def walk (d : Disk) (place : List String) : List String → Except DiskError Target
  | [] => .ok ⟨place, true⟩
  | c :: rest =>
    match d.entryAt? place with
    | none => .error .notFound
    | some (.directory access) =>
      if c = "" then d.walk place rest
      else
        match access.search with
        | some e => .error e
        | none =>
          if c = "." then d.walk place rest
          else if c = ".." then d.walk (above place) rest
          else if maxName < c.utf8ByteSize then .error .nameTooLong
          else if rest.all String.isEmpty then .ok ⟨place ++ [c], !rest.isEmpty⟩
          else d.walk (place ++ [c]) rest
    | some _ => .error .notDirectory

def resolve (d : Disk) (path : String) : Except DiskError Target :=
  if path.toList.contains '\x00' then .error .nulInPath
  else if path = "" then .error .notFound
  else if maxPath < path.utf8ByteSize then .error .nameTooLong
  else
    match pathParts path with
    | "" :: rest => d.walk [""] rest
    | parts => d.walk [] parts

def lookup (d : Disk) (path : String) : Except DiskError Entry :=
  (d.resolve path).bind fun target =>
    match d.entryAt? target.place with
    | none => .error .notFound
    | some (.directory access) => .ok (.directory access)
    | some e => if target.directory then .error .notDirectory else .ok e

def contains (d : Disk) (path : String) : Bool := (d.lookup path).toBool

def Entry.read : Entry → Except DiskError (List UInt8)
  | file content access => access.read.elim (.ok content) .error
  | device content access => access.read.elim (.ok content) .error
  | directory access => .error (access.read.getD .isDirectory)

def read (d : Disk) (path : String) : Except DiskError (List UInt8) :=
  (d.lookup path).bind Entry.read

/-- The disk without an entry at a place. -/
def clear (d : Disk) (place : List String) : Disk :=
  { d with entries := d.entries.filter fun e => e.1 ≠ place }

def put (d : Disk) (place : List String) (e : Entry) : Disk :=
  { d with entries := (place, e) :: (d.clear place).entries }

/-- Why nothing can be made in the directory of a place, if that is so. -/
def refusalAt (d : Disk) (place : List String) : Option DiskError :=
  match d.entryAt? place.dropLast with
  | some (.directory access) => access.write
  | _ => none

/-- What is opened for writing: a file, which is at a place and empty now, or a device. -/
inductive Opened where
  | file (place : List String) (access : Access)
  | device

/-- Opens what a path leads to for writing, a new file if nothing is there. -/
def openToWrite (d : Disk) (path : String) : Except DiskError Opened :=
  (d.resolve path).bind fun target =>
    if target.directory then .error .isDirectory
    else
      match d.entryAt? target.place with
      | some (.directory _) => .error .isDirectory
      | some (.file _ access) => access.write.elim (.ok (.file target.place access)) .error
      | some (.device _ access) => access.write.elim (.ok .device) .error
      | none => (d.refusalAt target.place).elim (.ok (.file target.place {})) .error

/-- How much of a content gets into a file, and how writing it ends. -/
def taken (d : Disk) (content : List UInt8) : List UInt8 × Except DiskError Unit :=
  match d.room with
  | none => (content, .ok ())
  | some (room, e) => if room < content.length then (content.take room, .error e) else (content, .ok ())

/-- Writes a content over that of a file, or to a new file or a device. -/
def write (d : Disk) (path : String) (content : List UInt8) : Disk × Except DiskError Unit :=
  match d.openToWrite path with
  | .error e => (d, .error e)
  | .ok .device => (d, .ok ())
  | .ok (.file place access) => (d.put place (.file (d.taken content).1 access), (d.taken content).2)

def makeDirectory (d : Disk) (path : String) : Except DiskError Disk :=
  (d.resolve path).bind fun target =>
    match d.entryAt? target.place with
    | some _ => .error .alreadyExists
    | none => (d.refusalAt target.place).elim (.ok (d.put target.place .directory)) .error

def isDirectory (d : Disk) (path : String) : Bool :=
  match d.lookup path with
  | .ok (.directory _) => true
  | _ => false

def pathOf (components : List String) : String :=
  if components = [""] then "/" else "/".intercalate components

/-- Makes the directory of the components, given last to first, with those above it that are
missing. Directories that were made stay, also on failure. -/
def makeDirectories (d : Disk) : (last : List String) → Disk × Except DiskError Unit
  | [] => (d, .ok ())
  | name :: outer =>
    let path := pathOf (name :: outer).reverse
    match d.makeDirectory path with
    | .ok made => (made, .ok ())
    | .error .notFound =>
      match d.makeDirectories outer with
      | (made, .error e) => (made, .error e)
      | (made, .ok ()) =>
        match made.makeDirectory path with
        | .ok made => (made, .ok ())
        | .error e => if made.isDirectory path then (made, .ok ()) else (made, .error e)
    | .error e => if d.isDirectory path then (d, .ok ()) else (d, .error e)

def remove (d : Disk) (path : String) : Disk :=
  match d.resolve path with
  | .ok target => d.clear target.place
  | .error _ => d

/-- The files below the working directory, with their contents. -/
def files (d : Disk) : List (List String × List UInt8) :=
  d.entries.filterMap fun e =>
    match e.2 with
    | .file content _ =>
      if e.1.head? = some "" || e.1.head? = some ".." then none else some (e.1, content)
    | _ => none

end Disk

end ToolNodes
