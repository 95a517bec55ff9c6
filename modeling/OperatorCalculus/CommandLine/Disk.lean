import OperatorCalculus.CommandLine.Job

-- A disk is a set of files under one directory; a directory is there as soon as a file
-- lies in it. Running a job on a disk tells what the job shows and what it leaves
-- behind. Nothing outside the directory can be reached.
namespace OperatorCalculus

structure Disk where
  files : List (List Text × Text)

namespace Disk

def components (path : Text) : List Text :=
  (Text.splitOn '/' path).filter fun part => !part.isEmpty && part != ['.']

def ofFiles (files : List (Text × Text)) : Disk := ⟨files.map fun f => (components f.1, f.2)⟩

def file? (d : Disk) (place : List Text) : Option Text :=
  (d.files.find? fun f => f.1 == place).map (·.2)

def isDirectory (d : Disk) (place : List Text) : Bool :=
  place.isEmpty || d.files.any fun f => place.isPrefixOf f.1 && place.length < f.1.length

def walk (d : Disk) (place : List Text) : List Text → Except FileFault (List Text)
  | [] => .ok place
  | part :: rest =>
    if d.isDirectory place then
      if part.isEmpty || part == ['.'] then d.walk place rest
      else if part == ['.', '.'] then
        (if place.isEmpty then .error .missing else d.walk place.dropLast rest)
      else d.walk (place ++ [part]) rest
    else if (d.file? place).isSome then .error .notDirectory
    else .error .missing

def resolve (d : Disk) (path : Text) : Except FileFault (List Text) :=
  if path.elem '\x00' then .error .nullCharacter
  else if path.isEmpty || path.head? == some '/' then .error .missing
  else d.walk [] (Text.splitOn '/' path)

def read (d : Disk) (path : Text) : Except FileFault Text :=
  match d.resolve path with
  | .error f => .error f
  | .ok place =>
    match d.file? place with
    | some content => .ok content
    | none => .error (if d.isDirectory place then .isDirectory else .missing)

def list (d : Disk) (path : Text) : List Text :=
  match d.resolve path with
  | .error _ => []
  | .ok place =>
    (d.files.filterMap fun f =>
      if place.isPrefixOf f.1 then f.1[place.length]? else none).eraseDups

def put (place : List Text) (content : Text) : List (List Text × Text) → List (List Text × Text)
  | [] => [(place, content)]
  | f :: rest => if f.1 == place then (place, content) :: rest else f :: put place content rest

def write (d : Disk) (path content : Text) : Disk × Option FileFault :=
  match d.resolve path with
  | .error f => (d, some f)
  | .ok place =>
    if d.isDirectory place then (d, some .isDirectory)
    else (⟨put place content d.files⟩, none)

structure Ran (α : Type) where
  disk : Disk
  shown : List Text
  value : α

def run {α : Type} (d : Disk) : Job α → Ran α
  | .done a => ⟨d, [], a⟩
  | .say lines next =>
    let r := d.run next
    { r with shown := lines ++ r.shown }
  | .read path next => d.run (next (d.read path))
  | .list directory next => d.run (next (d.list directory))
  | .write path content next =>
    let (d', fault) := d.write path content
    d'.run (next fault)

end Disk
end OperatorCalculus
