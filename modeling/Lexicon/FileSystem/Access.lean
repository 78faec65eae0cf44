import Lexicon.FileSystem.Path
import Lexicon.Text.Newlines
import Lexicon.Text.Utf8

namespace Lexicon.FileSystem

def entry (files : FileSystem) (path : String) : Except Cause Entry :=
  (files.locate path).map files.entryAt

def read (files : FileSystem) (path : String) : Except Fault ByteArray :=
  if holdsNull path then .error .nullInPath
  else match files.entry path with
    | .ok (.file content) => .ok content
    | .ok (.directory _) => .error (.refused .isDirectory path)
    | .error cause => .error (.refused cause path)

/-- Where a path puts a file, a new one or one that is there. A slash at the end asks for a
directory, whatever the name before it. -/
def placeOfFile (files : FileSystem) (path : String) : Except Cause Location := do
  let directory ← files.locateParent path
  let name := lastName path
  if trimmed path ≠ path || isDirectoryName name then .error .isDirectory
  else if isTooLong name then .error .nameTooLong
  else match (files.entryAt directory).inside.lookup name with
    | some (.directory _) => .error .isDirectory
    | _ => .ok (directory.location ++ [name])

def write (files : FileSystem) (path : String) (content : ByteArray) : Except Fault FileSystem :=
  if holdsNull path then .error .nullInPath
  else match files.placeOfFile path with
    | .ok location => .ok (files.put location (.file content))
    | .error cause => .error (.refused cause path)

def vacantPlace (files : FileSystem) (path : String) : Except Cause Location := do
  let directory ← files.locateParent path
  let name := lastName path
  if isDirectoryName name then .error .exists
  else if isTooLong name then .error .nameTooLong
  else match (files.entryAt directory).inside.lookup name with
    | some _ => .error .exists
    | none => .ok (directory.location ++ [name])

def makeDirectory (files : FileSystem) (path : String) : Except Fault Unit × FileSystem :=
  if holdsNull path then (.error .nullInPath, files)
  else match files.vacantPlace path, files.entry path with
    | .ok location, _ => (.ok (), files.put location (.directory []))
    -- a directory that is there already is no fault
    | .error _, .ok (.directory _) => (.ok (), files)
    | .error cause, _ => (.error (.refused cause path), files)

/-- Make a directory and the missing ones above it, some number of them at most. Something else in
the way is a fault only for the directory itself. A point at the end of the path asks for no more
than the directory above. -/
def makeWithin (files : FileSystem) : Nat → String → Except Fault Unit × FileSystem
  | 0, _ => (.error .tooDeep, files)
  | n + 1, path =>
    let above := parent (trimmed path)
    if above = "" || (files.entry above).isOk then files.makeDirectory path
    else match files.makeWithin n above with
      | (.ok (), files) | (.error (.refused .exists _), files) =>
        if lastName path = "." then (.ok (), files) else files.makeDirectory path
      | failed => failed

/-- A path that lacks more directories than these is given up. -/
def mostDirectories : Nat := 984

/-- Make a directory and those above it. The ones that are made stay if another cannot be made. -/
def makeDirectories (files : FileSystem) (path : String) : Except Fault Unit × FileSystem :=
  files.makeWithin mostDirectories path

def save (files : FileSystem) (path : String) (content : ByteArray) :
    Except Fault Unit × FileSystem :=
  let directory := parent path
  let (made, files) := if directory = "" then (.ok (), files) else files.makeDirectories directory
  match made with
  | .error fault => (.error fault, files)
  | .ok () =>
    match files.write path content with
    | .error fault => (.error fault, files)
    | .ok files => (.ok (), files)

def delete (files : FileSystem) (path : String) : FileSystem :=
  match files.locate path with
  | .ok trail => files.remove trail.location
  | .error _ => files

inductive Unreadable
  | fault (fault : Fault)
  | encoding (fault : Text.Utf8.Fault)
deriving DecidableEq

def readText (files : FileSystem) (path : String) : Except Unreadable String :=
  match files.read path with
  | .error fault => .error (.fault fault)
  | .ok content =>
    match Text.Utf8.decode content.toList with
    | .error fault => .error (.encoding fault)
    | .ok text => .ok (Text.unifyNewlines text)

def changedSince (files earlier : FileSystem) : List (Location × ByteArray) :=
  files.root.files.filter fun (location, content) =>
    match earlier.root.find? location with
    | some (.file old) => old.data ≠ content.data
    | _ => true

end Lexicon.FileSystem
