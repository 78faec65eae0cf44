import Lexicon.Text.Quoted

namespace Lexicon

abbrev Location := List String

inductive Entry
  | directory (entries : List (String × Entry))
  | file (content : ByteArray)

namespace Entry

def inside : Entry → List (String × Entry)
  | .directory entries => entries
  | .file _ => []

def find? : Location → Entry → Option Entry
  | [], entry => some entry
  | name :: names, entry => (entry.inside.lookup name).bind (find? names)

def put (new : Entry) : Location → Entry → Entry
  | [], _ => new
  | name :: names, entry =>
    let next := put new names ((entry.inside.lookup name).getD (.directory []))
    .directory ((name, next) :: entry.inside.filter (·.1 ≠ name))

def remove : Location → Entry → Entry
  | name :: names, .directory entries =>
    let others := entries.filter (·.1 ≠ name)
    match names, entries.lookup name with
    | _ :: _, some next => .directory ((name, remove names next) :: others)
    | _, _ => .directory others
  | _, entry => entry

mutual

def files : Entry → List (Location × ByteArray)
  | .directory entries => filesIn entries
  | .file content => [([], content)]

def filesIn : List (String × Entry) → List (Location × ByteArray)
  | [] => []
  | (name, entry) :: entries =>
    (files entry).map (fun (names, content) => (name :: names, content)) ++ filesIn entries

end

end Entry

/-- Files in a tree of directories. Paths that do not begin at the root of the tree begin at the
working directory. -/
structure FileSystem where
  root : Entry := .directory []
  workingDirectory : Location := []

namespace FileSystem

def empty (workingDirectory : Location) : FileSystem where
  root := .put (.directory []) workingDirectory (.directory [])
  workingDirectory

def put (files : FileSystem) (location : Location) (entry : Entry) : FileSystem :=
  { files with root := entry.put location files.root }

def remove (files : FileSystem) (location : Location) : FileSystem :=
  { files with root := files.root.remove location }

inductive Cause
  | notFound
  | exists
  | notDirectory
  | isDirectory
  | nameTooLong
deriving DecidableEq

def Cause.number : Cause → Nat
  | .notFound => 2
  | .exists => 17
  | .notDirectory => 20
  | .isDirectory => 21
  | .nameTooLong => 36

def Cause.text : Cause → String
  | .notFound => "No such file or directory"
  | .exists => "File exists"
  | .notDirectory => "Not a directory"
  | .isDirectory => "Is a directory"
  | .nameTooLong => "File name too long"

/-- A request that cannot be carried out: the system refuses it, the path holds a null character
and is no path at all, or too many of its directories are missing. -/
inductive Fault
  | refused (cause : Cause) (path : String)
  | nullInPath
  | tooDeep
deriving DecidableEq

def Fault.message : Fault → String
  | .refused cause path => s!"[Errno {cause.number}] {cause.text}: {Text.quoted path}"
  | .nullInPath => "embedded null byte"
  | .tooDeep => "maximum recursion depth exceeded"

end FileSystem

end Lexicon
