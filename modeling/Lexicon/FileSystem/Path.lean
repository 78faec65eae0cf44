import Lexicon.FileSystem.Basic

namespace Lexicon.FileSystem

/-- The names in a path. An empty one stands for the place itself, so a slash at the end asks
for a directory. -/
def parts (path : String) : List String :=
  (path.toList.splitOn '/').map String.ofList

def isTooLong (name : String) : Bool :=
  255 < name.utf8ByteSize

/-- The way to an entry: the names on it and the entries that they lead to, the last first. -/
abbrev Trail := List (String × Entry)

def Trail.location (trail : Trail) : Location :=
  (trail.map (·.1)).reverse

def entryAt (files : FileSystem) (trail : Trail) : Entry :=
  (trail.head?.map (·.2)).getD files.root

/-- Follow names from the end of a trail. Every name has to be in a directory, also one that
stands for the directory itself. -/
def follow (files : FileSystem) : Trail → List String → Except Cause Trail
  | trail, [] => .ok trail
  | trail, name :: names =>
    match files.entryAt trail with
    | .file _ => .error .notDirectory
    | .directory entries =>
      if name = "" || name = "." then files.follow trail names
      else if name = ".." then files.follow trail.tail names
      else if isTooLong name then .error .nameTooLong
      else match entries.lookup name with
        | none => .error .notFound
        | some entry => files.follow ((name, entry) :: trail) names

def start (files : FileSystem) (path : String) : Except Cause Trail :=
  if path = "" then .error .notFound
  else if 4096 ≤ path.utf8ByteSize then .error .nameTooLong
  else if path.toList.head? = some '/' then .ok []
  else files.follow [] files.workingDirectory

def locate (files : FileSystem) (path : String) : Except Cause Trail := do
  files.follow (← files.start path) (parts path)

def holdsNull (path : String) : Bool :=
  path.toList.contains '\x00'

def isSlash (c : Char) : Bool :=
  c = '/'

def trimmed (path : String) : String :=
  String.ofList (path.toList.reverse.dropWhile isSlash).reverse

def parent (path : String) : String :=
  let directory := path.toList.reverse.dropWhile (!isSlash ·)
  let names := directory.dropWhile isSlash
  String.ofList (if names.isEmpty then directory else names).reverse

def lastName (path : String) : String :=
  (parts (trimmed path)).getLast?.getD ""

def isDirectoryName (name : String) : Bool :=
  name = "" || name = "." || name = ".."

def locateParent (files : FileSystem) (path : String) : Except Cause Trail := do
  files.follow (← files.start path) ((parts (trimmed path)).dropLast ++ [""])

def ancestors (path : String) : List String :=
  let pieces := parts path
  ((List.range pieces.length).map fun n =>
    String.intercalate "/" (pieces.take (n + 1))).filter (· ≠ "")

end Lexicon.FileSystem
