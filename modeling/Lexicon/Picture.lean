import Lexicon.Diagram
import Lexicon.FileSystem.Access

namespace Lexicon.Picture

/-- What turns the source of a diagram into a picture of some format. -/
abbrev Renderer := String → ByteArray → ByteArray

inductive Fault
  | noFormat
  | unknownFormat (fault : Diagram.UnknownFormat)
  | file (fault : FileSystem.Fault)
  | noRenderer
deriving DecidableEq

def Fault.message : Fault → String
  | .noFormat => "'list' object has no attribute 'lower'"
  | .unknownFormat fault => fault.message
  | .file fault => fault.message
  | .noRenderer =>
    "failed to execute PosixPath('dot'), " ++
      "make sure the Graphviz executables are on your systems' PATH"

def formatOf (format : Option String) : Except Fault String :=
  match format with
  | none => .error .noFormat
  | some name => (Diagram.formatOf name).mapError .unknownFormat

/-- Write the source of the diagram to a path, and let the renderer make a picture of it beside
it. The source is deleted when the picture is there. -/
def draw (renderer : Option Renderer) (files : FileSystem) (path : String)
    (format : Option String) : Except Fault Unit × FileSystem :=
  let source := Diagram.machine.render.toUTF8
  match formatOf format with
  | .error fault => (.error fault, files)
  | .ok format =>
    match files.save path source with
    | (.error fault, files) => (.error (.file fault), files)
    | (.ok (), files) =>
      match renderer with
      | none => (.error .noRenderer, files)
      | some renderer =>
        match files.write s!"{path}.{format}" (renderer format source) with
        | .error fault => (.error (.file fault), files)
        | .ok files => (.ok (), files.delete path)

end Lexicon.Picture
