import Lexicon.Digraph
import Lexicon.Machine
import Lexicon.Text.LowerCase

namespace Lexicon.Diagram

def refusalNode : String :=
  "error"

def addLabel (edge : String × String) (label : String) :
    List ((String × String) × List String) → List ((String × String) × List String)
  | [] => [(edge, [label])]
  | (known, labels) :: rest =>
    if known = edge then (known, labels ++ [label]) :: rest
    else (known, labels) :: addLabel edge label rest

/-- The transitions of the machine, those between the same two nodes joined into one edge. -/
def edges : List ((String × String) × List String) :=
  transitionTable.foldl (fun edges (state, charClass, transition) =>
    let target := (transition.next?.map State.name).getD refusalNode
    addLabel (state.name, target) s!"{charClass.name}/{transition.action}" edges) []

def ofState (state : State) : String × Drawing :=
  match state, state.category with
  | .start, _ => (state.name, { attributes := [("shape", "doublecircle")] })
  | _, some category =>
    (state.name,
      { label := s!"{state.name}\\n[{category.name}]", attributes := [("shape", "ellipse")] })
  | _, none => (state.name, { attributes := [("shape", "ellipse")] })

def machine : Digraph where
  name := "scanner"
  layout := { attributes := [("rankdir", "LR")] }
  nodes := State.all.map ofState ++
    [(refusalNode,
      { label := "UnexpectedSymbol", attributes := [("shape", "box"), ("color", "red")] })]
  edges := edges.map fun (edge, labels) =>
    (edge, { label := String.intercalate "\\n" labels, attributes := [("fontsize", "8")] })

def formats : List String :=
  ["bmp", "canon", "cgimage", "cmap", "cmapx", "cmapx_np", "dot", "dot_json", "eps", "exr", "fig",
   "gd", "gd2", "gif", "gtk", "gv", "ico", "imap", "imap_np", "ismap", "jp2", "jpe", "jpeg", "jpg",
   "json", "json0", "pct", "pdf", "pic", "pict", "plain", "plain-ext", "png", "pov", "ps", "ps2",
   "psd", "sgi", "svg", "svg_inline", "svgz", "tga", "tif", "tiff", "tk", "vml", "vmlz", "vrml",
   "wbmp", "webp", "x11", "xdot", "xdot1.2", "xdot1.4", "xdot_json", "xlib"]

structure UnknownFormat where
  format : String
deriving DecidableEq

def UnknownFormat.message (fault : UnknownFormat) : String :=
  let known := String.intercalate ", " (formats.map Text.quoted)
  s!"unknown format: {Text.quoted fault.format} (must be one of [{known}])"

def formatOf (name : String) : Except UnknownFormat String :=
  let format := Text.lowerCase name
  if formats.contains format then .ok format else .error ⟨format⟩

end Lexicon.Diagram
