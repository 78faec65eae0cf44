namespace Lexicon

structure Drawing where
  label : Option String := none
  attributes : List (String × String) := []

structure Digraph where
  name : String
  layout : Drawing
  nodes : List (String × Drawing)
  edges : List ((String × String) × Drawing)

namespace Digraph

def isPlain (text : String) : Bool :=
  match text.toList with
  | [] => false
  | c :: chars =>
    let inName := fun c => Char.isAlphanum c || c = '_'
    (c.isAlpha || c = '_') && chars.all inName || (c :: chars).all Char.isDigit

/-- Backslashes stand as they are, since they mark line ends in labels. -/
def word (text : String) : String :=
  if isPlain text then text
  else
    let escaped := text.toList.flatMap fun c => if c = '"' then ['\\', c] else [c]
    String.ofList ('"' :: (escaped ++ ['"']))

def attributeList (drawing : Drawing) : String :=
  -- the label comes first, whatever the names of the other attributes
  let labelled := (drawing.label.map fun label => ("label", label)).toList
  let named := drawing.attributes.mergeSort fun a b => a.1 ≤ b.1
  let pairs := (labelled ++ named).map fun (name, value) => s!"{name}={word value}"
  "[" ++ String.intercalate " " pairs ++ "]"

def render (graph : Digraph) : String :=
  let nodes := graph.nodes.map fun (node, drawing) => s!"\t{word node} {attributeList drawing}\n"
  let edges := graph.edges.map fun ((source, target), drawing) =>
    s!"\t{word source} -> {word target} {attributeList drawing}\n"
  s!"digraph {word graph.name} \x7b\n\tgraph {attributeList graph.layout}\n" ++
    String.join nodes ++ String.join edges ++ "\x7d\n"

end Digraph

end Lexicon
