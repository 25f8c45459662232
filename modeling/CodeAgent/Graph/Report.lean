import CodeAgent.Graph.Basic
import CodeAgent.Json.Value

namespace CodeAgent

namespace Graph

def sortedTexts (ts : List Text) : List Text := ts.mergeSort Text.ble

def edgeCount (g : Graph) : Nat := g.nodes.foldl (fun total (_, n) => total + n.imports.length) 0

def summaryJson (g : Graph) : Json :=
  .obj [("files", .int g.nodes.length), ("edges", .int g.edgeCount),
    ("parse_errors", .arr ((sortedTexts (g.broken.map g.relative)).map .str))]

def nodeJson (g : Graph) (n : GraphNode) : Json :=
  .obj [("path", .str (g.relative n.path)),
    ("imports", .arr ((sortedTexts (n.imports.map g.relative)).map .str)),
    ("dependents", .arr ((sortedTexts (n.dependents.map g.relative)).map .str))]

def toJson (g : Graph) : Json :=
  .obj [("root", .str g.root.text),
    ("nodes", .arr ((sortedPaths g.nodes.keys).filterMap fun p => (g.node? p).map g.nodeJson))]

end Graph
end CodeAgent
