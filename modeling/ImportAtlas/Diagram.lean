import ImportAtlas.Fault
import ImportAtlas.Json.Writer

/-!
# Diagrams

What the analyses draw: nodes with positions and edges between them. A diagram is written as a
JSON object for a renderer; fields that say nothing are left out.
-/

namespace ImportAtlas

namespace Diagram

inductive NodeKind where
  | circular
  | zombie
  | function
  | cluster
  deriving DecidableEq, Repr

namespace NodeKind

def text : NodeKind → Text
  | .circular => "circular"
  | .zombie => "zombie"
  | .function => "function"
  | .cluster => "cluster"

def all : List NodeKind := [.circular, .zombie, .function, .cluster]

def ofText (text : Text) : Except Fault NodeKind :=
  match all.find? fun kind => kind.text == text with
  | some kind => .ok kind
  | none => .error .unknownKind

end NodeKind

inductive EdgeKind where
  | importing
  | exporting
  | dynamic
  deriving DecidableEq, Repr

namespace EdgeKind

def text : EdgeKind → Text
  | .importing => "import"
  | .exporting => "export"
  | .dynamic => "dynamic"

def all : List EdgeKind := [.importing, .exporting, .dynamic]

def ofText (text : Text) : Except Fault EdgeKind :=
  match all.find? fun kind => kind.text == text with
  | some kind => .ok kind
  | none => .error .unknownKind

end EdgeKind

structure Position where
  x : Number
  y : Number
  deriving DecidableEq, Inhabited

def Position.toJson (position : Position) : Json :=
  .obj [("x", .num position.x), ("y", .num position.y)]

/-- What a node shows. -/
structure NodeData where
  label : Atom
  path : Text
  directory : Atom := .text ""
  fileType : Option Text := none
  isComponent : Option Bool := none
  deriving DecidableEq, Inhabited

/-- A text that is written only if there is one and it is not empty. -/
def given (text : Option Text) : Option Text := text.filter fun text => !text.isEmpty

def NodeData.toJson (data : NodeData) : Json :=
  let fields : List (Text × Json) :=
    [("label", .atom data.label), ("fullPath", .text data.path),
     ("directory", .atom data.directory)]
  .obj (fields ++ Json.optionalField "fileType" ((given data.fileType).map Json.text) ++
    Json.optionalField "isComponent" (data.isComponent.map Json.bool))

/-- A node, placed relative to its parent if it has one. -/
structure Node where
  id : Text
  position : Position
  data : NodeData
  kind : Option NodeKind := none
  parent : Option Text := none
  deriving DecidableEq, Inhabited

def Node.toJson (node : Node) : Json :=
  let fields : List (Text × Json) :=
    [("id", .text node.id), ("position", node.position.toJson), ("data", node.data.toJson)]
  let parent := given node.parent
  .obj (fields ++ Json.optionalField "type" (node.kind.map fun kind => .text kind.text) ++
    Json.optionalField "parentNode" (parent.map Json.text) ++
    Json.optionalField "extent" (parent.map fun _ => .text "parent"))

/-- The identifier of an edge: both ends with a dash between them. -/
def edgeId (source target : Text) : Text := source ++ "-" ++ target

structure Edge where
  source : Text
  target : Text
  kind : Option EdgeKind := none
  label : Option Text := none
  animated : Bool := false
  style : List (Text × Json) := []
  markerEnd : List (Text × Json) := []
  deriving Inhabited

namespace Edge

def id (edge : Edge) : Text := edgeId edge.source edge.target

/-- An object that is written only if it has fields. -/
def object (name : Text) (fields : List (Text × Json)) : List (Text × Json) :=
  if fields.isEmpty then [] else [(name, .obj fields)]

def toJson (edge : Edge) : Json :=
  let fields : List (Text × Json) :=
    [("id", .text edge.id), ("source", .text edge.source), ("target", .text edge.target)]
  .obj (fields ++
    object "data"
      (Json.optionalField "type" (edge.kind.map fun kind => .text kind.text) ++
        Json.optionalField "label" ((given edge.label).map Json.text)) ++
    Json.optionalField "animated" (if edge.animated then some (.bool true) else none) ++
    object "style" edge.style ++ object "markerEnd" edge.markerEnd)

end Edge

end Diagram

/-- Nodes and edges in drawing order. -/
structure Diagram where
  nodes : List Diagram.Node := []
  edges : List Diagram.Edge := []
  deriving Inhabited

namespace Diagram

/-- Version of the written form. -/
def version : Text := "1.1.0"

def toJson (diagram : Diagram) : Json :=
  .obj [
    ("nodes", .arr (diagram.nodes.map Node.toJson)),
    ("edges", .arr (diagram.edges.map Edge.toJson)),
    ("version", .text version)]

/-- One diagram after the other. -/
def append (left right : Diagram) : Diagram :=
  ⟨left.nodes ++ right.nodes, left.edges ++ right.edges⟩

instance : Append Diagram := ⟨append⟩

end Diagram

end ImportAtlas
