import TextMask.Yaml.Fault
import TextMask.Yaml.Tag

/-!
# Graphs of nodes

A document is a graph: an alias leads back to the node that it names, so a node can stand in several
places, and even inside itself. Nodes are kept in a table and named by their index in it.

Main definitions:

* `Node`, `Content`, `Field`: a node with its kind and what it holds;
* `Graph.add`, `Graph.setContent`, `Graph.setTag`: the three ways to change a graph;
* `Graph.scalarText`: the text that a node stands for where a scalar is wanted.
-/

namespace TextMask.Yaml

/-- The name of a node: its index in the table of its graph. -/
abbrev NodeId := Nat

/-- A field of a mapping. -/
structure Field where
  name : NodeId
  value : NodeId
  deriving DecidableEq, Repr

/-- What a node holds. -/
inductive Content where
  | scalar (text : Text)
  | sequence (items : List NodeId)
  | mapping (fields : List Field)
  deriving DecidableEq, Repr

/-- The fields of a mapping; other nodes have none. -/
def Content.fields : Content → List Field
  | .mapping fields => fields
  | .scalar _ | .sequence _ => []

/-- A node: its kind and what it holds. -/
structure Node where
  tag : Tag
  content : Content
  deriving DecidableEq, Repr

/-- What stands where a node is left out. -/
def Node.absent : Node := ⟨.null, .scalar []⟩

/-- A table of nodes. -/
structure Graph where
  nodes : Array Node := #[]
  deriving DecidableEq, Repr

namespace Graph

/-- The node with a name. -/
def node (g : Graph) (id : NodeId) : Node := (g.nodes[id]?).getD .absent

/-- The kind of a node. -/
def tag (g : Graph) (id : NodeId) : Tag := (g.node id).tag

/-- What a node holds. -/
def content (g : Graph) (id : NodeId) : Content := (g.node id).content

/-- The fields of a node. -/
def fields (g : Graph) (id : NodeId) : List Field := (g.content id).fields

/-- Adds a node; its name is the number of nodes before it. -/
def add (g : Graph) (n : Node) : NodeId × Graph := (g.nodes.size, ⟨g.nodes.push n⟩)

/-- Changes what a node holds. -/
def setContent (g : Graph) (id : NodeId) (content : Content) : Graph :=
  ⟨g.nodes.modify id fun n => { n with content }⟩

/-- Changes the kind of a node. -/
def setTag (g : Graph) (id : NodeId) (tag : Tag) : Graph :=
  ⟨g.nodes.modify id fun n => { n with tag }⟩

/-- The number of fields of all nodes. -/
def fieldCount (g : Graph) : Nat :=
  g.nodes.foldl (fun count n => count + n.content.fields.length) 0

/-- The text that a node stands for where a scalar is wanted. A mapping stands for the value of its
first `value` key. The number bounds the mappings on the way. -/
def scalarTextWithin (g : Graph) : Nat → NodeId → Except Fault Text
  | 0, _ => .error (.breakdown .ownValue)
  | fuel + 1, id =>
    match g.content id with
    | .scalar t => .ok t
    | .sequence _ => .error .badContent
    | .mapping fields =>
      match fields.find? fun f => g.tag f.name == .value with
      | some f => g.scalarTextWithin fuel f.value
      | none => .error .badContent

/-- The text that a node stands for where a scalar is wanted. A way through more mappings than there
are nodes never ends. -/
def scalarText (g : Graph) (id : NodeId) : Except Fault Text :=
  g.scalarTextWithin (g.nodes.size + 1) id

end Graph

end TextMask.Yaml
