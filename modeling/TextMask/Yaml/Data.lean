import TextMask.Yaml.Document
import TextMask.Yaml.Merge
import TextMask.Yaml.Value

/-!
# Data of documents

Turns the graph of a document into data. A scalar is read where it is first met. A collection is only
noted there and opened later, in the order in which the collections were met, so the scalars of the
outer collections are read before those of the inner ones; this order decides which of several
faults is found first. `document` is the data of a text.
-/

namespace TextMask.Yaml

/-- The state of a walk over a graph: the graph, the data of the scalars that were met, the nodes
that were met at all, and the collections that are still to be opened, the last one first. -/
structure Walk where
  graph : Graph
  scalars : Array (Option Datum)
  met : Array Bool
  noted : List NodeId := []

/-- Walking over a graph. -/
abbrev Walking := StateT Walk (Except Fault)

namespace Walking

/-- The data of a scalar. A date must not only be a scalar in effect, it must be written as one. -/
def scalar (g : Graph) (id : NodeId) : Except Fault Datum := do
  let tag := g.tag id
  if tag == .merge || tag == .value || tag == .unknown then throw .unknownTag
  let text ← g.scalarText id
  match tag, g.content id with
  | .timestamp, .mapping _ => throw (.breakdown .timestampCollection)
  | _, _ => Value.ofText text tag

/-- Meets a node: reads a scalar, notes a collection. Nothing happens to a node that was met
before. -/
def visit (id : NodeId) : Walking Unit := do
  let w ← get
  if (w.met[id]?).getD true then return
  let w := { w with met := w.met.setIfInBounds id true }
  if (w.graph.tag id).isCollection then set { w with noted := id :: w.noted }
  else
    let d ← scalar w.graph id
    set { w with scalars := w.scalars.setIfInBounds id (some d) }

/-- Meets the name of a field, which must not be a collection, and its value. -/
def visitField (f : Field) : Walking Unit := do
  visit f.name
  if ((← get).graph.tag f.name).isCollection then throw .badKey
  visit f.value

/-- Meets the only field of an item of a sequence of pairs. -/
def visitPair (id : NodeId) : Walking Unit := do
  match (← get).graph.content id with
  | .mapping [f] => do
    visit f.name
    visit f.value
  | _ => throw .badContent

/-- Opens a collection: meets all that it holds. -/
def openNode (id : NodeId) : Walking Unit := do
  let g := (← get).graph
  match g.tag id, g.content id with
  | .seq, .sequence items => items.forM visit
  | .pairs, .sequence items => items.forM visitPair
  | .map, .mapping _ | .set, .mapping _ => do
    let g ← g.merge id
    modify fun w => { w with graph := g }
    (g.fields id).forM visitField
  | _, _ => throw .badContent

/-- Opens the collections that are noted, and those that are noted meanwhile, round by round. -/
def openAll : Nat → Walking Unit
  | 0 => throw .outOfDepth
  | fuel + 1 => do
    let noted := (← get).noted.reverse
    if noted.isEmpty then return
    modify fun w => { w with noted := [] }
    noted.forM openNode
    openAll fuel

end Walking

namespace Walk

/-- The start of a walk over a graph. -/
def start (g : Graph) : Walk :=
  { graph := g, scalars := Array.replicate g.nodes.size none,
    met := Array.replicate g.nodes.size false }

/-- The data of a node that was met, with the given number of levels of records. -/
def datum (w : Walk) : Nat → NodeId → Datum
  | 0, id => ((w.scalars[id]?).join).getD .foreign
  | depth + 1, id =>
    if w.graph.tag id == .map then
      .record ((w.graph.fields id).map fun f => (w.datum depth f.name, w.datum depth f.value))
    else ((w.scalars[id]?).join).getD .foreign

end Walk

/-- The levels of records that a policy has. -/
def recordLevels : Nat := 2

/-- The data of the only document of a text. No document stands for null. -/
def document (text : Text) : Except Fault Datum := do
  match ← readDocument text with
  | (none, _) => return .null
  | (some root, g) => do
    let walk := do
      Walking.visit root
      Walking.openAll (g.nodes.size + 1)
    let (_, w) ← walk.run (Walk.start g)
    return w.datum recordLevels root

end TextMask.Yaml
