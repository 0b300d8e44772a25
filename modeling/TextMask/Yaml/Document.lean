import TextMask.Yaml.Graph
import TextMask.Yaml.Layout
import TextMask.Yaml.Plain

/-!
# Documents

`Document.read` reads the only document of a stream as a graph of nodes. Tokens are looked at one by
one, so that of several faults the first in this order counts: a token is needed only when all
before it have been understood, and the fault that ended a stream counts only once the tokens before
it are used up.
-/

namespace TextMask.Yaml

/-- The state of a reader of nodes: what is left of the stream, the tag handles, the nodes so far
and their anchors. -/
structure Reader where
  stream : Stream
  handles : List (Text × Text) := []
  graph : Graph := {}
  anchors : List (Text × NodeId) := []

/-- Reading nodes. -/
abbrev Reading := StateT Reader (Except Fault)

namespace Reading

/-! ### Tokens -/

/-- The next token; there is none at the end of the stream. -/
def peek : Reading (Option Token) := do
  let s := (← get).stream
  match s.tokens, s.fault with
  | t :: _, _ => return some t
  | [], some fault => throw fault
  | [], none => return none

/-- Passes over the next token. -/
def skip : Reading Unit :=
  modify fun r => { r with stream := { r.stream with tokens := r.stream.tokens.drop 1 } }

/-- Passes over the next token if it is the given one; tells whether it was. -/
def skipIf (t : Token) : Reading Bool := do
  if (← peek) == some t then
    skip
    return true
  else return false

/-- Whether the next token is one of those given. -/
def nextIsIn (ts : List Token) : Reading Bool := do
  return (← peek).any ts.contains

/-- Passes over a comma, which has to come next. -/
def separator : Reading Unit := do
  unless ← skipIf .comma do throw .unexpectedToken

/-! ### Nodes of the graph -/

/-- Adds a node and gives it its anchor. -/
def addNode (name : Option Text) (n : Node) : Reading NodeId := do
  let r ← get
  let (id, graph) := r.graph.add n
  let anchors := match name with
    | none => r.anchors
    | some name => (name, id) :: r.anchors
  set { r with graph, anchors }
  return id

/-- Adds a node that is left out. -/
def addAbsent : Reading NodeId := addNode none .absent

/-- Adds a scalar. -/
def addScalar (name : Option Text) (tag : Tag) (text : Text) : Reading NodeId :=
  addNode name ⟨tag, .scalar text⟩

/-- Adds a sequence before its items are read, so that they can lead back to it. -/
def addSequence (name : Option Text) (tag : Tag) (items : Reading (List NodeId)) :
    Reading NodeId := do
  let id ← addNode name ⟨tag, .sequence []⟩
  let items ← items
  modify fun r => { r with graph := r.graph.setContent id (.sequence items) }
  return id

/-- Adds a mapping before its fields are read, so that they can lead back to it. -/
def addMapping (name : Option Text) (tag : Tag) (fields : Reading (List Field)) :
    Reading NodeId := do
  let id ← addNode name ⟨tag, .mapping []⟩
  let fields ← fields
  modify fun r => { r with graph := r.graph.setContent id (.mapping fields) }
  return id

/-! ### Properties -/

/-- The anchor in front of a node. -/
def anchor? : Reading (Option Text) := do
  match ← peek with
  | some (.anchor name) => do
    skip
    return some name
  | _ => return none

/-- The tag in front of a node, as it is written. -/
def tag? : Reading (Option (Option Text × Text)) := do
  match ← peek with
  | some (.tag handle suffix) => do
    skip
    return some (handle, suffix)
  | _ => return none

/-- The full name of a tag. -/
def fullName : Option Text × Text → Reading Text
  | (none, name) => return name
  | (some handle, suffix) => do
    match (← get).handles.lookup handle with
    | none => throw .undefinedHandle
    | some replacement => return replacement ++ suffix

/-- The anchor and the full name of the tag in front of a node, in any order. -/
def properties : Reading (Option Text × Option Text) := do
  let before ← anchor?
  let tag ← tag?
  let name ← if before.isNone && tag.isSome then anchor? else pure before
  match tag with
  | none => return (name, none)
  | some tag => return (name, some (← fullName tag))

/-- Checks that no node has the anchor yet. -/
def checkAnchor (name : Option Text) : Reading Unit := do
  let anchors := (← get).anchors
  if (name.bind fun name => anchors.lookup name).isSome then throw .repeatedAnchor

/-- The kind of a collection with a tag. -/
def collectionTag (standard : Tag) (tag : Option Text) : Tag :=
  match tag with
  | none => standard
  | some t => if t == ['!'] then standard else .ofName t

/-- The kind of a scalar with a tag. -/
def scalarTag (text : Text) (plain : Bool) (tag : Option Text) : Tag :=
  match tag with
  | none => if plain then .ofPlain text else .str
  | some t => if t == ['!'] then .ofPlain text else .ofName t

/-! ### Nodes and collections -/

mutual

/-- Reads a node. Block collections are allowed only outside brackets, and a sequence without
indentation of its own only as the value of a key. Behind an anchor or a tag a node may be left
out. -/
def node (block bare : Bool) : Nat → Reading NodeId
  | 0 => throw .outOfDepth
  | fuel + 1 => do
    match ← peek with
    | some (.alias name) => do
      skip
      match (← get).anchors.lookup name with
      | none => throw .undefinedAlias
      | some id => return id
    | _ => do
      let (name, tag) ← properties
      let next ← peek
      let begun := fun (t : Token) => next == some t
      let isBare := bare && begun .item
      let isCollection := begun .openSquare || begun .openCurly ||
        (block && (begun .blockSequence || begun .blockMapping))
      match next with
      | some (.scalar text plain) => do
        checkAnchor name
        skip
        addScalar name (scalarTag text plain tag) text
      | _ =>
        if isBare then do
          checkAnchor name
          addSequence name (collectionTag .seq tag) (bareItems fuel)
        else if isCollection then do
          checkAnchor name
          skip
          if begun .openSquare then
            addSequence name (collectionTag .seq tag) (flowItems true fuel)
          else if begun .openCurly then
            addMapping name (collectionTag .map tag) (flowFields true fuel)
          else if begun .blockSequence then
            addSequence name (collectionTag .seq tag) (blockItems fuel)
          else addMapping name (collectionTag .map tag) (blockFields fuel)
        else if name.isSome || tag.isSome then do
          checkAnchor name
          addScalar name (scalarTag [] true tag) []
        else throw .unexpectedToken

/-- Reads a node, or none in front of one of the given tokens. -/
def nodeUnless (block bare : Bool) (ends : List Token) : Nat → Reading NodeId
  | 0 => throw .outOfDepth
  | fuel + 1 => do
    if ← nextIsIn ends then addAbsent else node block bare fuel

/-- Reads the items of a block sequence up to its end. -/
def blockItems : Nat → Reading (List NodeId)
  | 0 => throw .outOfDepth
  | fuel + 1 => do
    if ← skipIf .item then
      let n ← nodeUnless true false [.item, .blockEnd] fuel
      return n :: (← blockItems fuel)
    else if ← skipIf .blockEnd then return []
    else throw .unexpectedToken

/-- Reads the items of a sequence that is not indented. -/
def bareItems : Nat → Reading (List NodeId)
  | 0 => throw .outOfDepth
  | fuel + 1 => do
    if ← skipIf .item then
      let n ← nodeUnless true false [.item, .key, .value, .blockEnd] fuel
      return n :: (← bareItems fuel)
    else return []

/-- Reads the fields of a block mapping up to its end. -/
def blockFields : Nat → Reading (List Field)
  | 0 => throw .outOfDepth
  | fuel + 1 => do
    let ends := [Token.key, .value, .blockEnd]
    if ← skipIf .key then
      let name ← nodeUnless true true ends fuel
      let value ← if ← skipIf .value then nodeUnless true true ends fuel else addAbsent
      return ⟨name, value⟩ :: (← blockFields fuel)
    else if ← skipIf .blockEnd then return []
    else throw .unexpectedToken

/-- Reads the items of a sequence in brackets. An item with a colon is a mapping with one field. -/
def flowItems (first : Bool) : Nat → Reading (List NodeId)
  | 0 => throw .outOfDepth
  | fuel + 1 => do
    if ← skipIf .closeSquare then return []
    else
      unless first do separator
      if ← skipIf .key then
        let pair ← addMapping none .map do
          let name ← nodeUnless false false [.value, .comma, .closeSquare] fuel
          let value ←
            if ← skipIf .value then nodeUnless false false [.comma, .closeSquare] fuel
            else addAbsent
          return [⟨name, value⟩]
        return pair :: (← flowItems false fuel)
      else if ← skipIf .closeSquare then return []
      else
        let n ← node false false fuel
        return n :: (← flowItems false fuel)

/-- Reads the fields of a mapping in brackets. -/
def flowFields (first : Bool) : Nat → Reading (List Field)
  | 0 => throw .outOfDepth
  | fuel + 1 => do
    if ← skipIf .closeCurly then return []
    else
      unless first do separator
      if ← skipIf .key then
        let name ← nodeUnless false false [.value, .comma, .closeCurly] fuel
        let value ←
          if ← skipIf .value then nodeUnless false false [.comma, .closeCurly] fuel
          else addAbsent
        return ⟨name, value⟩ :: (← flowFields false fuel)
      else if ← skipIf .closeCurly then return []
      else
        let name ← node false false fuel
        let value ← addAbsent
        return ⟨name, value⟩ :: (← flowFields false fuel)

end

/-! ### Streams -/

/-- The tag handles that every document knows. -/
def standardHandles : List (Text × Text) := [(['!'], ['!']), (['!', '!'], Tag.namespaceText)]

/-- Reads the directives at the head of a document: the version, told at most once, and the handles
that are explained. -/
def directives (versionTold : Bool) (handles : List (Text × Text)) :
    Nat → Reading (List (Text × Text))
  | 0 => throw .outOfDepth
  | fuel + 1 => do
    match ← peek with
    | some (.directive d) => do
      skip
      match d with
      | .version major => do
        if versionTold then throw .repeatedDirective
        else if major ≠ 1 then throw .incompatibleVersion
        else directives true handles fuel
      | .handle name replacement => do
        if (handles.lookup name).isSome then throw .repeatedDirective
        else directives versionTold ((name, replacement) :: handles) fuel
      | .other => directives versionTold handles fuel
    | _ => return handles

/-- Reads the head of a document up to the mark that begins it. -/
def documentHead (fuel : Nat) : Reading Unit := do
  let handles ← directives false [] fuel
  unless ← skipIf .documentStart do throw .unexpectedToken
  modify fun r => { r with handles := handles ++ standardHandles }

/-- Passes over the marks that end a document. -/
def documentEnds : Nat → Reading Unit
  | 0 => return
  | fuel + 1 => do
    if ← skipIf .documentEnd then documentEnds fuel

/-- Whether the next token is a mark between documents, a directive or the end of the stream. -/
def atDocumentEnd : Reading Bool := do
  match ← peek with
  | none | some (.directive _) | some .documentStart | some .documentEnd => return true
  | _ => return false

/-- Reads the only document of a stream; an empty stream has none. A document that has no head begins
with its node. Nothing but end marks may follow it. -/
def document (fuel : Nat) : Reading (Option NodeId) := do
  match ← peek with
  | none => return none
  | next => do
    let root ← match next with
      | some (.directive _) | some .documentStart => do
        documentHead fuel
        if ← atDocumentEnd then addAbsent else node true false fuel
      | _ => do
        modify fun r => { r with handles := standardHandles }
        node true false fuel
    documentEnds fuel
    if (← peek).isSome then
      documentHead fuel
      throw .secondDocument
    return some root

end Reading

/-- Reads the only document of a text: its nodes and the root among them, if there is a document. -/
def readDocument (text : Text) : Except Fault (Option NodeId × Graph) := do
  let s := stream text
  let (root, r) ← (Reading.document (4 * s.tokens.length + 4)).run { stream := s }
  return (root, r.graph)

end TextMask.Yaml
