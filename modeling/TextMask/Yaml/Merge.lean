import TextMask.Yaml.Graph

/-!
# Merging of mappings

A `merge` key does not name a field: the fields of the mapping behind it, or of the mappings in the
sequence behind it, are added in front of the fields of the mapping that holds it, so that its own
count. Where the same name comes from several mappings of a sequence, the first mapping counts.
-/

namespace TextMask.Yaml.Graph

/-- Whether the field is a `merge` key. -/
def isMerge (g : Graph) (f : Field) : Bool := g.tag f.name == .merge

/-- Makes the `value` keys among some fields to texts, which name fields like any other. -/
def nameValues (g : Graph) (fields : List Field) : Graph :=
  fields.foldl (fun g f => if g.tag f.name == .value then g.setTag f.name .str else g) g

/-- Carries out the merges of a mapping, one after the other; `merged` holds the fields of those that
have been carried out. A mapping is merged only after its own merges. Every step takes a `merge` key
away, which bounds the steps even where a mapping is merged into itself. -/
def mergeWithin : Nat → List Field → NodeId → Graph → Except Fault Graph
  | 0, _, _, _ => .error .outOfDepth
  | fuel + 1, merged, id, g =>
    let fields := g.fields id
    match fields.find? g.isMerge with
    | none => .ok ((g.nameValues fields).setContent id (.mapping (merged ++ fields)))
    | some f => do
      let g := g.setContent id (.mapping (fields.eraseP g.isMerge))
      match g.content f.value with
      | .scalar _ => throw .badMerge
      | .mapping _ => do
        let g ← mergeWithin fuel [] f.value g
        mergeWithin fuel (merged ++ g.fields f.value) id g
      | .sequence items => do
        let (added, g) ← items.foldlM
          (fun (added, g) item =>
            match g.content item with
            | .mapping _ => do
              let g ← mergeWithin fuel [] item g
              return (g.fields item ++ added, g)
            | _ => throw .badMerge)
          (([] : List Field), g)
        mergeWithin fuel (merged ++ added) id g

/-- Carries out the merges of a mapping. -/
def merge (g : Graph) (id : NodeId) : Except Fault Graph :=
  mergeWithin (g.fieldCount + 1) [] id g

end TextMask.Yaml.Graph
