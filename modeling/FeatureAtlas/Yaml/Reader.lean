import FeatureAtlas.Yaml.Node

/-!
# Reading YAML

The value of a document is that of its root. Keys are scalars; of equal keys the last one counts. The entries
of a merged mapping come before the own ones, which override them.
-/

namespace FeatureAtlas.Yaml

/-- The key that a value is; collections are none. -/
def keyOf? : Setting → Option SettingKey
  | .str s => some (.text s)
  | .null => some .null
  | .bool b => some (.bool b)
  | .int n => some (.int n)
  | .float x => some (.float x)
  | .date d => some (.date d)
  | .dateTime t => some (.dateTime t)
  | .bytes bs => some (.bytes bs)
  | _ => none

/-- The mapping of entries, where later ones override earlier ones. -/
def collect (entries : List (SettingKey × Setting)) : List (SettingKey × Setting) :=
  entries.foldl (fun es (k, v) => Setting.insert k v es) []

/-- The scalar of a type and a text. -/
def scalarOf (kind : Kind) (text : String) : Except Fault Setting :=
  match kind with
  | .null => .ok .null
  | .bool => booleanOf text
  | .int => integerOf text
  | .float => floatOf text
  | .timestamp => timestampOf text
  | .binary => binaryOf text
  | .str => .ok (.str text)
  | _ => .error .malformed

mutual

/-- The scalar text of a node: its own, or that of a mapping's value entry. -/
def textOf? : Node → Option String
  | .scalar _ text => some text
  | .sequence _ _ => none
  | .mapping _ entries => valueText? entries

/-- The scalar text of the value entry among entries. -/
def valueText? : List (Node × Node) → Option String
  | [] => none
  | (k, v) :: rest => if k.kind == .value then textOf? v else valueText? rest

end

mutual

/-- The value of a node. -/
def valueOf : Node → Except Fault Setting
  | .scalar kind text => scalarOf kind text
  | .sequence kind items =>
    match kind with
    | .seq => do return .list (← valuesOf items)
    | .omap => do return .list (← pairsOf items)
    | .pairs => do return .list (← pairsOf items)
    | _ => .error .malformed
  | .mapping kind entries =>
    match kind with
    | .map => do
      let (merged, own) ← entriesOf entries
      return .map (collect (merged ++ own))
    | .set => do
      let (merged, own) ← entriesOf entries
      return .set ((collect (merged ++ own)).map Prod.fst)
    | _ =>
      match valueText? entries with
      | some text => scalarOf kind text
      | none => .error .malformed

/-- The values of nodes. -/
def valuesOf : List Node → Except Fault (List Setting)
  | [] => .ok []
  | x :: xs => do return (← valueOf x) :: (← valuesOf xs)

/-- The pairs of mappings with one entry each. -/
def pairsOf : List Node → Except Fault (List Setting)
  | [] => .ok []
  | .mapping _ [(k, v)] :: rest => do
    return .list [← valueOf k, ← valueOf v] :: (← pairsOf rest)
  | _ => .error .malformed

/-- The entries of a mapping: the merged ones and its own. -/
def entriesOf : List (Node × Node) →
    Except Fault (List (SettingKey × Setting) × List (SettingKey × Setting))
  | [] => .ok ([], [])
  | (k, v) :: rest => do
    if k.kind == .merge then
      let first ← mergedOf v
      let (merged, own) ← entriesOf rest
      return (first ++ merged, own)
    else
      let key ← if k.kind == .value then (match textOf? k with
          | some text => .ok (.str text)
          | none => .error .malformed) else valueOf k
      match keyOf? key with
      | none => .error .malformed
      | some key =>
        let value ← valueOf v
        let (merged, own) ← entriesOf rest
        return (merged, (key, value) :: own)

/-- The entries that a merged value gives: those of a mapping, or of several, the first one last. -/
def mergedOf : Node → Except Fault (List (SettingKey × Setting))
  | .mapping _ entries => do
    let (merged, own) ← entriesOf entries
    return merged ++ own
  | .sequence _ items => mergedItems items
  | .scalar _ _ => .error .malformed

/-- The entries of several merged mappings, the first one last. -/
def mergedItems : List Node → Except Fault (List (SettingKey × Setting))
  | [] => .ok []
  | .mapping _ entries :: rest => do
    let (merged, own) ← entriesOf entries
    return (← mergedItems rest) ++ merged ++ own
  | _ => .error .malformed

end

/-- The value of the only document of a text; a text without one is null. A mapping without end is of no
use to anyone. -/
def read (s : String) : Except Fault Setting := do
  match ← Build.root (← tokens s.toList) with
  | none => return .null
  | some root =>
    let v ← valueOf root.node
    if root.cyclic && v.entries?.isSome then throw .cyclic else return v

end FeatureAtlas.Yaml
