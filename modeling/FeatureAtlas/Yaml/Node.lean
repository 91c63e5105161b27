import FeatureAtlas.Table
import FeatureAtlas.Yaml.Scalar
import FeatureAtlas.Yaml.Token

/-!
# Nodes of YAML documents

The tokens of a document form a tree of scalars, sequences and mappings. A node can have an anchor, and a
reference to that anchor stands for the same node.
-/

namespace FeatureAtlas.Yaml

/-- A node with its type. -/
inductive Node where
  | scalar (kind : Kind) (text : String)
  | sequence (kind : Kind) (items : List Node)
  | mapping (kind : Kind) (entries : List (Node × Node))
deriving Repr, Inhabited

/-- The type of a node. -/
def Node.kind : Node → Kind
  | .scalar k _ => k
  | .sequence k _ => k
  | .mapping k _ => k

/-- The node of nothing at all. -/
def Node.empty : Node := .scalar (.ofPlain "") ""

/-- The state of building nodes. -/
structure Builder where
  tokens : List Token
  /-- The anchored nodes; one that is not complete has no node yet. -/
  anchors : Table (Option Node) := []
  /-- The meanings of tag handles. -/
  handles : Table String := [("!", "!"), ("!!", Kind.space)]
  /-- A collection was referred to from inside itself. -/
  cyclic : Bool := false
deriving Inhabited

/-- Steps of building nodes. -/
abbrev Build := StateT Builder (Except Fault)

namespace Build

/-- Stops at a fault of form. -/
def fail {α : Type} : Build α := throw .malformed

/-- The next token. -/
def peek : Build (Option Token) := do return (← get).tokens.head?

/-- Goes behind the next token. -/
def skip : Build Unit := modify fun s => { s with tokens := s.tokens.drop 1 }

/-- Goes behind a token, if it is the next one. -/
def accept (t : Token) : Build Bool := do
  if (← peek) == some t then
    skip
    return true
  else return false

/-- Whether one of the tokens is next; with `orEnd` the end counts too. -/
def isNext (ts : List Token) (orEnd : Bool) : Build Bool := do
  match ← peek with
  | some t => return ts.contains t
  | none => return orEnd

/-! ## Properties -/

/-- The anchor and the tag of a node. -/
structure Properties where
  anchor : Option String := none
  /-- The tag's text; an exclamation mark alone asks for the plain type. -/
  tag : Option String := none
deriving Repr, Inhabited

/-- An anchor, if one is next. -/
def anchor? : Build (Option String) := do
  match ← peek with
  | some (.anchor n) =>
    skip
    return some n
  | _ => return none

/-- A tag, if one is next. -/
def tag? : Build (Option String) := do
  match ← peek with
  | some (.tag handle rest) =>
    skip
    match handle with
    | none => return some rest
    | some h =>
      match (← get).handles.lookup h with
      | none => fail
      | some meaning => return some (meaning ++ rest)
  | _ => return none

/-- The properties of a node, in any order. -/
def properties : Build Properties := do
  match ← anchor? with
  | some n => return ⟨some n, ← tag?⟩
  | none =>
    let tag ← tag?
    if tag.isNone then return {}
    return ⟨← anchor?, tag⟩

/-- The type of a scalar. -/
def scalarKind (tag : Option String) (text : String) (plain : Bool) : Kind :=
  match tag with
  | none => if plain then .ofPlain text else .str
  | some "!" => .ofPlain text
  | some t => .ofTag t

/-- The type of a collection. -/
def collectionKind (tag : Option String) (usual : Kind) : Kind :=
  match tag with
  | none => usual
  | some "!" => usual
  | some t => .ofTag t

/-- Records an anchored node. -/
def record (p : Properties) (node : Option Node) : Build Unit :=
  match p.anchor with
  | none => pure ()
  | some n => modify fun s => { s with anchors := s.anchors.set n node }

/-- Records a finished node. -/
def finish (p : Properties) (node : Node) : Build Node := do
  record p (some node)
  return node

/-- The node that a reference stands for. A collection inside itself is noted, and has no items there. -/
def referred (name : String) : Build Node := do
  match (← get).anchors.lookup name with
  | some (some node) => return node
  | some none =>
    modify fun s => { s with cyclic := true }
    return .sequence .seq []
  | none => fail

/-! ## Nodes -/

mutual

/-- A node. Blocks are possible where `blocks` is set, and a sequence without indentation where `indentless`
is set. The number bounds the depth and length of what is read. -/
def node (blocks indentless : Bool) : Nat → Build Node
  | 0 => fail
  | fuel + 1 => do
    match ← peek with
    | some (.reference n) =>
      skip
      referred n
    | _ =>
      let p ← properties
      match p.anchor with
      | some n => if ((← get).anchors.lookup n).isSome then fail
      | none => pure ()
      match ← peek with
      | some (.scalar text plain) =>
        skip
        finish p (.scalar (scalarKind p.tag text plain) text)
      | some .flowSequenceStart =>
        skip
        record p none
        finish p (.sequence (collectionKind p.tag .seq) (← flowItems true fuel))
      | some .flowMappingStart =>
        skip
        record p none
        finish p (.mapping (collectionKind p.tag .map) (← flowEntries true fuel))
      | some .blockEntry =>
        if indentless then
          record p none
          finish p (.sequence (collectionKind p.tag .seq) (← looseItems fuel))
        else emptyNode p
      | some .sequenceStart =>
        if blocks then
          skip
          record p none
          finish p (.sequence (collectionKind p.tag .seq) (← blockItems fuel))
        else emptyNode p
      | some .mappingStart =>
        if blocks then
          skip
          record p none
          finish p (.mapping (collectionKind p.tag .map) (← blockEntries fuel))
        else emptyNode p
      | _ => emptyNode p

/-- A node of properties alone. -/
def emptyNode (p : Properties) : Build Node :=
  if p.anchor.isNone && p.tag.isNone then fail
  else finish p (.scalar (scalarKind p.tag "" true) "")

/-- A node, unless one of the tokens is next. -/
def nodeUnless (ts : List Token) (blocks indentless : Bool) : Nat → Build Node
  | 0 => fail
  | fuel + 1 => do
    if ← isNext ts false then return Node.empty else node blocks indentless fuel

/-- The items of a block sequence up to its end. -/
def blockItems : Nat → Build (List Node)
  | 0 => fail
  | fuel + 1 => do
    if ← accept .blockEntry then
      let first ← nodeUnless [.blockEntry, .blockEnd] true false fuel
      return first :: (← blockItems fuel)
    else if ← accept .blockEnd then return []
    else fail

/-- The items of a sequence without indentation. -/
def looseItems : Nat → Build (List Node)
  | 0 => fail
  | fuel + 1 => do
    if ← accept .blockEntry then
      let first ← nodeUnless [.blockEntry, .key, .value, .blockEnd] true false fuel
      return first :: (← looseItems fuel)
    else return []

/-- The entries of a block mapping up to its end. -/
def blockEntries : Nat → Build (List (Node × Node))
  | 0 => fail
  | fuel + 1 => do
    if ← accept .key then
      let k ← nodeUnless [.key, .value, .blockEnd] true true fuel
      let v ← valueUnless [.key, .value, .blockEnd] true fuel
      return (k, v) :: (← blockEntries fuel)
    else if ← accept .blockEnd then return []
    else fail

/-- The value behind a key, if there is one. -/
def valueUnless (ts : List Token) (blocks : Bool) : Nat → Build Node
  | 0 => fail
  | fuel + 1 => do
    if ← accept .value then nodeUnless ts blocks blocks fuel else return Node.empty

/-- The items of a flow sequence up to its end; a key with a value is a mapping of its own. -/
def flowItems (first : Bool) : Nat → Build (List Node)
  | 0 => fail
  | fuel + 1 => do
    if ← accept .flowSequenceEnd then return []
    else
      if !first then
        if !(← accept .flowEntry) then fail
      if ← accept .key then
        let k ← nodeUnless [.value, .flowEntry, .flowSequenceEnd] false false fuel
        let v ← valueUnless [.flowEntry, .flowSequenceEnd] false fuel
        return .mapping .map [(k, v)] :: (← flowItems false fuel)
      else if ← accept .flowSequenceEnd then return []
      else
        let x ← node false false fuel
        return x :: (← flowItems false fuel)

/-- The entries of a flow mapping up to its end; a node alone is a key without a value. -/
def flowEntries (first : Bool) : Nat → Build (List (Node × Node))
  | 0 => fail
  | fuel + 1 => do
    if ← accept .flowMappingEnd then return []
    else
      if !first then
        if !(← accept .flowEntry) then fail
      if ← accept .key then
        let k ← nodeUnless [.value, .flowEntry, .flowMappingEnd] false false fuel
        let v ← valueUnless [.flowEntry, .flowMappingEnd] false fuel
        return (k, v) :: (← flowEntries false fuel)
      else if ← accept .flowMappingEnd then return []
      else
        let k ← node false false fuel
        return (k, .empty) :: (← flowEntries false fuel)

end

/-! ## Documents -/

/-- The directives before a document: a version at most once, and the meanings of handles. -/
def directives : List Token → (seen : Bool) → Table String → Except Fault (Table String × List Token)
  | .version major :: rest, seen, handles =>
    if seen || major != 1 then .error .malformed else directives rest true handles
  | .handle name meaning :: rest, seen, handles =>
    if (handles.lookup name).isSome then .error .malformed
    else directives rest seen (handles ++ [(name, meaning)])
  | .otherDirective :: rest, seen, handles => directives rest seen handles
  | tokens, _, handles => .ok (handles, tokens)

/-- Whether a token starts the part before a document. -/
def isOpening : Token → Bool
  | .version _ => true
  | .handle _ _ => true
  | .otherDirective => true
  | .documentStart => true
  | _ => false

/-- The node of a document. -/
structure Root where
  node : Node
  /-- A collection in it contains itself. -/
  cyclic : Bool := false
deriving Inhabited

/-- The node of a document with nothing but its end behind it. -/
def lastNode (s : Builder) : Except Fault Root := do
  let (n, s) ← (node true false (4 * s.tokens.length + 4)).run s
  if (s.tokens.dropWhile (· == .documentEnd)).isEmpty then return ⟨n, s.cyclic⟩ else throw .malformed

/-- Whether a document is empty, seen from the tokens behind its start. -/
def isEmptyDocument : List Token → Bool
  | [] => true
  | t :: _ => isOpening t || t == .documentEnd

/-- The node of a document behind its start. -/
def explicitNode (handles : Table String) (tokens : List Token) : Except Fault Root :=
  let usual : Table String := [("!", "!"), ("!!", Kind.space)]
  let handles := handles ++ usual.filter fun (h, _) => (handles.lookup h).isNone
  if !isEmptyDocument tokens then lastNode { tokens, handles }
  else if (tokens.dropWhile (· == .documentEnd)).isEmpty then .ok ⟨Node.empty, false⟩
  else .error .malformed

/-- The root of the only document, if there is one. -/
def root (tokens : List Token) : Except Fault (Option Root) :=
  match tokens with
  | [] => .ok none
  | first :: _ =>
    if !isOpening first then (lastNode { tokens }).map some
    else match directives tokens false [] with
      | .error e => .error e
      | .ok (handles, .documentStart :: rest) => (explicitNode handles rest).map some
      | .ok _ => .error .malformed

end Build

end FeatureAtlas.Yaml
