import PlatformRoutes.Yaml.Kind
import PlatformRoutes.Yaml.Layout

namespace PlatformRoutes.Yaml

/-- The content of a document: texts, sequences, and mappings whose keys may be of any shape. Each
bears the type that its tag or its look gives it. -/
inductive Node where
  | scalar (kind : Kind) (text : String)
  | sequence (kind : Kind) (items : List Node)
  | mapping (kind : Kind) (entries : List (Node × Node))

namespace Node

instance : Inhabited Node := ⟨.scalar .null ""⟩

/-- What stands where nothing is written. -/
def nothing : Node := scalar .null ""

def kind : Node → Kind
  | scalar k _ => k
  | sequence k _ => k
  | mapping k _ => k

def withKind (k : Kind) : Node → Node
  | scalar _ text => scalar k text
  | sequence _ items => sequence k items
  | mapping _ entries => mapping k entries

end Node

/-- The tokens still to come, what has been named so far, and what the handles of tags stand for. -/
structure Reading where
  tokens : List Token
  anchors : List (String × Node) := []
  handles : List (String × String) := []

abbrev Read (α : Type) := StateT Reading (Except Fault) α

namespace Read

def peek : Read Token := do
  match (← get).tokens with
  | [] => throw .malformed
  | .broken fault :: _ => throw fault
  | t :: _ => return t

def advance : Read Unit := modify fun r => { r with tokens := r.tokens.drop 1 }

def malformed : Read α := throw .malformed

/-- The properties in front of a node: a name and a tag, in either order. -/
structure Properties where
  anchor : Option String := none
  tag : Option TagName := none

def anchor? : Read (Option String) := do
  match ← peek with
  | .anchor name =>
    advance
    return some name
  | _ => return none

def tag? : Read (Option TagName) := do
  match ← peek with
  | .tag name =>
    advance
    return some name
  | _ => return none

def properties : Read Properties := do
  match ← anchor? with
  | some name => return ⟨some name, ← tag?⟩
  | none =>
    match ← tag? with
    | some tag => return ⟨← anchor?, some tag⟩
    | none => return {}

/-- A tag written out in full; its handle has to be known. -/
def fullTag (t : TagName) : Read String := do
  match t.handle with
  | none => return t.suffix
  | some handle =>
    match (← get).handles.find? fun h => h.1 == handle with
    | some (_, stem) => return stem ++ t.suffix
    | none => malformed

/-- The type of a collection: that of its tag, before there is none or it is a bare mark. -/
def collectionKind (default : Kind) : Option String → Kind
  | none | some "!" => default
  | some tag => .ofTag tag

/-- The type of a text. Without a tag a plain one shows it by its look; the bare mark makes any text
do so. -/
def scalarKind (text : String) (plain : Bool) : Option String → Kind
  | none => if plain then .ofPlain text else .str
  | some "!" => .ofPlain text
  | some tag => .ofTag tag

/-- Names a node. A name given again comes before the older one. -/
def bind (anchor : Option String) (node : Node) : Read Unit :=
  match anchor with
  | none => pure ()
  | some name => modify fun r => { r with anchors := (name, node) :: r.anchors }

def checkFresh (anchor : Option String) : Read Unit := do
  match anchor with
  | none => pure ()
  | some name => if (← get).anchors.any fun a => a.1 == name then malformed

def named (name : String) : Read Node := do
  match (← get).anchors.find? fun a => a.1 == name with
  | some (_, node) => return node
  | none => malformed

/-- Reads a node, unless what follows ends the place where one may stand. -/
def before (ends : Token → Bool) (read : Read Node) : Read Node := do
  if ends (← peek) then return .nothing
  read

/-- The value after a colon; where no colon follows there is none. -/
def valueUnless (ends : Token → Bool) (read : Read Node) : Read Node := do
  if (← peek) == .value then
    advance
    before ends read
  else return .nothing

def endsBlockItem (t : Token) : Bool := t == .blockEntry || t == .blockEnd

def endsLooseItem (t : Token) : Bool :=
  t == .blockEntry || t == .key || t == .value || t == .blockEnd

def endsBlockField (t : Token) : Bool := t == .key || t == .value || t == .blockEnd

def endsFlowItem (t : Token) : Bool := t == .flowEntry || t == .flowSequenceEnd

def endsFlowField (t : Token) : Bool := t == .flowEntry || t == .flowMappingEnd

/-- Where nodes are read: blocks are let in or not, and below a key a sequence may stand at the
key's own indentation. -/
inductive Place where
  | block
  | field
  | flow
  deriving DecidableEq

/-- A text node; its name is known only after it. -/
def textNode (p : Properties) (tag : Option String) (text : String) (plain : Bool) : Read Node := do
  checkFresh p.anchor
  let n := Node.scalar (scalarKind text plain tag) text
  bind p.anchor n
  return n

/-- A node of which only the properties are written. -/
def bareNode (p : Properties) (tag : Option String) : Read Node :=
  if p.anchor.isNone && p.tag.isNone then malformed else textNode p tag "" true

/-- A collection. Inside of itself its name stands for one that holds nothing yet. -/
def collection (p : Properties) (tag : Option String) (default : Kind) (make : Kind → Read Node) :
    Read Node := do
  let kind := collectionKind default tag
  checkFresh p.anchor
  bind p.anchor (.mapping kind [])
  let n ← make kind
  bind p.anchor n
  return n

mutual
def node (place : Place) : Nat → Read Node
  | 0 => malformed
  | fuel + 1 => do
    if let .alias name ← peek then
      advance
      return ← named name
    let p ← properties
    let tag ← p.tag.mapM fullTag
    match ← peek with
    | .scalar s plain =>
      advance
      textNode p tag s plain
    | .flowSequenceStart =>
      advance
      collection p tag .seq fun kind => return .sequence kind (← flowItems true fuel)
    | .flowMappingStart =>
      advance
      collection p tag .map fun kind => return .mapping kind (← flowFields true fuel)
    | .blockEntry =>
      if place = .field then collection p tag .seq fun kind => return .sequence kind (← looseItems fuel)
      else bareNode p tag
    | .blockSequenceStart =>
      if place = .flow then bareNode p tag
      else
        advance
        collection p tag .seq fun kind => return .sequence kind (← blockItems fuel)
    | .blockMappingStart =>
      if place = .flow then bareNode p tag
      else
        advance
        collection p tag .map fun kind => return .mapping kind (← blockFields fuel)
    | _ => bareNode p tag

def blockItems : Nat → Read (List Node)
  | 0 => malformed
  | fuel + 1 => do
    match ← peek with
    | .blockEntry =>
      advance
      let item ← before endsBlockItem (node .block fuel)
      return item :: (← blockItems fuel)
    | .blockEnd =>
      advance
      return []
    | _ => malformed

/-- The items of a sequence that has no indentation of its own, up to what is no item. -/
def looseItems : Nat → Read (List Node)
  | 0 => malformed
  | fuel + 1 => do
    match ← peek with
    | .blockEntry =>
      advance
      let item ← before endsLooseItem (node .block fuel)
      return item :: (← looseItems fuel)
    | _ => return []

def blockFields : Nat → Read (List (Node × Node))
  | 0 => malformed
  | fuel + 1 => do
    match ← peek with
    | .key =>
      advance
      let key ← before endsBlockField (node .field fuel)
      let value ← valueUnless endsBlockField (node .field fuel)
      return (key, value) :: (← blockFields fuel)
    | .blockEnd =>
      advance
      return []
    | _ => malformed

/-- The items up to a closing bracket. All but the first follow a comma, and one may follow the
last. A key with its value is a mapping of its own. -/
def flowItems (isFirst : Bool) : Nat → Read (List Node)
  | 0 => malformed
  | fuel + 1 => do
    if (← peek) == .flowSequenceEnd then
      advance
      return []
    if !isFirst then
      if (← peek) == .flowEntry then advance else malformed
    match ← peek with
    | .flowSequenceEnd =>
      advance
      return []
    | .key =>
      advance
      let key ← before (fun t => t == .value || endsFlowItem t) (node .flow fuel)
      let value ← valueUnless endsFlowItem (node .flow fuel)
      return .mapping .map [(key, value)] :: (← flowItems false fuel)
    | _ =>
      let item ← node .flow fuel
      return item :: (← flowItems false fuel)

/-- The fields up to a closing brace. A node without a key's mark is a key without a value. -/
def flowFields (isFirst : Bool) : Nat → Read (List (Node × Node))
  | 0 => malformed
  | fuel + 1 => do
    if (← peek) == .flowMappingEnd then
      advance
      return []
    if !isFirst then
      if (← peek) == .flowEntry then advance else malformed
    match ← peek with
    | .flowMappingEnd =>
      advance
      return []
    | .key =>
      advance
      let key ← before (fun t => t == .value || endsFlowField t) (node .flow fuel)
      let value ← valueUnless endsFlowField (node .flow fuel)
      return (key, value) :: (← flowFields false fuel)
    | _ =>
      let key ← node .flow fuel
      return (key, .nothing) :: (← flowFields false fuel)
end

/-- The handles that need no directive. -/
def standardHandles : List (String × String) := [("!", "!"), ("!!", Kind.standard)]

/-- The directives in front of a document: one version at most, of the first generation, and one
meaning for each handle. -/
def directives (versioned : Bool) : Nat → Read Unit
  | 0 => malformed
  | fuel + 1 => do
    match ← peek with
    | .directive d =>
      advance
      match d with
      | .version major _ =>
        if versioned || major != 1 then malformed
        directives true fuel
      | .tag handle stem =>
        if (← get).handles.any fun h => h.1 == handle then malformed
        modify fun r => { r with handles := r.handles ++ [(handle, stem)] }
        directives versioned fuel
      | .unknown => directives versioned fuel
    | _ => modify fun r => { r with handles := r.handles ++ standardHandles }

def endsDocument (t : Token) : Bool :=
  match t with
  | .directive _ | .documentStart | .documentEnd | .streamEnd => true
  | _ => false

def documentEnds : Nat → Read Unit
  | 0 => malformed
  | fuel + 1 => do
    if (← peek) == .documentEnd then
      advance
      documentEnds fuel

/-- The only document of a text, if there is one. The directives of another one are read before it is
refused. -/
def document (fuel : Nat) : Read (Option Node) := do
  match ← peek with
  | .streamEnd => return none
  | .directive _ | .documentStart =>
    directives false fuel
    if (← peek) != .documentStart then malformed
    advance
    let root ← before endsDocument (node .block fuel)
    finish root
  | _ =>
    modify fun r => { r with handles := standardHandles }
    finish (← node .block fuel)
where
  finish (root : Node) : Read (Option Node) := do
    documentEnds fuel
    if (← peek) == .streamEnd then return some root
    modify fun r => { r with handles := [] }
    directives false fuel
    malformed

end Read

/-- Reads the nodes of a text. Twice as many steps as there are tokens are taken at most. -/
def Node.read (s : Source) : Except Fault (Option Node) :=
  let ts := tokens s
  ((Read.document (2 * ts.length + 2)).run { tokens := ts }).map (·.1)

end PlatformRoutes.Yaml
