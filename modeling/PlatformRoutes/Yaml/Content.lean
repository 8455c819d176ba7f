import PlatformRoutes.Datum
import PlatformRoutes.Text.Base64
import PlatformRoutes.Yaml.Node
import PlatformRoutes.Yaml.Stream

namespace PlatformRoutes.Yaml

namespace Content

def orBad (v : Option α) : Except Fault α :=
  match v with
  | some a => .ok a
  | none => .error .badValue

/-- A number in parts of sixty, the smallest part last. -/
def sixties (parts : List Int) : Int := parts.foldl (fun n p => n * 60 + p) 0

/-- The sign of a number and what follows it. The text may not be empty. -/
def signAndRest : List Char → Except Fault (Bool × List Char)
  | [] => .error .outOfRange
  | '-' :: rest => .ok (true, rest)
  | '+' :: rest => .ok (false, rest)
  | cs => .ok (false, cs)

def withoutUnderscores (s : String) : List Char := s.toList.filter (· != '_')

def signedBy (negative : Bool) (n : Int) : Int := if negative then -n else n

/-- Whole numbers: binary, hexadecimal, octal after a zero, in parts of sixty, or decimal. -/
def int (s : String) : Except Fault Int := do
  let (negative, body) ← signAndRest (withoutUnderscores s)
  let n ←
    match body with
    | [] => throw .outOfRange
    | ['0'] => pure 0
    | '0' :: 'b' :: bits => orBad (Number.writtenInBase? 2 (.ofList bits))
    | '0' :: 'x' :: digits => orBad (Number.writtenInBase? 16 (.ofList digits))
    | '0' :: _ => orBad (Number.writtenInBase? 8 (.ofList body))
    | _ =>
      if body.contains ':' then
        orBad (((Kind.splitColons body).mapM fun p => Number.writtenInt? (.ofList p)).map sixties)
      else orBad (Number.writtenInt? (.ofList body))
  return signedBy negative n

/-- The parts of a number of sixties added from the smallest on. What a part counts is a whole number,
and it has to have a double next to it. -/
def sixtiesFloat (parts : List Float) : Except Fault Float := do
  let (sum, _) ← parts.reverse.foldlM (fun (sum, unit) p =>
    match Number.ofNat? unit with
    | some x => Except.ok (sum + p * x, unit * 60)
    | none => .error Fault.tooLarge) ((0 : Float), 1)
  return sum

def float (s : String) : Except Fault Float := do
  let (negative, body) ← signAndRest ((withoutUnderscores s).map Text.lowerChar)
  let x ←
    if body == ".inf".toList then pure (1 / 0)
    else if body == ".nan".toList then pure (0 / 0)
    else if body.contains ':' then
      sixtiesFloat (← orBad ((Kind.splitColons body).mapM fun p => Number.writtenFloat? (.ofList p)))
    else orBad (Number.writtenFloat? (.ofList body))
  return if negative then -1 * x else x

def bool (s : String) : Except Fault Bool :=
  match Text.lower s with
  | "yes" | "true" | "on" => .ok true
  | "no" | "false" | "off" => .ok false
  | _ => .error .missingKey

def isLeap (year : Nat) : Bool :=
  year % 4 == 0 && (year % 100 != 0 || year % 400 == 0)

def daysIn (year month : Nat) : Nat :=
  if month == 2 then (if isLeap year then 29 else 28)
  else if [4, 6, 9, 11].contains month then 30 else 31

/-- Whether the calendar has the date, the day the time, and the offset is less than a day. -/
def exists? (m : Kind.Moment) : Bool :=
  1 ≤ m.year && 1 ≤ m.month && m.month ≤ 12 && 1 ≤ m.day && m.day ≤ daysIn m.year m.month &&
    (match m.time with
      | none => true
      | some (hour, minute, second) => hour < 24 && minute < 60 && second < 60) &&
    (match m.offset with
      | none => true
      | some (hour, minute) => hour * 60 + minute < 1440)

def timestamp (s : String) : Except Fault Unit :=
  match Kind.moment? (Kind.withoutLastBreak s.toList) with
  | none => .error .misshapen
  | some m => if exists? m then .ok () else .error .badValue

def binary (s : String) : Except Fault ByteArray :=
  if Text.isAscii s then
    match Text.fromBase64? s.toList with
    | some bytes => .ok ⟨bytes.toArray⟩
    | none => .error .malformed
  else .error .malformed

end Content

def Kind.isCollection : Kind → Bool
  | seq | map | set | omap | pairs => true
  | _ => false

namespace Node

mutual
/-- The text of a node. A mapping may have one under the key that is an equals sign. -/
def text? : Node → Option String
  | scalar _ text => some text
  | sequence _ _ => none
  | mapping _ entries => textAmong? entries

def textAmong? : List (Node × Node) → Option String
  | [] => none
  | (k, v) :: rest => if k.kind = .value then v.text? else textAmong? rest
end

/-- What a text means as a value of a type. -/
def simple (kind : Kind) (text : String) : Except Fault Datum :=
  match kind with
  | .null => .ok .null
  | .bool => (Content.bool text).map .flag
  | .int => (Content.int text).map .int
  | .float => (Content.float text).map .real
  | .binary => (Content.binary text).map .octets
  | .timestamp => (Content.timestamp text).map fun _ => .other
  | .str => .ok (.text text)
  | _ => .error .malformed

/-- The value of a node; what a collection holds is not looked at. A moment is made out of the node
itself, which has to be a text then. -/
def datum (node : Node) : Except Fault Datum :=
  if node.kind.isCollection then .ok .other
  else
    match node.text? with
    | none => .error .malformed
    | some text =>
      match node with
      | mapping .timestamp _ => .error .wrongType
      | _ => simple node.kind text

mutual
def depth : Node → Nat
  | scalar _ _ => 1
  | sequence _ items => depthOfItems items + 1
  | mapping _ entries => depthOfEntries entries + 1

def depthOfItems : List Node → Nat
  | [] => 0
  | n :: rest => max n.depth (depthOfItems rest)

def depthOfEntries : List (Node × Node) → Nat
  | [] => 0
  | (k, v) :: rest => max (max k.depth v.depth) (depthOfEntries rest)
end

abbrev Entries := List (Node × Node)

/-- The entries of a mapping, or of a sequence of mappings of which the first comes last, each
mapping's entries read by `flatten`. -/
def takenFrom (flatten : Entries → Except Fault Entries) : Node → Except Fault Entries
  | mapping _ entries => flatten entries
  | sequence _ items => do
    let parts ← items.mapM fun n =>
      match n with
      | mapping _ entries => flatten entries
      | _ => throw .malformed
    return parts.reverse.flatten
  | scalar _ _ => throw .malformed

/-- A mapping's own entries after those that it takes over from others. A key that is an equals
sign is a text like any other. -/
def flatten : Nat → Entries → Except Fault Entries
  | 0, _ => .error .malformed
  | fuel + 1, entries => do
    let taken ← (entries.filter fun e => e.1.kind == .merge).mapM fun e =>
      takenFrom (flatten fuel) e.2
    let own := entries.filter fun e => e.1.kind != .merge
    return taken.flatten ++ own.map fun e =>
      if e.1.kind = .value then (e.1.withKind .str, e.2) else e

def checkEntry (e : Node × Node) : Except Fault (List Node) := do
  let _ ← e.1.datum
  if e.1.kind.isCollection then throw .malformed
  let _ ← e.2.datum
  return [e.1, e.2]

/-- An item of an ordered mapping is a mapping of one entry, whose key may be anything. -/
def checkPair : Node → Except Fault (List Node)
  | mapping _ [(k, v)] => do
    let _ ← k.datum
    let _ ← v.datum
    return [k, v]
  | _ => throw .malformed

/-- The nodes directly inside a collection, once each of them has a value. -/
def inside (node : Node) : Except Fault (List Node) :=
  match node.kind, node with
  | .seq, sequence _ items => do
    let _ ← items.mapM datum
    return items
  | .map, mapping _ entries | .set, mapping _ entries => do
    return (← (← flatten (node.depth + 1) entries).mapM checkEntry).flatten
  | .omap, sequence _ items | .pairs, sequence _ items => do
    return (← items.mapM checkPair).flatten
  | kind, _ => if kind.isCollection then throw .malformed else return []

/-- Checks level after level, so that of two faults the one nearer to the root is found. -/
def checkLevels : Nat → List Node → Except Fault Unit
  | _, [] => .ok ()
  | 0, _ => .ok ()
  | fuel + 1, level => do
    let inner ← level.mapM inside
    checkLevels fuel inner.flatten

/-- The value at the root of a document. Of a mapping the entries are kept. -/
inductive Root where
  | nothing
  | mapping (entries : List (Datum × Datum))
  | other

def root (node : Node) : Except Fault Root := do
  let d ← node.datum
  checkLevels node.depth [node]
  match node, d with
  | .mapping .map entries, _ =>
    return .mapping (← (← flatten (node.depth + 1) entries).mapM fun e => do
      return (← e.1.datum, ← e.2.datum))
  | _, .null => return .nothing
  | _, _ => return .other

end Node

/-- Reads a text as one document. -/
def read (s : Source) : Except Fault Node.Root := do
  match ← Node.read s with
  | none => return .nothing
  | some node => node.root

/-- Reads bytes as one document: a text in UTF-8 with the line breaks of any platform. -/
def load (bytes : ByteArray) : Except Fault Node.Root := read (.ofBytes bytes)

end PlatformRoutes.Yaml
