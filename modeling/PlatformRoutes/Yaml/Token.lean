import PlatformRoutes.Number.Numeral
import PlatformRoutes.Yaml.Scalar

namespace PlatformRoutes.Yaml

/-- A tag as it is written: a handle, unless it is written out, and what follows it. -/
structure TagName where
  handle : Option String
  suffix : String
  deriving DecidableEq

inductive Directive where
  | version (major minor : Nat)
  | tag (handle stem : String)
  | unknown
  deriving DecidableEq

/-- The pieces of a document. Keys and the bounds of blocks are made out from the layout. -/
inductive Token where
  | streamEnd
  | directive (d : Directive)
  | documentStart
  | documentEnd
  | blockSequenceStart
  | blockMappingStart
  | blockEnd
  | flowSequenceStart
  | flowMappingStart
  | flowSequenceEnd
  | flowMappingEnd
  | blockEntry
  | flowEntry
  | key
  | value
  | alias (name : String)
  | anchor (name : String)
  | tag (name : TagName)
  | scalar (text : String) (plain : Bool)
  /-- No more tokens can be made out from here on. -/
  | broken (fault : Fault)
  deriving DecidableEq

namespace Token

def isWordChar (c : Char) : Bool :=
  ('0' ≤ c && c ≤ '9') || ('A' ≤ c && c ≤ 'Z') || ('a' ≤ c && c ≤ 'z') || c == '-' || c == '_'

def isTagChar (c : Char) : Bool :=
  isWordChar c || ";/?:@&=+$,.!~*'()[]".toList.contains c

/-- A name after a star or an ampersand. -/
def scanName : Scan String := do
  Scan.advance 1
  let name ← Scan.take isWordChar
  let following ← Scan.head
  if name.isEmpty then Scan.malformed
  else if endsToken following || "?:,]\x7d%@\x60".toList.contains following then
    return .ofList name
  else Scan.malformed

/-- A run of escaped bytes; together they are text. -/
def uriEscapes : Nat → Scan (List UInt8)
  | 0 => Scan.malformed
  | fuel + 1 => do
    if (← Scan.head) == '%' then
      Scan.advance 1
      let byte ← Scalar.hexNumber 0 0 2
      Scan.advance 2
      return UInt8.ofNat byte :: (← uriEscapes fuel)
    else return []

def uriChars : Nat → Scan (List Char)
  | 0 => Scan.malformed
  | fuel + 1 => do
    let c ← Scan.head
    if c == '%' then
      match String.fromUTF8? ⟨(← uriEscapes fuel).toArray⟩ with
      | none => Scan.malformed
      | some text => return text.toList ++ (← uriChars fuel)
    else if isTagChar c then
      Scan.advance 1
      return c :: (← uriChars fuel)
    else return []

/-- The end of a tag; it may not be left out. -/
def scanUri (fuel : Nat) : Scan String := do
  let cs ← uriChars fuel
  if cs.isEmpty then Scan.malformed else return .ofList cs

/-- A handle: one mark, two, or a word between two. -/
def scanHandle : Scan String := do
  if (← Scan.head) != '!' then Scan.malformed
  else
    Scan.advance 1
    if (← Scan.head) == ' ' then return "!"
    else
      let word ← Scan.take isWordChar
      if (← Scan.head) == '!' then
        Scan.advance 1
        return .ofList ('!' :: word ++ ['!'])
      else Scan.malformed

/-- Whether another mark comes before the end of the word. -/
def hasMark (ahead : Nat) : Nat → Scan Bool
  | 0 => return false
  | fuel + 1 => do
    let c ← Scan.peek ahead
    if c == '!' then return true
    else if endsWord c then return false
    else hasMark (ahead + 1) fuel

def scanTag (fuel : Nat) : Scan TagName := do
  let following ← Scan.peek 1
  let name ←
    if following == '<' then do
      Scan.advance 2
      let suffix ← scanUri fuel
      if (← Scan.head) != '>' then Scan.malformed
      else
        Scan.advance 1
        pure (TagName.mk none suffix)
    else if endsToken following then do
      Scan.advance 1
      pure (TagName.mk none "!")
    else do
      let handle ←
        if ← hasMark 1 fuel then scanHandle
        else do
          Scan.advance 1
          pure "!"
      pure (TagName.mk (some handle) (← scanUri fuel))
  if endsWord (← Scan.head) then return name else Scan.malformed

def scanNumber : Scan Nat := do
  let ds ← Scan.take fun c => '0' ≤ c && c ≤ '9'
  if ds.isEmpty then Scan.malformed
  else if ds.length > Number.maxDigits then throw .badValue
  else return ds.foldl (fun n d => n * 10 + (d.toNat - 48)) 0

def scanVersion : Scan Directive := do
  Scan.skipBlanks
  let major ← scanNumber
  if (← Scan.head) != '.' then Scan.malformed
  else
    Scan.advance 1
    let minor ← scanNumber
    if endsWord (← Scan.head) then return .version major minor else Scan.malformed

def scanTagDirective (fuel : Nat) : Scan Directive := do
  Scan.skipBlanks
  let handle ← scanHandle
  if (← Scan.head) != ' ' then Scan.malformed
  else
    Scan.skipBlanks
    let stem ← scanUri fuel
    if endsWord (← Scan.head) then return .tag handle stem else Scan.malformed

/-- A directive after its percent sign, to the end of the line. -/
def scanDirective (fuel : Nat) : Scan Directive := do
  Scan.advance 1
  let name ← Scan.take isWordChar
  if name.isEmpty || !endsWord (← Scan.head) then Scan.malformed
  else
    let d ←
      if name == "YAML".toList then scanVersion
      else if name == "TAG".toList then scanTagDirective fuel
      else do
        let _ ← Scan.take fun c => !isBreak c
        pure .unknown
    Scalar.restOfLine
    return d

end Token

end PlatformRoutes.Yaml
