import PlatformRoutes.Yaml.Token

namespace PlatformRoutes.Yaml

/-- A token that becomes a key if a colon follows on its line. -/
structure KeyCandidate where
  position : Nat
  /-- In a block, what starts a line at its indentation has to be a key. -/
  required : Bool
  index : Nat
  line : Nat
  column : Nat

/-- Where the reading of tokens has got to. The indentation of the innermost block is -1 outside of
all blocks; each open bracket is a level of its own. -/
structure Layout where
  source : Source
  tokens : Array Token
  indent : Int
  outer : List Int
  flowLevel : Nat
  keyAllowed : Bool
  candidates : List (Nat × KeyCandidate)
  done : Bool

namespace Layout

abbrev Step := Except Fault Layout

def start (s : Source) : Layout :=
  { source := s, tokens := #[], indent := -1, outer := [], flowLevel := 0, keyAllowed := true,
    candidates := [], done := false }

def inFlow (l : Layout) : Bool := l.flowLevel != 0

def push (l : Layout) (t : Token) : Layout := { l with tokens := l.tokens.push t }

def candidate? (l : Layout) : Option KeyCandidate :=
  (l.candidates.find? fun c => c.1 == l.flowLevel).map (·.2)

def withoutCandidate (l : Layout) : Layout :=
  { l with candidates := l.candidates.filter fun c => c.1 != l.flowLevel }

/-- Gives the candidate of the current level up. -/
def dropCandidate (l : Layout) : Step :=
  match l.candidate? with
  | some c => if c.required then .error .malformed else .ok l.withoutCandidate
  | none => .ok l

/-- Remembers that the next token may be a key. -/
def saveCandidate (l : Layout) : Step :=
  if l.keyAllowed then do
    let l ← l.dropCandidate
    let s := l.source
    let required := !l.inFlow && l.indent == s.column
    let c : KeyCandidate := ⟨l.tokens.size, required, s.index, s.line, s.column⟩
    return { l with candidates := (l.flowLevel, c) :: l.candidates }
  else .ok l

/-- A key stands on one line and is short. -/
def isStale (s : Source) (c : KeyCandidate) : Bool :=
  c.line != s.line || s.index > c.index + 1024

def dropStale (l : Layout) : Step :=
  if l.candidates.any fun c => isStale l.source c.2 && c.2.required then .error .malformed
  else .ok { l with candidates := l.candidates.filter fun c => !isStale l.source c.2 }

/-- Closes the blocks that are indented deeper than the column. -/
def unwind (column : Int) : Nat → Layout → Layout
  | 0, l => l
  | fuel + 1, l =>
    if l.inFlow then l
    else if l.indent > column then
      match l.outer with
      | [] => l
      | i :: rest => unwind column fuel ({ l with indent := i, outer := rest }.push .blockEnd)
    else l

def unwindTo (l : Layout) (column : Int) : Layout := unwind column (l.outer.length + 1) l

/-- Opens a block at a column that is deeper than the innermost one. -/
def opensBlock (l : Layout) (column : Int) : Bool := l.indent < column

def openBlock (l : Layout) (column : Int) : Layout :=
  { l with indent := column, outer := l.indent :: l.outer }

/-- Scans from where the reading has got to. -/
def scan (l : Layout) (x : Scan α) : Except Fault (α × Layout) := do
  let (a, s) ← x.run l.source
  return (a, { l with source := s })

def advance (l : Layout) (n : Nat) : Step := do
  return (← l.scan (Scan.advance n)).2

/-- Blanks, comments and line breaks. Tells whether there were any breaks. -/
def scanGap : Nat → Scan Bool
  | 0 => return false
  | fuel + 1 => do
    Scan.skipBlanks
    Scan.skipComment
    match ← Scan.lineBreak? with
    | none => return false
    | some _ =>
      let _ ← scanGap fuel
      return true

/-- Goes on to the next token. A mark of the order of bytes may start the text. In a block each line
may start a key. -/
def skipToToken (fuel : Nat) (l : Layout) : Step := do
  let (brokeLine, l) ← l.scan do
    if (← get).index == 0 && (← Scan.head) == byteOrderMark then Scan.advance 1
    scanGap fuel
  return { l with keyAllowed := l.keyAllowed || (brokeLine && !l.inFlow) }

/-- Everything is closed before a line that is no part of a document's content. -/
def closeAll (l : Layout) : Step := do
  let l ← (l.unwindTo (-1)).dropCandidate
  return { l with keyAllowed := false }

def streamEnd (l : Layout) : Step := do
  let l ← l.closeAll
  return { l.push .streamEnd with done := true }

def documentMark (l : Layout) (t : Token) : Step := do
  let l ← (← l.closeAll).advance 3
  return l.push t

def directive (fuel : Nat) (l : Layout) : Step := do
  let (d, l) ← (← l.closeAll).scan (Token.scanDirective fuel)
  return l.push (.directive d)

def flowStart (l : Layout) (t : Token) : Step := do
  let l ← (← l.saveCandidate).advance 1
  return { l.push t with flowLevel := l.flowLevel + 1, keyAllowed := true }

/-- A closing bracket too many is left to be found later. -/
def flowEnd (l : Layout) (t : Token) : Step := do
  let l ← (← l.dropCandidate).advance 1
  return { l.push t with flowLevel := l.flowLevel - 1, keyAllowed := false }

def flowEntry (l : Layout) : Step := do
  let l ← (← { l with keyAllowed := true }.dropCandidate).advance 1
  return l.push .flowEntry

/-- Opens a block at the current column if it is a new one; an entry or a key has to be allowed
there. -/
def enterBlock (l : Layout) (opening : Token) : Step :=
  if l.inFlow then .ok l
  else if !l.keyAllowed then .error .malformed
  else if l.opensBlock l.source.column then .ok ((l.openBlock l.source.column).push opening)
  else .ok l

def blockEntry (l : Layout) : Step := do
  let l ← l.enterBlock .blockSequenceStart
  let l ← (← { l with keyAllowed := true }.dropCandidate).advance 1
  return l.push .blockEntry

def key (l : Layout) : Step := do
  let l ← l.enterBlock .blockMappingStart
  let l ← (← { l with keyAllowed := !l.inFlow }.dropCandidate).advance 1
  return l.push .key

/-- A colon makes the candidate a key after the fact; without one it belongs to a marked key. -/
def value (l : Layout) : Step := do
  let l ←
    match l.candidate? with
    | some c =>
      let l := l.withoutCandidate
      let l := { l with tokens := l.tokens.insertIdxIfInBounds c.position .key }
      let l :=
        if !l.inFlow && l.opensBlock c.column then
          { l.openBlock c.column with
            tokens := l.tokens.insertIdxIfInBounds c.position .blockMappingStart }
        else l
      pure { l with keyAllowed := false }
    | none => do
      let l ← l.enterBlock .blockMappingStart
      { l with keyAllowed := !l.inFlow }.dropCandidate
  return (← l.advance 1).push .value

/-- A token that may be a key and after which none may start. -/
def content (l : Layout) (x : Scan α) (token : α → Token) : Step := do
  let (a, l) ← (← l.saveCandidate).scan x
  return { l.push (token a) with keyAllowed := false }

def blockScalar (fuel : Nat) (fold : Bool) (l : Layout) : Step := do
  let l ← (← { l with keyAllowed := true }.dropCandidate).advance 1
  let (cs, l) ← l.scan (Scalar.block fold l.indent fuel)
  return l.push (.scalar (.ofList cs) false)

def quotedScalar (fuel : Nat) (double : Bool) (l : Layout) : Step :=
  let scalar : Scan (List Char) := do
    Scan.advance 1
    Scalar.quoted double fuel
  l.content scalar fun cs => .scalar (.ofList cs) false

def plainScalar (fuel : Nat) (l : Layout) : Step := do
  let l ← l.saveCandidate
  let (p, l) ← l.scan (Scalar.plain l.inFlow (l.indent + 1) fuel false)
  return { l.push (.scalar (.ofList p.text) true) with keyAllowed := p.brokeLine }

/-- Whether a line starts here that separates documents. -/
def atSeparator (l : Layout) (c : Char) : Except Fault Bool := do
  if l.source.column == 0 && (c == '-' || c == '.') then
    return (← l.scan Scan.atSeparator).1
  else return false

/-- Whether a mark of a collection stands alone here. -/
def atMark (l : Layout) (c : Char) : Except Fault Bool := do
  if c == '-' || c == '?' || c == ':' then
    let following ← l.source.peek 1
    return endsToken following || (l.inFlow && c != '-')
  else return false

def startsPlain (l : Layout) (c : Char) : Except Fault Bool := do
  if endsToken c || "-?:,[]\x7b\x7d#&*!|>'\"%@\x60".toList.contains c then
    let following ← l.source.peek 1
    return !endsToken following && (c == '-' || (!l.inFlow && (c == '?' || c == ':')))
  else return true

/-- Reads a token that starts with the character. -/
def tokenFrom (fuel : Nat) (l : Layout) (c : Char) : Step := do
  if c == endMark then l.streamEnd
  else if c == '%' && l.source.column == 0 then l.directive fuel
  else if ← l.atSeparator c then
    l.documentMark (if c == '-' then .documentStart else .documentEnd)
  else if c == '[' then l.flowStart .flowSequenceStart
  else if c == '\x7b' then l.flowStart .flowMappingStart
  else if c == ']' then l.flowEnd .flowSequenceEnd
  else if c == '\x7d' then l.flowEnd .flowMappingEnd
  else if c == ',' then l.flowEntry
  else if ← l.atMark c then
    if c == '-' then l.blockEntry
    else if c == '?' then l.key
    else l.value
  else if c == '*' then l.content Token.scanName .alias
  else if c == '&' then l.content Token.scanName .anchor
  else if c == '!' then l.content (Token.scanTag fuel) .tag
  else if c == '|' && !l.inFlow then l.blockScalar fuel false
  else if c == '>' && !l.inFlow then l.blockScalar fuel true
  else if c == '\'' then l.quotedScalar fuel false
  else if c == '"' then l.quotedScalar fuel true
  else if ← l.startsPlain c then l.plainScalar fuel
  else throw .malformed

/-- Reads one token more. -/
def step (fuel : Nat) (l : Layout) : Step := do
  let l ← l.dropStale
  let l ← (← skipToToken fuel l).dropStale
  let l := l.unwindTo l.source.column
  l.tokenFrom fuel (← l.source.peek 0)

/-- How many tokens are certain. A token that may be a key yet is not: something may come before
it. -/
def certain (l : Layout) : Nat :=
  (l.candidates.filter fun c => !isStale l.source c.2).foldl (fun n c => min n c.2.position)
    l.tokens.size

/-- The certain tokens, and why there are no more. -/
def broken (l : Layout) (fault : Fault) : List Token :=
  l.tokens.toList.take l.certain ++ [.broken fault]

/-- All tokens from here on. Where no more can be made out, the last one says why. -/
def run (charFuel : Nat) : Nat → Layout → List Token
  | 0, l => l.broken .malformed
  | fuel + 1, l =>
    if l.done then l.tokens.toList
    else
      match l.step charFuel with
      | .ok next => run charFuel fuel next
      | .error fault => l.broken fault

end Layout

/-- The tokens of a text from a place on. Every step but the last takes a character at least. -/
def tokens (s : Source) : List Token :=
  Layout.run (s.rest.length + 2) (s.rest.length + 2) (.start s)

end PlatformRoutes.Yaml
