namespace PlatformRoutes.Yaml

/-- Why a document has no value: it breaks the grammar, its bytes are no text, or it holds a value that
its type refuses. -/
inductive Fault where
  | malformed
  | undecodable
  | badValue
  | tooLarge
  | missingKey
  | misshapen
  | outOfRange
  | wrongType
  deriving DecidableEq

/-- A place in a text: what can be had of the text from there on, how much came before, and the line
and the column. -/
structure Source where
  rest : List Char
  /-- What a look beyond the rest meets, unless the text ends there. -/
  stop : Option Fault
  index : Nat
  line : Nat
  column : Nat
  deriving DecidableEq

/-- The characters that end a line. Carriage returns have become line feeds before. -/
def isBreak (c : Char) : Bool :=
  c == '\n' || c == '\x85' || c == '\u2028' || c == '\u2029'

def byteOrderMark : Char := '\uFEFF'

/-- What stands for the end of a text, as no text holds it. -/
def endMark : Char := '\x00'

def isBlank (c : Char) : Bool := c == ' ' || c == '\t'

def endsLine (c : Char) : Bool := c == endMark || isBreak c

def endsWord (c : Char) : Bool := endsLine c || c == ' '

def endsToken (c : Char) : Bool := endsWord c || c == '\t'

namespace Source

/-- The start of a text. -/
def start (cs : List Char) (stop : Option Fault) : Source := ⟨cs, stop, 0, 0, 0⟩

/-- A character ahead. -/
def peek (s : Source) (ahead : Nat) : Except Fault Char :=
  match s.rest[ahead]?, s.stop with
  | some c, _ => .ok c
  | none, some fault => .error fault
  | none, none => .ok endMark

/-- One character on. A byte order mark takes no column. -/
def next (s : Source) : Source :=
  match s.rest with
  | [] => s
  | c :: rest =>
    if isBreak c then { s with rest, index := s.index + 1, line := s.line + 1, column := 0 }
    else
      { s with
        rest, index := s.index + 1, column := if c == byteOrderMark then s.column else s.column + 1 }

def skip (s : Source) : Nat → Source
  | 0 => s
  | n + 1 => s.next.skip n

end Source

/-- A part of the scanning of a text. -/
abbrev Scan (α : Type) := StateT Source (Except Fault) α

namespace Scan

def malformed : Scan α := throw .malformed

def peek (ahead : Nat) : Scan Char := do (← get).peek ahead

def head : Scan Char := peek 0

/-- Goes on by some characters. The one that follows them has to be at hand. -/
def advance (n : Nat) : Scan Unit := do
  let _ ← peek n
  modify (·.skip n)

/-- Takes the characters up to the first that fails the test. -/
def take (p : Char → Bool) : Scan (List Char) := do
  let cs := (← get).rest.takeWhile p
  advance cs.length
  return cs

def skipBlanks : Scan Unit := do
  let _ ← take (· == ' ')

def skipComment : Scan Unit := do
  if (← head) == '#' then
    let _ ← take fun c => !isBreak c

/-- Takes a line break, as it is kept in a scalar. The two Unicode separators stay themselves. -/
def lineBreak? : Scan (Option Char) := do
  let c ← head
  if isBreak c then
    advance 1
    return some (if c == '\x85' then '\n' else c)
  return none

/-- Whether a line starts here that separates documents. -/
def atSeparator : Scan Bool := do
  let _ ← peek 2
  let rest := (← get).rest
  if "---".toList.isPrefixOf rest || "...".toList.isPrefixOf rest then
    return endsToken (← peek 3)
  return false

end Scan

end PlatformRoutes.Yaml
