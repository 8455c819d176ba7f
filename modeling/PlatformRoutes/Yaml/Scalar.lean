import PlatformRoutes.Yaml.Source

namespace PlatformRoutes.Yaml

namespace Scalar

def simpleEscape? (c : Char) : Option Char :=
  match c with
  | '0' => some '\x00'
  | 'a' => some '\x07'
  | 'b' => some '\x08'
  | 't' | '\t' => some '\t'
  | 'n' => some '\n'
  | 'v' => some '\x0b'
  | 'f' => some '\x0c'
  | 'r' => some '\r'
  | 'e' => some '\x1b'
  | ' ' => some ' '
  | '"' => some '"'
  | '\\' => some '\\'
  | '/' => some '/'
  | 'N' => some '\x85'
  | '_' => some '\xa0'
  | 'L' => some '\u2028'
  | 'P' => some '\u2029'
  | _ => none

/-- How many hexadecimal digits an escape takes. -/
def codeLength? (c : Char) : Option Nat :=
  match c with
  | 'x' => some 2
  | 'u' => some 4
  | 'U' => some 8
  | _ => none

def hexDigit? (c : Char) : Option Nat :=
  if '0' ≤ c && c ≤ '9' then some (c.toNat - 48)
  else if 'a' ≤ c && c ≤ 'f' then some (c.toNat - 87)
  else if 'A' ≤ c && c ≤ 'F' then some (c.toNat - 55)
  else none

/-- The character of a code. Codes beyond Unicode are refused, those of half pairs become the
replacement character. -/
def charOf (code : Nat) : Except Fault Char :=
  if code ≥ 0x80000000 then .error .tooLarge
  else if code ≥ 0x110000 then .error .badValue
  else if 0xD800 ≤ code && code < 0xE000 then .ok '\uFFFD'
  else .ok (Char.ofNat code)

/-- The number that some hexadecimal digits ahead write, after what is read of it. -/
def hexNumber (ahead n : Nat) : Nat → Scan Nat
  | 0 => return n
  | more + 1 => do
    match hexDigit? (← Scan.peek ahead) with
    | some d => hexNumber (ahead + 1) (n * 16 + d) more
    | none => Scan.malformed

/-- The empty lines after a line break inside quotes; a separator of documents may not stand
there. -/
def quotedBreaks : Nat → Scan (List Char)
  | 0 => Scan.malformed
  | fuel + 1 => do
    if ← Scan.atSeparator then Scan.malformed
    else
      let _ ← Scan.take isBlank
      match ← Scan.lineBreak? with
      | none => return []
      | some c => return c :: (← quotedBreaks fuel)

/-- A folded line break is a blank, unless empty lines follow it. -/
def folded (first : Char) (breaks : List Char) : List Char :=
  if first != '\n' then first :: breaks
  else if breaks.isEmpty then [' ']
  else breaks

/-- Blanks inside quotes: kept within a line, folded at its end. -/
def quotedSpaces (fuel : Nat) : Scan (List Char) := do
  let blanks ← Scan.take isBlank
  if (← Scan.head) == endMark then Scan.malformed
  else
    match ← Scan.lineBreak? with
    | none => return blanks
    | some c => return folded c (← quotedBreaks fuel)

/-- What an escape stands for, after its backslash. -/
def escape (fuel : Nat) : Scan (List Char) := do
  let c ← Scan.head
  match simpleEscape? c, codeLength? c with
  | some d, _ =>
    Scan.advance 1
    return [d]
  | none, some n =>
    Scan.advance 1
    let d ← charOf (← hexNumber 0 0 n)
    Scan.advance n
    return [d]
  | none, none =>
    match ← Scan.lineBreak? with
    | none => Scan.malformed
    | some _ => quotedBreaks fuel

/-- The rest of a quoted scalar, after its opening quote. -/
def quoted (double : Bool) : Nat → Scan (List Char)
  | 0 => Scan.malformed
  | fuel + 1 => do
    let c ← Scan.head
    if c == endMark then Scan.malformed
    else if c == (if double then '"' else '\'') then
      if (← Scan.peek 1) == c && !double then
        Scan.advance 2
        return c :: (← quoted double fuel)
      else
        Scan.advance 1
        return []
    else if double && c == '\\' then
      Scan.advance 1
      let d ← escape fuel
      return d ++ (← quoted double fuel)
    else if isBlank c || isBreak c then
      let d ← quotedSpaces fuel
      return d ++ (← quoted double fuel)
    else
      Scan.advance 1
      return c :: (← quoted double fuel)

/-- The empty lines between two lines of a plain scalar. None is told apart from a separator. -/
def plainBreaks : Nat → Scan (Option (List Char))
  | 0 => return none
  | fuel + 1 => do
    if (← Scan.head) == ' ' then
      Scan.advance 1
      plainBreaks fuel
    else
      match ← Scan.lineBreak? with
      | none => return some []
      | some c =>
        if ← Scan.atSeparator then return none
        else return (← plainBreaks fuel).map (c :: ·)

/-- A plain scalar, or a gap in one, and whether it reached the start of a line. -/
structure Plain where
  text : List Char
  brokeLine : Bool

/-- What stands between two words of a plain scalar. -/
def plainSpaces (fuel : Nat) : Scan Plain := do
  let blanks ← Scan.take (· == ' ')
  match ← Scan.lineBreak? with
  | none => return ⟨blanks, false⟩
  | some c =>
    if ← Scan.atSeparator then return ⟨[], true⟩
    else
      match ← plainBreaks fuel with
      | none => return ⟨[], true⟩
      | some breaks => return ⟨folded c breaks, true⟩

/-- The characters of one word. A colon ends it before a blank, and in a collection in brackets so
do the marks of that collection. -/
def plainWord (inFlow : Bool) : Nat → Scan (List Char)
  | 0 => return []
  | fuel + 1 => do
    let c ← Scan.head
    let ends ←
      if c == ':' then do
        let following ← Scan.peek 1
        pure (endsToken following || (inFlow && ",[]\x7b\x7d".toList.contains following))
      else pure (endsToken c || (inFlow && ",?[]\x7b\x7d".toList.contains c))
    if ends then return []
    else
      Scan.advance 1
      return c :: (← plainWord inFlow fuel)

/-- The words from here on. `brokeLine` tells about the gap before. -/
def plain (inFlow : Bool) (indent : Int) : Nat → Bool → Scan Plain
  | 0, brokeLine => return ⟨[], brokeLine⟩
  | fuel + 1, brokeLine => do
    if (← Scan.head) == '#' then return ⟨[], brokeLine⟩
    else
      let word ← plainWord inFlow fuel
      if word.isEmpty then return ⟨[], brokeLine⟩
      else
        let gap ← plainSpaces fuel
        let outdented := !inFlow && ((← get).column : Int) < indent
        if gap.text.isEmpty || (← Scan.head) == '#' || outdented then
          return ⟨word, gap.brokeLine⟩
        else
          let more ← plain inFlow indent fuel gap.brokeLine
          if more.text.isEmpty then return ⟨word, gap.brokeLine⟩
          else return ⟨word ++ gap.text ++ more.text, more.brokeLine⟩

/-- What the header of a block scalar says about the line breaks at its end. -/
inductive Chomping where
  | clip
  | strip
  | keep
  deriving DecidableEq

structure BlockHeader where
  chomping : Chomping
  increment : Option Nat

def increment? (c : Char) : Option Nat :=
  if '0' ≤ c && c ≤ '9' then some (c.toNat - 48) else none

def chomping? (c : Char) : Option Chomping :=
  match c with
  | '+' => some .keep
  | '-' => some .strip
  | _ => none

def optionalIncrement : Scan (Option Nat) := do
  match increment? (← Scan.head) with
  | none => return none
  | some 0 => Scan.malformed
  | some n =>
    Scan.advance 1
    return some n

def optionalChomping : Scan (Option Chomping) := do
  match chomping? (← Scan.head) with
  | none => return none
  | some chomping =>
    Scan.advance 1
    return some chomping

/-- The two indicators may stand in either order. -/
def blockHeader : Scan BlockHeader := do
  let header ←
    match ← optionalChomping with
    | some chomping => do pure (BlockHeader.mk chomping (← optionalIncrement))
    | none => do
      match ← optionalIncrement with
      | none => pure (BlockHeader.mk .clip none)
      | some n => do pure (BlockHeader.mk ((← optionalChomping).getD .clip) (some n))
  if endsWord (← Scan.head) then return header else Scan.malformed

/-- Nothing but a comment may follow on the line. -/
def restOfLine : Scan Unit := do
  Scan.skipBlanks
  Scan.skipComment
  if endsLine (← Scan.head) then
    let _ ← Scan.lineBreak?
  else Scan.malformed

/-- The empty lines before a block scalar, with the deepest column they reach. -/
def leadingLines : Nat → Nat → Scan (List Char × Nat)
  | 0, deepest => return ([], deepest)
  | fuel + 1, deepest => do
    if (← Scan.head) == ' ' then
      Scan.advance 1
      leadingLines fuel (max deepest (← get).column)
    else
      match ← Scan.lineBreak? with
      | none => return ([], deepest)
      | some c =>
        let (cs, deepest) ← leadingLines fuel deepest
        return (c :: cs, deepest)

/-- Up to the given column, and over the empty lines there. -/
def blockBreaks (indent : Nat) : Nat → Scan (List Char)
  | 0 => return []
  | fuel + 1 => do
    if (← get).column < indent && (← Scan.head) == ' ' then
      Scan.advance 1
      blockBreaks indent fuel
    else
      match ← Scan.lineBreak? with
      | none => return []
      | some c => return c :: (← blockBreaks indent fuel)

/-- Whether a line of a block scalar starts here. -/
def atBlockLine (indent : Nat) : Scan Bool := do
  return (← get).column == indent && (← Scan.head) != endMark

/-- The lines of a block scalar, from the start of one. Before each stand the empty lines skipped
since the one before it. -/
def blockLines (fold : Bool) (chomping : Chomping) (indent : Nat) :
    Nat → List Char → Scan (List Char)
  | 0, _ => return []
  | fuel + 1, breaks => do
    let blankStart := isBlank (← Scan.head)
    let line ← Scan.take fun c => !isBreak c
    let lineBreak := (← Scan.lineBreak?).toList
    let after ← blockBreaks indent fuel
    if ← atBlockLine indent then
      let joint :=
        if fold && lineBreak == ['\n'] && !blankStart && !isBlank (← Scan.head) then
          if after.isEmpty then [' '] else []
        else lineBreak
      let more ← blockLines fold chomping indent fuel after
      return breaks ++ line ++ joint ++ more
    else
      match chomping with
      | .strip => return breaks ++ line
      | .clip => return breaks ++ line ++ lineBreak
      | .keep => return breaks ++ line ++ lineBreak ++ after

/-- A block scalar after its mark, in a block of the given indentation. -/
def block (fold : Bool) (parent : Int) (fuel : Nat) : Scan (List Char) := do
  let header ← blockHeader
  restOfLine
  let least := (max (parent + 1) 1).toNat
  let (breaks, indent) ←
    match header.increment with
    | none => do
      let (breaks, deepest) ← leadingLines fuel 0
      pure (breaks, max least deepest)
    | some n => do pure (← blockBreaks (least + n - 1) fuel, least + n - 1)
  if ← atBlockLine indent then blockLines fold header.chomping indent fuel breaks
  else return if header.chomping = .keep then breaks else []

end Scalar

end PlatformRoutes.Yaml
