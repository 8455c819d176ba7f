import PlatformRoutes.Number.Binary64
import PlatformRoutes.Text.Blank
import PlatformRoutes.Text.Digit

namespace PlatformRoutes.Number

def decimalValue (ds : List Nat) : Nat :=
  ds.foldl (fun n d => n * 10 + d) 0

def asciiDigit? (c : Char) : Option Nat :=
  if Text.isAsciiDigit c then some (c.toNat - 48) else none

/-- The sign in front of a numeral. -/
def splitSign : List Char → Bool × List Char
  | '-' :: rest => (true, rest)
  | '+' :: rest => (false, rest)
  | cs => (false, cs)

def signedInt (negative : Bool) (n : Nat) : Int :=
  if negative then -(n : Int) else n

def maxDigits : Nat := 4300

/-- Digits with single underscores between them. -/
def groupedDigits? (digit? : Char → Option Nat) : List Char → Option (List Nat)
  | [] => none
  | [c] => (digit? c).map ([·])
  | c :: '_' :: rest => do
    let d ← digit? c
    let ds ← groupedDigits? digit? rest
    some (d :: ds)
  | c :: rest => do
    let d ← digit? c
    let ds ← groupedDigits? digit? rest
    some (d :: ds)

/-- A whole number as people write it: space around it, a sign, decimal digits of any script, and
single underscores between digits. -/
def writtenInt? (s : String) : Option Int := do
  let (negative, body) := splitSign (Text.trim Text.isSpace s.toList)
  let ds ← groupedDigits? Text.digitValue? body
  if ds.length > maxDigits then none else some (signedInt negative (decimalValue ds))

/-- The value of a digit: the decimal ones of any script, then the letters. -/
def digitIn? (base : Nat) (c : Char) : Option Nat :=
  let letter := c.toLower
  let value? :=
    if 'a' ≤ letter && letter ≤ 'z' then some (letter.toNat - 87) else Text.digitValue? c
  value?.filter (· < base)

/-- The letter after a zero that may announce the base. -/
def baseMark? : Nat → Option Char
  | 2 => some 'b'
  | 8 => some 'o'
  | 16 => some 'x'
  | _ => none

def withoutBaseMark (base : Nat) : List Char → List Char
  | '0' :: c :: rest =>
    if baseMark? base == some c.toLower then (if rest.head? == some '_' then rest.drop 1 else rest)
    else '0' :: c :: rest
  | cs => cs

/-- A whole number as people write it in another base. -/
def writtenInBase? (base : Nat) (s : String) : Option Int := do
  let (negative, body) := splitSign (Text.trim Text.isSpace s.toList)
  let ds ← groupedDigits? (digitIn? base) (withoutBaseMark base body)
  some (signedInt negative (ds.foldl (fun n d => n * base + d) 0))

/-- A bare whole number: no sign but a minus, and no needless zero in front. -/
def bareInt? (cs : List Char) : Option Int :=
  let (negative, body) :=
    match cs with
    | '-' :: rest => (true, rest)
    | cs => (false, cs)
  match body with
  | [] => none
  | ['0'] => some 0
  | '0' :: _ => none
  | ds => (ds.mapM asciiDigit?).map fun ds => signedInt negative (decimalValue ds)

/-- What follows the zeros and underscores in front of a numeral. One zero stays before a point,
and the last character stays if there is nothing else. -/
def dropLeadingZeros (last : Char) : List Char → Option (List Char)
  | [] => some [last]
  | c :: rest =>
    if c == '0' || c == '_' then dropLeadingZeros c rest
    else if Text.isAsciiDigit c then some (c :: rest)
    else if c == '.' then some (last :: c :: rest)
    else none

def withoutLeadingZeros? : List Char → Option (List Char)
  | '0' :: rest => dropLeadingZeros '0' rest
  | c :: rest => if c == '-' || Text.isAsciiDigit c then some (c :: rest) else none
  | [] => none

/-- A fraction of nothing but zeros is dropped together with its point. -/
def withoutZeroFraction (cs : List Char) : List Char :=
  match cs.dropWhile (· != '.') with
  | _ :: places => if places.all (· == '0') then cs.takeWhile (· != '.') else cs
  | [] => cs

def hasDoubleUnderscore : List Char → Bool
  | '_' :: '_' :: _ => true
  | _ :: rest => hasDoubleUnderscore rest
  | [] => false

/-- Underscores are dropped where each stands alone between two other characters. -/
def withoutUnderscores? (cs : List Char) : Option (List Char) :=
  if cs.head? == some '_' || cs.getLast? == some '_' || hasDoubleUnderscore cs ||
      !cs.contains '_' then none
  else some (cs.filter (· != '_'))

/-- A whole number where a field asks for one: space around it, a plus sign, zeros in front, single
underscores and a fraction of zeros are all let through. -/
def looseInt? (s : String) : Option Int := do
  let trimmed := Text.trim Text.isSpace s.toList
  match bareInt? trimmed with
  | some n => some n
  | none =>
    let unsigned ←
      match trimmed with
      | '+' :: '-' :: _ => none
      | '+' :: rest => some rest
      | cs => some cs
    let body := withoutZeroFraction (← withoutLeadingZeros? unsigned)
    bareInt? ((withoutUnderscores? body).getD body)

def equalsWord (word : String) (cs : List Char) : Bool :=
  cs.map Char.toLower == word.toList

/-- Digits, a point and an exponent; at least one digit stands before or after the point. -/
def looseMagnitude? (negative : Bool) (cs : List Char) : Option Float := do
  if equalsWord "inf" cs || equalsWord "infinity" cs then
    return if negative then -1 / 0 else 1 / 0
  if equalsWord "nan" cs then return 0 / 0
  let (whole, rest) := cs.span Text.isAsciiDigit
  let (places, rest) :=
    match rest with
    | '.' :: r => r.span Text.isAsciiDigit
    | r => ([], r)
  if whole.isEmpty && places.isEmpty then none
  let digits ← (whole ++ places).mapM asciiDigit?
  let power ←
    match rest with
    | [] => some 0
    | e :: r =>
      if e == 'e' || e == 'E' then
        let (negative, r) := splitSign r
        if r.isEmpty then none
        else (r.mapM asciiDigit?).map fun ds => signedInt negative (decimalValue ds)
      else none
  return ofDecimal negative (decimalValue digits) (power - places.length)

def bareFloat? (cs : List Char) : Option Float :=
  let (negative, body) := splitSign cs
  looseMagnitude? negative body

/-- A number as people write it: space around it, decimal digits of any script, and single
underscores between digits. -/
def writtenFloat? (s : String) : Option Float :=
  let cs := (Text.trim Text.isSpace s.toList).map fun c =>
    ((Text.digitValue? c).map fun d => Char.ofNat (48 + d)).getD c
  match bareFloat? cs with
  | some x => some x
  | none => (withoutUnderscores? cs).bind bareFloat?

/-- A number where a field asks for one: space around it, or single underscores in it. -/
def looseFloat? (s : String) : Option Float :=
  match bareFloat? (Text.trim Text.isSpace s.toList) with
  | some x => some x
  | none => (withoutUnderscores? s.toList).bind bareFloat?

end PlatformRoutes.Number
