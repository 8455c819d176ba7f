import PlatformRoutes.Json.Value
import PlatformRoutes.Number.Binary64
import PlatformRoutes.Text.Blank

namespace PlatformRoutes.Json

/-- Why a text is no JSON value: it breaks the grammar, or it holds a whole number with more digits
than are read. -/
inductive ReadFault where
  | malformed
  | tooLong
  deriving DecidableEq

abbrev Read (α : Type) := Except ReadFault (α × List Char)

def maxDigits : Nat := 4300

def isSpace (c : Char) : Bool :=
  c == ' ' || c == '\t' || c == '\n' || c == '\r'

def skipSpace (cs : List Char) : List Char := cs.dropWhile isSpace

def hexValue? (c : Char) : Option Nat :=
  if '0' ≤ c && c ≤ '9' then some (c.toNat - 48)
  else if 'a' ≤ c && c ≤ 'f' then some (c.toNat - 87)
  else if 'A' ≤ c && c ≤ 'F' then some (c.toNat - 55)
  else none

def hexUnit? : List Char → Option (Nat × List Char)
  | a :: b :: c :: d :: rest => do
    let a ← hexValue? a
    let b ← hexValue? b
    let c ← hexValue? c
    let d ← hexValue? d
    some (((a * 16 + b) * 16 + c) * 16 + d, rest)
  | _ => none

def isHighUnit (n : Nat) : Bool := 0xD800 ≤ n && n < 0xDC00
def isLowUnit (n : Nat) : Bool := 0xDC00 ≤ n && n < 0xE000

/-- The character of a sixteen-bit unit, joined with a second one where the two form a pair. Half a
pair on its own becomes the replacement character. -/
def unitChar (n : Nat) (rest : List Char) : Char × List Char :=
  if isHighUnit n then
    match rest with
    | '\\' :: 'u' :: r =>
      match hexUnit? r with
      | some (m, r) =>
        if isLowUnit m then (Char.ofNat (0x10000 + (n - 0xD800) * 1024 + (m - 0xDC00)), r)
        else ('\uFFFD', rest)
      | none => ('\uFFFD', rest)
    | _ => ('\uFFFD', rest)
  else if isLowUnit n then ('\uFFFD', rest)
  else (Char.ofNat n, rest)

def escaped? (c : Char) : Option Char :=
  match c with
  | '"' => some '"'
  | '\\' => some '\\'
  | '/' => some '/'
  | 'b' => some '\x08'
  | 'f' => some '\x0c'
  | 'n' => some '\n'
  | 'r' => some '\r'
  | 't' => some '\t'
  | _ => none

/-- The characters of a quoted text, up to its closing quote. The opening one has been read. -/
def readChars : Nat → List Char → Read (List Char)
  | 0, _ => .error .malformed
  | fuel + 1, cs =>
    match cs with
    | [] => .error .malformed
    | '"' :: rest => .ok ([], rest)
    | '\\' :: 'u' :: rest =>
      match hexUnit? rest with
      | none => .error .malformed
      | some (n, rest) =>
        let (c, rest) := unitChar n rest
        (readChars fuel rest).map fun (s, r) => (c :: s, r)
    | '\\' :: c :: rest =>
      match escaped? c with
      | none => .error .malformed
      | some c => (readChars fuel rest).map fun (s, r) => (c :: s, r)
    | c :: rest =>
      if c.toNat < 32 then .error .malformed
      else (readChars fuel rest).map fun (s, r) => (c :: s, r)

def readText (fuel : Nat) (cs : List Char) : Read String :=
  (readChars fuel cs).map fun (s, r) => (String.ofList s, r)

def digitsValue (ds : List Char) : Nat :=
  ds.foldl (fun n d => n * 10 + (d.toNat - 48)) 0

def spanDigits (cs : List Char) : List Char × List Char :=
  cs.span Text.isAsciiDigit

/-- The exponent after a number's digits; without a digit of its own there is none. -/
def readExponent : List Char → Option (Int × List Char)
  | c :: rest =>
    if c == 'e' || c == 'E' then
      let (negative, rest) :=
        match rest with
        | '-' :: r => (true, r)
        | '+' :: r => (false, r)
        | r => (false, r)
      match spanDigits rest with
      | ([], _) => none
      | (ds, r) => some (if negative then -(digitsValue ds : Int) else digitsValue ds, r)
    else none
  | [] => none

/-- The digits after the point; without a digit there is no fraction. -/
def readFraction : List Char → Option (List Char × List Char)
  | '.' :: rest =>
    match spanDigits rest with
    | ([], _) => none
    | (ds, r) => some (ds, r)
  | _ => none

def readNumber (negative : Bool) (cs : List Char) : Read Json :=
  let (whole, rest) :=
    match cs with
    | '0' :: r => (['0'], r)
    | cs => spanDigits cs
  if whole.isEmpty then .error .malformed else
  let fraction := readFraction rest
  let (places, rest) := fraction.getD ([], rest)
  let exponent := readExponent rest
  let (power, rest) := exponent.getD (0, rest)
  if fraction.isSome || exponent.isSome then
    let digits := digitsValue (whole ++ places)
    .ok (.real (Number.ofDecimal negative digits (power - places.length)), rest)
  else if whole.length > maxDigits then .error .tooLong
  else .ok (.int (if negative then -(digitsValue whole : Int) else digitsValue whole), rest)

def isPrefix? : List Char → List Char → Option (List Char)
  | [], rest => some rest
  | c :: cs, d :: ds => if c == d then isPrefix? cs ds else none
  | _ :: _, [] => none

/-- The words that stand for a value on their own. -/
def words : List (String × Json) :=
  [("null", .null), ("true", .bool true), ("false", .bool false), ("NaN", .real (0 / 0)),
    ("Infinity", .real (1 / 0)), ("-Infinity", .real (-1 / 0))]

def readWord (cs : List Char) : Option (Json × List Char) :=
  words.findSome? fun (w, v) => (isPrefix? w.toList cs).map fun rest => (v, rest)

mutual
def readValue : Nat → List Char → Read Json
  | 0, _ => .error .malformed
  | fuel + 1, cs =>
    match cs with
    | '"' :: rest => (readText fuel rest).map fun (s, r) => (.text s, r)
    | '[' :: rest =>
      match skipSpace rest with
      | ']' :: r => .ok (.list [], r)
      | r => (readItems fuel r).map fun (vs, r) => (.list vs, r)
    | '{' :: rest =>
      match skipSpace rest with
      | '}' :: r => .ok (.object [], r)
      | r => (readFields fuel r).map fun (fs, r) => (.object (Fields.ofPairs fs), r)
    | cs =>
      match readWord cs with
      | some found => .ok found
      | none =>
        match cs with
        | '-' :: rest => readNumber true rest
        | cs => readNumber false cs

/-- The items of a list from the first one on, to the closing bracket. -/
def readItems : Nat → List Char → Except ReadFault (List Json × List Char)
  | 0, _ => .error .malformed
  | fuel + 1, cs => do
    let (v, r) ← readValue fuel cs
    match skipSpace r with
    | ',' :: r =>
      let (vs, r) ← readItems fuel (skipSpace r)
      return (v :: vs, r)
    | ']' :: r => return ([v], r)
    | _ => .error .malformed

/-- The fields of an object from the first name on, to the closing brace. -/
def readFields : Nat → List Char → Except ReadFault (List (String × Json) × List Char)
  | 0, _ => .error .malformed
  | fuel + 1, cs =>
    match cs with
    | '"' :: rest => do
      let (name, r) ← readText fuel rest
      match skipSpace r with
      | ':' :: r =>
        let (v, r) ← readValue fuel (skipSpace r)
        match skipSpace r with
        | ',' :: r =>
          let (fs, r) ← readFields fuel (skipSpace r)
          return ((name, v) :: fs, r)
        | '}' :: r => return ([(name, v)], r)
        | _ => .error .malformed
      | _ => .error .malformed
    | _ => .error .malformed
end

/-- Reads a whole text as one value. Two steps are taken at most for each character. -/
def read (cs : List Char) : Except ReadFault Json := do
  let (v, rest) ← readValue (2 * cs.length + 2) (skipSpace cs)
  if (skipSpace rest).isEmpty then return v else .error .malformed

end PlatformRoutes.Json
