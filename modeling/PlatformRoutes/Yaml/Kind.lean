import PlatformRoutes.Text.Blank

namespace PlatformRoutes.Yaml

/-- The types that a value can have. `custom` is any tag without a meaning here. -/
inductive Kind where
  | null
  | bool
  | int
  | float
  | binary
  | timestamp
  | omap
  | pairs
  | set
  | str
  | seq
  | map
  | merge
  | value
  | custom (tag : String)
  deriving DecidableEq

namespace Kind

def standard : String := "tag:yaml.org,2002:"

def names : List (String × Kind) :=
  [("null", null), ("bool", bool), ("int", int), ("float", float), ("binary", binary),
    ("timestamp", timestamp), ("omap", omap), ("pairs", pairs), ("set", set), ("str", str),
    ("seq", seq), ("map", map), ("merge", merge), ("value", value)]

def ofTag (tag : String) : Kind :=
  ((names.find? fun n => standard ++ n.1 == tag).map (·.2)).getD (custom tag)

def isDigit (c : Char) : Bool := '0' ≤ c && c ≤ '9'

def isDigitOr (c : Char) : Bool := isDigit c || c == '_'

def isHex (c : Char) : Bool := isDigit c || ('a' ≤ c && c ≤ 'f') || ('A' ≤ c && c ≤ 'F')

def nonEmptyAll (p : Char → Bool) (cs : List Char) : Bool := !cs.isEmpty && cs.all p

def dropSign : List Char → List Char
  | c :: rest => if c == '+' || c == '-' then rest else c :: rest
  | [] => []

/-- Minutes or seconds after a colon: one digit, or two of which the first is at most five. -/
def isSixty : List Char → Bool
  | [a] => isDigit a
  | [a, b] => '0' ≤ a && a ≤ '5' && isDigit b
  | _ => false

def splitColons : List Char → List (List Char)
  | [] => [[]]
  | c :: rest =>
    match splitColons rest with
    | [] => [[c]]
    | part :: parts => if c == ':' then [] :: part :: parts else (c :: part) :: parts

/-- A text without a line break at its end. The look of a text is that of its one line. -/
def withoutLastBreak (cs : List Char) : List Char :=
  if cs.getLast? == some '\n' then cs.dropLast else cs

/-- Whole numbers: binary, octal after a zero, hexadecimal, decimal, or in parts of sixty. -/
def isInt (cs : List Char) : Bool :=
  match dropSign cs with
  | '0' :: rest =>
    rest.isEmpty || rest.all (fun c => ('0' ≤ c && c ≤ '7') || c == '_') ||
      (match rest with
        | 'b' :: bits => nonEmptyAll (fun c => c == '0' || c == '1' || c == '_') bits
        | 'x' :: digits => nonEmptyAll (fun c => isHex c || c == '_') digits
        | _ => false)
  | body =>
    match splitColons body with
    | (c :: rest) :: parts => isDigit c && rest.all isDigitOr && parts.all isSixty
    | _ => false

/-- An exponent with its sign, or nothing. -/
def isExponent : List Char → Bool
  | [] => true
  | e :: sign :: digits =>
    (e == 'e' || e == 'E') && (sign == '+' || sign == '-') && nonEmptyAll isDigit digits
  | _ => false

/-- Places after the point and an exponent. -/
def isFraction (cs : List Char) : Bool := isExponent (cs.dropWhile isDigitOr)

/-- The last part of a number in parts of sixty, with its places. -/
def isSixtyPoint (cs : List Char) : Bool :=
  match cs.dropWhile (· != '.') with
  | _ :: places => isSixty (cs.takeWhile (· != '.')) && places.all isDigitOr
  | [] => false

def isSixties : List (List Char) → Bool
  | [] => false
  | [last] => isSixtyPoint last
  | part :: parts => isSixty part && isSixties parts

/-- Numbers with a point. An exponent needs a sign, and a number that starts with its point may not
have one. -/
def isFloat (cs : List Char) : Bool :=
  let body := dropSign cs
  let whole := body.takeWhile isDigitOr
  let rest := body.dropWhile isDigitOr
  let startsWithDigit := (body.head?.map isDigit).getD false
  (startsWithDigit &&
    (match rest with
      | '.' :: places => isFraction places
      | ':' :: more => whole.all isDigitOr && isSixties (splitColons more)
      | _ => false)) ||
    (match cs with
      | '.' :: d :: places => isDigit d && isFraction places
      | _ => false) ||
    [".inf", ".Inf", ".INF"].contains (String.ofList body) ||
    [".nan", ".NaN", ".NAN"].contains (String.ofList cs)

def digits? (least most : Nat) (cs : List Char) : Option (List Char × List Char) :=
  let ds := (cs.take most).takeWhile isDigit
  if ds.length < least then none else some (ds, cs.drop ds.length)

def after? (c : Char) : List Char → Option (List Char)
  | d :: rest => if c == d then some rest else none
  | [] => none

/-- The parts of a date, and of a time where one follows. -/
structure Moment where
  year : Nat
  month : Nat
  day : Nat
  time : Option (Nat × Nat × Nat)
  /-- The offset in hours and minutes. -/
  offset : Option (Nat × Nat)
  /-- Month and day both take two digits. -/
  padded : Bool

def number (cs : List Char) : Nat := cs.foldl (fun n d => n * 10 + (d.toNat - 48)) 0

def isGap (c : Char) : Bool := c == ' ' || c == '\t'

/-- What may follow the time: a letter for the prime meridian, or an offset. -/
def offset? (cs : List Char) : Option (Option (Nat × Nat)) := do
  match cs.dropWhile isGap with
  | [] => if cs.isEmpty then some none else none
  | ['Z'] => some none
  | sign :: rest =>
    if sign != '+' && sign != '-' then none
    let (hour, rest) ← digits? 1 2 rest
    match rest with
    | [] => some (some (number hour, 0))
    | ':' :: rest =>
      let (minute, rest) ← digits? 2 2 rest
      if rest.isEmpty then some (some (number hour, number minute)) else none
    | _ => none

def moment? (cs : List Char) : Option Moment := do
  let (year, rest) ← digits? 4 4 cs
  let (month, rest) ← digits? 1 2 (← after? '-' rest)
  let (day, rest) ← digits? 1 2 (← after? '-' rest)
  let padded := month.length == 2 && day.length == 2
  let date : Moment := ⟨number year, number month, number day, none, none, padded⟩
  match rest with
  | [] => some date
  | c :: _ =>
    let rest ←
      if c == 'T' || c == 't' then some (rest.drop 1)
      else if isGap c then some (rest.dropWhile isGap)
      else none
    let (hour, rest) ← digits? 1 2 rest
    let (minute, rest) ← digits? 2 2 (← after? ':' rest)
    let (second, rest) ← digits? 2 2 (← after? ':' rest)
    let rest :=
      match rest with
      | '.' :: places => places.dropWhile isDigit
      | rest => rest
    let offset ← offset? rest
    some { date with time := some (number hour, number minute, number second), offset }

/-- A date alone is made out only with two digits for month and day. -/
def isTimestamp (cs : List Char) : Bool :=
  match moment? cs with
  | some m => m.time.isSome || m.padded
  | none => false

def boolWords : List String :=
  ["yes", "Yes", "YES", "no", "No", "NO", "true", "True", "TRUE", "false", "False", "FALSE", "on",
    "On", "ON", "off", "Off", "OFF"]

/-- The type that a text shows by its look. A mark of tags or names on its own shows one without a
meaning. -/
def ofPlain (s : String) : Kind :=
  if s.isEmpty then null
  else
    let cs := withoutLastBreak s.toList
    let s := String.ofList cs
    if boolWords.contains s then bool
    else if isFloat cs then float
    else if isInt cs then int
    else if s == "<<" then merge
    else if ["~", "null", "Null", "NULL"].contains s then null
    else if isTimestamp cs then timestamp
    else if s == "=" then value
    else if ["!", "&", "*"].contains s then custom (standard ++ "yaml")
    else str

end Kind

end PlatformRoutes.Yaml
