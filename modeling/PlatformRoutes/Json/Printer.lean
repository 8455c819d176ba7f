import PlatformRoutes.Json.Value
import PlatformRoutes.Number.Decimal

namespace PlatformRoutes.Json

/-- Which characters are written as themselves between quotes: all but the control characters, or
only the visible ones of ASCII. Quotes and backslashes are always escaped. -/
inductive Charset where
  | unicode
  | ascii

def Charset.keeps : Charset → Char → Bool
  | .unicode, c => 32 ≤ c.toNat
  | .ascii, c => 32 ≤ c.toNat && c.toNat < 127

/-- A sixteen-bit unit as an escape. -/
def unitEscape (n : Nat) : List Char :=
  '\\' :: 'u' :: (Number.hex 4 n).toList

/-- A character beyond U+FFFF takes two units. -/
def charEscape (c : Char) : List Char :=
  let n := c.toNat
  if n < 0x10000 then unitEscape n
  else unitEscape (0xD800 + (n - 0x10000) / 1024) ++ unitEscape (0xDC00 + (n - 0x10000) % 1024)

def quoteChar (charset : Charset) (c : Char) : List Char :=
  match c with
  | '"' => ['\\', '"']
  | '\\' => ['\\', '\\']
  | '\n' => ['\\', 'n']
  | '\r' => ['\\', 'r']
  | '\t' => ['\\', 't']
  | '\x08' => ['\\', 'b']
  | '\x0c' => ['\\', 'f']
  | c => if charset.keeps c then [c] else charEscape c

def quote (charset : Charset) (s : String) : List Char :=
  '"' :: s.toList.flatMap (quoteChar charset) ++ ['"']

def realText (x : Float) : String :=
  if x.isNaN then "NaN" else if x.isInf then (if x < 0 then "-Infinity" else "Infinity")
  else Number.floatText x

mutual
/-- Without blanks, and with all but the control characters kept. -/
def compact : Json → List Char
  | .null => "null".toList
  | .bool true => "true".toList
  | .bool false => "false".toList
  | .int n => n.repr.toList
  | .real x => (realText x).toList
  | .text s => quote .unicode s
  | .list items => '[' :: compactItems items ++ [']']
  | .object fields => '\x7b' :: compactFields fields ++ ['\x7d']

def compactItems : List Json → List Char
  | [] => []
  | [v] => compact v
  | v :: rest => compact v ++ ',' :: compactItems rest

def compactFields : List (String × Json) → List Char
  | [] => []
  | [(name, v)] => quote .unicode name ++ ':' :: compact v
  | (name, v) :: rest => quote .unicode name ++ ':' :: compact v ++ ',' :: compactFields rest
end

/-- A new line, indented by two blanks for each level. -/
def newline (depth : Nat) : List Char :=
  '\n' :: List.replicate (2 * depth) ' '

mutual
/-- In ASCII, one item or field to a line. -/
def pretty (depth : Nat) : Json → List Char
  | .null => "null".toList
  | .bool true => "true".toList
  | .bool false => "false".toList
  | .int n => n.repr.toList
  | .real x => (realText x).toList
  | .text s => quote .ascii s
  | .list [] => ['[', ']']
  | .list (v :: rest) => '[' :: prettyItems (depth + 1) (v :: rest) ++ newline depth ++ [']']
  | .object [] => ['\x7b', '\x7d']
  | .object (f :: rest) =>
    '\x7b' :: prettyFields (depth + 1) (f :: rest) ++ newline depth ++ ['\x7d']

/-- Every item on a new line, with a comma after all but the last. -/
def prettyItems (depth : Nat) : List Json → List Char
  | [] => []
  | [v] => newline depth ++ pretty depth v
  | v :: rest => newline depth ++ pretty depth v ++ ',' :: prettyItems depth rest

def prettyFields (depth : Nat) : List (String × Json) → List Char
  | [] => []
  | [(name, v)] => newline depth ++ quote .ascii name ++ ':' :: ' ' :: pretty depth v
  | (name, v) :: rest =>
    newline depth ++ quote .ascii name ++ ':' :: ' ' :: pretty depth v ++
      ',' :: prettyFields depth rest
end

end PlatformRoutes.Json
