import PlatformRoutes.Json.Value
import PlatformRoutes.Number.Decimal
import PlatformRoutes.Text.Visible

namespace PlatformRoutes.Json

/-- The escape of a character without a visible form: two, four or eight hexadecimal digits. -/
def hiddenEscape (n : Nat) : List Char :=
  if n < 0x100 then '\\' :: 'x' :: (Number.hex 2 n).toList
  else if n < 0x10000 then '\\' :: 'u' :: (Number.hex 4 n).toList
  else '\\' :: 'U' :: (Number.hex 8 n).toList

def literalChar (mark c : Char) : List Char :=
  if c == mark || c == '\\' then ['\\', c]
  else if c == '\t' then ['\\', 't']
  else if c == '\n' then ['\\', 'n']
  else if c == '\r' then ['\\', 'r']
  else if Text.isVisible c then [c]
  else hiddenEscape c.toNat

/-- A text in single quotes, or in double ones where it holds single quotes only. -/
def literalText (s : String) : List Char :=
  let cs := s.toList
  let mark := if cs.contains '\'' && !cs.contains '"' then '"' else '\''
  mark :: cs.flatMap (literalChar mark) ++ [mark]

mutual
/-- A value as it is shown inside another one. -/
def literal : Json → List Char
  | .null => "None".toList
  | .bool true => "True".toList
  | .bool false => "False".toList
  | .int n => n.repr.toList
  | .real x => (Number.floatText x).toList
  | .text s => literalText s
  | .list items => '[' :: literalItems items ++ [']']
  | .object fields => '\x7b' :: literalFields fields ++ ['\x7d']

def literalItems : List Json → List Char
  | [] => []
  | [v] => literal v
  | v :: rest => literal v ++ ',' :: ' ' :: literalItems rest

def literalFields : List (String × Json) → List Char
  | [] => []
  | [(name, v)] => literalText name ++ ':' :: ' ' :: literal v
  | (name, v) :: rest => literalText name ++ ':' :: ' ' :: literal v ++ ',' :: ' ' :: literalFields rest
end

/-- A value in running text: a text stands for itself. -/
def plain : Json → String
  | .text s => s
  | v => String.ofList (literal v)

end PlatformRoutes.Json
