namespace PlatformRoutes

/-- A JSON value. Whole numbers and numbers written with a point or an exponent are different
values, and an object keeps its fields in the order in which their names first occur. -/
inductive Json where
  | null
  | bool (b : Bool)
  | int (n : Int)
  | real (x : Float)
  | text (s : String)
  | list (items : List Json)
  | object (fields : List (String × Json))

namespace Json

instance : Inhabited Json := ⟨.null⟩

abbrev Fields := List (String × Json)

def Fields.get? (fields : Fields) (name : String) : Option Json :=
  (fields.find? (·.1 == name)).map (·.2)

/-- A field written again keeps its place and takes the new value. -/
def Fields.put : Fields → String → Json → Fields
  | [], name, v => [(name, v)]
  | (n, old) :: rest, name, v =>
    if n == name then (n, v) :: rest else (n, old) :: Fields.put rest name v

def Fields.ofPairs (pairs : List (String × Json)) : Fields :=
  pairs.foldl (fun fs p => Fields.put fs p.1 p.2) []

def get? : Json → String → Option Json
  | object fields, name => Fields.get? fields name
  | _, _ => none

/-- Nothing, false, zero and whatever is empty count as absent. -/
def isTruthy : Json → Bool
  | null => false
  | bool b => b
  | int n => n != 0
  | real x => !(x == 0)
  | text s => !s.isEmpty
  | list items => !items.isEmpty
  | object fields => !fields.isEmpty

/-- The value of a number, if it is one; truth values count as one and zero. -/
def number? : Json → Option (Int ⊕ Float)
  | bool b => some (.inl (if b then 1 else 0))
  | int n => some (.inl n)
  | real x => some (.inr x)
  | _ => none

end Json

end PlatformRoutes
