import PlatformRoutes.Datum

namespace PlatformRoutes.Json.Fields

/-- A field that must be given. -/
def required (fields : Fields) (name : String) (read : Json → Checked α) : Checked α :=
  match fields.get? name with
  | some v => (read v).under (.field name)
  | none => .faulty [⟨[.field name], .missing⟩]

/-- A field that has a default; the default is not looked at. -/
def optional (fields : Fields) (name : String) (default : α) (read : Json → Checked α) :
    Checked α :=
  match fields.get? name with
  | some v => (read v).under (.field name)
  | none => .ok default

/-- Each field outside the known ones is a fault of its own, in the order given. -/
def noOthers (fields : Fields) (known : List String) : Checked Unit :=
  match fields.filter fun f => !known.contains f.1 with
  | [] => .ok ()
  | others => .faulty (others.map fun f => ⟨[.field f.1], .unknownField⟩)

def text (v : Json) : Checked String := (Datum.ofJson v).asText

def nonEmptyText (v : Json) : Checked String := (text v).andThen .nonEmpty

def textOrNull (v : Json) : Checked (Option String) := (Datum.ofJson v).orNull Datum.asText

def int (v : Json) : Checked Int := (Datum.ofJson v).asInt

end PlatformRoutes.Json.Fields
