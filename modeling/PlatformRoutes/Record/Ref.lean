import PlatformRoutes.Record.Fields
import PlatformRoutes.Text.Blank

namespace PlatformRoutes

/-- An organization, a space or an application: its id and its name. -/
structure Ref where
  id : String
  name : String
  deriving DecidableEq

namespace Ref

/-- The id is checked before the blanks around it go, so one of blanks only becomes empty. -/
def ofFields (fields : Json.Fields) : Checked Ref :=
  (fun id name (_ : Unit) => ⟨Text.strip id, Text.strip name⟩)
    <$> fields.required "id" Json.Fields.nonEmptyText
    <*> fields.optional "name" "" Json.Fields.text
    <*> fields.noOthers ["id", "name"]

def toFields (r : Ref) : Json.Fields :=
  [("id", .text r.id), ("name", .text r.name)]

/-- The reference of something that has an id already. -/
def of (id name : String) : Ref := ⟨Text.strip id, Text.strip name⟩

end Ref

end PlatformRoutes
