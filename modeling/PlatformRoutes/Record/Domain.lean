import PlatformRoutes.Record.Ref

namespace PlatformRoutes

/-- A domain is private to one organization or shared by all. -/
inductive DomainKind where
  | owned
  | shared
  deriving DecidableEq

namespace DomainKind

def name : DomainKind → String
  | owned => "private"
  | shared => "shared"

def ofName? (s : String) : Option DomainKind :=
  [owned, shared].find? fun k => k.name == s

def ofJson (v : Json) : Checked DomainKind :=
  match v with
  | .text s =>
    match ofName? s with
    | some k => .ok k
    | none => .fault .notListed
  | _ => .fault .notListed

end DomainKind

structure Domain where
  id : String
  name : String
  kind : DomainKind
  owner : Option String
  deriving DecidableEq

namespace Domain

def ofFields (fields : Json.Fields) : Checked Domain :=
  (fun id name kind owner (_ : Unit) => ⟨id, name, kind, owner⟩)
    <$> fields.required "id" Json.Fields.nonEmptyText
    <*> fields.required "name" Json.Fields.text
    <*> fields.required "kind" DomainKind.ofJson
    <*> fields.optional "owning_organization_id" none Json.Fields.textOrNull
    <*> fields.noOthers ["id", "name", "kind", "owning_organization_id"]

def toFields (d : Domain) : Json.Fields :=
  [("id", .text d.id), ("name", .text d.name), ("kind", .text d.kind.name),
    ("owning_organization_id", (d.owner.map .text).getD .null)]

def ref (d : Domain) : Ref := .of d.id d.name

end Domain

end PlatformRoutes
