import PlatformRoutes.Record.Fields

namespace PlatformRoutes

/-- A route joined with the names of its domain, its space and its applications. -/
structure RouteRecord where
  id : String
  host : String
  path : String
  domain : String
  space : String
  applications : List String
  serviceInstanceId : Option String
  deriving DecidableEq

namespace RouteRecord

def textList (v : Json) : Checked (List String) :=
  match v with
  | .list items => Checked.items Json.Fields.text 0 items
  | _ => .fault .notList

def ofFields (fields : Json.Fields) : Checked RouteRecord :=
  (fun id host path domain space applications service (_ : Unit) =>
      ⟨id, host, path, domain, space, applications, service⟩)
    <$> fields.required "id" Json.Fields.text
    <*> fields.optional "host" "" Json.Fields.text
    <*> fields.optional "path" "" Json.Fields.text
    <*> fields.optional "domain" "" Json.Fields.text
    <*> fields.optional "space" "" Json.Fields.text
    <*> fields.optional "applications" [] textList
    <*> fields.optional "service_instance_id" none Json.Fields.textOrNull
    <*> fields.noOthers
      ["id", "host", "path", "domain", "space", "applications", "service_instance_id"]

def application (r : RouteRecord) : Option String := r.applications.head?

end RouteRecord

end PlatformRoutes
