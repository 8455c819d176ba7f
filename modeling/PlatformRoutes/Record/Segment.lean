import PlatformRoutes.Text.Blank

namespace PlatformRoutes

/-- The host or path of a route as given: an absent one and a blank one are the same. -/
def normalSegment : Option String → String
  | none => ""
  | some s => Text.strip s

/-- A path that is not empty starts with a slash. -/
def normalPath (value : Option String) : String :=
  let s := normalSegment value
  match s.toList with
  | [] => s
  | '/' :: _ => s
  | _ => "/" ++ s

/-- A route as people name it, such as `host.domain/path`. -/
def describeRoute (domain : String) (host path : Option String) : String :=
  let host := normalSegment host
  (if host.isEmpty then domain else host ++ "." ++ domain) ++ normalPath path

end PlatformRoutes
