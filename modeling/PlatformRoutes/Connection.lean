import PlatformRoutes.Http.Client
import PlatformRoutes.Settings.Source
import PlatformRoutes.Store.Requests

namespace PlatformRoutes

/-- A client of the address in some settings. -/
def Http.Client.ofSettings (s : Settings) (extra : Http.Headers) (answers : List (Http.Answer τ))
    (silence : Failure τ) : Except (Failure τ) (Http.Client τ) :=
  Http.Client.new? s.apiUrl s.token s.pageSize extra answers silence

/-- What comes of a request if no server can be reached. -/
def Connection.refused : Failure τ := .unreachable "All connection attempts failed"

/-- A platform held in memory, or one that is reached over the network. -/
inductive Connection (τ : Type) where
  | memory (store : Store τ)
  | http (client : Http.Client τ) (timeout : Float)

namespace Connection

/-- Only the network needs settings. -/
def named (name : String) (settings : Option Settings) : Except (Failure τ) (Connection τ) :=
  match name, settings with
  | "http", none => .error (.badArgument .noSettings)
  | "http", some s => do return .http (← Http.Client.ofSettings s [] [] refused) s.requestTimeout
  | "memory", s => do return .memory (← Store.new? ((s.map (·.pageSize)).getD 50) false)
  | other, _ => .error (.badArgument (.unknownClient other))

end Connection

end PlatformRoutes
