import PlatformRoutes.Datum
import PlatformRoutes.Text.Blank

namespace PlatformRoutes

/-- What can be set, in the order in which it is checked. -/
inductive Setting where
  | apiUrl
  | token
  | organization
  | space
  | pageSize
  | pollInterval
  | pollTimeout
  | requestTimeout
  | verifySsl
  deriving DecidableEq

namespace Setting

def name : Setting → String
  | apiUrl => "api_url"
  | token => "token"
  | organization => "organization"
  | space => "space"
  | pageSize => "page_size"
  | pollInterval => "poll_interval_seconds"
  | pollTimeout => "poll_timeout_seconds"
  | requestTimeout => "request_timeout_seconds"
  | verifySsl => "verify_ssl"

def all : List Setting :=
  [apiUrl, token, organization, space, pageSize, pollInterval, pollTimeout, requestTimeout,
    verifySsl]

def ofName? (s : String) : Option Setting :=
  all.find? fun k => k.name == s

abbrev Value : Setting → Type
  | apiUrl | token => String
  | organization | space => Option String
  | pageSize => Int
  | pollInterval | pollTimeout | requestTimeout => Float
  | verifySsl => Bool

def initial : (k : Setting) → k.Value
  | apiUrl => "http://localhost"
  | token => ""
  | organization => none
  | space => none
  | pageSize => (50 : Int)
  | pollInterval => (1 : Float)
  | pollTimeout => (300 : Float)
  | requestTimeout => (30 : Float)
  | verifySsl => true

def isWebAddress (s : String) : Bool :=
  "http://".toList.isPrefixOf s.toList || "https://".toList.isPrefixOf s.toList

/-- An address without the blanks around it and the slashes at its end. Only web addresses are
taken. -/
def address (s : String) : Checked String :=
  let s := Text.stripRight '/' (Text.strip s)
  if isWebAddress s then .ok s else .fault .rejected

/-- A name without the blanks around it; a blank one is none. -/
def nameOrNone (s : Option String) : Option String :=
  (s.map Text.strip).filter fun s => !s.isEmpty

/-- Checks a value for a setting and brings it into its normal form. -/
def check : (k : Setting) → Datum → Checked k.Value
  | apiUrl, d => d.asText.andThen address
  | token, d => d.asText
  | organization, d | space, d => (d.orNull Datum.asText).map nameOrNone
  | pageSize, d => (d.asInt.andThen (.atLeast 1)).andThen (.atMost 100)
  | pollInterval, d | pollTimeout, d | requestTimeout, d => d.asFloat.andThen .positive
  | verifySsl, d => d.asFlag

/-- The value for a setting, or its initial one if none is given. -/
def read (given : Setting → Option Datum) (k : Setting) : Checked k.Value :=
  match given k with
  | none => .ok k.initial
  | some d => (k.check d).under (.field k.name)

end Setting

/-- Where the platform is, what is targeted there, and how patient a client is. -/
structure Settings where
  apiUrl : String
  token : String
  organization : Option String
  space : Option String
  pageSize : Int
  pollInterval : Float
  pollTimeout : Float
  requestTimeout : Float
  verifySsl : Bool

namespace Settings

def get (s : Settings) : (k : Setting) → k.Value
  | .apiUrl => s.apiUrl
  | .token => s.token
  | .organization => s.organization
  | .space => s.space
  | .pageSize => s.pageSize
  | .pollInterval => s.pollInterval
  | .pollTimeout => s.pollTimeout
  | .requestTimeout => s.requestTimeout
  | .verifySsl => s.verifySsl

def put (s : Settings) : (k : Setting) → k.Value → Settings
  | .apiUrl, v => { s with apiUrl := v }
  | .token, v => { s with token := v }
  | .organization, v => { s with organization := v }
  | .space, v => { s with space := v }
  | .pageSize, v => { s with pageSize := v }
  | .pollInterval, v => { s with pollInterval := v }
  | .pollTimeout, v => { s with pollTimeout := v }
  | .requestTimeout, v => { s with requestTimeout := v }
  | .verifySsl, v => { s with verifySsl := v }

/-- The settings that a source gives; the faults of its unknown names come last. -/
def ofSource (given : Setting → Option Datum) (unknown : List String) : Checked Settings :=
  (fun apiUrl token organization space pageSize pollInterval pollTimeout requestTimeout verifySsl
      (_ : Unit) =>
      ⟨apiUrl, token, organization, space, pageSize, pollInterval, pollTimeout, requestTimeout,
        verifySsl⟩)
    <$> Setting.read given .apiUrl
    <*> Setting.read given .token
    <*> Setting.read given .organization
    <*> Setting.read given .space
    <*> Setting.read given .pageSize
    <*> Setting.read given .pollInterval
    <*> Setting.read given .pollTimeout
    <*> Setting.read given .requestTimeout
    <*> Setting.read given .verifySsl
    <*> (match unknown with
      | [] => .ok ()
      | names => .faulty (names.map fun n => ⟨[.field n], .unknownField⟩))

/-- Names that start with an underscore are left to programs for marks of their own. -/
def isMark (name : String) : Bool := name.toList.head? == some '_'

/-- Sets one setting by its name. A value that is refused changes nothing, and a mark is passed
over. -/
def assign (s : Settings) (name : String) (d : Datum) : Checked Settings :=
  match Setting.ofName? name with
  | none => if isMark name then .ok s else .faulty [⟨[.field name], .noSuchField⟩]
  | some k => ((k.check d).under (.field name)).map (s.put k)

end Settings

end PlatformRoutes
