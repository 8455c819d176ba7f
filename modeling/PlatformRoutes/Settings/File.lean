import PlatformRoutes.Failure
import PlatformRoutes.Settings.Source
import PlatformRoutes.Yaml.Content

namespace PlatformRoutes

/-- What a library raises: an exception of its own, which its callers look out for, or another one. -/
inductive Raised (δ τ : Type) where
  | own (detail : δ)
  | other (failure : Failure τ)

/-- The libraries that settings are loaded with. One reads bytes as YAML, the other makes settings of
the environment and given values, and sets one of them. -/
structure Libraries (τ : Type) where
  readYaml : ByteArray → Except (Raised Unit τ) Yaml.Node.Root
  make : Environment → Given → Except (Raised (List Fault) τ) Settings
  set : Settings → String → Datum → Except (Raised (List Fault) τ) Settings

/-- A file of settings: where it is looked for, and its bytes if there is one. -/
structure SettingsFile where
  path : String
  bytes : Option ByteArray

namespace SettingsFile

def splitSlashes : List Char → List (List Char)
  | [] => [[]]
  | '/' :: rest => [] :: splitSlashes rest
  | c :: rest =>
    match splitSlashes rest with
    | [] => [[c]]
    | part :: parts => (c :: part) :: parts

/-- Exactly two slashes in front are told apart from one; more are one. -/
def rootOf : List Char → String
  | '/' :: '/' :: '/' :: _ => "/"
  | '/' :: '/' :: _ => "//"
  | '/' :: _ => "/"
  | _ => ""

/-- A path as it is shown: without needless slashes and without steps that stay in place. -/
def shownPath (path : String) : String :=
  let parts := (splitSlashes path.toList).filter fun p => !p.isEmpty && p != ['.']
  let shown := rootOf path.toList ++ "/".intercalate (parts.map String.ofList)
  if shown.isEmpty then "." else shown

/-- A value for a name replaces the one before. -/
def put (given : Given) (name : String) (d : Datum) : Given :=
  match given with
  | [] => [(name, d)]
  | (n, old) :: rest => if n == name then (n, d) :: rest else (n, old) :: put rest name d

/-- The value of one entry more; its key has to be a text. -/
def putEntry (given : Given) (e : Datum × Datum) : Except (Failure τ) Given :=
  match e.1 with
  | .text name => .ok (put given name e.2)
  | _ => .error .wrongType

def ofEntries (entries : List (Datum × Datum)) : Except (Failure τ) Given :=
  entries.foldlM putEntry []

/-- What a file gives by a reader of YAML. An empty document gives nothing. -/
def givenBy (readYaml : ByteArray → Except (Raised Unit τ) Yaml.Node.Root) (f : SettingsFile) :
    Except (Failure τ) Given :=
  let path := shownPath f.path
  match f.bytes with
  | none => .error (.configuration ("Config file does not exist: " ++ path))
  | some bytes =>
    match readYaml bytes with
    | .error (.own ()) => .error (.configuration ("Invalid YAML in " ++ path))
    | .error (.other failure) => .error failure
    | .ok .nothing => .ok []
    | .ok (.mapping entries) => ofEntries entries
    | .ok .other => .error (.configuration ("Config YAML root must be a mapping: " ++ path))

end SettingsFile

namespace Settings

/-- Faults in settings are failures of the configuration. -/
def caught : Except (Raised (List Fault) τ) α → Except (Failure τ) α
  | .ok a => .ok a
  | .error (.own faults) => .error (.invalidSettings faults)
  | .error (.other failure) => .error failure

/-- Null overrides nothing. -/
def overrideBy (libraries : Libraries τ) (s : Settings) (o : String × Datum) :
    Except (Raised (List Fault) τ) Settings :=
  match o.2 with
  | .null => .ok s
  | d => libraries.set s o.1 d

/-- Builds settings from given values, the environment and overrides, each of which comes before
those named earlier. The overrides are set one by one. -/
def layerBy (libraries : Libraries τ) (given : Given) (env : Environment) (overrides : Given) :
    Except (Failure τ) Settings := do
  let s ← caught (libraries.make env given)
  overrides.foldlM (fun s o => caught (overrideBy libraries s o)) s

/-- What the lowest layer gives. Without a file it is nothing. -/
def filedBy (libraries : Libraries τ) : Option SettingsFile → Except (Failure τ) Given
  | none => .ok []
  | some f => f.givenBy libraries.readYaml

/-- Builds settings with those of a file, if there is one, as the lowest layer. -/
def loadBy (libraries : Libraries τ) (file : Option SettingsFile) (env : Environment)
    (overrides : Given) : Except (Failure τ) Settings := do
  layerBy libraries (← filedBy libraries file) env overrides

end Settings

/-- What the reader of YAML raises. It tells of texts that break the grammar by an exception of its
own; what a type makes of a value it does not foresee is raised as it is. -/
def Yaml.Fault.raised : Yaml.Fault → Raised Unit τ
  | malformed => .own ()
  | undecodable => .other .undecodable
  | badValue => .other (.badArgument .unreadable)
  | tooLarge => .other .tooLarge
  | missingKey => .other .missingKey
  | misshapen => .other .misshapen
  | outOfRange => .other .outOfRange
  | wrongType => .other .wrongType

/-- What checking settings raises. -/
def Checked.report : Checked α → Except (Raised (List Fault) τ) α
  | ok a => .ok a
  | faulty faults => .error (.own faults)
  | misshapen => .error (.other .misshapen)

/-- The name under which settings are themselves passed on when they are made. Nothing else can be
given under it. -/
def Settings.ownName : String := "__pydantic_self__"

/-- The libraries as far as settings need them. The second one keeps more names for itself than
`Settings.ownName`; here they are names of no field, like any other. -/
def Libraries.standard : Libraries τ where
  readYaml bytes := (Yaml.load bytes).mapError Yaml.Fault.raised
  make env given :=
    if given.any fun g => g.1 == Settings.ownName then .error (.other .wrongType)
    else (Settings.build env given).report
  set s name d := (s.assign name d).report

namespace Settings

def filed (file : Option SettingsFile) : Except (Failure τ) Given := filedBy .standard file

def layer (given : Given) (env : Environment) (overrides : Given) : Except (Failure τ) Settings :=
  layerBy .standard given env overrides

/-- Builds settings with the standard libraries. -/
def load (file : Option SettingsFile) (env : Environment) (overrides : Given) :
    Except (Failure τ) Settings :=
  loadBy .standard file env overrides

end Settings

end PlatformRoutes
