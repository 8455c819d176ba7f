import PlatformRoutes.Settings.Basic

namespace PlatformRoutes

/-- Variables of the environment in their order. -/
abbrev Environment := List (String × String)

/-- Values under the names of settings, as a file or a caller gives them. -/
abbrev Given := List (String × Datum)

namespace Setting

/-- The environment's name for a setting, in small letters. -/
def envName (k : Setting) : String := "cf_operations_" ++ k.name

/-- The text that the environment sets. Letter case does not matter; of two spellings the later
one counts. -/
def inEnvironment (env : Environment) (k : Setting) : Option String :=
  (env.reverse.find? fun e => Text.lower e.1 == k.envName).map (·.2)

def isSpelling (k : Setting) (name : String) : Bool := Text.lower name == k.name

/-- The given value. Letter case does not matter, but the name itself comes before its other
spellings. -/
def inGiven (given : Given) (k : Setting) : Option Datum :=
  ((given.find? fun g => g.1 == k.name).or (given.find? fun g => k.isSpelling g.1)).map (·.2)

/-- The environment comes before what is given. -/
def layered (env : Environment) (given : Given) (k : Setting) : Option Datum :=
  ((k.inEnvironment env).map .text).or (k.inGiven given)

end Setting

namespace Settings

/-- The given names that no setting has in any spelling. -/
def unknownNames (given : Given) : List String :=
  (given.filter fun g => !Setting.all.any fun k => k.isSpelling g.1).map (·.1)

def build (env : Environment) (given : Given) : Checked Settings :=
  ofSource (Setting.layered env given) (unknownNames given)

end Settings

end PlatformRoutes
