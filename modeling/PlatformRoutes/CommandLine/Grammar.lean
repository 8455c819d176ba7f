import PlatformRoutes.Text.Digit

namespace PlatformRoutes.CommandLine

/-- Why a command line is not carried out: it asks for help, or it breaks the rules. -/
inductive Stop where
  | help
  | misuse
  deriving DecidableEq

/-- What a switch does to what has been read so far. A value may be refused. -/
inductive Effect (α : Type) where
  | help
  | flag (set : α → α)
  | value (set : String → α → Option α)

structure Switch (α : Type) where
  spellings : List String
  effect : Effect α

/-- The switches that a command line may hold, the operands it has to hold, and what becomes of a
command and of all words after it. -/
structure Grammar (α : Type) where
  switches : List (Switch α)
  operands : List (String → α → α) := []
  command : Option (String → List String → α → Except Stop α) := none

/-- A switch as it was written, with the text that is attached to it and whether by an equals
sign. -/
structure Written (α : Type) where
  spelling : String
  switch : Switch α
  attached : Option (Bool × List Char)

inductive Word (α : Type) where
  | operand
  | separator
  | switch (written : Written α)
  | unknown

/-- What the use of a switch comes to. Letters that stand for no switch are left over. -/
structure Use (α : Type) where
  effects : List (α → Except Stop α)
  takesNext : Bool
  leftOver : Bool

/-- Everything read so far, and whether a word was left over. -/
structure Progress (α : Type) where
  value : α
  operands : List (String → α → α)
  leftOver : Bool

def isNumeral (cs : List Char) : Bool :=
  !cs.isEmpty && cs.all fun c => (Text.digitValue? c).isSome

def withoutFinalBreak (cs : List Char) : List Char :=
  if cs.getLast? == some '\n' then cs.dropLast else cs

/-- Negative numbers are operands, though they start like switches. -/
def isNegativeNumber : List Char → Bool
  | '-' :: rest =>
    let body := withoutFinalBreak rest
    let whole := body.takeWhile fun c => (Text.digitValue? c).isSome
    match body.drop whole.length with
    | [] => isNumeral body
    | '.' :: places => isNumeral places
    | _ => false
  | _ => false

def splitEquals (cs : List Char) : List Char × Option (List Char) :=
  match cs.dropWhile (· != '=') with
  | _ :: rest => (cs.takeWhile (· != '='), some rest)
  | [] => (cs, none)

namespace Grammar

variable {α : Type}

def find? (g : Grammar α) (spelling : String) : Option (Switch α) :=
  g.switches.find? fun s => s.spellings.contains spelling

def spelled (g : Grammar α) : List (String × Switch α) :=
  g.switches.flatMap fun s => s.spellings.map fun spelling => (spelling, s)

/-- The switches that a word may stand for which is none itself. A long one may be cut short, and a
short one may have its value attached. -/
def candidates (g : Grammar α) (s : String) : List (Written α) :=
  match s.toList with
  | '-' :: '-' :: _ =>
    let (front, attached) := splitEquals s.toList
    g.spelled.filterMap fun (spelling, sw) =>
      if front.isPrefixOf spelling.toList then
        some ⟨spelling, sw, attached.map fun cs => (true, cs)⟩
      else none
  | cs =>
    g.spelled.filterMap fun (spelling, sw) =>
      if spelling.toList == cs.take 2 then some ⟨spelling, sw, some (false, cs.drop 2)⟩
      else if cs.isPrefixOf spelling.toList then some ⟨spelling, sw, none⟩
      else none

/-- What is neither a switch nor a number but starts with a dash is an operand if it holds a
blank. -/
def classifyRest (g : Grammar α) (s : String) : Except Stop (Word α) :=
  match g.candidates s with
  | [w] => .ok (.switch w)
  | _ :: _ => .error .misuse
  | [] => .ok (if isNegativeNumber s.toList || s.toList.contains ' ' then .operand else .unknown)

def classify (g : Grammar α) (s : String) : Except Stop (Word α) :=
  match s.toList with
  | '-' :: _ :: _ =>
    match g.find? s with
    | some sw => .ok (.switch ⟨s, sw, none⟩)
    | none =>
      match splitEquals s.toList with
      | (front, some attached) =>
        match g.find? (.ofList front) with
        | some sw => .ok (.switch ⟨.ofList front, sw, some (true, attached)⟩)
        | none => g.classifyRest s
      | _ => g.classifyRest s
  | _ => .ok .operand

/-- Every word after the separator is an operand. All words are classified before any is read. -/
def words (g : Grammar α) : List String → Except Stop (List (String × Word α))
  | [] => .ok []
  | s :: rest =>
    if s == "--" then .ok ((s, .separator) :: rest.map fun s => (s, .operand))
    else do
      let w ← g.classify s
      return (s, w) :: (← g.words rest)

def refusing (set : String → α → Option α) (v : String) (a : α) : Except Stop α :=
  match set v a with
  | some a => .ok a
  | none => .error .misuse

/-- A switch with nothing attached; a value is the next word, which has to be an operand. -/
def useBare (sw : Switch α) (next : Option String) : Except Stop (Use α) :=
  match sw.effect, next with
  | .help, _ => .ok ⟨[fun _ => .error .help], false, false⟩
  | .flag set, _ => .ok ⟨[fun a => .ok (set a)], false, false⟩
  | .value set, some v => .ok ⟨[refusing set v], true, false⟩
  | .value _, none => .error .misuse

/-- A switch with a text attached. Behind a short one that takes no value stand further short
ones. -/
def useAttached (g : Grammar α) (next : Option String) (short byEquals : Bool) (sw : Switch α) :
    List Char → Except Stop (Use α)
  | text =>
    match sw.effect with
    | .value set => .ok ⟨[refusing set (.ofList text)], false, false⟩
    | .help => cluster (fun _ => .error .help) text
    | .flag set => cluster (fun a => .ok (set a)) text
where
  cluster (effect : α → Except Stop α) : List Char → Except Stop (Use α)
    | [] => .error .misuse
    | c :: rest =>
      if !short || byEquals || c == '-' then .error .misuse
      else
        match g.find? (.ofList ['-', c]) with
        | none => .ok ⟨[effect], false, true⟩
        | some sw => do
          let more ←
            match rest with
            | [] => useBare sw next
            | '=' :: text => useAttached g next true true sw text
            | text => useAttached g next true false sw text
          return { more with effects := effect :: more.effects }

def use (g : Grammar α) (w : Written α) (next : Option String) : Except Stop (Use α) :=
  match w.attached with
  | none => useBare w.switch next
  | some (byEquals, text) =>
    g.useAttached next (w.spelling.toList.drop 1 |>.head? |>.all (· != '-')) byEquals w.switch text

def nextOperand : List (String × Word α) → Option String
  | (s, .operand) :: _ => some s
  | _ => none

/-- A separator goes with the operand before it. -/
def dropSeparator : List (String × Word α) → List (String × Word α)
  | (_, .separator) :: rest => rest
  | ws => ws

/-- Reads the words from left to right. A command takes all that follow it. -/
def read (g : Grammar α) : Nat → List (String × Word α) → Progress α → Except Stop (Progress α)
  | 0, _, _ => .error .misuse
  | _, [], p => .ok p
  | fuel + 1, (s, w) :: rest, p =>
    match w with
    | .unknown => g.read fuel rest { p with leftOver := true }
    | .switch w => do
      let use ← g.use w (nextOperand rest)
      let value ← use.effects.foldlM (fun a effect => effect a) p.value
      g.read fuel (if use.takesNext then rest.drop 1 else rest)
        { p with value, leftOver := p.leftOver || use.leftOver }
    | .separator =>
      if g.command.isSome then .error .misuse
      else
        g.read fuel rest { p with leftOver := p.leftOver || p.operands.isEmpty || rest.isEmpty }
    | .operand =>
      match g.command, p.operands with
      | some command, _ => do
        let value ← command s (rest.map (·.1)) p.value
        return { p with value }
      | none, set :: more =>
        g.read fuel (dropSeparator rest) { p with value := set s p.value, operands := more }
      | none, [] => g.read fuel rest { p with leftOver := true }

/-- All operands have to be there, and no word may be left over. -/
def parse (g : Grammar α) (args : List String) (start : α) : Except Stop α := do
  let ws ← g.words args
  let p ← g.read (ws.length + 1) ws ⟨start, g.operands, false⟩
  if p.operands.isEmpty && !p.leftOver then return p.value else throw .misuse

end Grammar

end PlatformRoutes.CommandLine
