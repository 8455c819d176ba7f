import PlatformRoutes.CommandLine.Grammar

namespace PlatformRoutes.CommandLine

/-- Does not begin like a switch. -/
def IsPlain (s : String) : Prop := s.toList.head? ≠ some '-'

instance (s : String) : Decidable (IsPlain s) := inferInstanceAs (Decidable (_ ≠ _))

/-- A word that is filled in. -/
abbrev Plain := { s : String // IsPlain s }

/-- A switch as it is used, with the word after it if it takes one, and what the use comes to. -/
structure Choice (α : Type) where
  spelling : String
  value : Option Plain
  act : α → α

def Choice.words {α : Type} (c : Choice α) : List String :=
  match c.value with
  | none => [c.spelling]
  | some v => [c.spelling, v.1]

theorem Choice.one_le_words {α : Type} (c : Choice α) : 1 ≤ c.words.length := by
  unfold words
  cases c.value with
  | none => exact Nat.le_refl 1
  | some v => exact Nat.le_succ 1

/-- The parts of a command line are options and operands. -/
inductive Part (ω : Type) where
  | option (o : ω)
  | operand (v : Plain)

namespace Part

variable {ω ω' : Type}

def words (spell : ω → List String) : Part ω → List String
  | option o => spell o
  | operand v => [v.1]

def option? : Part ω → Option ω
  | option o => some o
  | operand _ => none

def operand? : Part ω → Option Plain
  | option _ => none
  | operand v => some v

def map (f : ω → ω') : Part ω → Part ω'
  | option o => option (f o)
  | operand v => operand v

end Part

/-- What a switch has to do for a use of it to come to this. -/
def Effect.Does {α : Type} : Effect α → Option Plain → (α → α) → Prop
  | .flag set, none, act => ∀ a, set a = act a
  | .value set, some v, act => ∀ a, set v.1 a = some (act a)
  | _, _, _ => False

namespace Grammar

variable {α : Type} {g : Grammar α} {s : String} {sw : Switch α} {c : Choice α} {p : Progress α}
  {fuel : Nat} {rest : List String}

/-- A word with a dash in front and something behind it that is not the separator. -/
def IsDashed (s : String) : Prop :=
  s ≠ "--" ∧ 2 ≤ s.toList.length ∧ s.toList.head? = some '-'

instance (s : String) : Decidable (IsDashed s) := inferInstanceAs (Decidable (_ ∧ _ ∧ _))

/-- A grammar has the switch of a choice, and the switch does what is chosen. -/
structure Knows (g : Grammar α) (c : Choice α) : Prop where
  dashed : IsDashed c.spelling
  found : ∃ sw, g.find? c.spelling = some sw ∧ sw.effect.Does c.value c.act

/-- A word that is not refused at sight, whatever it may stand for. -/
def Admits (g : Grammar α) (s : String) : Prop := s ≠ "--" ∧ (g.classify s).isOk = true

instance (g : Grammar α) (s : String) : Decidable (g.Admits s) :=
  inferInstanceAs (Decidable (_ ∧ _))

/-- A word with what it is taken for. -/
def taken (g : Grammar α) (s : String) : String × Word α :=
  (s, match g.classify s with
    | .ok w => w
    | .error _ => .unknown)

theorem classify_plain (h : IsPlain s) : g.classify s = .ok .operand := by
  unfold IsPlain at h
  unfold classify
  split
  · rename_i heq
    rw [heq] at h
    exact absurd rfl h
  · rfl

theorem classify_found (hd : IsDashed s) (hs : g.find? s = some sw) :
    g.classify s = .ok (.switch ⟨s, sw, none⟩) := by
  obtain ⟨-, hlength, hhead⟩ := hd
  unfold classify
  split
  · rw [hs]
  · rename_i hnot
    match hl : s.toList with
    | [] => simp [hl] at hlength
    | [_] => simp [hl] at hlength
    | c :: d :: rest =>
      rw [hl] at hhead
      cases hhead
      exact absurd hl (hnot d rest)

theorem taken_of_classify {w : Word α} (h : g.classify s = .ok w) : g.taken s = (s, w) := by
  rw [taken, h]

theorem taken_plain (h : IsPlain s) : g.taken s = (s, .operand) :=
  taken_of_classify (classify_plain h)

theorem taken_found (hd : IsDashed s) (hs : g.find? s = some sw) :
    g.taken s = (s, .switch ⟨s, sw, none⟩) :=
  taken_of_classify (classify_found hd hs)

theorem admits_of_classify {w : Word α} (hne : s ≠ "--") (h : g.classify s = .ok w) :
    g.Admits s := by
  refine ⟨hne, ?_⟩
  rw [h]
  rfl

theorem admits_plain (h : IsPlain s) : g.Admits s := by
  apply admits_of_classify _ (classify_plain h)
  rintro rfl
  exact absurd h (by decide)

theorem Knows.admits (h : g.Knows c) : g.Admits c.spelling := by
  obtain ⟨sw, hsw, -⟩ := h.found
  exact admits_of_classify h.dashed.1 (classify_found h.dashed hsw)

theorem admits_words {β : Type} {c : Choice β} (h : g.Admits c.spelling) :
    ∀ s ∈ c.words, g.Admits s := by
  unfold Choice.words
  cases c.value with
  | none => simpa using h
  | some v => simpa using ⟨h, admits_plain v.2⟩

/-- Words of which none is refused at sight are taken one by one. -/
theorem words_of_admits {args : List String} (h : ∀ s ∈ args, g.Admits s) :
    g.words args = .ok (args.map g.taken) := by
  induction args with
  | nil => rfl
  | cons s rest ih =>
    obtain ⟨hne, hok⟩ := h s List.mem_cons_self
    have hrest := ih fun t ht => h t (List.mem_cons_of_mem s ht)
    cases hs : g.classify s with
    | error e =>
      rw [hs] at hok
      cases hok
    | ok w =>
      rw [words, if_neg (by simpa using hne), hs, hrest, List.map_cons, taken_of_classify hs]
      rfl

theorem map_taken_fst (args : List String) : (args.map g.taken).map (·.1) = args := by
  rw [List.map_map]
  exact List.map_id args

theorem classifyRest_ne_separator (s : String) : g.classifyRest s ≠ .ok .separator := by
  intro h
  unfold classifyRest at h
  split at h
  · cases h
  · cases h
  · split at h <;> cases h

/-- No word is taken for a separator: words are taken for what they are classified as, and the
separator is not classified. -/
theorem classify_ne_separator (s : String) : g.classify s ≠ .ok .separator := by
  intro h
  unfold classify at h
  split at h
  · split at h
    · cases h
    · split at h
      · split at h
        · cases h
        · exact classifyRest_ne_separator s h
      · exact classifyRest_ne_separator s h
  · cases h

theorem dropSeparator_taken (args : List String) :
    dropSeparator (args.map g.taken) = args.map g.taken := by
  cases args with
  | nil => rfl
  | cons s rest =>
    have hne := classify_ne_separator (g := g) s
    rw [List.map_cons, taken]
    cases hs : g.classify s with
    | error e => rfl
    | ok w =>
      rw [hs] at hne
      cases w with
      | separator => exact absurd rfl hne
      | _ => rfl

/-- The use of a switch comes to what is chosen. -/
theorem useBare_of_does {value : Option Plain} {act : α → α} {next : Option String}
    (h : sw.effect.Does value act) (hnext : ∀ v, value = some v → next = some v.1) :
    useBare sw next = .ok ⟨[fun a => .ok (act a)], value.isSome, false⟩ := by
  obtain ⟨spellings, effect⟩ := sw
  unfold useBare
  cases effect with
  | help => exact h.elim
  | flag set =>
    cases value with
    | none =>
      have hact : (fun a => Except.ok (set a) : α → Except Stop α) = fun a => .ok (act a) :=
        funext fun a => congrArg Except.ok (h a)
      simp [hact]
    | some v => exact h.elim
  | value set =>
    cases value with
    | none => exact h.elim
    | some v =>
      have hact : refusing set v.1 = fun a => .ok (act a) := by
        funext a
        rw [refusing, h a]
      simp [hnext v rfl, hact]

theorem read_switch {ws : List (String × Word α)} {act : α → α} {takesNext : Bool}
    (h : useBare sw (nextOperand ws) = .ok ⟨[fun a => .ok (act a)], takesNext, false⟩) :
    g.read (fuel + 1) ((s, .switch ⟨s, sw, none⟩) :: ws) p =
      g.read fuel (if takesNext then ws.drop 1 else ws) { p with value := act p.value } := by
  have huse : g.use ⟨s, sw, none⟩ (nextOperand ws) = _ := h
  rw [read]
  rw [huse]
  change g.read fuel _ { p with value := act p.value, leftOver := p.leftOver || false } = _
  rw [Bool.or_false]

/-- A switch is read with the word that it takes. -/
theorem read_choice (h : g.Knows c) (fuel : Nat) (rest : List String) (p : Progress α) :
    g.read (fuel + 1) ((c.words ++ rest).map g.taken) p =
      g.read fuel (rest.map g.taken) { p with value := c.act p.value } := by
  obtain ⟨sw, hsw, hdoes⟩ := h.found
  have htaken := taken_found h.dashed hsw
  unfold Choice.words
  cases hvalue : c.value with
  | none =>
    rw [hvalue] at hdoes
    rw [List.cons_append, List.map_cons, htaken]
    exact read_switch (useBare_of_does hdoes (by simp))
  | some v =>
    rw [hvalue] at hdoes
    rw [List.cons_append, List.cons_append, List.map_cons, List.map_cons, htaken, taken_plain v.2]
    refine read_switch (useBare_of_does hdoes ?_)
    intro v' hv'
    cases hv'
    rfl

/-- Where there are no commands, an operand goes to the first place that is left for one. -/
theorem read_operand (hnone : g.command = none) (v : Plain) {set : String → α → α}
    {more : List (String → α → α)} (hp : p.operands = set :: more) (fuel : Nat)
    (rest : List String) :
    g.read (fuel + 1) ((v.1 :: rest).map g.taken) p =
      g.read fuel (rest.map g.taken) { p with value := set v.1 p.value, operands := more } := by
  rw [List.map_cons, taken_plain v.2, read]
  rw [hnone, hp]
  dsimp only
  rw [dropSeparator_taken]

/-- A command takes all words behind it as they were written. -/
theorem read_command {command : String → List String → α → Except Stop α}
    (hsome : g.command = some command) (hs : IsPlain s) (fuel : Nat) (rest : List String)
    (p : Progress α) :
    g.read (fuel + 1) ((s :: rest).map g.taken) p =
      (command s rest p.value).map fun value => { p with value } := by
  rw [List.map_cons, taken_plain hs, read]
  rw [hsome]
  dsimp only
  rw [map_taken_fst]
  rfl

end Grammar

/-- The options among the parts, in their order. -/
def optionsOf {ω : Type} (parts : List (Part ω)) : List ω := parts.filterMap Part.option?

/-- The operands among the parts, in their order. -/
def operandsOf {ω : Type} (parts : List (Part ω)) : List Plain := parts.filterMap Part.operand?

section Parts
variable {ω ω' : Type}

theorem optionsOf_map (f : ω → ω') (parts : List (Part ω)) :
    optionsOf (parts.map (Part.map f)) = (optionsOf parts).map f := by
  rw [optionsOf, optionsOf, List.filterMap_map, List.map_filterMap]
  congr 1
  funext part
  cases part <;> rfl

theorem operandsOf_map (f : ω → ω') (parts : List (Part ω)) :
    operandsOf (parts.map (Part.map f)) = operandsOf parts := by
  rw [operandsOf, operandsOf, List.filterMap_map]
  congr 1
  funext part
  cases part <;> rfl

theorem words_map (f : ω → ω') (spell : ω' → List String) (parts : List (Part ω)) :
    (parts.map (Part.map f)).flatMap (Part.words spell) =
      parts.flatMap (Part.words fun o => spell (f o)) := by
  rw [List.flatMap_map]
  congr 1
  funext part
  cases part <;> rfl

end Parts

/-- Puts operands in their places. -/
def supply {α : Type} : List (String → α → α) → List Plain → α → α
  | set :: sets, v :: vs, a => supply sets vs (set v.1 a)
  | _, _, a => a

def chosen {α : Type} (choices : List (Choice α)) (a : α) : α :=
  choices.foldl (fun a c => c.act a) a

namespace Grammar

variable {α : Type} {g : Grammar α} {parts : List (Part (Choice α))} {s : String}

theorem supply_act {sets : List (String → α → α)} {c : Choice α}
    (h : ∀ set ∈ sets, ∀ v a, c.act (set v a) = set v (c.act a)) (vs : List Plain) (a : α) :
    supply sets vs (c.act a) = c.act (supply sets vs a) := by
  induction sets generalizing vs a with
  | nil => rfl
  | cons set sets ih =>
    cases vs with
    | nil => rfl
    | cons v vs =>
      rw [supply, supply, ← h set List.mem_cons_self]
      exact ih (fun set' hset' => h set' (List.mem_cons_of_mem _ hset')) vs _

/-- What reading some parts comes to. -/
def after (p : Progress α) (parts : List (Part (Choice α))) : Progress α :=
  { p with
    value := chosen (optionsOf parts) (supply p.operands (operandsOf parts) p.value)
    operands := p.operands.drop (operandsOf parts).length }

theorem after_nil (p : Progress α) : after p [] = p := by
  have hsupply : supply p.operands [] p.value = p.value := by cases p.operands <;> rfl
  change { p with value := supply p.operands [] p.value } = p
  rw [hsupply]

theorem after_option (p : Progress α) {c : Choice α} (parts : List (Part (Choice α)))
    (h : ∀ set ∈ p.operands, ∀ v a, c.act (set v a) = set v (c.act a)) :
    after { p with value := c.act p.value } parts = after p (.option c :: parts) := by
  have hsupply := supply_act h (operandsOf parts) p.value
  simp only [after, hsupply]
  rfl

theorem after_operand {p : Progress α} {set : String → α → α} {more : List (String → α → α)}
    (h : p.operands = set :: more) (v : Plain) (parts : List (Part (Choice α))) :
    after { p with value := set v.1 p.value, operands := more } parts =
      after p (.operand v :: parts) := by
  have hoperands : operandsOf (.operand v :: parts) = v :: operandsOf parts := rfl
  simp only [after, hoperands, h, supply, List.length_cons, List.drop_succ_cons]
  rfl

/-- Options and operands may be mixed: all that counts is the order of the options among themselves
and that of the operands. By induction on the parts, each of which takes one step. -/
theorem read_parts (hnone : g.command = none) (hknown : ∀ c ∈ optionsOf parts, g.Knows c)
    (p : Progress α) (hroom : (operandsOf parts).length ≤ p.operands.length)
    (hapart : ∀ c ∈ optionsOf parts, ∀ set ∈ p.operands, ∀ v a, c.act (set v a) = set v (c.act a))
    (fuel : Nat) :
    g.read (fuel + 1 + parts.length) ((parts.flatMap (Part.words Choice.words)).map g.taken) p =
      .ok (after p parts) := by
  induction parts generalizing p with
  | nil =>
    rw [after_nil]
    rfl
  | cons part parts ih =>
    rw [List.flatMap_cons, List.length_cons, ← Nat.add_assoc]
    cases part with
    | option c =>
      rw [← after_option p parts (hapart c List.mem_cons_self)]
      change g.read _ ((c.words ++ _).map g.taken) p = _
      rw [read_choice (hknown c List.mem_cons_self)]
      exact ih (fun c' hc' => hknown c' (List.mem_cons_of_mem c hc')) _ hroom
        fun c' hc' => hapart c' (List.mem_cons_of_mem c hc')
    | operand v =>
      have hcons : operandsOf (.operand v :: parts) = v :: operandsOf parts := rfl
      rw [hcons] at hroom
      cases hp : p.operands with
      | nil => simp [hp] at hroom
      | cons set more =>
        rw [← after_operand hp v parts]
        change g.read _ ((v.1 :: _).map g.taken) p = _
        rw [read_operand hnone v hp]
        rw [hp] at hroom hapart
        exact ih hknown _ (Nat.le_of_succ_le_succ hroom)
          fun c hc set' hset' => hapart c hc set' (List.mem_cons_of_mem set hset')

/-- Options in front of anything else are read first. -/
theorem read_choices {choices : List (Choice α)} (hknown : ∀ c ∈ choices, g.Knows c)
    (fuel : Nat) (rest : List String) (p : Progress α) :
    g.read (fuel + choices.length) ((choices.flatMap Choice.words ++ rest).map g.taken) p =
      g.read fuel (rest.map g.taken) { p with value := chosen choices p.value } := by
  induction choices generalizing p with
  | nil => rfl
  | cons c choices ih =>
    rw [List.flatMap_cons, List.append_assoc, List.length_cons, ← Nat.add_assoc,
      read_choice (hknown c List.mem_cons_self)]
    exact ih (fun c' hc' => hknown c' (List.mem_cons_of_mem c hc')) _

theorem length_le_flatMap {ω : Type} {spell : ω → List String} (h : ∀ o, 1 ≤ (spell o).length)
    (os : List ω) : os.length ≤ (os.flatMap spell).length := by
  induction os with
  | nil => exact Nat.le_refl _
  | cons o os ih =>
    have hone := h o
    rw [List.flatMap_cons, List.length_append, List.length_cons]
    omega

theorem one_le_words (part : Part (Choice α)) : 1 ≤ (part.words Choice.words).length := by
  cases part with
  | option c => exact c.one_le_words
  | operand v => exact Nat.le_refl 1

theorem admits_choices {β : Type} {choices : List (Choice β)}
    (h : ∀ c ∈ choices, g.Admits c.spelling) : ∀ s ∈ choices.flatMap Choice.words, g.Admits s := by
  intro s hs
  obtain ⟨c, hc, hword⟩ := List.mem_flatMap.mp hs
  exact admits_words (h c hc) s hword

theorem admits_parts {β : Type} {parts : List (Part (Choice β))}
    (h : ∀ c ∈ optionsOf parts, g.Admits c.spelling) :
    ∀ s ∈ parts.flatMap (Part.words Choice.words), g.Admits s := by
  intro s hs
  obtain ⟨part, hpart, hword⟩ := List.mem_flatMap.mp hs
  cases part with
  | option c => exact admits_words (h c (List.mem_filterMap.mpr ⟨_, hpart, rfl⟩)) s hword
  | operand v =>
    obtain rfl : s = v.1 := List.mem_singleton.mp hword
    exact admits_plain v.2

theorem parse_of_read {args : List String} {start value : α} (hadmits : ∀ s ∈ args, g.Admits s)
    (hread : g.read (args.length + 1) (args.map g.taken) ⟨start, g.operands, false⟩ =
      .ok ⟨value, [], false⟩) : g.parse args start = .ok value := by
  unfold parse
  rw [words_of_admits hadmits]
  change (do let p ← g.read ((args.map g.taken).length + 1) (args.map g.taken) _; _) = _
  rw [List.length_map, hread]
  rfl

/-- A grammar without commands reads its options and operands, be they mixed as they may. -/
theorem parse_parts (hnone : g.command = none) (hknown : ∀ c ∈ optionsOf parts, g.Knows c)
    (hapart : ∀ c ∈ optionsOf parts, ∀ set ∈ g.operands, ∀ v a, c.act (set v a) = set v (c.act a))
    (hcount : (operandsOf parts).length = g.operands.length) (start : α) :
    g.parse (parts.flatMap (Part.words Choice.words)) start =
      .ok (chosen (optionsOf parts) (supply g.operands (operandsOf parts) start)) := by
  obtain ⟨fuel, hfuel⟩ := Nat.exists_eq_add_of_le' (length_le_flatMap one_le_words parts)
  have hread := read_parts hnone hknown ⟨start, g.operands, false⟩ (Nat.le_of_eq hcount) hapart fuel
  rw [Nat.add_right_comm, ← hfuel] at hread
  apply parse_of_read (admits_parts fun c hc => (hknown c hc).admits)
  rw [hread, after, hcount, List.drop_length]

/-- Options may stand alone where there are no places for operands. -/
theorem parse_choices {choices : List (Choice α)} (hoperands : g.operands = [])
    (hknown : ∀ c ∈ choices, g.Knows c) (start : α) :
    g.parse (choices.flatMap Choice.words) start = .ok (chosen choices start) := by
  obtain ⟨fuel, hfuel⟩ := Nat.exists_eq_add_of_le' (length_le_flatMap Choice.one_le_words choices)
  have hread := read_choices hknown (fuel + 1) [] ⟨start, g.operands, false⟩
  rw [List.append_nil, Nat.add_right_comm, ← hfuel] at hread
  apply parse_of_read (admits_choices fun c hc => (hknown c hc).admits)
  rw [hread, hoperands]
  rfl

/-- A grammar with commands reads the options in front, and leaves all words behind a command to
that. -/
theorem parse_command {choices : List (Choice α)} {rest : List String} {start value : α}
    {command : String → List String → α → Except Stop α} (hsome : g.command = some command)
    (hoperands : g.operands = []) (hknown : ∀ c ∈ choices, g.Knows c) (hs : IsPlain s)
    (hrest : ∀ t ∈ rest, g.Admits t)
    (hvalue : command s rest (chosen choices start) = .ok value) :
    g.parse (choices.flatMap Choice.words ++ s :: rest) start = .ok value := by
  obtain ⟨fuel, hfuel⟩ := Nat.exists_eq_add_of_le' (length_le_flatMap Choice.one_le_words choices)
  have hread := read_choices hknown (fuel + rest.length + 1 + 1) (s :: rest)
    ⟨start, g.operands, false⟩
  have hlength : (choices.flatMap Choice.words ++ s :: rest).length + 1 =
      fuel + rest.length + 1 + 1 + choices.length := by
    rw [List.length_append, List.length_cons, hfuel]
    omega
  apply parse_of_read
  · intro t ht
    rcases List.mem_append.mp ht with ht | ht
    · exact admits_choices (fun c hc => (hknown c hc).admits) t ht
    · rcases List.mem_cons.mp ht with rfl | ht
      · exact admits_plain hs
      · exact hrest t ht
  · rw [hlength, hread, read_command hsome hs, hvalue, hoperands]
    rfl

end Grammar

end PlatformRoutes.CommandLine
