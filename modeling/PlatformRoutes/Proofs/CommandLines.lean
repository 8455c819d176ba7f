import Mathlib.Data.List.Induction
import PlatformRoutes.CommandLine.Invocation
import PlatformRoutes.Proofs.CommandWords

namespace PlatformRoutes.CommandLine

/-- How an option is spelled that has a long and a short name. -/
inductive Form where
  | long
  | short

/-- What may stand before the command. -/
inductive GlobalOption where
  | config (path : Plain)
  | apiUrl (url : Plain)
  | organization (form : Form) (name : Plain)
  | space (form : Form) (name : Plain)
  | verbose (form : Form)

/-- What may stand behind a command that names a route. -/
inductive RouteOption where
  | hostname (form : Form) (host : Plain)
  | path (text : Plain)

/-- What may stand behind the command that lists routes. -/
inductive ListOption where
  | level (level : Level)
  | json

/-- What an option comes to that may be given more than once: what was given last. -/
def lastOf {ω β : Type} (f : ω → Option β) (os : List ω) : Option β := (os.filterMap f).getLast?

namespace GlobalOption

def words : GlobalOption → List String
  | config path => ["--config", path.1]
  | apiUrl url => ["--api-url", url.1]
  | organization .long name => ["--organization", name.1]
  | organization .short name => ["-o", name.1]
  | space .long name => ["--space", name.1]
  | space .short name => ["-s", name.1]
  | verbose .long => ["--verbose"]
  | verbose .short => ["-v"]

def config? : GlobalOption → Option String
  | config path => some path.1
  | _ => none

def apiUrl? : GlobalOption → Option String
  | apiUrl url => some url.1
  | _ => none

def organization? : GlobalOption → Option String
  | organization _ name => some name.1
  | _ => none

def space? : GlobalOption → Option String
  | space _ name => some name.1
  | _ => none

def isVerbose : GlobalOption → Bool
  | verbose _ => true
  | _ => false

end GlobalOption

namespace RouteOption

def words : RouteOption → List String
  | hostname .long host => ["--hostname", host.1]
  | hostname .short host => ["-n", host.1]
  | path text => ["--path", text.1]

def hostname? : RouteOption → Option String
  | hostname _ host => some host.1
  | path _ => none

def path? : RouteOption → Option String
  | hostname _ _ => none
  | path text => some text.1

end RouteOption

namespace ListOption

def words : ListOption → List String
  | level .organization => ["--level", "organization"]
  | level .space => ["--level", "space"]
  | json => ["--json"]

def level? : ListOption → Option Level
  | level l => some l
  | json => none

def isJson : ListOption → Bool
  | level _ => false
  | json => true

end ListOption

/-- The words of a command that names a route, with options and operands mixed. -/
def routeWords (parts : List (Part RouteOption)) : List String :=
  parts.flatMap (Part.words RouteOption.words)

/-- The route that a command names. -/
def routeNamed (domain : Plain) (parts : List (Part RouteOption)) : NamedRoute where
  domain := domain.1
  hostname := lastOf RouteOption.hostname? (optionsOf parts)
  path := lastOf RouteOption.path? (optionsOf parts)

/-- How each command may be written. Its operands stand in a fixed order, its options anywhere
behind its name. -/
inductive Spells : RoutesCommand → List String → Prop where
  | list (options : List ListOption) :
    Spells (.list ((lastOf ListOption.level? options).getD .space) (options.any ListOption.isJson))
      ("list" :: options.flatMap ListOption.words)
  | check {parts : List (Part RouteOption)} {domain : Plain} (h : operandsOf parts = [domain]) :
    Spells (.check (routeNamed domain parts)) ("check" :: routeWords parts)
  | create {parts : List (Part RouteOption)} {domain space : Plain}
      (h : operandsOf parts = [domain, space]) :
    Spells (.create (routeNamed domain parts) space.1) ("create" :: routeWords parts)
  | map {parts : List (Part RouteOption)} {application domain : Plain}
      (h : operandsOf parts = [application, domain]) :
    Spells (.map application.1 (routeNamed domain parts)) ("map" :: routeWords parts)
  | unmap {parts : List (Part RouteOption)} {application domain : Plain}
      (h : operandsOf parts = [application, domain]) :
    Spells (.unmap application.1 (routeNamed domain parts)) ("unmap" :: routeWords parts)
  | delete {parts : List (Part RouteOption)} {domain : Plain} (h : operandsOf parts = [domain]) :
    Spells (.delete (routeNamed domain parts)) ("delete" :: routeWords parts)
  | deleteOrphaned : Spells .deleteOrphaned ["delete-orphaned"]

section Choices

def GlobalOption.choice : GlobalOption → Choice Invocation
  | config path => ⟨"--config", some path, fun i => { i with config := some path.1 }⟩
  | apiUrl url => ⟨"--api-url", some url, fun i => { i with apiUrl := some url.1 }⟩
  | organization .long name =>
    ⟨"--organization", some name, fun i => { i with organization := some name.1 }⟩
  | organization .short name => ⟨"-o", some name, fun i => { i with organization := some name.1 }⟩
  | space .long name => ⟨"--space", some name, fun i => { i with space := some name.1 }⟩
  | space .short name => ⟨"-s", some name, fun i => { i with space := some name.1 }⟩
  | verbose .long => ⟨"--verbose", none, fun i => { i with verbose := true }⟩
  | verbose .short => ⟨"-v", none, fun i => { i with verbose := true }⟩

def RouteOption.choice : RouteOption → Choice Draft
  | hostname .long host => ⟨"--hostname", some host, fun d => { d with hostname := some host.1 }⟩
  | hostname .short host => ⟨"-n", some host, fun d => { d with hostname := some host.1 }⟩
  | path text => ⟨"--path", some text, fun d => { d with path := some text.1 }⟩

def ListOption.choice : ListOption → Choice Draft
  | level .organization =>
    ⟨"--level", some ⟨"organization", by decide⟩, fun d => { d with level := .organization }⟩
  | level .space => ⟨"--level", some ⟨"space", by decide⟩, fun d => { d with level := .space }⟩
  | json => ⟨"--json", none, fun d => { d with json := true }⟩

theorem GlobalOption.words_choice (o : GlobalOption) : o.choice.words = o.words := by
  cases o with
  | organization l name => cases l <;> rfl
  | space l name => cases l <;> rfl
  | verbose l => cases l <;> rfl
  | _ => rfl

theorem RouteOption.words_choice (o : RouteOption) : o.choice.words = o.words := by
  cases o with
  | hostname l host => cases l <;> rfl
  | path text => rfl

theorem ListOption.words_choice (o : ListOption) : o.choice.words = o.words := by
  cases o with
  | level l => cases l <;> rfl
  | json => rfl

theorem GlobalOption.act_choice (o : GlobalOption) (i : Invocation) :
    o.choice.act i =
      { config := o.config?.or i.config
        apiUrl := o.apiUrl?.or i.apiUrl
        organization := o.organization?.or i.organization
        space := o.space?.or i.space
        verbose := i.verbose || o.isVerbose
        command := i.command } := by
  cases o with
  | organization form name =>
    cases form <;> simp [choice, config?, apiUrl?, organization?, space?, isVerbose]
  | space form name =>
    cases form <;> simp [choice, config?, apiUrl?, organization?, space?, isVerbose]
  | verbose form =>
    cases form <;> simp [choice, config?, apiUrl?, organization?, space?, isVerbose]
  | _ => simp [choice, config?, apiUrl?, organization?, space?, isVerbose]

theorem RouteOption.act_choice (o : RouteOption) (d : Draft) :
    o.choice.act d =
      { d with hostname := o.hostname?.or d.hostname, path := o.path?.or d.path } := by
  cases o with
  | hostname form host => cases form <;> rfl
  | path text => rfl

theorem ListOption.act_choice (o : ListOption) (d : Draft) :
    o.choice.act d = { d with level := o.level?.getD d.level, json := d.json || o.isJson } := by
  cases o with
  | level l => cases l <;> simp [choice, level?, isJson]
  | json => simp [choice, level?, isJson]

theorem GlobalOption.known (o : GlobalOption) : grammar.Knows o.choice := by
  cases o with
  | organization l name => cases l <;> exact ⟨by dsimp only [choice]; decide, _, rfl, fun _ => rfl⟩
  | space l name => cases l <;> exact ⟨by dsimp only [choice]; decide, _, rfl, fun _ => rfl⟩
  | verbose l => cases l <;> exact ⟨by dsimp only [choice]; decide, _, rfl, fun _ => rfl⟩
  | _ => exact ⟨by dsimp only [choice]; decide, _, rfl, fun _ => rfl⟩

theorem RouteOption.known {g : Grammar Draft} (h : g.switches = routeSwitches) (o : RouteOption) :
    g.Knows o.choice := by
  have hfind (s : String) : g.find? s = routeSwitches.find? fun sw => sw.spellings.contains s := by
    rw [Grammar.find?, h]
  cases o with
  | hostname l host => cases l <;> exact ⟨by dsimp only [choice]; decide, _, hfind _, fun _ => rfl⟩
  | path text => exact ⟨by dsimp only [choice]; decide, _, hfind _, fun _ => rfl⟩

theorem ListOption.known {g : Grammar Draft} (h : g.switches = listSwitches) (o : ListOption) :
    g.Knows o.choice := by
  have hfind (s : String) : g.find? s = listSwitches.find? fun sw => sw.spellings.contains s := by
    rw [Grammar.find?, h]
  cases o with
  | level l => cases l <;> exact ⟨by dsimp only [choice]; decide, _, hfind _, fun _ => rfl⟩
  | json => exact ⟨by dsimp only [choice]; decide, _, hfind _, fun _ => rfl⟩

/-- The options of a command are words of which the grammars around it know nothing. -/
theorem RouteOption.admitted (o : RouteOption) :
    grammar.Admits o.choice.spelling ∧ routesGrammar.Admits o.choice.spelling := by
  cases o with
  | hostname form host => cases form <;> (dsimp only [choice]; decide)
  | path text => dsimp only [choice]; decide

theorem ListOption.admitted (o : ListOption) :
    grammar.Admits o.choice.spelling ∧ routesGrammar.Admits o.choice.spelling := by
  cases o with
  | level l => cases l <;> (dsimp only [choice]; decide)
  | json => dsimp only [choice]; decide

end Choices

section Meaning
variable {ω β : Type}

theorem lastOf_concat (f : ω → Option β) (os : List ω) (o : ω) :
    lastOf f (os ++ [o]) = (f o).or (lastOf f os) := by
  unfold lastOf
  rw [List.filterMap_append, List.getLast?_append]
  cases h : f o <;> simp [h]

theorem chosen_concat {α : Type} (cs : List (Choice α)) (c : Choice α) (a : α) :
    chosen (cs ++ [c]) a = c.act (chosen cs a) := by
  simp [chosen]

theorem chosen_globals (os : List GlobalOption) :
    chosen (os.map GlobalOption.choice) {} =
      { config := lastOf GlobalOption.config? os
        apiUrl := lastOf GlobalOption.apiUrl? os
        organization := lastOf GlobalOption.organization? os
        space := lastOf GlobalOption.space? os
        verbose := os.any GlobalOption.isVerbose } := by
  induction os using List.reverseRecOn with
  | nil => rfl
  | append_singleton os o ih =>
    rw [List.map_append, List.map_singleton, chosen_concat, ih, GlobalOption.act_choice]
    simp [lastOf_concat]

theorem chosen_route (os : List RouteOption) (d : Draft) :
    chosen (os.map RouteOption.choice) d =
      { d with
        hostname := (lastOf RouteOption.hostname? os).or d.hostname
        path := (lastOf RouteOption.path? os).or d.path } := by
  induction os using List.reverseRecOn with
  | nil => rfl
  | append_singleton os o ih =>
    rw [List.map_append, List.map_singleton, chosen_concat, ih, RouteOption.act_choice]
    simp [lastOf_concat, Option.or_assoc]

theorem chosen_list (os : List ListOption) :
    chosen (os.map ListOption.choice) {} =
      { level := (lastOf ListOption.level? os).getD .space
        json := os.any ListOption.isJson } := by
  induction os using List.reverseRecOn with
  | nil => rfl
  | append_singleton os o ih =>
    rw [List.map_append, List.map_singleton, chosen_concat, ih, ListOption.act_choice]
    simp [lastOf_concat]

end Meaning

section Reading
variable {parts : List (Part RouteOption)} {name : String} {args words : List String}
  {command : RoutesCommand}

theorem routeWords_eq (parts : List (Part RouteOption)) :
    routeWords parts =
      (parts.map (Part.map RouteOption.choice)).flatMap (Part.words Choice.words) := by
  rw [words_map, routeWords]
  simp only [RouteOption.words_choice]

theorem listWords_eq (options : List ListOption) :
    options.flatMap ListOption.words = (options.map ListOption.choice).flatMap Choice.words := by
  rw [List.flatMap_map]
  simp only [ListOption.words_choice]

theorem globalWords_eq (options : List GlobalOption) :
    options.flatMap GlobalOption.words =
      (options.map GlobalOption.choice).flatMap Choice.words := by
  rw [List.flatMap_map]
  simp only [GlobalOption.words_choice]

theorem routeWords_admitted (parts : List (Part RouteOption)) :
    ∀ s ∈ routeWords parts, grammar.Admits s ∧ routesGrammar.Admits s := by
  have hoptions : ∀ c ∈ optionsOf (parts.map (Part.map RouteOption.choice)),
      grammar.Admits c.spelling ∧ routesGrammar.Admits c.spelling := by
    intro c hc
    rw [optionsOf_map] at hc
    obtain ⟨o, -, rfl⟩ := List.mem_map.mp hc
    exact o.admitted
  rw [routeWords_eq]
  intro s hs
  exact ⟨Grammar.admits_parts (fun c hc => (hoptions c hc).1) s hs,
    Grammar.admits_parts (fun c hc => (hoptions c hc).2) s hs⟩

theorem listWords_admitted (options : List ListOption) :
    ∀ s ∈ options.flatMap ListOption.words, grammar.Admits s ∧ routesGrammar.Admits s := by
  have hoptions : ∀ c ∈ options.map ListOption.choice,
      grammar.Admits c.spelling ∧ routesGrammar.Admits c.spelling := by
    intro c hc
    obtain ⟨o, -, rfl⟩ := List.mem_map.mp hc
    exact o.admitted
  rw [listWords_eq]
  intro s hs
  exact ⟨Grammar.admits_choices (fun c hc => (hoptions c hc).1) s hs,
    Grammar.admits_choices (fun c hc => (hoptions c hc).2) s hs⟩

/-- A command that names a route is read with its operands in their places. -/
theorem parse_route {sets : List (String → Draft → Draft)}
    (hsets : ∀ set ∈ sets, set ∈ [domainOperand, spaceOperand, applicationOperand])
    (hcount : (operandsOf parts).length = sets.length) :
    Grammar.parse { switches := routeSwitches, operands := sets } (routeWords parts) {} =
      .ok (chosen ((optionsOf parts).map RouteOption.choice)
        (supply sets (operandsOf parts) {})) := by
  rw [routeWords_eq, Grammar.parse_parts, optionsOf_map, operandsOf_map]
  · rfl
  · intro c hc
    rw [optionsOf_map] at hc
    obtain ⟨o, -, rfl⟩ := List.mem_map.mp hc
    exact o.known rfl
  · intro c hc set hset v d
    rw [optionsOf_map] at hc
    obtain ⟨o, -, rfl⟩ := List.mem_map.mp hc
    have hplace := hsets set hset
    simp only [List.mem_cons, List.not_mem_nil, or_false] at hplace
    rw [RouteOption.act_choice, RouteOption.act_choice]
    rcases hplace with rfl | rfl | rfl <;> rfl
  · rw [operandsOf_map]
    exact hcount

theorem parse_list (options : List ListOption) :
    Grammar.parse { switches := listSwitches } (options.flatMap ListOption.words) {} =
      .ok (chosen (options.map ListOption.choice) {}) := by
  rw [listWords_eq]
  apply Grammar.parse_choices rfl
  intro c hc
  obtain ⟨o, -, rfl⟩ := List.mem_map.mp hc
  exact o.known rfl

theorem readRoutesCommand_ok {form : CommandForm} {g : Grammar Draft} {d : Draft}
    (hform : commandForms.find? (fun f => f.name == name) = some form) (hgrammar : form.grammar = g)
    (hparse : g.parse args {} = .ok d) :
    readRoutesCommand name args none = .ok (some (form.finish d)) := by
  rw [readRoutesCommand, hform]
  dsimp only
  rw [hgrammar, hparse]
  rfl

/-- A command's name and the words behind it come to a command, and nothing around them refuses
these. -/
structure ReadsAs (name : String) (args : List String) (command : RoutesCommand) : Prop where
  plain : IsPlain name
  admitted : ∀ s ∈ args, grammar.Admits s ∧ routesGrammar.Admits s
  read : readRoutesCommand name args none = .ok (some command)

/-- A command that names a route comes to what its operands and options say. -/
theorem readsAs_route {form : CommandForm} {sets : List (String → Draft → Draft)}
    {values : List Plain} (hform : commandForms.find? (fun f => f.name == name) = some form)
    (hgrammar : form.grammar = { switches := routeSwitches, operands := sets })
    (hsets : ∀ set ∈ sets, set ∈ [domainOperand, spaceOperand, applicationOperand])
    (hvalues : operandsOf parts = values) (hcount : values.length = sets.length)
    (hname : IsPlain name)
    (hfinish : form.finish
      (chosen ((optionsOf parts).map RouteOption.choice) (supply sets values {})) = command) :
    ReadsAs name (routeWords parts) command := by
  refine ⟨hname, routeWords_admitted parts, ?_⟩
  subst hvalues
  rw [readRoutesCommand_ok hform hgrammar (parse_route hsets hcount), hfinish]

/-- Commands are read from all words that spell them. -/
theorem Spells.read (h : Spells command words) :
    ∃ name args, words = name :: args ∧ ReadsAs name args command := by
  cases h with
  | list options =>
    have hparse := parse_list options
    rw [chosen_list] at hparse
    refine ⟨_, _, rfl, by decide, listWords_admitted options, ?_⟩
    rw [readRoutesCommand_ok rfl rfl hparse]
  | check h =>
    refine ⟨_, _, rfl, readsAs_route rfl rfl (by simp) h rfl (by decide) ?_⟩
    simp [chosen_route, supply, domainOperand, Draft.route, routeNamed]
  | create h =>
    refine ⟨_, _, rfl, readsAs_route rfl rfl (by simp) h rfl (by decide) ?_⟩
    simp [chosen_route, supply, domainOperand, spaceOperand, Draft.route, routeNamed]
  | map h =>
    refine ⟨_, _, rfl, readsAs_route rfl rfl (by simp) h rfl (by decide) ?_⟩
    simp [chosen_route, supply, domainOperand, applicationOperand, Draft.route, routeNamed]
  | unmap h =>
    refine ⟨_, _, rfl, readsAs_route rfl rfl (by simp) h rfl (by decide) ?_⟩
    simp [chosen_route, supply, domainOperand, applicationOperand, Draft.route, routeNamed]
  | delete h =>
    refine ⟨_, _, rfl, readsAs_route rfl rfl (by simp) h rfl (by decide) ?_⟩
    simp [chosen_route, supply, domainOperand, Draft.route, routeNamed]
  | deleteOrphaned => exact ⟨_, _, rfl, by decide, by simp, rfl⟩

/-- The words behind `routes` are read as the command that they spell. -/
theorem Spells.parse (h : Spells command words) :
    routesGrammar.parse words none = .ok (some command) := by
  obtain ⟨name, args, rfl, hreads⟩ := h.read
  have hnone : ∀ c ∈ ([] : List (Choice (Option RoutesCommand))), routesGrammar.Knows c := by simp
  exact Grammar.parse_command rfl rfl hnone hreads.plain (fun s hs => (hreads.admitted s hs).2)
    hreads.read

theorem Spells.admitted (h : Spells command words) : ∀ s ∈ words, grammar.Admits s := by
  obtain ⟨name, args, rfl, hreads⟩ := h.read
  intro s hs
  rcases List.mem_cons.mp hs with rfl | hs
  · exact Grammar.admits_plain hreads.plain
  · exact (hreads.admitted s hs).1

end Reading

/-- A command line is read as it is meant, whatever it is filled in with, and in whatever order its
options stand before the command and among the operands behind it. Options that are not given are
left as they are without them, and of one that is given again the last value counts. -/
theorem parse_spelled (options : List GlobalOption) {command : RoutesCommand} {words : List String}
    (h : Spells command words) :
    parse (options.flatMap GlobalOption.words ++ "routes" :: words) =
      .ok {
        config := lastOf GlobalOption.config? options
        apiUrl := lastOf GlobalOption.apiUrl? options
        organization := lastOf GlobalOption.organization? options
        space := lastOf GlobalOption.space? options
        verbose := options.any GlobalOption.isVerbose
        command := .routes (some command) } := by
  have hknown : ∀ c ∈ options.map GlobalOption.choice, grammar.Knows c := by
    intro c hc
    obtain ⟨o, -, rfl⟩ := List.mem_map.mp hc
    exact o.known
  have hname : IsPlain "routes" := by decide
  rw [globalWords_eq]
  apply Grammar.parse_command rfl rfl hknown hname h.admitted
  rw [chosen_globals, readCommand, h.parse]
  rfl

/-- Options, a command and a domain that are called like one another, and a host that is empty. -/
def crowdedParts : List (Part RouteOption) :=
  [.option (.path ⟨"routes", by decide⟩), .operand ⟨"create", by decide⟩,
    .option (.hostname .short ⟨"", by decide⟩), .operand ⟨"space", by decide⟩]

/-- The space that the route is made in is not taken for the one that is targeted. -/
theorem parse_spelled_crowded :
    Spells (.create ⟨"create", some "", some "routes"⟩ "space")
        ["create", "--path", "routes", "create", "-n", "", "space"] ∧
      parse ["-v", "--space", "old", "--organization", "routes", "-s", "dev", "routes",
        "create", "--path", "routes", "create", "-n", "", "space"] =
        .ok {
          organization := some "routes"
          space := some "dev"
          verbose := true
          command := .routes (some (.create ⟨"create", some "", some "routes"⟩ "space")) } := by
  have hspells : Spells (.create ⟨"create", some "", some "routes"⟩ "space")
      ["create", "--path", "routes", "create", "-n", "", "space"] :=
    @Spells.create crowdedParts _ _ rfl
  exact ⟨hspells, parse_spelled [.verbose .short, .space .long ⟨"old", by decide⟩,
    .organization .long ⟨"routes", by decide⟩, .space .short ⟨"dev", by decide⟩] hspells⟩

end PlatformRoutes.CommandLine
