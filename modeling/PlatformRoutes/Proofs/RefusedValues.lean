import PlatformRoutes.Proofs.TextualFaults

namespace PlatformRoutes.Yaml

namespace Node

/-- The nodes that a node is made of, itself first. -/
inductive Within (root : Node) : Node → Prop
  | itself : Within root root
  | item {kind : Kind} {items : List Node} {n : Node} (h : Within root (.sequence kind items))
      (hn : n ∈ items) : Within root n
  | key {kind : Kind} {entries : Entries} {e : Node × Node}
      (h : Within root (.mapping kind entries)) (he : e ∈ entries) : Within root e.1
  | value {kind : Kind} {entries : Entries} {e : Node × Node}
      (h : Within root (.mapping kind entries)) (he : e ∈ entries) : Within root e.2

/-- The faults that the values of a node have: those of its parts, or of how these are put together. -/
def Refuses (root : Node) (fault : Fault) : Prop :=
  fault = .malformed ∨ ∃ part, root.Within part ∧ part.datum = .error fault

/-- A node that is met while a value is made out: a part of it, or a key that is read as a text. -/
def Met (root n : Node) : Prop := root.Within n ∨ ∃ m : Node, n = m.withKind .str

variable {root n : Node} {entries : Entries}

theorem kind_withKind (k : Kind) (n : Node) : (n.withKind k).kind = k := by
  cases n <;> rfl

theorem Met.within (h : root.Met n) (hkind : n.kind ≠ .str) : root.Within n := by
  obtain h | ⟨m, rfl⟩ := h
  · exact h
  · exact absurd (kind_withKind .str m) hkind

theorem datum_leads (h : root.Met n) : Leads root.Refuses (fun _ => True) n.datum := by
  obtain h | ⟨m, rfl⟩ := h
  · cases hdatum : n.datum with
    | ok d => exact .ok trivial
    | error fault => exact .error (.inr ⟨n, h, hdatum⟩)
  · unfold datum
    rw [kind_withKind]
    refine .ite (.ok trivial) ?_
    split
    · exact .error (.inl rfl)
    · cases m <;> exact .ok trivial

/-- All keys and values of some entries have a property. -/
def Each (P : Node → Prop) (entries : Entries) : Prop := ∀ e ∈ entries, P e.1 ∧ P e.2

theorem Within.each {kind : Kind} (h : root.Within (.mapping kind entries)) :
    Each root.Within entries := fun _ he => ⟨h.key he, h.value he⟩

theorem takenFrom_leads {flat : Entries → Except Fault Entries}
    (hflat : ∀ entries, Each root.Within entries →
      Leads root.Refuses (Each root.Met) (flat entries))
    (h : root.Within n) : Leads root.Refuses (Each root.Met) (takenFrom flat n) := by
  unfold takenFrom
  split
  · exact hflat _ h.each
  · refine (Leads.mapM (Q := Each root.Met) _ fun m hm => ?_).bind fun parts hparts => .ok ?_
    · split
      · exact hflat _ (h.item hm).each
      · exact .error (.inl rfl)
    · intro e he
      obtain ⟨part, hpart, he⟩ := List.mem_flatten.mp he
      exact hparts part (List.mem_reverse.mp hpart) e he
  · exact .error (.inl rfl)

theorem flatten_leads (fuel : Nat) (h : Each root.Within entries) :
    Leads root.Refuses (Each root.Met) (flatten fuel entries) := by
  induction fuel generalizing entries with
  | zero => exact .error (.inl rfl)
  | succ fuel ih =>
    unfold flatten
    refine (Leads.mapM (Q := Each root.Met) _ fun e he => ?_).bind fun taken htaken => .ok ?_
    · exact takenFrom_leads (fun _ => ih) (h e (List.mem_filter.mp he).1).2
    · intro e he
      rcases List.mem_append.mp he with he | he
      · obtain ⟨part, hpart, he⟩ := List.mem_flatten.mp he
        exact htaken part hpart e he
      · obtain ⟨e', he', rfl⟩ := List.mem_map.mp he
        have hwithin := h e' (List.mem_filter.mp he').1
        split
        · exact ⟨.inr ⟨e'.1, rfl⟩, .inl hwithin.2⟩
        · exact ⟨.inl hwithin.1, .inl hwithin.2⟩

theorem checkEntry_leads {e : Node × Node} (hkey : root.Met e.1) (hvalue : root.Met e.2) :
    Leads root.Refuses (fun ns => ∀ n ∈ ns, root.Met n) (checkEntry e) := by
  refine (datum_leads hkey).bind fun _ _ => .ite (.error (.inl rfl)) ?_
  refine (datum_leads hvalue).bind fun _ _ => .ok ?_
  simp [hkey, hvalue]

theorem checkPair_leads (h : root.Within n) :
    Leads root.Refuses (fun ns => ∀ n ∈ ns, root.Met n) (checkPair n) := by
  unfold checkPair
  split
  · rename_i k v
    have hkey : root.Met k := .inl (h.key (e := (k, v)) (List.mem_singleton_self _))
    have hvalue : root.Met v := .inl (h.value (e := (k, v)) (List.mem_singleton_self _))
    refine (datum_leads hkey).bind fun _ _ => (datum_leads hvalue).bind fun _ _ => .ok ?_
    simp [hkey, hvalue]
  · exact .error (.inl rfl)

theorem met_flatten {ns : List (List Node)} (h : ∀ part ∈ ns, ∀ n ∈ part, root.Met n) :
    ∀ n ∈ ns.flatten, root.Met n := by
  intro n hn
  obtain ⟨part, hpart, hn⟩ := List.mem_flatten.mp hn
  exact h part hpart n hn

theorem inside_leads (h : root.Met n) :
    Leads root.Refuses (fun ns => ∀ n ∈ ns, root.Met n) n.inside := by
  have hentries {kind : Kind} {entries : Entries} (h : root.Within (.mapping kind entries))
      (fuel : Nat) : Leads root.Refuses (fun ns => ∀ n ∈ ns, root.Met n) (do
        return (← (← flatten fuel entries).mapM checkEntry).flatten) :=
    (flatten_leads fuel h.each).bind fun flat hflat =>
      (Leads.mapM flat fun e he => checkEntry_leads (hflat e he).1 (hflat e he).2).bind
        fun _ hinner => .ok (met_flatten hinner)
  have hpairs {kind : Kind} {items : List Node} (h : root.Within (.sequence kind items)) :
      Leads root.Refuses (fun ns => ∀ n ∈ ns, root.Met n) (do
        return (← items.mapM checkPair).flatten) :=
    (Leads.mapM items fun m hm => checkPair_leads (h.item hm)).bind fun _ hinner =>
      .ok (met_flatten hinner)
  unfold inside
  split
  · rename_i kind items hkind
    have hwithin := h.within (by rw [hkind]; decide)
    exact (Leads.mapM items fun m hm => datum_leads (.inl (hwithin.item hm))).bind fun _ _ =>
      .ok fun m hm => .inl (hwithin.item hm)
  · rename_i hkind
    exact hentries (h.within (by rw [hkind]; decide)) _
  · rename_i hkind
    exact hentries (h.within (by rw [hkind]; decide)) _
  · rename_i hkind
    exact hpairs (h.within (by rw [hkind]; decide))
  · rename_i hkind
    exact hpairs (h.within (by rw [hkind]; decide))
  · exact .ite (.error (.inl rfl)) (.ok (by simp))

theorem checkLevels_leads (fuel : Nat) {level : List Node} (h : ∀ n ∈ level, root.Met n) :
    Leads root.Refuses (fun _ => True) (checkLevels fuel level) := by
  induction fuel generalizing level with
  | zero => cases level <;> exact .ok trivial
  | succ fuel ih =>
    cases level with
    | nil => exact .ok trivial
    | cons n level =>
      exact (Leads.mapM _ fun m hm => inside_leads (h m hm)).bind fun inner hinner =>
        ih (met_flatten hinner)

theorem root_leads (node : Node) : Leads node.Refuses (fun _ => True) node.root := by
  have hself : node.Met node := .inl .itself
  refine (datum_leads hself).bind fun d _ => ?_
  refine (checkLevels_leads _ (List.forall_mem_singleton.mpr hself)).bind fun _ _ => ?_
  split
  · refine (flatten_leads _ Within.itself.each).bind fun entries hentries => ?_
    refine (Leads.mapM (Q := fun _ => True) entries fun e he => ?_).bind fun _ _ => .ok trivial
    exact (datum_leads (hentries e he).1).bind fun _ _ =>
      (datum_leads (hentries e he).2).bind fun _ _ => .ok trivial
  · exact .ok trivial
  · exact .ok trivial

end Node

/-- A text that cannot be read is at fault itself, or a value of its document is refused by its type. -/
theorem read_fails {s : Source} {fault : Fault} (hs : s.Sound) (h : read s = .error fault) :
    fault.isTextual = true ∨
      ∃ root part, Node.read s = .ok (some root) ∧ root.Within part ∧ part.datum = .error fault := by
  have htextual := Node.read_textual hs
  unfold read at h
  cases hnodes : Node.read s with
  | error e =>
    rw [hnodes] at h htextual
    cases h
    exact .inl htextual
  | ok found =>
    rw [hnodes] at h
    cases found with
    | none => cases h
    | some root =>
      have hroot := root.root_leads
      replace h : root.root = .error fault := h
      rw [h] at hroot
      rcases hroot with rfl | ⟨part, hpart, hdatum⟩
      · exact .inl rfl
      · exact .inr ⟨root, part, rfl, hpart, hdatum⟩

end PlatformRoutes.Yaml
