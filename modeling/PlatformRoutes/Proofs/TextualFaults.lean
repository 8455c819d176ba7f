import PlatformRoutes.Proofs.ScannerFaults

namespace PlatformRoutes.Yaml

variable {α : Type}

/-- A part of the reading that is stopped by faults of the text alone. -/
abbrev Read.Textual (x : Read α) : Prop := Keeps (fun r => Sound r.tokens) x

namespace Read

theorem peek_textual : Textual peek := by
  intro r hr
  obtain ⟨tokens, anchors, handles⟩ := r
  cases tokens with
  | nil => rfl
  | cons t rest =>
    cases t with
    | broken fault => exact hr fault List.mem_cons_self
    | _ => exact hr

theorem advance_textual : Textual advance :=
  .modify fun _ hr fault hmem => hr fault (List.mem_of_mem_drop hmem)

theorem anchor?_textual : Textual anchor? := by
  refine peek_textual.bind fun t => ?_
  split
  · exact advance_textual.bind fun _ => .pure _
  · exact .pure _

theorem tag?_textual : Textual tag? := by
  refine peek_textual.bind fun t => ?_
  split
  · exact advance_textual.bind fun _ => .pure _
  · exact .pure _

theorem properties_textual : Textual properties := by
  refine anchor?_textual.bind fun anchor => ?_
  split
  · exact tag?_textual.bind fun _ => .pure _
  · refine tag?_textual.bind fun tag => ?_
    split
    · exact anchor?_textual.bind fun _ => .pure _
    · exact .pure _

theorem fullTag_textual (t : TagName) : Textual (fullTag t) := by
  unfold fullTag
  split
  · exact .pure _
  · refine .get_bind fun r => ?_
    split
    · exact .pure _
    · exact .malformed

theorem bind_textual (anchor : Option String) (node : Node) : Textual (Read.bind anchor node) := by
  unfold Read.bind
  split
  · exact .pure _
  · exact .modify fun _ hr => hr

theorem checkFresh_textual (anchor : Option String) : Textual (checkFresh anchor) := by
  unfold checkFresh
  split
  · exact .pure _
  · exact .get_bind fun r => .ite .malformed (.pure _)

theorem named_textual (name : String) : Textual (named name) := by
  refine .get_bind fun r => ?_
  split
  · exact .pure _
  · exact .malformed

variable {read : Read Node}

theorem before_textual (ends : Token → Bool) (h : Textual read) : Textual (before ends read) :=
  peek_textual.bind fun _ => .ite (.pure _) h

theorem valueUnless_textual (ends : Token → Bool) (h : Textual read) :
    Textual (valueUnless ends read) :=
  peek_textual.bind fun _ => .ite (advance_textual.bind fun _ => before_textual ends h) (.pure _)

theorem textNode_textual (p : Properties) (tag : Option String) (text : String) (plain : Bool) :
    Textual (textNode p tag text plain) :=
  (checkFresh_textual _).bind fun _ => (bind_textual _ _).bind fun _ => .pure _

theorem bareNode_textual (p : Properties) (tag : Option String) : Textual (bareNode p tag) :=
  .ite .malformed (textNode_textual p tag "" true)

theorem collection_textual (p : Properties) (tag : Option String) (default : Kind)
    {make : Kind → Read Node} (h : ∀ kind, Textual (make kind)) :
    Textual (collection p tag default make) :=
  (checkFresh_textual _).bind fun _ => (bind_textual _ _).bind fun _ => (h _).bind fun _ =>
    (bind_textual _ _).bind fun _ => .pure _

/-- What is read with some fuel, of all that the grammar of nodes is made of. -/
structure NodesTextual (fuel : Nat) : Prop where
  node : ∀ place, Textual (node place fuel)
  blockItems : Textual (blockItems fuel)
  looseItems : Textual (looseItems fuel)
  blockFields : Textual (blockFields fuel)
  flowItems : ∀ isFirst, Textual (flowItems isFirst fuel)
  flowFields : ∀ isFirst, Textual (flowFields isFirst fuel)

namespace NodesTextual

variable {fuel : Nat} (h : NodesTextual fuel)
include h

theorem node_succ (place : Place) : Textual (Read.node place (fuel + 1)) := by
  rw [Read.node]
  refine peek_textual.bind fun t => ?_
  split
  · exact advance_textual.bind fun _ => named_textual _
  · refine properties_textual.bind fun p => ?_
    have htag : Textual (p.tag.mapM fullTag) := by
      cases p.tag with
      | none => exact .pure none
      | some name => exact (fullTag_textual name).bind fun _ => .pure _
    refine htag.bind fun tag => peek_textual.bind fun t => ?_
    split
    · exact advance_textual.bind fun _ => textNode_textual _ _ _ _
    · exact advance_textual.bind fun _ => collection_textual _ _ _ fun _ =>
        (h.flowItems true).bind fun _ => .pure _
    · exact advance_textual.bind fun _ => collection_textual _ _ _ fun _ =>
        (h.flowFields true).bind fun _ => .pure _
    · exact .ite (collection_textual _ _ _ fun _ => h.looseItems.bind fun _ => .pure _)
        (bareNode_textual _ _)
    · exact .ite (bareNode_textual _ _) (advance_textual.bind fun _ =>
        collection_textual _ _ _ fun _ => h.blockItems.bind fun _ => .pure _)
    · exact .ite (bareNode_textual _ _) (advance_textual.bind fun _ =>
        collection_textual _ _ _ fun _ => h.blockFields.bind fun _ => .pure _)
    · exact bareNode_textual _ _

theorem blockItems_succ : Textual (Read.blockItems (fuel + 1)) := by
  rw [Read.blockItems]
  refine peek_textual.bind fun t => ?_
  split
  · exact advance_textual.bind fun _ => (before_textual _ (h.node _)).bind fun _ =>
      h.blockItems.bind fun _ => .pure _
  · exact advance_textual.bind fun _ => .pure _
  · exact .malformed

theorem looseItems_succ : Textual (Read.looseItems (fuel + 1)) := by
  rw [Read.looseItems]
  refine peek_textual.bind fun t => ?_
  split
  · exact advance_textual.bind fun _ => (before_textual _ (h.node _)).bind fun _ =>
      h.looseItems.bind fun _ => .pure _
  · exact .pure _

theorem blockFields_succ : Textual (Read.blockFields (fuel + 1)) := by
  rw [Read.blockFields]
  refine peek_textual.bind fun t => ?_
  split
  · exact advance_textual.bind fun _ => (before_textual _ (h.node _)).bind fun _ =>
      (valueUnless_textual _ (h.node _)).bind fun _ => h.blockFields.bind fun _ => .pure _
  · exact advance_textual.bind fun _ => .pure _
  · exact .malformed

/-- The items from one on, behind the comma before it. -/
theorem flowItem_textual : Textual (do
    match ← peek with
    | .flowSequenceEnd =>
      advance
      return []
    | .key =>
      advance
      let key ← before (fun t => t == .value || endsFlowItem t) (Read.node .flow fuel)
      let value ← valueUnless endsFlowItem (Read.node .flow fuel)
      return .mapping .map [(key, value)] :: (← Read.flowItems false fuel)
    | _ =>
      let item ← Read.node .flow fuel
      return item :: (← Read.flowItems false fuel)) := by
  refine peek_textual.bind fun t => ?_
  split
  · exact advance_textual.bind fun _ => .pure _
  · exact advance_textual.bind fun _ => (before_textual _ (h.node _)).bind fun _ =>
      (valueUnless_textual _ (h.node _)).bind fun _ => (h.flowItems false).bind fun _ => .pure _
  · exact (h.node _).bind fun _ => (h.flowItems false).bind fun _ => .pure _

theorem flowItems_succ (isFirst : Bool) : Textual (Read.flowItems isFirst (fuel + 1)) := by
  have hrest := h.flowItem_textual
  rw [Read.flowItems]
  refine peek_textual.bind fun t => .ite (advance_textual.bind fun _ => .pure _) (.ite ?_ hrest)
  exact peek_textual.bind fun _ => .ite (advance_textual.bind fun _ => hrest) .malformed

/-- The fields from one on, behind the comma before it. -/
theorem flowField_textual : Textual (do
    match ← peek with
    | .flowMappingEnd =>
      advance
      return []
    | .key =>
      advance
      let key ← before (fun t => t == .value || endsFlowField t) (Read.node .flow fuel)
      let value ← valueUnless endsFlowField (Read.node .flow fuel)
      return (key, value) :: (← Read.flowFields false fuel)
    | _ =>
      let key ← Read.node .flow fuel
      return (key, .nothing) :: (← Read.flowFields false fuel)) := by
  refine peek_textual.bind fun t => ?_
  split
  · exact advance_textual.bind fun _ => .pure _
  · exact advance_textual.bind fun _ => (before_textual _ (h.node _)).bind fun _ =>
      (valueUnless_textual _ (h.node _)).bind fun _ => (h.flowFields false).bind fun _ => .pure _
  · exact (h.node _).bind fun _ => (h.flowFields false).bind fun _ => .pure _

theorem flowFields_succ (isFirst : Bool) : Textual (Read.flowFields isFirst (fuel + 1)) := by
  have hrest := h.flowField_textual
  rw [Read.flowFields]
  refine peek_textual.bind fun t => .ite (advance_textual.bind fun _ => .pure _) (.ite ?_ hrest)
  exact peek_textual.bind fun _ => .ite (advance_textual.bind fun _ => hrest) .malformed

end NodesTextual

theorem nodes_textual (fuel : Nat) : NodesTextual fuel := by
  induction fuel with
  | zero =>
    exact ⟨fun _ => .malformed, .malformed, .malformed, .malformed, fun _ => .malformed,
      fun _ => .malformed⟩
  | succ fuel ih =>
    exact ⟨ih.node_succ, ih.blockItems_succ, ih.looseItems_succ, ih.blockFields_succ,
      ih.flowItems_succ, ih.flowFields_succ⟩

theorem directives_textual (versioned : Bool) (fuel : Nat) : Textual (directives versioned fuel) := by
  induction fuel generalizing versioned with
  | zero => exact .malformed
  | succ fuel ih =>
    rw [directives]
    refine peek_textual.bind fun t => ?_
    split
    · refine advance_textual.bind fun _ => ?_
      split
      · exact .ite .malformed (ih true)
      · refine .get_bind fun r => .ite .malformed ?_
        exact Keeps.bind (.modify fun _ hr => hr) fun _ => ih versioned
      · exact ih versioned
    · exact .modify fun _ hr => hr

theorem documentEnds_textual (fuel : Nat) : Textual (documentEnds fuel) := by
  induction fuel with
  | zero => exact .malformed
  | succ fuel ih =>
    exact peek_textual.bind fun _ => .ite (advance_textual.bind fun _ => ih) (.pure _)

theorem document_textual (fuel : Nat) : Textual (document fuel) := by
  have hnode := (nodes_textual fuel).node .block
  have hfinish (root : Node) : Textual (document.finish fuel root) :=
    (documentEnds_textual fuel).bind fun _ => peek_textual.bind fun _ => .ite (.pure _) <|
      Keeps.bind (.modify fun _ hr => hr) fun _ =>
        (directives_textual false fuel).bind fun _ => .malformed
  have hdirected : Textual (do
      directives false fuel
      if (← peek) != .documentStart then malformed
      advance
      let root ← before endsDocument (node .block fuel)
      document.finish fuel root) :=
    (directives_textual false fuel).bind fun _ => peek_textual.bind fun _ => .ite .malformed <|
      advance_textual.bind fun _ => (before_textual _ hnode).bind hfinish
  refine peek_textual.bind fun t => ?_
  split
  · exact .pure _
  · exact hdirected
  · exact hdirected
  · exact Keeps.bind (.modify fun _ hr => hr) fun _ => hnode.bind hfinish

end Read

/-- The nodes of a text are read unless the text is at fault. -/
theorem Node.read_textual {s : Source} (h : s.Sound) : Yaml.Textual (Node.read s) := by
  have hsound := tokens_sound h
  unfold Node.read
  generalize tokens s = ts at hsound
  exact Leads.map (Read.document_textual _ _ hsound) fun _ _ => trivial

end PlatformRoutes.Yaml
