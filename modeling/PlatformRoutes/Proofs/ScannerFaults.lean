import PlatformRoutes.Yaml.Content

namespace PlatformRoutes.Yaml

variable {α β σ : Type}

/-- What fails in one way, and has results of some kind. -/
def Leads (F : Fault → Prop) (Q : α → Prop) : Except Fault α → Prop
  | .ok a => Q a
  | .error fault => F fault

namespace Leads

variable {F : Fault → Prop} {P : α → Prop} {Q : β → Prop} {x y : Except Fault α}
  {f : α → Except Fault β}

theorem ok {a : α} (h : P a) : Leads F P (.ok a) := h

theorem error {fault : Fault} (h : F fault) : Leads F P (.error fault) := h

theorem bind (hx : Leads F P x) (hf : ∀ a, P a → Leads F Q (f a)) : Leads F Q (x >>= f) := by
  cases x with
  | error e => exact hx
  | ok a => exact hf a hx

theorem map {g : α → β} (hx : Leads F P x) (hg : ∀ a, P a → Q (g a)) : Leads F Q (x.map g) :=
  hx.bind fun a ha => ok (hg a ha)

theorem ite {p : Prop} [Decidable p] (hx : Leads F P x) (hy : Leads F P y) :
    Leads F P (if p then x else y) := by
  split
  · exact hx
  · exact hy

theorem mapM (l : List α) {f : α → Except Fault β} (h : ∀ a ∈ l, Leads F Q (f a)) :
    Leads F (fun bs => ∀ b ∈ bs, Q b) (l.mapM f) := by
  induction l with
  | nil => exact ok (by simp)
  | cons a l ih =>
    rw [List.mapM_cons]
    refine (h a List.mem_cons_self).bind fun b hb => ?_
    refine (ih fun a ha => h a (List.mem_cons_of_mem _ ha)).bind fun bs hbs => ?_
    exact ok (List.forall_mem_cons.mpr ⟨hb, hbs⟩)

end Leads

/-- Whether a fault is one of the text, whatever its values are: it breaks the grammar or is none, or
an escape in it stands for no character, or a number in it is too long. -/
def Fault.isTextual : Fault → Bool
  | malformed | undecodable | badValue | tooLarge => true
  | missingKey | misshapen | outOfRange | wrongType => false

/-- What fails with faults of the text alone. -/
def Textual (x : Except Fault α) : Prop := Leads (·.isTextual = true) (fun _ => True) x

/-- What goes from states with a property to states with it, and fails with faults of the text
alone. -/
def Keeps (I : σ → Prop) (x : StateT σ (Except Fault) α) : Prop :=
  ∀ s, I s → Leads (·.isTextual = true) (I ·.2) (x.run s)

namespace Keeps

variable {I : σ → Prop} {x y : StateT σ (Except Fault) α} {f : α → StateT σ (Except Fault) β}

theorem pure (a : α) : Keeps I (pure a) := fun _ h => h

theorem throw {fault : Fault} (h : fault.isTextual = true) :
    Keeps I (throw fault : StateT σ (Except Fault) α) := fun _ _ => h

theorem malformed : Keeps I (MonadExcept.throw .malformed : StateT σ (Except Fault) α) := throw rfl

theorem bind (hx : Keeps I x) (hf : ∀ a, Keeps I (f a)) : Keeps I (x >>= f) :=
  fun s hs => (hx s hs).bind fun p hp => hf p.1 p.2 hp

theorem ite {p : Prop} [Decidable p] (hx : Keeps I x) (hy : Keeps I y) :
    Keeps I (if p then x else y) := by
  split
  · exact hx
  · exact hy

theorem get_bind {f : σ → StateT σ (Except Fault) β} (hf : ∀ s, Keeps I (f s)) :
    Keeps I (get >>= f) := fun s hs => hf s s hs

theorem modify {g : σ → σ} (hg : ∀ s, I s → I (g s)) :
    Keeps I (modify g : StateT σ (Except Fault) PUnit) := fun s hs => hg s hs

theorem lift {e : Except Fault α} (he : Textual e) :
    Keeps I (MonadLift.monadLift e : StateT σ (Except Fault) α) :=
  fun _ hs => Leads.bind he fun _ _ => .ok hs

end Keeps

/-- Only a fault of the text stops what is read of it short. -/
def Source.Sound (s : Source) : Prop := ∀ fault, s.stop = some fault → fault.isTextual = true

theorem Source.next_stop (s : Source) : s.next.stop = s.stop := by
  unfold next
  split
  · rfl
  · split <;> rfl

theorem Source.skip_stop (s : Source) (n : Nat) : (s.skip n).stop = s.stop := by
  induction n generalizing s with
  | zero => rfl
  | succ n ih => rw [skip, ih, next_stop]

theorem Source.peek_textual {s : Source} (h : s.Sound) (n : Nat) : Textual (s.peek n) := by
  unfold peek
  split
  · trivial
  · rename_i hstop
    exact h _ hstop
  · trivial

/-- A part of the scanning that fails with faults of the text alone. -/
abbrev Scan.Textual (x : Scan α) : Prop := Keeps Source.Sound x

namespace Scan

theorem peek_textual (n : Nat) : Textual (peek n) :=
  fun _ hs => (Source.peek_textual hs n).bind fun _ _ => .ok hs

theorem head_textual : Textual head := peek_textual 0

theorem advance_textual (n : Nat) : Textual (advance n) :=
  (peek_textual n).bind fun _ => .modify fun s hs => by
    intro fault hstop
    rw [Source.skip_stop] at hstop
    exact hs fault hstop

theorem take_textual (p : Char → Bool) : Textual (take p) :=
  .get_bind fun _ => (advance_textual _).bind fun _ => .pure _

theorem skipBlanks_textual : Textual skipBlanks := (take_textual _).bind fun _ => .pure _

theorem skipComment_textual : Textual skipComment :=
  head_textual.bind fun _ => .ite ((take_textual _).bind fun _ => .pure _) (.pure _)

theorem lineBreak?_textual : Textual lineBreak? :=
  head_textual.bind fun _ => .ite ((advance_textual 1).bind fun _ => .pure _) (.pure _)

theorem atSeparator_textual : Textual atSeparator :=
  (peek_textual 2).bind fun _ => .get_bind fun _ =>
    .ite ((peek_textual 3).bind fun _ => .pure _) (.pure _)

end Scan

namespace Scalar

open Scan

theorem charOf_textual (code : Nat) : Yaml.Textual (charOf code) :=
  Leads.ite (.error rfl) (.ite (.error rfl) (.ite (.ok trivial) (.ok trivial)))

theorem hexNumber_textual (ahead n more : Nat) : Scan.Textual (hexNumber ahead n more) := by
  induction more generalizing ahead n with
  | zero => exact .pure _
  | succ more ih =>
    refine (peek_textual _).bind fun c => ?_
    split
    · exact ih _ _
    · exact .malformed

theorem quotedBreaks_textual (fuel : Nat) : Scan.Textual (quotedBreaks fuel) := by
  induction fuel with
  | zero => exact .malformed
  | succ fuel ih =>
    refine atSeparator_textual.bind fun _ => .ite .malformed ?_
    refine (take_textual _).bind fun _ => lineBreak?_textual.bind fun c => ?_
    split
    · exact .pure _
    · exact ih.bind fun _ => .pure _

theorem quotedSpaces_textual (fuel : Nat) : Scan.Textual (quotedSpaces fuel) := by
  refine (take_textual _).bind fun _ => head_textual.bind fun _ => .ite .malformed ?_
  refine lineBreak?_textual.bind fun c => ?_
  split
  · exact .pure _
  · exact (quotedBreaks_textual fuel).bind fun _ => .pure _

theorem escape_textual (fuel : Nat) : Scan.Textual (escape fuel) := by
  refine head_textual.bind fun c => ?_
  split
  · exact (advance_textual 1).bind fun _ => .pure _
  · exact (advance_textual 1).bind fun _ => (hexNumber_textual 0 0 _).bind fun n =>
      (Keeps.lift (charOf_textual n)).bind fun _ => (advance_textual _).bind fun _ => .pure _
  · refine lineBreak?_textual.bind fun c => ?_
    split
    · exact .malformed
    · exact quotedBreaks_textual fuel

theorem quoted_textual (double : Bool) (fuel : Nat) : Scan.Textual (quoted double fuel) := by
  induction fuel with
  | zero => exact .malformed
  | succ fuel ih =>
    have hrest (d : List Char) : Scan.Textual (do return d ++ (← quoted double fuel)) :=
      ih.bind fun _ => .pure _
    refine head_textual.bind fun c => .ite .malformed (.ite ?_ (.ite ?_ (.ite ?_ ?_)))
    · exact (peek_textual 1).bind fun _ =>
        .ite ((advance_textual 2).bind fun _ => hrest [c]) ((advance_textual 1).bind fun _ => .pure _)
    · exact (advance_textual 1).bind fun _ => (escape_textual fuel).bind hrest
    · exact (quotedSpaces_textual fuel).bind hrest
    · exact (advance_textual 1).bind fun _ => hrest [c]

theorem plainBreaks_textual (fuel : Nat) : Scan.Textual (plainBreaks fuel) := by
  induction fuel with
  | zero => exact .pure _
  | succ fuel ih =>
    refine head_textual.bind fun _ => .ite ((advance_textual 1).bind fun _ => ih) ?_
    refine lineBreak?_textual.bind fun c => ?_
    split
    · exact .pure _
    · exact atSeparator_textual.bind fun _ => .ite (.pure _) (ih.bind fun _ => .pure _)

theorem plainSpaces_textual (fuel : Nat) : Scan.Textual (plainSpaces fuel) := by
  refine (take_textual _).bind fun _ => lineBreak?_textual.bind fun c => ?_
  split
  · exact .pure _
  · refine atSeparator_textual.bind fun _ => .ite (.pure _) ?_
    refine (plainBreaks_textual fuel).bind fun breaks => ?_
    split <;> exact .pure _

theorem plainWord_textual (inFlow : Bool) (fuel : Nat) : Scan.Textual (plainWord inFlow fuel) := by
  induction fuel with
  | zero => exact .pure _
  | succ fuel ih =>
    have hrest (c : Char) (ends : Bool) : Scan.Textual (if ends then return [] else do
        advance 1
        return c :: (← plainWord inFlow fuel)) :=
      .ite (.pure _) ((advance_textual 1).bind fun _ => ih.bind fun _ => .pure _)
    refine head_textual.bind fun c => ?_
    split
    · exact (peek_textual 1).bind fun _ => hrest c _
    · exact hrest c _

theorem plain_textual (inFlow : Bool) (indent : Int) (fuel : Nat) (brokeLine : Bool) :
    Scan.Textual (plain inFlow indent fuel brokeLine) := by
  induction fuel generalizing brokeLine with
  | zero => exact .pure _
  | succ fuel ih =>
    refine head_textual.bind fun _ => .ite (.pure _) ?_
    refine (plainWord_textual inFlow fuel).bind fun word => .ite (.pure _) ?_
    refine (plainSpaces_textual fuel).bind fun gap => .get_bind fun _ => ?_
    refine head_textual.bind fun _ => .ite (.pure _) ?_
    exact (ih _).bind fun _ => .ite (.pure _) (.pure _)

theorem optionalIncrement_textual : Scan.Textual optionalIncrement := by
  refine head_textual.bind fun c => ?_
  split
  · exact .pure _
  · exact .malformed
  · exact (advance_textual 1).bind fun _ => .pure _

theorem optionalChomping_textual : Scan.Textual optionalChomping := by
  refine head_textual.bind fun c => ?_
  split
  · exact .pure _
  · exact (advance_textual 1).bind fun _ => .pure _

theorem blockHeader_textual : Scan.Textual blockHeader := by
  have hend (header : BlockHeader) : Scan.Textual (do
      if endsWord (← head) then return header else malformed) :=
    head_textual.bind fun _ => .ite (.pure _) .malformed
  refine optionalChomping_textual.bind fun chomping => ?_
  split
  · exact optionalIncrement_textual.bind fun _ => hend _
  · refine optionalIncrement_textual.bind fun increment => ?_
    split
    · exact hend _
    · exact optionalChomping_textual.bind fun _ => hend _

theorem restOfLine_textual : Scan.Textual restOfLine :=
  skipBlanks_textual.bind fun _ => skipComment_textual.bind fun _ => head_textual.bind fun _ =>
    .ite (lineBreak?_textual.bind fun _ => .pure _) .malformed

theorem leadingLines_textual (fuel deepest : Nat) : Scan.Textual (leadingLines fuel deepest) := by
  induction fuel generalizing deepest with
  | zero => exact .pure _
  | succ fuel ih =>
    refine head_textual.bind fun _ => .ite ?_ ?_
    · exact (advance_textual 1).bind fun _ => .get_bind fun _ => ih _
    · refine lineBreak?_textual.bind fun c => ?_
      split
      · exact .pure _
      · exact (ih _).bind fun _ => .pure _

theorem blockBreaks_textual (indent fuel : Nat) : Scan.Textual (blockBreaks indent fuel) := by
  induction fuel with
  | zero => exact .pure _
  | succ fuel ih =>
    refine .get_bind fun _ => head_textual.bind fun _ => .ite ((advance_textual 1).bind fun _ => ih) ?_
    refine lineBreak?_textual.bind fun c => ?_
    split
    · exact .pure _
    · exact ih.bind fun _ => .pure _

theorem atBlockLine_textual (indent : Nat) : Scan.Textual (atBlockLine indent) :=
  .get_bind fun _ => head_textual.bind fun _ => .pure _

theorem blockLines_textual (fold : Bool) (chomping : Chomping) (indent fuel : Nat)
    (breaks : List Char) : Scan.Textual (blockLines fold chomping indent fuel breaks) := by
  induction fuel generalizing breaks with
  | zero => exact .pure _
  | succ fuel ih =>
    refine head_textual.bind fun _ => (take_textual _).bind fun _ => ?_
    refine lineBreak?_textual.bind fun _ => (blockBreaks_textual indent fuel).bind fun after => ?_
    refine (atBlockLine_textual indent).bind fun _ => ?_
    refine .ite (head_textual.bind fun _ => (ih _).bind fun _ => .pure _) ?_
    cases chomping <;> exact .pure _

theorem block_textual (fold : Bool) (parent : Int) (fuel : Nat) :
    Scan.Textual (block fold parent fuel) := by
  have hlines (header : BlockHeader) (indent : Nat) (breaks : List Char) : Scan.Textual (do
      if ← atBlockLine indent then blockLines fold header.chomping indent fuel breaks
      else return if header.chomping = .keep then breaks else []) :=
    (atBlockLine_textual indent).bind fun _ => .ite (blockLines_textual _ _ _ _ _) (.pure _)
  refine blockHeader_textual.bind fun header => restOfLine_textual.bind fun _ => ?_
  dsimp only
  split
  · exact (leadingLines_textual fuel 0).bind fun _ => hlines header _ _
  · exact (blockBreaks_textual _ fuel).bind fun _ => hlines header _ _

end Scalar

namespace Token

open Scan Scalar

theorem scanName_textual : Scan.Textual scanName :=
  (advance_textual 1).bind fun _ => (take_textual _).bind fun _ => head_textual.bind fun _ =>
    .ite .malformed (.ite (.pure _) .malformed)

theorem uriEscapes_textual (fuel : Nat) : Scan.Textual (uriEscapes fuel) := by
  induction fuel with
  | zero => exact .malformed
  | succ fuel ih =>
    refine head_textual.bind fun _ => .ite ?_ (.pure _)
    exact (advance_textual 1).bind fun _ => (hexNumber_textual 0 0 2).bind fun _ =>
      (advance_textual 2).bind fun _ => ih.bind fun _ => .pure _

theorem uriChars_textual (fuel : Nat) : Scan.Textual (uriChars fuel) := by
  induction fuel with
  | zero => exact .malformed
  | succ fuel ih =>
    refine head_textual.bind fun c => .ite ?_ (.ite ?_ (.pure _))
    · refine (uriEscapes_textual fuel).bind fun bytes => ?_
      split
      · exact .malformed
      · exact ih.bind fun _ => .pure _
    · exact (advance_textual 1).bind fun _ => ih.bind fun _ => .pure _

theorem scanUri_textual (fuel : Nat) : Scan.Textual (scanUri fuel) :=
  (uriChars_textual fuel).bind fun _ => .ite .malformed (.pure _)

theorem scanHandle_textual : Scan.Textual scanHandle := by
  refine head_textual.bind fun _ => .ite .malformed ?_
  refine (advance_textual 1).bind fun _ => head_textual.bind fun _ => .ite (.pure _) ?_
  refine (take_textual _).bind fun _ => head_textual.bind fun _ => .ite ?_ .malformed
  exact (advance_textual 1).bind fun _ => .pure _

theorem hasMark_textual (ahead fuel : Nat) : Scan.Textual (hasMark ahead fuel) := by
  induction fuel generalizing ahead with
  | zero => exact .pure _
  | succ fuel ih => exact (peek_textual _).bind fun _ => .ite (.pure _) (.ite (.pure _) (ih _))

theorem scanTag_textual (fuel : Nat) : Scan.Textual (scanTag fuel) := by
  have hend (name : TagName) : Scan.Textual (do
      if endsWord (← head) then return name else malformed) :=
    head_textual.bind fun _ => .ite (.pure _) .malformed
  refine (peek_textual 1).bind fun following => ?_
  split
  · refine (advance_textual 2).bind fun _ => (scanUri_textual fuel).bind fun _ => ?_
    refine head_textual.bind fun _ => ?_
    split
    · exact Keeps.malformed.bind hend
    · exact (advance_textual 1).bind fun _ => hend _
  split
  · exact (advance_textual 1).bind fun _ => hend _
  refine (hasMark_textual 1 fuel).bind fun _ => ?_
  split
  · exact scanHandle_textual.bind fun _ => (scanUri_textual fuel).bind fun _ => hend _
  · exact (advance_textual 1).bind fun _ => (scanUri_textual fuel).bind fun _ => hend _

theorem scanNumber_textual : Scan.Textual scanNumber :=
  (take_textual _).bind fun _ => .ite .malformed (.ite (.throw rfl) (.pure _))

theorem scanVersion_textual : Scan.Textual scanVersion := by
  refine skipBlanks_textual.bind fun _ => scanNumber_textual.bind fun _ => ?_
  refine head_textual.bind fun _ => .ite .malformed ?_
  refine (advance_textual 1).bind fun _ => scanNumber_textual.bind fun _ => ?_
  exact head_textual.bind fun _ => .ite (.pure _) .malformed

theorem scanTagDirective_textual (fuel : Nat) : Scan.Textual (scanTagDirective fuel) := by
  refine skipBlanks_textual.bind fun _ => scanHandle_textual.bind fun _ => ?_
  refine head_textual.bind fun _ => .ite .malformed ?_
  refine skipBlanks_textual.bind fun _ => (scanUri_textual fuel).bind fun _ => ?_
  exact head_textual.bind fun _ => .ite (.pure _) .malformed

theorem scanDirective_textual (fuel : Nat) : Scan.Textual (scanDirective fuel) := by
  have hend (d : Directive) : Scan.Textual (do
      restOfLine
      return d) := restOfLine_textual.bind fun _ => .pure _
  refine (advance_textual 1).bind fun _ => (take_textual _).bind fun name => ?_
  refine head_textual.bind fun _ => .ite .malformed ?_
  split
  · exact scanVersion_textual.bind hend
  split
  · exact (scanTagDirective_textual fuel).bind hend
  · exact (take_textual _).bind fun _ => hend _

end Token

/-- Whether a token says that no more can be made out. -/
def Token.isBroken : Token → Bool
  | broken _ => true
  | _ => false

namespace Layout

/-- No token says that the text is broken, and nothing but a fault of the text stops it short. -/
structure Intact (l : Layout) : Prop where
  tokens : ∀ t ∈ l.tokens, t.isBroken = false
  source : l.source.Sound

variable {l : Layout} {t : Token}

theorem Intact.push (h : l.Intact) (ht : t.isBroken = false) : (l.push t).Intact := by
  refine ⟨fun t' hmem => ?_, h.source⟩
  rcases Array.mem_push.mp hmem with hmem | rfl
  · exact h.tokens t' hmem
  · exact ht

theorem Intact.insert {tokens : Array Token} (h : ∀ t ∈ tokens, t.isBroken = false)
    (position : Nat) (ht : t.isBroken = false) :
    ∀ t' ∈ tokens.insertIdxIfInBounds position t, t'.isBroken = false := by
  intro t' hmem
  unfold Array.insertIdxIfInBounds at hmem
  split at hmem
  · rcases Array.mem_insertIdx.mp hmem with rfl | hmem
    · exact ht
    · exact h t' hmem
  · exact h t' hmem

/-- Only the tokens and the text count. -/
theorem Intact.of_same {m : Layout} (h : l.Intact) (htokens : m.tokens = l.tokens)
    (hsource : m.source = l.source) : m.Intact :=
  ⟨htokens ▸ h.tokens, hsource ▸ h.source⟩

theorem Intact.unwind (column : Int) (fuel : Nat) (h : l.Intact) :
    (Layout.unwind column fuel l).Intact := by
  induction fuel generalizing l with
  | zero => exact h
  | succ fuel ih =>
    unfold Layout.unwind
    split
    · exact h
    · split
      · split
        · exact h
        · rename_i i rest _
          exact ih (Intact.push (l := { l with indent := i, outer := rest }) (h.of_same rfl rfl) rfl)
      · exact h

theorem Intact.unwindTo (h : l.Intact) (column : Int) : (l.unwindTo column).Intact :=
  h.unwind column _

/-- What reads on from a layout with intact tokens to one with such tokens. -/
abbrev Steady (x : Step) : Prop := Leads (·.isTextual = true) Intact x

/-- Scanning leaves the tokens alone. -/
theorem scan_steady (h : l.Intact) {x : Scan α} (hx : Scan.Textual x) :
    Leads (·.isTextual = true) (·.2.Intact) (l.scan x) :=
  (hx _ h.source).bind fun _ hs => .ok ⟨h.tokens, hs⟩

theorem advance_steady (h : l.Intact) (n : Nat) : Steady (l.advance n) :=
  (scan_steady h (Scan.advance_textual n)).bind fun _ h => .ok h

theorem scanGap_textual (fuel : Nat) : Scan.Textual (scanGap fuel) := by
  induction fuel with
  | zero => exact .pure _
  | succ fuel ih =>
    refine Scan.skipBlanks_textual.bind fun _ => Scan.skipComment_textual.bind fun _ => ?_
    refine Scan.lineBreak?_textual.bind fun c => ?_
    split
    · exact .pure _
    · exact ih.bind fun _ => .pure _

theorem skipToToken_steady (fuel : Nat) (h : l.Intact) : Steady (skipToToken fuel l) := by
  refine (scan_steady h ?_).bind fun _ h => .ok (h.of_same rfl rfl)
  refine .get_bind fun _ => Scan.head_textual.bind fun _ => ?_
  split
  · exact (Scan.advance_textual 1).bind fun _ => scanGap_textual fuel
  · exact scanGap_textual fuel

theorem dropCandidate_steady (h : l.Intact) : Steady l.dropCandidate := by
  unfold dropCandidate
  split
  · exact .ite (.error rfl) (.ok (h.of_same rfl rfl))
  · exact .ok h

theorem saveCandidate_steady (h : l.Intact) : Steady l.saveCandidate :=
  .ite ((dropCandidate_steady h).bind fun _ h => .ok (h.of_same rfl rfl)) (.ok h)

theorem dropStale_steady (h : l.Intact) : Steady l.dropStale :=
  .ite (.error rfl) (.ok (h.of_same rfl rfl))

theorem closeAll_steady (h : l.Intact) : Steady l.closeAll :=
  (dropCandidate_steady (h.unwindTo _)).bind fun _ h => .ok (h.of_same rfl rfl)

theorem streamEnd_steady (h : l.Intact) : Steady l.streamEnd :=
  (closeAll_steady h).bind fun _ h => .ok ((h.push rfl).of_same rfl rfl)

theorem documentMark_steady (h : l.Intact) (ht : t.isBroken = false) :
    Steady (l.documentMark t) :=
  (closeAll_steady h).bind fun _ h => (advance_steady h 3).bind fun _ h => .ok (h.push ht)

theorem directive_steady (fuel : Nat) (h : l.Intact) : Steady (l.directive fuel) :=
  (closeAll_steady h).bind fun _ h =>
    (scan_steady h (Token.scanDirective_textual fuel)).bind fun _ h => .ok (h.push rfl)

theorem flowStart_steady (h : l.Intact) (ht : t.isBroken = false) :
    Steady (l.flowStart t) :=
  (saveCandidate_steady h).bind fun _ h => (advance_steady h 1).bind fun _ h =>
    .ok ((h.push ht).of_same rfl rfl)

theorem flowEnd_steady (h : l.Intact) (ht : t.isBroken = false) : Steady (l.flowEnd t) :=
  (dropCandidate_steady h).bind fun _ h => (advance_steady h 1).bind fun _ h =>
    .ok ((h.push ht).of_same rfl rfl)

/-- Gives the candidate up wherever a key may stand then, and takes a mark. -/
theorem mark_steady (h : l.Intact) (allowed : Bool) (ht : t.isBroken = false) : Steady (do
    let l ← (← { l with keyAllowed := allowed }.dropCandidate).advance 1
    return l.push t) :=
  (dropCandidate_steady (l := { l with keyAllowed := allowed }) (h.of_same rfl rfl)).bind fun _ h =>
    (advance_steady h 1).bind fun _ h => .ok (h.push ht)

theorem enterBlock_steady (h : l.Intact) (ht : t.isBroken = false) :
    Steady (l.enterBlock t) :=
  .ite (.ok h) (.ite (.error rfl)
    (.ite (.ok (Intact.push (l := l.openBlock _) (h.of_same rfl rfl) ht)) (.ok h)))

theorem value_steady (h : l.Intact) : Steady l.value := by
  unfold value
  dsimp only
  split
  · rename_i c _
    have hkey := Intact.insert h.tokens c.position (t := .key) rfl
    refine (advance_steady ?_ 1).bind fun _ h => .ok (h.push rfl)
    split
    · exact ⟨Intact.insert hkey c.position rfl, h.source⟩
    · exact ⟨hkey, h.source⟩
  · exact (enterBlock_steady h rfl).bind fun l h => mark_steady h _ rfl

theorem content_steady (h : l.Intact) {x : Scan α} {token : α → Token} (hx : Scan.Textual x)
    (htoken : ∀ a, (token a).isBroken = false) : Steady (l.content x token) :=
  (saveCandidate_steady h).bind fun _ h => (scan_steady h hx).bind fun p h =>
    .ok ((h.push (htoken p.1)).of_same rfl rfl)

theorem blockScalar_steady (fuel : Nat) (fold : Bool) (h : l.Intact) :
    Steady (l.blockScalar fuel fold) := by
  refine (dropCandidate_steady (l := { l with keyAllowed := true }) (h.of_same rfl rfl)).bind ?_
  refine fun _ h => (advance_steady h 1).bind fun _ h => ?_
  exact (scan_steady h (Scalar.block_textual fold _ fuel)).bind fun _ h => .ok (h.push rfl)

theorem quotedScalar_steady (fuel : Nat) (double : Bool) (h : l.Intact) :
    Steady (l.quotedScalar fuel double) := by
  unfold quotedScalar
  exact content_steady h ((Scan.advance_textual 1).bind fun _ => Scalar.quoted_textual double fuel)
    fun _ => rfl

theorem plainScalar_steady (fuel : Nat) (h : l.Intact) : Steady (l.plainScalar fuel) :=
  (saveCandidate_steady h).bind fun _ h =>
    (scan_steady h (Scalar.plain_textual _ _ fuel false)).bind fun _ h =>
      .ok ((h.push rfl).of_same rfl rfl)

theorem peek_textual (h : l.Intact) (n : Nat) : Textual (l.source.peek n) :=
  Source.peek_textual h.source n

theorem atSeparator_textual (h : l.Intact) (c : Char) : Textual (l.atSeparator c) :=
  Leads.ite ((scan_steady h Scan.atSeparator_textual).bind fun _ _ => .ok trivial) (.ok trivial)

theorem atMark_textual (h : l.Intact) (c : Char) : Textual (l.atMark c) :=
  Leads.ite (Leads.bind (peek_textual h 1) fun _ _ => .ok trivial) (.ok trivial)

theorem startsPlain_textual (h : l.Intact) (c : Char) : Textual (l.startsPlain c) :=
  Leads.ite (Leads.bind (peek_textual h 1) fun _ _ => .ok trivial) (.ok trivial)

theorem tokenFrom_steady (fuel : Nat) (c : Char) (h : l.Intact) : Steady (l.tokenFrom fuel c) := by
  refine .ite (streamEnd_steady h) (.ite (directive_steady fuel h) ?_)
  refine Leads.bind (atSeparator_textual h c) fun _ _ => .ite (documentMark_steady h ?_) ?_
  · split <;> rfl
  refine .ite (flowStart_steady h rfl) (.ite (flowStart_steady h rfl) ?_)
  refine .ite (flowEnd_steady h rfl) (.ite (flowEnd_steady h rfl) (.ite (mark_steady h _ rfl) ?_))
  refine Leads.bind (atMark_textual h c) fun _ _ => .ite ?_ ?_
  · refine .ite ?_ (.ite ?_ (value_steady h))
    · exact (enterBlock_steady h rfl).bind fun _ h => mark_steady h _ rfl
    · exact (enterBlock_steady h rfl).bind fun _ h => mark_steady h _ rfl
  have hname {token : String → Token} (htoken : ∀ a, (token a).isBroken = false) :=
    content_steady h Token.scanName_textual htoken
  refine .ite (hname fun _ => rfl) (.ite (hname fun _ => rfl) ?_)
  refine .ite (content_steady h (Token.scanTag_textual fuel) fun _ => rfl) ?_
  refine .ite (blockScalar_steady fuel _ h) (.ite (blockScalar_steady fuel _ h) ?_)
  refine .ite (quotedScalar_steady fuel _ h) (.ite (quotedScalar_steady fuel _ h) ?_)
  exact Leads.bind (startsPlain_textual h c) fun _ _ => .ite (plainScalar_steady fuel h) (.error rfl)

theorem step_steady (fuel : Nat) (h : l.Intact) : Steady (l.step fuel) := by
  refine (dropStale_steady h).bind fun _ h => (skipToToken_steady fuel h).bind fun _ h => ?_
  refine (dropStale_steady h).bind fun l h => ?_
  replace h := h.unwindTo l.source.column
  exact Leads.bind (peek_textual h 0) fun _ _ => tokenFrom_steady fuel _ h

end Layout

/-- Where the tokens stop short, a fault of the text is the cause. -/
def Sound (ts : List Token) : Prop := ∀ fault, .broken fault ∈ ts → fault.isTextual = true

namespace Layout

theorem broken_sound {l : Layout} (h : l.Intact) {cause : Fault} (hcause : cause.isTextual = true) :
    Sound (l.broken cause) := by
  intro fault hmem
  rcases List.mem_append.mp hmem with hmem | hmem
  · exact nomatch h.tokens _ (Array.mem_toList_iff.mp (List.mem_of_mem_take hmem))
  · cases List.mem_singleton.mp hmem
    exact hcause

theorem run_sound (charFuel fuel : Nat) {l : Layout} (h : l.Intact) :
    Sound (l.run charFuel fuel) := by
  induction fuel generalizing l with
  | zero => exact broken_sound h rfl
  | succ fuel ih =>
    unfold run
    split
    · exact fun fault hmem => nomatch h.tokens _ (Array.mem_toList_iff.mp hmem)
    · have hstep := step_steady charFuel h
      cases hnext : l.step charFuel with
      | ok next =>
        rw [hnext] at hstep
        exact ih hstep
      | error cause =>
        rw [hnext] at hstep
        exact broken_sound h hstep

end Layout

theorem tokens_sound {s : Source} (h : s.Sound) : Sound (tokens s) :=
  Layout.run_sound _ _ ⟨fun _ hmem => absurd hmem (Array.not_mem_empty _), h⟩

end PlatformRoutes.Yaml
