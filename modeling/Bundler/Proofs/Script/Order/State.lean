import Bundler.Proofs.Script.Order.Taking

/-! Readers that go past tokens, and lists of what others read. -/

namespace Bundler.Script.Parser

variable {α β : Type} {place : Nat} {before : List Nat}

/-! ### Tokens -/

theorem start_le_scanLexeme (at_ : GapPlace) (cursor : Cursor) :
    cursor.offset ≤ (scanLexeme at_ cursor).token.start := by
  unfold scanLexeme
  dsimp only
  split <;> exact offset_le_scanGap at_ cursor

/-- A token that was scanned does not end before it begins, and a sign ends behind that. -/
theorem sound_scanLexeme (at_ : GapPlace) (cursor : Cursor) :
    (scanLexeme at_ cursor).token.start ≤ (scanLexeme at_ cursor).after.offset ∧
      ∀ sign, (scanLexeme at_ cursor).token.kind = .sign sign →
        (scanLexeme at_ cursor).token.start < (scanLexeme at_ cursor).after.offset := by
  unfold scanLexeme
  dsimp only
  split
  · exact ⟨offset_le_scanToken _, fun sign hsign => offset_lt_scanToken hsign⟩
  · exact ⟨Nat.le_add_right _ _, fun sign hsign => by cases hsign⟩

/-- A lexeme that begins behind the current token may be taken. -/
theorem sound_take {state changed : ReaderState} {lexeme : Lexeme} (hsound : state.Sound)
    (hfaults : changed.faults = state.faults) (hstart : state.cursor.offset ≤ lexeme.token.start)
    (hlexeme : lexeme.token.start ≤ lexeme.after.offset ∧
      ∀ sign, lexeme.token.kind = .sign sign → lexeme.token.start < lexeme.after.offset) :
    (take changed lexeme).Sound ∧ ((take changed lexeme).faults = [] →
      state.faults = [] ∧ state.token.start ≤ (take changed lexeme).token.start) := by
  refine ⟨⟨hlexeme.1, hlexeme.2⟩, fun hnone => ⟨hfaults.symm.trans hnone, ?_⟩⟩
  exact Nat.le_trans hsound.le hstart

/-- The current token may be read anew, with no sign in its place unless it takes up room. -/
theorem sound_retoken {state later : ReaderState} {kind : TokenKind} {cursor : Cursor}
    {faults : List Nat} {value : Unit} (hle : state.token.start ≤ cursor.offset)
    (hlt : ∀ sign, kind = .sign sign → state.token.start < cursor.offset)
    (hdone : retoken kind cursor faults state = .done value later) :
    later.Sound ∧ later.token.start = state.token.start ∧ later.faults = state.faults := by
  obtain ⟨-, rfl⟩ := Reading.done.inj hdone
  exact ⟨⟨hle, hlt⟩, rfl, rfl⟩

theorem quiet_skip : Quiet skip := by
  intro state value later hsound hdone
  obtain ⟨-, rfl⟩ := Reading.done.inj hdone
  exact sound_take hsound rfl (start_le_scanLexeme _ _) (sound_scanLexeme _ _)

theorem quiet_advance : Quiet advance :=
  .bind quiet_token fun _ => .when (quiet_fault _) fun _ => quiet_skip

theorem quiet_eat (sign : Sign) : Quiet (eat sign) :=
  .bind (quiet_atSign sign) fun _ => .ite (.bind quiet_advance fun _ => .done _) (.done _)

theorem quiet_eatWord (word : Word) : Quiet (eatWord word) :=
  .bind (quiet_atWord word) fun _ => .ite (.bind quiet_advance fun _ => .done _) (.done _)

theorem quiet_failAt (stop : Nat) : Quiet (failAt stop : Parser α) := by
  intro state value later _ hdone
  cases hdone

theorem quiet_unexpected : Quiet (unexpected : Parser α) := by
  intro state value later _ hdone
  unfold unexpected at hdone
  split at hdone <;> cases hdone

theorem quiet_expect (sign : Sign) : Quiet (expect sign) :=
  .bind (quiet_atSign sign) fun _ =>
    .ite quiet_advance (.bind quiet_here fun _ => quiet_failAt _)

theorem quiet_expectWord (word : Word) : Quiet (expectWord word) :=
  .bind (quiet_atWord word) fun _ =>
    .ite quiet_advance (.bind quiet_here fun _ => quiet_failAt _)

theorem quiet_semicolon : Quiet semicolon :=
  .bind quiet_token fun _ =>
    .ite (.bind (quiet_eat _) fun _ => .done _) (.bind quiet_lastStop fun _ => quiet_failAt _)

theorem isSign_iff {token : Token} {sign : Sign} :
    token.isSign sign = true ↔ token.kind = .sign sign := by
  unfold Token.isSign Token.sign?
  split <;> simp_all

theorem offset_le_of_advance {state later : ReaderState} {value : Unit}
    (hdone : advance state = .done value later) : state.cursor.offset ≤ later.token.start := by
  obtain ⟨current, same, htoken, hrest⟩ := bind_eq_done.mp hdone
  obtain ⟨rfl, rfl⟩ := Reading.done.inj htoken
  split at hrest
  · obtain ⟨_, noted, hfault, hskip⟩ := bind_eq_done.mp hrest
    obtain ⟨-, rfl⟩ := Reading.done.inj hfault
    obtain ⟨-, rfl⟩ := Reading.done.inj hskip
    exact start_le_scanLexeme _ _
  · obtain ⟨-, rfl⟩ := Reading.done.inj hrest
    exact start_le_scanLexeme _ _

theorem start_lt_of_expect {sign : Sign} {state later : ReaderState} {value : Unit}
    (hsound : state.Sound) (hdone : expect sign state = .done value later) :
    state.token.start < later.token.start := by
  obtain ⟨found, same, hat, hrest⟩ := bind_eq_done.mp hdone
  obtain ⟨rfl, rfl⟩ := Reading.done.inj hat
  split at hrest
  · next hsign =>
    exact Nat.lt_of_lt_of_le (hsound.lt sign (isSign_iff.mp hsign)) (offset_le_of_advance hrest)
  · obtain ⟨_, _, -, hfailed⟩ := bind_eq_done.mp hrest
    cases hfailed

/-- A sign takes up room: what may come before the place behind it has been passed. -/
theorem takes_expect {sign : Sign} {more : List Nat}
    (h : ∀ stop, Ascends place before stop → Ascends place more (stop + 1)) :
    Takes place before (expect sign) fun _ => more := by
  intro state value later hpassed hdone
  obtain ⟨hsound, hgo⟩ := quiet_expect sign hpassed.sound hdone
  refine ⟨⟨hsound, fun hnone => ?_⟩, fun hnone => (hgo hnone).1⟩
  exact (h _ (hpassed.ascends (hgo hnone).1)).extend (start_lt_of_expect hpassed.sound hdone)

/-! ### Nodes -/

/-- A node has a place of its own, if it counts, and those in its children. -/
theorem takes_finish {kind : Kind} {start : Nat} {children : List Node} (outer : List Nat)
    (h : (outer ++ (Node.ownPlaces kind start children ++ Node.startsAll children)).Sublist
      before) :
    Takes place before (finish kind start children) fun node => outer ++ places node := by
  intro state value later hpassed hdone
  obtain ⟨rfl, rfl⟩ := Reading.done.inj hdone
  refine ⟨⟨hpassed.sound, fun hnone => (hpassed.ascends hnone).sublist ?_⟩, id⟩
  have hplaces : places (Node.mk kind start state.lastStop children) =
      Node.ownPlaces kind start children ++ Node.startsAll children := Node.starts_mk
  change (outer ++ places (Node.mk kind start state.lastStop children)).Sublist before
  rwa [hplaces]

theorem Takes.finish {kind : Kind} {start : Nat} {children : List Node} {outer : List Nat}
    (hkind : Node.ownPlaces kind start children = [])
    (h : (outer ++ Node.startsAll children).Sublist before) :
    Takes place before (finish kind start children) fun node => outer ++ places node :=
  takes_finish outer (by rwa [hkind])

/-- A node with all that was read. -/
theorem Takes.whole {kind : Kind} {start : Nat} {children : List Node}
    (hkind : Node.ownPlaces kind start children = [])
    (h : (Node.startsAll children).Sublist before) :
    Takes place before (Parser.finish kind start children) places :=
  takes_finish [] (by rwa [hkind])

/-- Goes on after a node was put together from some of what was read. -/
theorem Takes.node {kind : Kind} {start : Nat} {children : List Node} {next : Node → Parser β}
    {after : β → List Nat} (outer : List Nat) (hkind : Node.ownPlaces kind start children = [])
    (h : (outer ++ Node.startsAll children).Sublist before)
    (hnext : ∀ node : Node, Takes place (outer ++ places node) (next node) after) :
    Takes place before (Parser.finish kind start children >>= next) after :=
  (Takes.finish hkind h).bind hnext

theorem ownPlaces_nil (kind : Kind) (start : Nat) : Node.ownPlaces kind start [] = [] := by
  cases kind <;> rfl

theorem quiet_leaf (kind : Kind) : Quiet (leaf kind) :=
  .bind quiet_token fun _ => .bind quiet_skip fun _ => .done _

theorem yields_leaf (kind : Kind) : Yields (leaf kind) fun node => node.starts = [] :=
  .skip fun _ => .skip fun _ => .done (Node.starts_of_ownPlaces (ownPlaces_nil kind _))

/-- What has no places is read without adding any. -/
theorem reads_of_yields [Placed α] {parser : Parser α} (h : Quiet parser)
    (hyields : Yields parser fun value => places value = []) : Reads parser := by
  intro place before state value later hpassed hdone
  obtain ⟨hlater, hnone⟩ := h.takes hpassed hdone
  have hplaces : places value = [] := hyields hdone
  simpa [hplaces] using And.intro hlater hnone

theorem reads_leaf (kind : Kind) : Reads (leaf kind) :=
  reads_of_yields (quiet_leaf kind) (yields_leaf kind)

theorem reads_absent : Reads (pure Node.absent) := fun _ _ => .done (by simp)

theorem reads_unexpected [Placed α] : Reads (unexpected : Parser α) := fun _ _ => takes_unexpected

/-- Goes on after the current token was read anew. -/
theorem Takes.retoken {kind : ReaderState → TokenKind} {cursor : ReaderState → Cursor}
    {faults : ReaderState → List Nat} {next : ReaderState → Unit → Parser β} {after : β → List Nat}
    (h : ∀ state : ReaderState, state.Sound → state.token.start ≤ (cursor state).offset ∧
      ∀ sign, kind state = .sign sign → state.token.start < (cursor state).offset)
    (hnext : ∀ state value, Takes place before (next state value) after) :
    Takes place before
      (get >>= fun state => Parser.retoken (kind state) (cursor state) (faults state) >>=
        next state) after := by
  intro state value later hpassed hdone
  obtain ⟨seen, same, hget, hrest⟩ := bind_eq_done.mp hdone
  obtain ⟨rfl, rfl⟩ := Reading.done.inj hget
  obtain ⟨_, changed, hchanged, hlast⟩ := bind_eq_done.mp hrest
  obtain ⟨hle, hlt⟩ := h state hpassed.sound
  obtain ⟨hsound, hstart, hfaults⟩ := sound_retoken hle hlt hchanged
  have hpassed' : changed.Passed place before :=
    ⟨hsound, fun hnone => hstart ▸ hpassed.ascends (hfaults.symm.trans hnone)⟩
  obtain ⟨hlater, hnone⟩ := hnext state _ hpassed' hlast
  exact ⟨hlater, fun hfaults' => hfaults.symm.trans (hnone hfaults')⟩

/-! ### Other readers -/

theorem Takes.within {change : Context → Context} {parser : Parser α} {after : α → List Nat}
    (h : Takes place before parser after) : Takes place before (within change parser) after := by
  intro state value later hpassed hdone
  unfold Parser.within at hdone
  split at hdone
  · next given inner hinner =>
    obtain ⟨rfl, rfl⟩ := Reading.done.inj hdone
    have hchanged : ReaderState.Passed { state with context := change state.context } place
        before := ⟨⟨hpassed.sound.le, hpassed.sound.lt⟩, hpassed.ascends⟩
    obtain ⟨hlater, hnone⟩ := h hchanged hinner
    exact ⟨⟨⟨hlater.sound.le, hlater.sound.lt⟩, hlater.ascends⟩, hnone⟩
  · cases hdone

theorem Reads.within [Placed α] {change : Context → Context} {parser : Parser α}
    (h : Reads parser) : Reads (within change parser) :=
  fun _ _ => Takes.within h.takes

theorem Takes.attempt {parser : Parser α} {after : α → List Nat}
    (h : Takes place before parser after) :
    Takes place before (attempt parser) fun value => (value.map after).getD before := by
  intro state value later hpassed hdone
  unfold Parser.attempt at hdone
  split at hdone <;> next hinner =>
    obtain ⟨rfl, rfl⟩ := Reading.done.inj hdone
    first
    | exact h hpassed hinner
    | exact ⟨⟨⟨hpassed.sound.le, hpassed.sound.lt⟩, hpassed.ascends⟩, id⟩

theorem Reads.attempt [Placed α] {parser : Parser α} (h : Reads parser) :
    Reads (attempt parser) :=
  fun _ before => (Takes.attempt h.takes).weaken (.refl _) fun value => by cases value <;> simp

/-! ### Lists -/

theorem takes_repeatFrom (place : Nat) (before : List Nat) {parser : Parser (Option Node)}
    (h : Reads parser) (fuel : Nat) (seen : List Node) :
    Takes place (before ++ Node.startsAll seen.reverse)
      (repeatFrom parser fuel seen) fun nodes => before ++ places nodes := by
  induction fuel generalizing seen with
  | zero => exact .done (.refl _)
  | succ fuel ih =>
      refine .read h fun found => ?_
      cases found with
      | none => exact .done (by simp)
      | some node => simpa using ih (node :: seen)

theorem reads_many {parser : Parser (Option Node)} (h : Reads parser) (fuel : Nat) :
    Reads (many fuel parser) :=
  fun place before => by
    simpa [many] using takes_repeatFrom place before h fuel []

theorem quiet_many {parser : Parser (Option α)} (h : Quiet parser) (fuel : Nat) :
    Quiet (many fuel parser) := by
  unfold many
  generalize ([] : List α) = seen
  induction fuel generalizing seen with
  | zero => exact .done _
  | succ fuel ih =>
      refine .bind h fun found => ?_
      cases found with
      | none => exact .done _
      | some value => exact ih _

theorem reads_manyUntil {item : Parser Node} (h : Reads item) (fuel : Nat) (close : Sign) :
    Reads (manyUntil fuel close item) :=
  reads_many (fun _ _ => .step quiet_token fun _ =>
    .ite (.done (by simp)) h.some.takes) fuel

theorem takes_listFrom (place : Nat) (before : List Nat) {item : Parser Node} (h : Reads item)
    (close : Sign) (fuel : Nat) (seen : List Node) :
    Takes place (before ++ Node.startsAll seen.reverse)
      (listFrom close item fuel seen) fun found => before ++ places found := by
  induction fuel generalizing seen with
  | zero => exact .done (by simp)
  | succ fuel ih =>
      refine .step quiet_token fun current => .ite (.done (by simp)) (.ite ?_ (takes_failAt _))
      refine .step quiet_advance fun _ => .step (quiet_atSign _) fun _ => .ite (.done (by simp)) ?_
      exact .read h fun node => by simpa using ih (node :: seen)

theorem reads_commaList {item : Parser Node} (h : Reads item) (fuel : Nat) (close : Sign) :
    Reads (commaList fuel close item) :=
  fun place before => .step quiet_token fun _ => .ite (.done (by simp)) <|
    .read h fun node => by simpa using takes_listFrom place before h close fuel [node]

theorem quiet_forM {items : List β} {check : β → Parser PUnit} (h : ∀ item, Quiet (check item)) :
    Quiet (items.forM check) := by
  induction items with
  | nil => exact .done _
  | cons item rest ih => exact .bind (h item) fun _ => ih

end Bundler.Script.Parser
