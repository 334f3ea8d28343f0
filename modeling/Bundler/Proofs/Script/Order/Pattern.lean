import Bundler.Proofs.Script.Order.State
import Bundler.Script.Reader.Pattern

/-! Names, keys, words that qualify, and patterns are read in the order of the text. -/

namespace Bundler.Script

/-- The readers of all parts add the places in what they read. -/
def Parts.Ordered (parts : Parts) : Prop := ∀ part, (parts part).Reads

namespace Parser

variable {parts : Parts} {place : Nat} {before : List Nat}

/-! ### Names and keys -/

theorem quiet_next (test : Token → Bool) : Quiet (next test) := quiet_foresee _

theorem quiet_checkName (current : Token) (outer : Context) : Quiet (checkName current outer) :=
  .when (quiet_fault _) fun _ => .when (quiet_fault _) fun _ => .done _

theorem reads_identifier : Reads identifier := fun _ _ =>
  .step quiet_token fun _ => .ite
    (.step quiet_context fun _ => .step (quiet_checkName _ _) fun _ => (reads_leaf _).takes)
    takes_unexpected

theorem yields_bindingName : Yields bindingName fun node => node.starts = [] :=
  .skip fun current => by
    split
    · exact .skip fun _ => .skip fun _ => .skip fun _ => yields_leaf _
    · exact fun _ _ _ hdone => by cases hdone

theorem quiet_bindingName : Quiet bindingName :=
  .bind quiet_token fun _ => .ite
    (.bind quiet_context fun _ => .bind quiet_dialect fun _ => .bind (quiet_checkName _ _) fun _ =>
      quiet_leaf _)
    (quiet_failAt _)

theorem reads_bindingName : Reads bindingName :=
  reads_of_yields quiet_bindingName yields_bindingName

theorem quiet_anyName : Quiet anyName :=
  .bind quiet_token fun _ => .ite (quiet_leaf _) quiet_unexpected

theorem yields_anyName : Yields anyName fun node => node.starts = [] :=
  .skip fun current => by
    split
    · exact yields_leaf _
    · exact yields_unexpected

theorem reads_anyName : Reads anyName := reads_of_yields quiet_anyName yields_anyName

theorem reads_privateName : Reads privateName := fun _ _ =>
  .step quiet_token fun current => by
    split
    · exact (reads_leaf _).takes
    · exact takes_unexpected

theorem reads_stringLiteral : Reads stringLiteral := fun _ _ =>
  .step quiet_token fun current => by
    split
    · exact (reads_leaf _).takes
    · exact takes_unexpected

theorem quiet_moduleName : Quiet moduleName :=
  .bind quiet_token fun current => by
    split
    · exact .ite (.bind quiet_here fun _ => .bind (quiet_fault _) fun _ => quiet_leaf _)
        (quiet_leaf _)
    · exact quiet_anyName

theorem yields_moduleName : Yields moduleName fun node => node.starts = [] :=
  .skip fun current => by
    split
    · split
      · exact .skip fun _ => .skip fun _ => yields_leaf _
      · exact yields_leaf _
    · exact yields_anyName

theorem reads_moduleName : Reads moduleName := reads_of_yields quiet_moduleName yields_moduleName

theorem reads_computedKey (h : parts.Ordered) : Reads (computedKey parts) := fun _ _ =>
  .step (quiet_expect _) fun _ => .read (h _).within fun _ => .step (quiet_expect _) fun _ =>
    .done (.refl _)

theorem reads_propertyKey (h : parts.Ordered) (allowsPrivate : Bool) :
    Reads (propertyKey parts allowsPrivate) := fun _ _ =>
  .step quiet_token fun current => by
    split
    · exact .read (reads_leaf _) fun _ => .done (by simp)
    · exact .read (reads_leaf _) fun _ => .done (by simp)
    · exact .read (reads_leaf _) fun _ => .done (by simp)
    · exact .read (reads_computedKey h) fun _ => .done (by simp)
    · exact .ite (.read (reads_leaf _) fun _ => .done (by simp)) takes_unexpected
    · exact .read reads_anyName fun _ => .done (by simp)

/-- A key that begins with an identifier is a name. -/
theorem starts_of_propertyKey {allowsPrivate : Bool} {state later : ReaderState} {key : Node}
    {computed : Bool} (hname : state.token.isIdentifier = true)
    (hdone : propertyKey parts allowsPrivate state = .done (key, computed) later) :
    key.starts = [] := by
  obtain ⟨current, same, htoken, hrest⟩ := bind_eq_done.mp hdone
  obtain ⟨rfl, rfl⟩ := Reading.done.inj htoken
  have hkind : ∃ text word, state.token.kind = .name text word := by
    unfold Token.isIdentifier at hname
    split at hname
    · next text hkind => exact ⟨text, none, hkind⟩
    · next text word hkind => exact ⟨text, some word, hkind⟩
    · cases hname
  obtain ⟨text, word, hkind⟩ := hkind
  rw [hkind] at hrest
  obtain ⟨found, middle, hfound, hlast⟩ := bind_eq_done.mp hrest
  obtain ⟨hpair, -⟩ := pure_eq_done.mp hlast
  obtain ⟨rfl, -⟩ := Prod.mk.inj hpair
  exact yields_anyName hfound

/-- Like `Takes`, where a token is in sight. -/
def TakesAt (current : Token) (place : Nat) (before : List Nat) {α : Type} (parser : Parser α)
    (after : α → List Nat) : Prop :=
  ∀ ⦃state value later⦄, state.token = current → state.Passed place before →
    parser state = .done value later →
      later.Passed place (after value) ∧ (later.faults = [] → state.faults = [])

section Sight

variable {α : Type} {current : Token} {after : α → List Nat}

theorem Takes.anywhere {parser : Parser α} (h : Takes place before parser after) :
    TakesAt current place before parser after :=
  fun _ _ _ _ hpassed hdone => h hpassed hdone

theorem Takes.sight {next : Token → Parser α}
    (h : ∀ current, TakesAt current place before (next current) after) :
    Takes place before (token >>= next) after := by
  intro state value later hpassed hdone
  obtain ⟨current, same, htoken, hrest⟩ := bind_eq_done.mp hdone
  obtain ⟨rfl, rfl⟩ := Reading.done.inj htoken
  exact h _ rfl hpassed hrest

theorem TakesAt.ite {c : Prop} [Decidable c] {parser other : Parser α}
    (h : TakesAt current place before parser after)
    (h' : TakesAt current place before other after) :
    TakesAt current place before (if c then parser else other) after := by
  split
  · exact h
  · exact h'

/-- Goes on after a key. One that begins with an identifier has no places. -/
theorem TakesAt.key (h : parts.Ordered) {allowsPrivate : Bool} {next : Node × Bool → Parser α}
    (hnext : ∀ key computed, (current.isIdentifier = true → key.starts = []) →
      Takes place (before ++ key.starts) (next (key, computed)) after) :
    TakesAt current place before (propertyKey parts allowsPrivate >>= next) after := by
  rintro state value later rfl hpassed hdone
  obtain ⟨⟨key, computed⟩, middle, hkey, hlast⟩ := bind_eq_done.mp hdone
  obtain ⟨hmiddle, hnone⟩ := (reads_propertyKey h allowsPrivate).takes hpassed hkey
  have hmiddle : middle.Passed place (before ++ key.starts) := by simpa using hmiddle
  obtain ⟨hlater, hnone'⟩ :=
    hnext key computed (fun hname => starts_of_propertyKey hname hkey) hmiddle hlast
  exact ⟨hlater, hnone ∘ hnone'⟩

end Sight

theorem reads_typeMark (h : parts.Ordered) : Reads <| typeAnnotation parts := fun _ _ =>
  .step quiet_dialect fun _ => .step (quiet_atSign _) fun _ =>
    .ite (.step quiet_advance fun _ => (h _).within.takes) (.done (by simp))

theorem reads_initializer (h : parts.Ordered) : Reads (initializer parts) := fun _ _ =>
  .step (quiet_eat _) fun _ => .ite (h _).takes (.done (by simp))

theorem reads_condition (h : parts.Ordered) : Reads (condition parts) := fun _ _ =>
  .step (quiet_expect _) fun _ => .read (h _).within fun _ => .step (quiet_expect _) fun _ =>
    .done (.refl _)

/-! ### Words that qualify -/

theorem quiet_qualifiers (permitsConst opensBlocks : Bool) (fuel : Nat) (seen : List Qualifier) :
    Quiet (qualifiers permitsConst opensBlocks fuel seen) := by
  induction fuel generalizing seen with
  | zero => exact .done _
  | succ fuel ih =>
      refine .bind quiet_token fun current => ?_
      split
      · exact .done _
      · exact .bind (quiet_next _) fun _ => .ite (.done _) <|
          .when (quiet_fault _) fun _ => .bind quiet_advance fun _ => ih _

theorem quiet_checkQualifiers (allowed : List Word) (found : List Qualifier) :
    Quiet (checkQualifiers allowed found) :=
  quiet_forM fun _ => .ite (.done _) (quiet_fault _)

/-! ### Patterns -/

theorem reads_defaultedPattern (h : parts.Ordered) : Reads (defaultedPattern parts) := fun _ _ =>
  .step quiet_here fun _ => .read (h _) fun _ => .step (quiet_eat _) fun _ => .ite
    (.read (h _).within fun _ => .finish rfl (by simp))
    (.done (.refl _))

theorem quiet_refuseDefault (h : parts.Ordered) (stop : Nat) : Quiet (refuseDefault parts stop) :=
  .bind (reads_initializer h).within.quiet fun _ => .ite (quiet_fault _) (.done _)

theorem reads_restPattern (h : parts.Ordered) (close : Sign) : Reads (restPattern parts close) :=
  fun _ before =>
  .step quiet_here fun _ => .step quiet_advance fun _ => .read (h _) fun _ =>
    .step (quiet_refuseDefault h _) fun _ => .node before rfl (by simp) fun _ =>
    .step (quiet_atSign _) fun _ => .ite
      (.step quiet_here fun _ => .step (quiet_next _) fun _ =>
        .pick (quiet_fault _) (quiet_fault _) fun _ => .done (.refl _))
      (.done (.refl _))

theorem reads_patternElement (h : parts.Ordered) : Reads (patternElement parts) := fun _ _ =>
  .step quiet_token fun _ => .ite (.done (by simp)) <|
    .ite (reads_restPattern h _).takes (reads_defaultedPattern h).takes

theorem reads_bindingProperty (h : parts.Ordered) : Reads (bindingProperty parts) :=
  fun _ before => .sight fun current => .ite
    (Takes.anywhere <| .read (reads_restPattern h _) fun rest => by
      split
      · exact .done (.refl _)
      · exact .step (quiet_fault _) fun _ => .done (.refl _)
      · exact .done (.refl _))
    (.key h fun key computed hkey => .step (quiet_atSign _) fun colon => by
      split
      · next hname =>
        have hnone : key.starts = [] := hkey (by grind)
        exact .step quiet_context fun _ => .step (quiet_checkName _ _) fun _ =>
          .step (quiet_eat _) fun _ => .ite
            (.read (h _).within fun _ => .node before rfl (by simp) fun _ =>
              .finish rfl (by simp [hnone]))
            (.finish rfl (by simp [hnone]))
      · exact .step (quiet_expect _) fun _ => .read (reads_defaultedPattern h) fun _ =>
          .finish rfl (by simp))

theorem reads_pattern (h : parts.Ordered) (fuel : Nat) : Reads (pattern parts fuel) := fun _ _ =>
  .step quiet_here fun _ => .step (quiet_eat _) fun _ => .ite
    (.both (reads_commaList (reads_patternElement h) _ _) fun _ _ =>
      .step (quiet_expect _) fun _ => .finish rfl (by simp)) <|
    .step (quiet_eat _) fun _ => .ite
      (.both (reads_commaList (reads_bindingProperty h) _ _) fun _ _ =>
        .step (quiet_expect _) fun _ => .finish rfl (by simp))
      reads_bindingName.takes

/-- A type may follow a pattern that was read. -/
theorem takes_typedPattern (h : parts.Ordered) (isDefinite : Bool) (pattern : Node) :
    Takes place (before ++ pattern.starts) (typedPattern parts isDefinite pattern)
      fun node => before ++ places node :=
  .read (reads_typeMark h) fun _ => .ite (.done (by simp)) (.finish rfl (by simp))

theorem reads_decorator (h : parts.Ordered) : Reads (decorator parts) := fun _ _ =>
  .step quiet_here fun _ => .step quiet_advance fun _ => .read (h _).within fun _ =>
    .finish rfl (by simp)

theorem reads_decorators (h : parts.Ordered) (fuel : Nat) : Reads (decorators parts fuel) :=
  fun _ _ => .read (reads_many (fun _ _ => .step (quiet_atSign _) fun _ =>
    .ite (reads_decorator h).some.takes (.done (by simp))) fuel) fun _ => .done (by simp)

theorem quiet_checkQualified (start : Nat) (found : List Qualifier) (pattern : Node) :
    Quiet (checkQualified start found pattern) := by
  unfold checkQualified
  split
  · exact .done _
  · exact .done _
  · exact quiet_fault _

theorem reads_restParameter (h : parts.Ordered) (start : Nat) (marks : Node)
    (found : List Qualifier) :
    Takes place (before ++ marks.starts) (restParameter parts start marks found)
      fun node => before ++ places node :=
  .step quiet_here fun _ => .step quiet_advance fun _ => .when (quiet_fault _) fun _ =>
    .read (h _) fun _ => .node (before ++ marks.starts) rfl (by simp) fun _ =>
    .read (reads_typeMark h) fun _ => .step (quiet_refuseDefault h _) fun _ =>
    .node before rfl (by simp) fun _ => .step (quiet_atSign _) fun _ => .ite
      (.step quiet_here fun _ => .step (quiet_next _) fun _ =>
        .pick (quiet_fault _) (quiet_fault _) fun _ => .done (.refl _))
      (.done (.refl _))

theorem reads_parameter (h : parts.Ordered) (fuel : Nat) (owner : ParameterOwner) :
    Reads (parameter parts fuel owner) := fun _ before =>
  .step quiet_here fun _ => .step quiet_dialect fun _ =>
    .read (reads_decorators h fuel) fun marks =>
    .when (quiet_forM fun _ => quiet_fault _) fun _ => .step (quiet_qualifiers _ _ _ _) fun _ =>
    .step (quiet_checkQualifiers _ _) fun _ => .step (quiet_atSign _) fun _ => .ite
      (reads_restParameter h _ marks _) <|
      .read (h _) fun _ => .pick (quiet_eat _) (.done _) fun _ =>
        .read (reads_typeMark h) fun _ => .read (reads_initializer h).within fun _ =>
        .when (quiet_fault _) fun _ => .step (quiet_checkQualified _ _ _) fun _ =>
        .finish rfl (by simp)

theorem reads_firstParameter (h : parts.Ordered) (fuel : Nat) (owner : ParameterOwner) :
    Reads (firstParameter parts fuel owner) := fun _ _ =>
  .step quiet_token fun _ => .step quiet_dialect fun _ => .ite
    (.when (quiet_fault _) fun _ => .read (reads_leaf _) fun _ =>
      .read (reads_typeMark h) fun _ => .finish rfl (by simp))
    (reads_parameter h fuel owner).takes

theorem reads_parameters (h : parts.Ordered) (fuel : Nat) (owner : ParameterOwner) :
    Reads (parameters parts fuel owner) := fun _ _ =>
  .step quiet_here fun _ => .step (quiet_expect _) fun _ => .step quiet_here fun open_ =>
    .both (reads_commaList (fun _ _ => .step quiet_here fun _ =>
      .ite (reads_firstParameter h fuel owner).takes (reads_parameter h fuel owner).takes) _ _)
      fun _ _ => .step (quiet_expect _) fun _ => .finish rfl (by simp)

end Parser

end Bundler.Script
