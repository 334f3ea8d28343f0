import Bundler.Proofs.Script.Order.Type
import Bundler.Script.Reader.Markup

/-! Markup is read in the order of the text. -/

namespace Bundler.Script.Parser

variable {parts : Parts} {place : Nat} {before : List Nat}

/-! ### Tokens of markup -/

theorem quiet_skipToChild : Quiet skipToChild := by
  intro state value later hsound hdone
  obtain ⟨-, rfl⟩ := Reading.done.inj hdone
  refine sound_take hsound rfl ?_ ?_
  · split
    · exact Nat.le_refl _
    · exact Nat.le_refl _
    · split <;> exact Nat.le_refl _
  · split
    · exact ⟨Cursor.le_past _ _ _, fun _ _ => Nat.lt_succ_self _⟩
    · exact ⟨Cursor.le_past _ _ _, fun _ _ => Nat.lt_succ_self _⟩
    · split
      · exact ⟨offset_le_scanMarkupText _ _ _ _, fun _ hsign => by cases hsign⟩
      · exact ⟨offset_le_scanMarkupText _ _ _ _, fun _ hsign => by cases hsign⟩

theorem quiet_skipToValue : Quiet skipToValue := by
  intro state value later hsound hdone
  obtain ⟨-, rfl⟩ := Reading.done.inj hdone
  dsimp only
  split
  · split
    · split
      · exact sound_take hsound rfl (offset_le_scanGap _ _)
          ⟨Cursor.le_past _ _ _, fun _ hsign => by cases hsign⟩
      · exact sound_take hsound rfl (start_le_scanLexeme _ _) (sound_scanLexeme _ _)
    · exact sound_take hsound rfl (start_le_scanLexeme _ _) (sound_scanLexeme _ _)
  · exact sound_take hsound rfl (start_le_scanLexeme _ _) (sound_scanLexeme _ _)

theorem quiet_extendName : Quiet extendName := by
  intro state value later hsound hdone
  obtain ⟨seen, same, hget, hrest⟩ := bind_eq_done.mp hdone
  obtain ⟨rfl, rfl⟩ := Reading.done.inj hget
  cases hkind : state.token.kind with
  | name text word =>
      rw [hkind] at hrest
      dsimp only at hrest
      split at hrest
      · obtain ⟨hlater, hstart, hfaults⟩ := sound_retoken
          (Nat.le_trans hsound.le (Cursor.le_past _ _ _)) (fun _ hsign => by cases hsign) hrest
        exact ⟨hlater, fun hnone => ⟨hfaults.symm.trans hnone, Nat.le_of_eq hstart.symm⟩⟩
      · exact Quiet.done () hsound hrest
  | _ =>
      rw [hkind] at hrest
      exact Quiet.done () hsound hrest

/-! ### Names -/

theorem quiet_markupName : Quiet markupName :=
  .bind quiet_extendName fun _ => .bind quiet_token fun _ => .ite (quiet_leaf _) quiet_unexpected

theorem yields_markupName : Yields markupName fun node => node.starts = [] :=
  .skip fun _ => .skip fun current => by
    split
    · exact yields_leaf _
    · exact yields_unexpected

theorem reads_markupName : Reads markupName := reads_of_yields quiet_markupName yields_markupName

theorem takes_elementName_go (fuel : Nat) (left : Node) :
    Takes place (before ++ left.starts) (elementName.go fuel left)
      fun node => before ++ places node := by
  induction fuel generalizing left with
  | zero => exact .done (.refl _)
  | succ fuel ih =>
      exact .step (quiet_eat _) fun _ => .ite
        (.read reads_markupName fun _ => .node before rfl (by simp) fun node => ih node)
        (.done (.refl _))

theorem reads_elementName (fuel : Nat) : Reads (elementName fuel) := fun _ _ =>
  .read reads_markupName fun first => .step (quiet_eat _) fun _ => .ite
    (.read reads_markupName fun _ => .finish rfl (by simp))
    (takes_elementName_go fuel first)

/-! ### Attributes and children -/

/-- Ends a node at a sign, which `close` goes past. -/
theorem takes_closing {sign : Sign} {close : Parser Unit} (hclose : Quiet close) {kind : Kind}
    {start : Nat} {children : List Node} (hkind : Node.ownPlaces kind start children = []) :
    Takes place (before ++ Node.startsAll children) (do
        let last ← token
        if last.isSign sign then
          close
          return Node.mk kind start last.stop children
        else failAt last.start)
      fun node => before ++ places node :=
  .step quiet_token fun _ => .ite
    (.step hclose fun _ => .done (by simp [Node.starts_mk, hkind]))
    (takes_failAt _)

theorem reads_markupExpression (h : parts.Ordered) {close : Parser Unit} (hclose : Quiet close) :
    Reads (markupExpression parts close) := fun _ _ =>
  .step quiet_here fun _ => .step quiet_advance fun _ => .step (quiet_atSign _) fun _ => .ite
    (.step quiet_advance fun _ => .read (h _) fun _ =>
      (takes_closing hclose rfl).weaken (by simp) fun _ => .refl _) <|
    .step (quiet_atSign _) fun _ => .ite
      ((takes_closing hclose rfl).weaken (by simp) fun _ => .refl _)
      (.read (h _).within fun _ =>
        (takes_closing hclose rfl).weaken (by simp) fun _ => .refl _)

theorem reads_attributeValue (h : parts.Ordered) : Reads (attributeValue parts) := fun _ _ =>
  .step quiet_token fun current => by
    split
    · exact (reads_leaf _).takes
    · exact .step (quiet_next _) fun _ => .ite takes_unexpected
        (reads_markupExpression h quiet_advance).takes
    · exact (h _).takes
    · exact takes_unexpected

theorem reads_markupAttribute (h : parts.Ordered) : Reads (markupAttribute parts) :=
  fun place before => .step quiet_here fun start => .step (quiet_eat _) fun _ => .ite
    (.step (quiet_expect _) fun _ => .read (h _).within fun _ => .step (quiet_expect _) fun _ =>
      .finish rfl (by simp)) <|
    .read reads_markupName fun first => .step (quiet_eat _) fun _ => by
      extract_lets jp
      have hjp (name : Node) : Takes place (before ++ places name) (jp name)
          fun node => before ++ places node :=
        .step (quiet_atSign _) fun _ => .ite
          (.step quiet_skipToValue fun _ => .read (reads_attributeValue h) fun _ =>
            .finish rfl (by simp))
          (.finish rfl (by simp))
      exact .ite
        (.read reads_markupName fun _ => .node before rfl (by simp) hjp)
        (.bind (.done (.refl _)) hjp)

theorem reads_markupChildren (h : parts.Ordered) (fuel : Nat) :
    Reads (markupChildren parts fuel) :=
  reads_many (fun _ _ => .step quiet_token fun current => by
    split
    · exact .step quiet_skipToChild fun _ => .done (by simp [Node.starts_mk, ownPlaces_nil])
    · exact (reads_markupExpression h quiet_skipToChild).some.takes
    · exact .step (quiet_next _) fun _ => .ite (.done (by simp))
        (.read (h _) fun _ => .done (.refl _))
    · exact takes_unexpected) fuel

theorem reads_markupFrom (h : parts.Ordered) (fuel : Nat) {close : Parser Unit}
    (hclose : Quiet close) : Reads (markupFrom parts fuel close) := fun place before =>
  .step quiet_here fun start => .step (quiet_expect _) fun _ => .step (quiet_atSign _) fun _ => .ite
    (.step quiet_skipToChild fun _ => .read (reads_markupChildren h fuel) fun _ =>
      .step (quiet_expect _) fun _ => .step (quiet_expect _) fun _ => takes_closing hclose rfl) <|
    .read (reads_elementName fuel) fun name =>
    .step (reads_typeArgumentsHere h fuel).quiet fun _ =>
    .read (reads_many (fun _ _ => .step quiet_token fun _ => .ite (.done (by simp))
      (reads_markupAttribute h).some.takes) fuel) fun attributes =>
    .step (quiet_eat _) fun _ => .ite
      ((takes_closing hclose rfl).weaken (by simp) fun _ => .refl _) <|
      .step (quiet_atSign _) fun _ => by
        extract_lets jp
        have hjp (value : Unit) : Takes place (before ++ places name ++ places attributes)
            (jp value) fun node => before ++ places node := by
          refine .step quiet_skipToChild fun _ =>
            .read (reads_markupChildren h fuel) fun children => .step quiet_here fun _ =>
            .step (quiet_expect _) fun _ => .step (quiet_expect _) fun _ =>
            .step (quiet_atSign _) fun _ => ?_
          extract_lets close'
          have hclose' (value : Unit) :
              Takes place (before ++ places name ++ places attributes ++ places children)
                (close' value) fun node => before ++ places node :=
            (takes_closing hclose rfl).weaken (by simp) fun _ => .refl _
          exact .ite (.step (quiet_fault _) hclose') <|
            .step (reads_elementName fuel).quiet fun _ => .when (quiet_fault _) hclose'
        exact .ite (.step quiet_here fun _ => .fail _) (hjp ())

end Bundler.Script.Parser
