import Bundler.Proofs.Script.Order.Function
import Bundler.Script.Reader.Literal

/-! Targets of assignments have no more places than the expressions that they were, and literals are
read in the order of the text. -/

namespace Bundler.Script.Parser

variable {α β : Type} {parts : Parts} {place : Nat} {before : List Nat}

/-! ### Targets -/

/-- A quiet reader that gives no more places than some. -/
structure Narrows [Placed α] (parser : Parser α) (starts : List Nat) : Prop where
  quiet : Quiet parser
  yields : Yields parser fun value => (places value).Sublist starts

section Narrows

variable [Placed α] {parser : Parser α} {starts more : List Nat}

theorem Narrows.step {next : β → Parser α} {first : Parser β} (h : Quiet first)
    (hnext : ∀ value, Narrows (next value) starts) : Narrows (first >>= next) starts :=
  ⟨h.bind fun value => (hnext value).quiet, .skip fun value => (hnext value).yields⟩

theorem Narrows.bind [Placed β] {next : α → Parser β} (h : Narrows parser starts)
    (hnext : ∀ value, (places value).Sublist starts → Narrows (next value) more) :
    Narrows (parser >>= next) more := by
  constructor
  · intro state value later hsound hdone
    obtain ⟨first, middle, hfirst, hlast⟩ := bind_eq_done.mp hdone
    obtain ⟨hmiddle, hgo⟩ := h.quiet hsound hfirst
    obtain ⟨hlater, hgo'⟩ := (hnext first (h.yields hfirst)).quiet hmiddle hlast
    refine ⟨hlater, fun hnone => ?_⟩
    obtain ⟨hnone, hle⟩ := hgo' hnone
    exact ⟨(hgo hnone).1, Nat.le_trans (hgo hnone).2 hle⟩
  · exact h.yields.bind fun value hvalue => (hnext value hvalue).yields

theorem Narrows.done {value : α} (h : (places value).Sublist starts) :
    Narrows (pure value) starts :=
  ⟨.done value, .done h⟩

theorem Narrows.fail (stop : Nat) : Narrows (failAt stop : Parser α) starts :=
  ⟨quiet_failAt stop, yields_failAt stop⟩

theorem Narrows.ite {c : Prop} [Decidable c] {other : Parser α} (h : Narrows parser starts)
    (h' : Narrows other starts) : Narrows (if c then parser else other) starts := by
  split
  · exact h
  · exact h'

theorem Narrows.when {c : Prop} [Decidable c] {first : Parser Unit} {next : Unit → Parser α}
    (h : Quiet first) (hnext : ∀ value, Narrows (next value) starts) :
    Narrows (if c then first >>= next else next ()) starts :=
  .ite (.step h hnext) (hnext ())

theorem Narrows.weaken (h : Narrows parser starts) (hmore : starts.Sublist more) :
    Narrows parser more :=
  ⟨h.quiet, fun _ _ _ hdone => (h.yields hdone).trans hmore⟩

theorem Narrows.takes (h : Narrows parser starts) :
    Takes place (before ++ starts) parser fun value => before ++ places value := by
  intro state value later hpassed hdone
  obtain ⟨hlater, hnone⟩ := h.quiet.takes hpassed hdone
  have hless := (h.yields hdone).append_left before
  exact ⟨⟨hlater.sound, fun hfaults => (hlater.ascends hfaults).sublist hless⟩, hnone⟩

end Narrows

theorem narrows_placeTarget (node : Node) : Narrows (placeTarget node) node.starts := by
  fun_induction placeTarget node with
  | case1 => exact .fail _
  | case2 start stop _ inner _ ih => exact ih.weaken (by simp [Node.starts_node, Node.ownPlaces])
  | case3 => exact .done (.refl _)
  | case4 => exact .fail _

theorem narrows_arrayTarget {comma : Option Nat} {start stop : Nat} {value : Unit}
    {nodes : List Node} (h : Narrows (targetElements comma nodes) (Node.startsAll nodes)) :
    Narrows (targetElements comma nodes >>= fun found =>
        pure (Node.mk .arrayTarget start stop found))
      (Node.starts (.node (.array comma) start stop value nodes)) :=
  h.bind fun _ hfound => .done (by
    simpa [Node.starts_node, Node.starts_mk, Node.ownPlaces] using hfound)

theorem narrows_objectTarget {comma : Option Nat} {start stop : Nat} {value : Unit}
    {nodes : List Node} (h : Narrows (targetProperties comma nodes) (Node.startsAll nodes)) :
    Narrows (targetProperties comma nodes >>= fun found =>
        pure (Node.mk .objectTarget start stop found))
      (Node.starts (.node (.object comma) start stop value nodes)) :=
  h.bind fun _ hfound => .done (by
    simpa [Node.starts_node, Node.starts_mk, Node.ownPlaces] using hfound)

/-- What takes the rest of a list or an object. No comma comes behind it. -/
theorem narrows_restTarget {comma : Option Nat} {start stop : Nat} {value : Unit}
    {inner : Node} {rest : List Node} (h : Narrows (target inner) inner.starts) :
    Narrows (target inner >>= fun inner => do
        if let some place := comma then fault place
        return [Node.mk .restTarget start stop [inner]])
      (Node.startsAll (.node .spread start stop value [inner] :: rest)) :=
  h.bind fun found hfound => by
    have hdone : (places [Node.mk .restTarget start stop [found]]).Sublist
        (Node.startsAll (.node .spread start stop value [inner] :: rest)) := by
      simpa [Node.starts_node, Node.starts_mk, Node.ownPlaces] using
        hfound.trans (List.sublist_append_left inner.starts (Node.startsAll rest))
    split
    · exact .step (quiet_fault _) fun _ => .done hdone
    · exact .done hdone

mutual

theorem narrows_target : ∀ node : Node, Narrows (target node) node.starts
  | .node kind start stop () children => by
      unfold target
      split
      · next heq =>
        cases heq
        exact narrows_arrayTarget (narrows_targetElements _ _)
      · next heq =>
        cases heq
        exact narrows_objectTarget (narrows_targetProperties _ _)
      · next heq =>
        cases heq
        exact narrows_placeTarget _

theorem narrows_defaultedTarget : ∀ node : Node, Narrows (defaultedTarget node) node.starts
  | .node kind start stop () children => by
      unfold defaultedTarget
      split
      · next heq =>
        cases heq
        exact .when (quiet_fault _) fun _ =>
          .done (by simp [Node.starts_node, Node.starts_mk, Node.ownPlaces])
      · next heq =>
        cases heq
        exact narrows_arrayTarget (narrows_targetElements _ _)
      · next heq =>
        cases heq
        exact narrows_objectTarget (narrows_targetProperties _ _)
      · next heq =>
        cases heq
        exact narrows_placeTarget _

theorem narrows_targetElements (comma : Option Nat) :
    ∀ nodes : List Node, Narrows (targetElements comma nodes) (Node.startsAll nodes)
  | [] => .done (.refl _)
  | node :: rest => by
      have hrest := narrows_targetElements comma rest
      unfold targetElements
      split
      · next heq => cases heq
      · next heq =>
        cases heq
        exact hrest.bind fun found hfound => .done (by simpa using hfound)
      · next inner _ heq =>
        cases heq
        exact .ite (narrows_restTarget (narrows_target inner)) (.fail _)
      · next heq =>
        cases heq
        exact (narrows_defaultedTarget node).bind fun found hfound => hrest.bind fun more hmore =>
          .done (by simpa using hfound.append hmore)

theorem narrows_targetProperties (comma : Option Nat) :
    ∀ nodes : List Node, Narrows (targetProperties comma nodes) (Node.startsAll nodes)
  | [] => .done (.refl _)
  | node :: rest => by
      have hrest := narrows_targetProperties comma rest
      have hjoin (property : Node) (h : property.starts.Sublist node.starts) :
          Narrows (targetProperties comma rest >>= fun more => pure (property :: more))
            (Node.startsAll (node :: rest)) :=
        hrest.bind fun more hmore => .done (by simpa using h.append hmore)
      unfold targetProperties
      split
      · next heq => cases heq
      · next computed shorthand start stop _ key value _ heq =>
        cases heq
        have hproperty (more : Node) (h : more.starts.Sublist (Node.starts value)) :
            (Node.starts key ++ more.starts).Sublist
              (Node.starts (.node (.property computed shorthand) start stop () [key, value])) := by
          simpa [Node.starts_node, Node.ownPlaces] using h
        refine .ite (.bind (.done (.refl _)) fun property h => hjoin property (h.trans ?_)) <|
          (narrows_defaultedTarget value).bind fun found hfound =>
            .bind (.done (.refl _)) fun property h => hjoin property (h.trans ?_)
        · simpa [Node.starts_mk, Node.ownPlaces] using hproperty Node.absent (by simp)
        · simpa [Node.starts_mk, Node.ownPlaces] using hproperty found hfound
      · next heq =>
        cases heq
        exact .step (quiet_modify (fun _ => rfl) (fun _ => rfl) fun _ => id) fun _ => hjoin _ (by
          simp [Node.starts_node, Node.starts_mk, Node.ownPlaces])
      · next inner _ heq =>
        cases heq
        exact .ite (.when (quiet_fault _) fun _ => narrows_restTarget (narrows_target inner))
          (.fail _)
      · exact .fail _
      · exact .fail _

end

/-! ### Literals -/

theorem reads_spread (h : parts.Ordered) : Reads (spread parts) := fun _ _ =>
  .step quiet_here fun _ => .step quiet_advance fun _ => .read (h _) fun _ => .finish rfl (by simp)

theorem reads_listElement (h : parts.Ordered) : Reads (listElement parts) := fun _ _ =>
  .step quiet_token fun _ => .ite (.done (by simp)) <|
    .ite (reads_spread h).takes (h _).takes

theorem reads_arrayLiteral (h : parts.Ordered) (fuel : Nat) : Reads (arrayLiteral parts fuel) :=
  fun _ _ => .step quiet_here fun _ => .step quiet_advance fun _ =>
    .both (reads_commaList (reads_listElement h) _ _).within fun _ _ =>
    .step (quiet_expect _) fun _ => .finish rfl (by simp)

theorem reads_objectMember (h : parts.Ordered) (fuel : Nat) : Reads (objectMember parts fuel) :=
  fun place before => .step quiet_here fun start => .step quiet_token fun first =>
    .ite (reads_spread h).takes <|
    .step (quiet_next _) fun _ => .step (quiet_next _) fun _ => .when quiet_advance fun _ =>
    .step (quiet_eat _) fun _ => .sight fun named => .key h fun key computed hkey => .ite
      (.read (reads_methodFunction h fuel _ _ _) fun _ => .step (quiet_checkAccessor _ _) fun _ =>
        .finish rfl (by simp)) <|
      .step (quiet_atSign _) fun _ => .step (quiet_atSign _) fun _ => .ite
        (.read (reads_methodFunction h fuel _ _ _) fun _ => .finish rfl (by simp)) <|
      .step (quiet_atSign _) fun colon => by
        split
        · next hname =>
          have hnone : key.starts = [] := hkey (by grind)
          refine .step quiet_context fun _ => .step (quiet_checkName _ _) fun _ =>
            .step (quiet_eat _) fun _ => .ite (.read (h _) fun value => ?_) ?_
          · exact .step (quiet_modify (fun _ => rfl) (fun _ => rfl) fun _ => id) fun _ =>
              .finish rfl (by simp)
          · exact .finish rfl (by simp [hnone])
        · exact .step (quiet_expect _) fun _ => .read (h _) fun _ => .finish rfl (by simp)

theorem reads_objectLiteral (h : parts.Ordered) (fuel : Nat) : Reads (objectLiteral parts fuel) :=
  fun _ _ => .step quiet_here fun _ => .step quiet_advance fun _ =>
    .both (reads_commaList (reads_objectMember h fuel) _ _).within fun _ _ =>
    .step (quiet_expect _) fun _ => .finish rfl (by simp)

theorem reads_templateLiteral (h : parts.Ordered) (fuel : Nat) (isTagged : Bool) :
    Reads (templateLiteral parts fuel isTagged) := fun _ _ =>
  .step quiet_here fun _ => .read (reads_templateParts (h _).within
    (fun _ _ => .ite (.done _) (quiet_fault _)) fuel) fun _ => .finish rfl (by simp)

theorem scanRegex_ne_sign (cursor : Cursor) (sign : Sign) :
    (scanRegex cursor).value ≠ .sign sign := by
  unfold scanRegex
  dsimp only
  split <;> simp

/-- The slash that a regular expression begins with is read again. -/
theorem reads_regexLiteral : Reads regexLiteral := fun _ _ =>
  .retoken (fun state _ => by
    refine ⟨Nat.le_trans ?_ (offset_le_scanRegex _), fun sign hsign => ?_⟩
    · split <;> exact Nat.le_refl _
    · exact absurd hsign (scanRegex_ne_sign _ sign)) fun state _ => by
    split
    · exact .when (quiet_fault _) fun _ => (reads_leaf _).takes
    · exact takes_unexpected

theorem reads_parenthesized (h : parts.Ordered) (fuel : Nat) : Reads (parenthesized parts fuel) :=
  fun place before => .step quiet_here fun start => .step quiet_advance fun _ =>
    .step quiet_here fun first => .both (reads_commaList (h _) _ _).within fun items comma => by
      cases comma with
      | some comma => exact .fail _
      | none =>
          refine .step quiet_lastStop fun stop => .step (quiet_expect _) fun _ => ?_
          split
          · exact takes_failAt _
          · exact .finish rfl (by simp [Node.starts_mk, Node.starts_node, Node.ownPlaces])
          · exact .finish rfl (by simp [Node.starts_mk, Node.starts_node, Node.ownPlaces])
          · exact .finish rfl (by simp)
          · exact .finish rfl (by simp [Node.starts_mk, Node.ownPlaces])

end Bundler.Script.Parser
