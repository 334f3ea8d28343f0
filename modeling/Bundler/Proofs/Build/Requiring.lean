import Bundler.Proofs.Build.Wording
import Bundler.Proofs.Script.Reading.Statement

/-! Code that requires other modules and does nothing else. Whatever their ids are, it can be the
body of a function, with a call for each of them. -/

namespace Bundler

open Script Script.Parser

namespace Bundle

variable {fuel count : Nat} {sight : Sight} {more : List Symbol} {ids : List String}

/-- Code that requires some modules. -/
def requireLines (ids : List String) : String :=
  String.join (ids.map fun id => requireName ++ "(" ++ Json.quote id ++ ");\n")

/-- The text of a call, with the line break before it. -/
def lineText (id : String) : List Char :=
  ("\n" ++ requireName ++ "(").toList ++ ((Json.quote id).toList ++ ");".toList)

def lineSights (id : String) : List Sight :=
  .broken (.name requireName) :: ((callSights id).tail ++ [.sign .semicolon])

theorem toList_requireLines (ids : List String) :
    '\n' :: (requireLines ids).toList = ids.flatMap lineText ++ ['\n'] := by
  induction ids with
  | nil => rfl
  | cons id rest ih =>
      have hend : ");\n".toList = ");".toList ++ ['\n'] := by decide
      have hfront : ("\n" ++ requireName ++ "(").toList = '\n' :: (requireName ++ "(").toList := by
        decide
      rw [List.flatMap_cons, List.append_assoc, ← ih]
      unfold requireLines lineText
      rw [List.map_cons, String.join_cons, hfront]
      simp only [String.toList_append, hend, List.append_assoc, List.cons_append, List.nil_append]

theorem length_le_requireLines (ids : List String) :
    ids.length ≤ (terminated (requireLines ids)).toList.length := by
  have hcount : ids.length ≤ (ids.flatMap lineText).length :=
    length_le_flatMap (fun _ => List.cons_ne_nil _ _) ids
  have hlines := congrArg List.length (toList_requireLines ids)
  simp only [List.length_cons, List.length_append, List.length_nil] at hlines
  unfold terminated
  split
  · omega
  · rw [String.toList_append, List.length_append]
    omega

theorem spans_line (id : String) {text : List Char} {symbols : List Symbol}
    (h : Spans symbols text) :
    Spans ((lineSights id).map .token ++ symbols) (lineText id ++ text) := by
  have hend : Spans ([Sight.sign .parenClose, .sign .semicolon].map .token ++ symbols)
      (");".toList ++ text) := spans_plain (show plainTokens 2 ");".toList =
    ([.sign .parenClose, .sign .semicolon], []) by decide) h
  have hfront : plainTokens 2 ("\n" ++ requireName ++ "(").toList =
      ([.broken (.name requireName), .sign .parenOpen], []) := by decide +kernel
  have hline := spans_plain hfront (spans_quote id hend)
  rw [lineText, List.append_assoc, List.append_assoc]
  exact hline

/-- What stands behind the opening brace of a function that only requires modules. -/
def callSymbols (ids : List String) (tail : List Symbol) : List Symbol :=
  ids.foldr (fun id symbols => (lineSights id).map .token ++ symbols)
    (.token (.broken (.sign .braceClose)) :: tail)

theorem spans_lines (ids : List String) {text : List Char} (h : Spans more text) :
    Spans (callSymbols ids more) (ids.flatMap lineText ++ ("\n    \x7d".toList ++ text)) := by
  induction ids with
  | nil =>
      exact spans_plain (show plainTokens 1 "\n    \x7d".toList =
        ([.broken (.sign .braceClose)], []) by decide) h
  | cons id rest ih =>
      rw [List.flatMap_cons, List.append_assoc]
      exact spans_line id ih

/-- Code that requires something ends in a line break. -/
theorem terminated_requireLines (hids : ids ≠ []) :
    terminated (requireLines ids) = requireLines ids := by
  obtain ⟨id, rest, rfl⟩ := List.exists_cons_of_ne_nil hids
  obtain ⟨front, hfront⟩ : ∃ front, (id :: rest).flatMap lineText = '\n' :: front := ⟨_, rfl⟩
  have hlines := toList_requireLines (id :: rest)
  rw [hfront, List.cons_append, List.cons_inj_right] at hlines
  rw [terminated, hlines]
  simp

theorem spans_enclosed (ids : List String) {text : List Char} (h : Spans more text) :
    Spans (callSymbols ids more) (enclosed (terminated (requireLines ids)).toList ++ text) := by
  cases ids with
  | nil =>
      exact spans_plain (show plainTokens 1 (enclosed (terminated (requireLines [])).toList) =
        ([.broken (.sign .braceClose)], []) by decide) h
  | cons id rest =>
      have hclose : "\n    \x7d".toList = ['\n'] ++ "    \x7d".toList := by decide
      have hspans := spans_lines (id :: rest) h
      rw [terminated_requireLines (List.cons_ne_nil id rest), enclosed, toList_requireLines]
      simpa only [hclose, List.append_assoc] using hspans

/-- Up to the closing brace there is a statement for each call. -/
theorem series_calls (hcount : ids.length < count) :
    Series inBody (fuel + 8) count (callSymbols ids (.token sight :: more))
      (.token (.broken (.sign .braceClose)) :: .token sight :: more)
      (ids.map fun id => .of .expressionStatement [requireNode id]) := by
  induction ids generalizing count with
  | nil =>
      obtain ⟨count, rfl⟩ := Nat.exists_eq_add_one_of_ne_zero (Nat.ne_zero_of_lt hcount)
      exact series_end
  | cons id rest ih =>
      obtain ⟨count, rfl⟩ := Nat.exists_eq_add_one_of_ne_zero (Nat.ne_zero_of_lt hcount)
      obtain ⟨next, after, hnext⟩ : ∃ next after,
          callSymbols rest (.token sight :: more) = .token next :: after := by
        cases rest with
        | nil => exact ⟨_, _, rfl⟩
        | cons => exact ⟨_, _, rfl⟩
      have hstatement : Runs inBody (read (fuel + 8) (.statement false))
          ((lineSights id).map .token ++ .token next :: after)
          (.tree (.token next :: after) (.of .expressionStatement [requireNode id])) :=
        runs_statement <| .here fun _ => .token fun _ _ => runs_expressionStatement <|
          runs_expression rfl (runs_requireCall ordinary_inBody (.semicolon _))
      rw [← hnext] at hstatement
      exact .cons (.name ..) hstatement (ih (Nat.lt_of_succ_lt_succ hcount))

/-- What only requires modules can be the body of a function. -/
theorem isBody_requireLines (ids : List String) :
    IsBody (terminated (requireLines ids)).toList
      (ids.map fun id => .of .expressionStatement [requireNode id]) := by
  intro fuel sight more hfuel
  have hlength : ids.length + 8 ≤ fuel := by
    have := length_le_requireLines ids
    unfold Program.depth at hfuel
    omega
  obtain ⟨fuel, rfl⟩ := Nat.exists_eq_add_of_le' (Nat.le_of_add_left_le hlength)
  have hspans : ∀ text,
      Spans (.block (terminated (requireLines ids)).toList :: .token sight :: more) text →
      Spans (callSymbols ids (.token sight :: more)) text := by
    rintro _ ⟨rest, rfl, hrest⟩
    exact spans_enclosed ids hrest
  have hseries : Series inBody (fuel + 8) (fuel + 8) (callSymbols ids (.token sight :: more)) _ _ :=
    series_calls (by omega)
  refine Runs.respell hspans ?_
  cases ids with
  | nil => exact runs_functionBody hseries nofun
  | cons id rest => exact runs_functionBody hseries (noDirective_expression nofun)

end Bundle

end Bundler
