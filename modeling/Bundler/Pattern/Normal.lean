import Bundler.Pattern.Basic

/-!
# Normal patterns

Sequences, choices and repetitions are built so that patterns of one meaning are mostly of one
form: no sequence stands in a sequence and no choice in a choice, literals that follow each other
are one literal, and a choice of characters is a set.
-/

namespace Bundler.Pattern

open Text (CharSet)

def factors : Pattern → List Pattern
  | empty => []
  | seq first second => first.factors ++ second.factors
  | pattern => [pattern]

def branches : Pattern → List Pattern
  | alt left right => left.branches ++ right.branches
  | pattern => [pattern]

def joinLiterals : List Pattern → List Pattern
  | [] => []
  | literal text :: rest =>
    match joinLiterals rest with
    | literal more :: rest => literal (text ++ more) :: rest
    | rest => literal text :: rest
  | pattern :: rest => pattern :: joinLiterals rest

/-- The sequence of some parts, none of which is a sequence. -/
def ofFactors : List Pattern → Pattern
  | [] => empty
  | [pattern] => pattern
  | pattern :: rest => seq pattern (ofFactors rest)

/-- The choice between some branches, none of which is a choice. -/
def ofBranches : List Pattern → Pattern
  | [] => oneOf .empty
  | [pattern] => pattern
  | pattern :: rest => alt pattern (ofBranches rest)

def ofSet (chars : CharSet) : Pattern :=
  match chars.only? with
  | some c => literal [c]
  | none => oneOf chars

def concat (parts : List Pattern) : Pattern := ofFactors (joinLiterals (parts.flatMap factors))

/-- Whether the pattern matches nothing but the empty text. -/
def isBlank : Pattern → Bool
  | empty | look _ => true
  | literal _ | oneOf _ => false
  | group _ inner => inner.isBlank
  | seq first second => first.isBlank && second.isBlank
  | alt left right => left.isBlank && right.isBlank
  | repeated inner _ most => most.isSome && inner.isBlank

/-- The pattern some number of times. What matches only the empty text is not repeated. -/
def times (inner : Pattern) (least : Nat) (most : Option Nat) : Pattern :=
  let (least, most) :=
    if inner.isBlank then (min least 1, some (min (most.getD 1) 1)) else (least, most)
  if most = some 0 then empty
  else if least = 1 ∧ most = some 1 then inner
  else repeated inner least most

def nodes : Pattern → Nat
  | group _ inner => inner.nodes + 1
  | seq first second => first.nodes + second.nodes + 1
  | alt left right => left.nodes + right.nodes + 1
  | repeated inner _ _ => inner.nodes + 1
  | _ => 1

def characters? : List Pattern → Option (List Nat)
  | [] => some []
  | literal [c] :: rest => (characters? rest).map (c.toNat :: ·)
  | _ => none

def sets? : List Pattern → Option (List CharSet)
  | [] => some []
  | oneOf chars :: rest => (sets? rest).map (chars :: ·)
  | _ => none

def sharedStart : List Pattern → List Pattern → List Pattern
  | a :: as, b :: bs => if a = b then a :: sharedStart as bs else []
  | _, _ => []

/-- What all branches start with, if each of them is a sequence. -/
def sharedFactors (parts : List Pattern) : List Pattern :=
  if parts.all fun p => decide (1 < p.factors.length) then
    match parts with
    | [] => []
    | first :: rest => rest.foldl (fun shared p => sharedStart shared p.factors) first.factors
  else []

/-- The choice between some patterns; `fuel` bounds how often a shared start is moved to the
front. -/
def choiceFrom : (fuel : Nat) → List Pattern → Pattern
  | fuel, parts =>
    let parts := parts.flatMap branches
    match parts, characters? parts, sets? parts, fuel with
    | [pattern], _, _, _ => pattern
    | _, some codes, _, _ => ofSet (.ofCodes codes)
    | _, none, some sets, _ => ofSet (.unions sets)
    | parts, none, none, 0 => ofBranches parts
    | parts, none, none, fuel + 1 =>
      match sharedFactors parts with
      | [] => ofBranches parts
      | shared =>
        let rest := parts.map fun p => ofFactors (p.factors.drop shared.length)
        concat (shared ++ [choiceFrom fuel rest])

def choice (parts : List Pattern) : Pattern :=
  choiceFrom (parts.foldl (fun n p => n + p.nodes) 0) parts

end Bundler.Pattern
