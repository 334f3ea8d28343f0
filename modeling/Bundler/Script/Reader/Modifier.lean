import Bundler.Script.Reader.Part

/-!
# Reading words that qualify

The words before a declaration, a member or a parameter. Each place allows some of them, and the
ones that are allowed stand in a fixed order.
-/

namespace Bundler.Script

/-- A word that qualifies what follows it, and its place. -/
structure Qualifier where
  word : Word
  place : Nat
deriving DecidableEq, Repr

namespace Word

def isAccess : Word → Bool
  | public_ | private_ | protected_ => true
  | _ => false

/-- The words that a word may not follow. -/
def barriers : Word → List Word
  | public_ | private_ | protected_ =>
    [public_, private_, protected_, override_, static_, accessor_, readonly_, async_]
  | static_ => [static_, readonly_, async_, accessor_, override_]
  | override_ => [override_, readonly_, accessor_, async_]
  | abstract_ => [abstract_, override_, accessor_]
  | export_ => [export_, declare_, abstract_, async_]
  | word => [word]

end Word

namespace Parser

def qualifiedBy (found : List Qualifier) (word : Word) : Bool :=
  found.any fun qualifier => qualifier.word == word

/-- Reads words as long as what follows can be qualified, and notes those that may not follow the
ones before them. `const` is among them only if `permitsConst` says so, and `static` before a brace
only if `opensBlocks` does not. -/
def qualifiers (permitsConst opensBlocks : Bool) :
    Nat → List Qualifier → Parser (List Qualifier)
  | 0, seen => return seen.reverse
  | fuel + 1, seen => do
    let current ← token
    match current.word? with
    | none => return seen.reverse
    | some word =>
      let applies ← next fun token =>
        if word == .static_ then followsModifier token && !(opensBlocks && token.isSign .braceOpen)
        else !token.afterBreak && followsModifier token
      let repeats := word == .static_ && qualifiedBy seen .static_
      if !applies || !word.isModifier || repeats || (word == .const_ && !permitsConst) then
        return seen.reverse
      else
        if seen.any fun earlier => word.barriers.contains earlier.word then fault current.start
        advance
        qualifiers permitsConst opensBlocks fuel (⟨word, current.start⟩ :: seen)

/-- Notes words that are not allowed. -/
def checkQualifiers (allowed : List Word) (found : List Qualifier) : Parser Unit :=
  found.forM fun qualifier =>
    if allowed.contains qualifier.word then return () else fault qualifier.place

def accessOf (found : List Qualifier) : Option String :=
  found.findSome? fun qualifier =>
    match qualifier.word with
    | .public_ => some "public"
    | .private_ => some "private"
    | .protected_ => some "protected"
    | _ => none

end Parser

end Bundler.Script
