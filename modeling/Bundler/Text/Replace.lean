/-!
# Substring replacement

Every occurrence of a pattern is replaced, from left to right and without overlap.
-/

namespace Bundler.Text

/-- Replaces the occurrences of a non-empty `pattern`; the first argument counts the characters
that the last occurrence still covers. -/
def replaceFrom (pattern new : List Char) : Nat → List Char → List Char
  | _, [] => []
  | skip + 1, _ :: rest => replaceFrom pattern new skip rest
  | 0, c :: rest =>
      if pattern.isPrefixOf (c :: rest) then
        new ++ replaceFrom pattern new (pattern.length - 1) rest
      else
        c :: replaceFrom pattern new 0 rest

def interleave (new : List Char) : List Char → List Char
  | [] => new
  | c :: rest => new ++ c :: interleave new rest

/-- Replaces every occurrence of `pattern` in `text` by `new`. -/
def replaceAll (text pattern new : String) : String :=
  if pattern.isEmpty then
    String.ofList (interleave new.toList text.toList)
  else
    String.ofList (replaceFrom pattern.toList new.toList 0 text.toList)

end Bundler.Text
