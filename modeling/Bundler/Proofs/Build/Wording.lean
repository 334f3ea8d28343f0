import Bundler.Proofs.Build.Runtime
import Bundler.Proofs.Json.Reading

/-! What the text of a bundle consists of: the tokens that stand in every bundle, and for each
module its key and its code. -/

namespace Bundler

open Script

namespace Bundle

/-! ### The symbols of a bundle -/

/-- What stands between the key of a module and the body of its function. -/
def factorySights : List Sight :=
  [.sign .colon, .word "function" .function_, .sign .parenOpen, .word "module" .module_,
    .sign .comma, .name "exports", .sign .comma, .name requireName, .sign .parenClose,
    .sign .braceOpen]

/-- The key of a module and the front of its function. -/
def frontSymbols (module : Module) : List Symbol :=
  .token ⟨.string module.id (rawQuote module.id) false, true⟩ :: factorySights.map .token

/-- The code of a module as it stands in a bundle. -/
def bodyText (module : Module) : List Char := (terminated module.code).toList

/-- The entries of modules, each with the comma behind it. -/
def registrySymbols : List Module → List Symbol → List Symbol
  | [], tail => tail
  | module :: rest, tail =>
    frontSymbols module ++ .block (bodyText module) :: .sign .comma :: registrySymbols rest tail

/-- What stands before the first entry of the registry. -/
def openingSights : List Sight :=
  [.broken (.word "var" .var_), .name modulesName, .sign .equal, .sign .braceOpen]

/-- What stands behind the last entry of the registry, up to the next statement. -/
def closingSights : List Sight := [.broken (.sign .braceClose), .sign .semicolon]

/-- `return require("id");` -/
def returnSights (id : String) : List Sight :=
  .broken (.word "return" .return_) :: (callSights id ++ [.sign .semicolon])

/-- The front of a bundle. -/
def headSights : List Sight :=
  [.sign .parenOpen, .word "function" .function_, .sign .parenOpen, .sign .parenClose,
    .sign .braceOpen]

/-- The end of a bundle. -/
def endSights : List Sight :=
  [.broken (.sign .braceClose), .sign .parenClose, .sign .parenOpen, .sign .parenClose,
    .sign .semicolon, ⟨.endOfText, true⟩]

/-- What stands behind the registry. -/
def runtimeSights (id : String) : List Sight :=
  closingSights ++ cacheSights ++
    requireSights (rawQuote "Cannot find module '") (rawQuote "'") ++ returnSights id ++ endSights

/-- What a bundle consists of. -/
def bundleSymbols (chunk : Chunk) : List Symbol :=
  headSights.map .token ++ (openingSights.map .token ++
    registrySymbols chunk.modules ((runtimeSights chunk.entryModule.id).map .token))

/-! ### The text of a bundle -/

/-- The text of an entry, with the line break before it. -/
def entryText (module : Module) : List Char :=
  "\n    ".toList ++ ((key module).toList ++ ((": function (" ++ parameters ++ ") \x7b").toList ++
    (enclosed (bodyText module) ++ [','])))

/-- The text before the registry. -/
def headText : List Char := ("(function () \x7b\n" ++ "  var " ++ modulesName ++ " = \x7b").toList

/-- The text behind the registry, up to the key of the entry. -/
def runtimeText : List Char :=
  ("\n  \x7d;\n" ++ requireFunction ++ "  return " ++ requireName ++ "(").toList

def endText : List Char := (");\n" ++ "\x7d)();").toList

theorem toList_registryEntry (module : Module) :
    '\n' :: (registryEntry module).toList = entryText module ++ ['\n'] := by
  have hfront : "\n    ".toList = '\n' :: "    ".toList := by decide
  have hopen : ") \x7b\n".toList = ") \x7b".toList ++ ['\n'] := by decide
  have hclose : "    \x7d,\n".toList = "    \x7d".toList ++ [',', '\n'] := by decide
  simp only [registryEntry, entryText, enclosed, bodyText, String.toList_append, hfront, hopen,
    hclose, List.append_assoc, List.cons_append, List.nil_append]

theorem toList_registry (modules : List Module) :
    '\n' :: (String.join (modules.map registryEntry)).toList =
      modules.flatMap entryText ++ ['\n'] := by
  induction modules with
  | nil => rfl
  | cons module rest ih =>
      rw [List.map_cons, List.flatMap_cons, List.append_assoc, ← ih, String.join_cons,
        String.toList_append, ← List.cons_append, toList_registryEntry, List.append_assoc]
      rfl

/-- The text of a bundle, cut up so that each line break stands before what comes after it. -/
theorem toList_render (chunk : Chunk) : (render chunk).toList =
    headText ++ (chunk.modules.flatMap entryText ++ (runtimeText ++
      ((key chunk.entryModule).toList ++ (endText ++ ['\n'])))) := by
  have hopen : " = \x7b\n".toList = " = \x7b".toList ++ ['\n'] := by decide
  have hclose : "\n  \x7d;\n".toList = ['\n'] ++ "  \x7d;\n".toList := by decide
  have hend : "\x7d)();\n".toList = "\x7d)();".toList ++ ['\n'] := by decide
  unfold render headText runtimeText endText
  simp only [String.toList_append, hopen, hclose, hend, List.append_assoc]
  simp only [← List.append_assoc (List.flatMap entryText chunk.modules), ← toList_registry]
  simp only [List.cons_append, List.nil_append]

/-! ### Reading the text as symbols -/

theorem scans_quote {front : List Char} (value : String) (rest : List Char)
    (hfront : front.all isGap = true) :
    Scans (front ++ ((Json.quote value).toList ++ rest))
      ⟨.string value (rawQuote value) false, front.any isLineBreak⟩ rest := by
  have hspells := spells_jsonQuote value rest
  have htext : (Json.quote value).toList ++ rest =
      '"' :: (value.toList.flatMap Json.escapeChar ++ ['"'] ++ rest) := by
    simp [Json.quote, Json.quoteChars]
  rw [htext] at hspells ⊢
  exact (hspells.leads (by decide) hfront).scans

/-- A literal with no gap before it. -/
theorem spans_quote (value : String) {text : List Char} {symbols : List Symbol}
    (h : Spans symbols text) :
    Spans (.token ⟨.string value (rawQuote value) false, false⟩ :: symbols)
      ((Json.quote value).toList ++ text) := by
  have hscans := @scans_quote [] value text rfl
  rw [List.nil_append] at hscans
  exact ⟨text, hscans, h⟩

theorem plainTokens_headText :
    plainTokens 9 headText = (headSights ++ openingSights, []) := by
  decide +kernel

theorem plainTokens_factory :
    plainTokens 10 (": function (" ++ parameters ++ ") \x7b").toList = (factorySights, []) := by
  decide +kernel

/-- What stands between the registry and the key of the entry. -/
def middleSights : List Sight :=
  closingSights ++ cacheSights ++
    requireSights (rawQuote "Cannot find module '") (rawQuote "'") ++
    [.broken (.word "return" .return_), .name requireName, .sign .parenOpen]

theorem plainTokens_runtimeText : plainTokens 200 runtimeText = (middleSights, []) := by
  unfold runtimeText requireFunction
  simp only [String.toList_append]
  decide +kernel

/-- What stands behind the key of the entry, but for the end of the text. -/
def lastSights : List Sight := .sign .parenClose :: .sign .semicolon :: endSights.dropLast

theorem plainTokens_endText : plainTokens 7 endText = (lastSights, []) := by
  decide +kernel

/-- An entry up to the brace behind which the code of its module stands. -/
theorem spans_front (module : Module) {text : List Char} {symbols : List Symbol}
    (h : Spans symbols text) : Spans (frontSymbols module ++ symbols)
      ("\n    ".toList ++ ((key module).toList ++
        ((": function (" ++ parameters ++ ") \x7b").toList ++ text))) :=
  ⟨_, scans_quote module.id _ (by decide), spans_plain plainTokens_factory h⟩

theorem spans_registry {text : List Char} {tail : List Symbol} (modules : List Module)
    (h : Spans tail text) :
    Spans (registrySymbols modules tail) (modules.flatMap entryText ++ text) := by
  induction modules with
  | nil => exact h
  | cons module rest ih =>
      have hcomma : Spans (.sign .comma :: registrySymbols rest tail)
          ([','] ++ (rest.flatMap entryText ++ text)) :=
        spans_plain (show plainTokens 1 [','] = ([.sign .comma], []) by decide) ih
      have hblock : Spans (.block (bodyText module) :: .sign .comma :: registrySymbols rest tail)
          (enclosed (bodyText module) ++ ([','] ++ (rest.flatMap entryText ++ text))) :=
        ⟨_, rfl, hcomma⟩
      rw [registrySymbols, List.flatMap_cons, entryText]
      simpa only [List.append_assoc] using spans_front module hblock

theorem spans_runtime (id : String) : Spans ((runtimeSights id).map .token)
    (runtimeText ++ ((Json.quote id).toList ++ (endText ++ ['\n']))) := by
  have hend : Spans (lastSights.map .token ++ [.token ⟨.endOfText, true⟩]) (endText ++ ['\n']) :=
    spans_plain plainTokens_endText ⟨_, (leads_end (by decide)).scans, trivial⟩
  exact spans_plain plainTokens_runtimeText (spans_quote id hend)

/-- The text of a bundle consists of its symbols. -/
theorem spans_render (chunk : Chunk) : Spans (bundleSymbols chunk) (render chunk).toList := by
  rw [toList_render, bundleSymbols, ← List.append_assoc, ← List.map_append]
  exact spans_plain plainTokens_headText (spans_registry chunk.modules (spans_runtime _))

/-- The code of a module begins with a hashbang line. -/
def HasHashbang (module : Module) : Prop := ['#', '!'] <+: module.code.toList

instance (module : Module) : Decidable (HasHashbang module) :=
  inferInstanceAs (Decidable (['#', '!'] <+: module.code.toList))

theorem exists_bodyText_of_hashbang {module : Module} (h : HasHashbang module) :
    ∃ line, bodyText module = '#' :: '!' :: line := by
  obtain ⟨line, hline⟩ := h
  rw [bodyText, terminated]
  split
  · exact ⟨line, hline.symm⟩
  · exact ⟨line ++ ['\n'], by simp [← hline]⟩

/-- What a hashbang line begins with is no token, but at the front of a text. -/
theorem spans_hashbang {module : Module} (h : HasHashbang module) (rest : List Char) :
    Spans [.wrong] (enclosed (bodyText module) ++ rest) := by
  obtain ⟨line, hline⟩ := exists_bodyText_of_hashbang h
  rw [hline]
  intro place offset
  obtain ⟨start, hscan⟩ := @exists_scanLexeme_gap ['\n']
    ('!' :: (line ++ "    \x7d".toList ++ rest)) '#' (by decide) (by decide) offset
  have htext : enclosed ('#' :: '!' :: line) ++ rest =
      ['\n'] ++ '#' :: '!' :: (line ++ "    \x7d".toList ++ rest) := rfl
  rw [htext, hscan place]
  rfl

/-- The text of a bundle, up to a module whose code begins with a hashbang line. -/
theorem spans_render_hashbang {chunk : Chunk} {earlier later : List Module} {module : Module}
    (hmodules : chunk.modules = earlier ++ module :: later)
    (h : HasHashbang module) :
    Spans (headSights.map .token ++ (openingSights.map .token ++
      registrySymbols earlier (frontSymbols module ++ [.wrong]))) (render chunk).toList := by
  rw [toList_render, ← List.append_assoc, ← List.map_append, hmodules, List.flatMap_append,
    List.flatMap_cons, entryText]
  simp only [List.append_assoc]
  exact spans_plain plainTokens_headText (spans_registry earlier
    (spans_front module (spans_hashbang h _)))

end Bundle

end Bundler
