import Bundler.Decimal.Binary64

/-!
# Tokens of a script

The words, signs and literals that a script is made of, each with its place in the text.
-/

namespace Bundler.Script

/-- Words with a meaning of their own. -/
inductive Word where
  -- words that are never identifiers
  | break_ | case_ | catch_ | class_ | const_ | continue_ | debugger_ | default_ | delete_
  | do_ | else_ | enum_ | export_ | extends_ | false_ | finally_ | for_ | function_ | if_
  | import_ | in_ | instanceof_ | new_ | null_ | return_ | super_ | switch_ | this_ | throw_
  | true_ | try_ | typeof_ | var_ | void_ | while_ | with_
  -- words that are identifiers in most places
  | abstract_ | accessor_ | any_ | as_ | assert_ | asserts_ | async_ | await_ | bigint_
  | boolean_ | constructor_ | declare_ | defer_ | from_ | get_ | global_ | implements_
  | infer_ | interface_ | intrinsic_ | is_ | keyof_ | let_ | meta_ | module_ | namespace_
  | never_ | number_ | object_ | of_ | out_ | override_ | package_ | private_ | protected_
  | public_ | readonly_ | require_ | satisfies_ | set_ | source_ | static_ | string_
  | symbol_ | target_ | type_ | undefined_ | unique_ | unknown_ | using_ | yield_
deriving DecidableEq, Repr

namespace Word

def beginningWith (c : Char) : List (String × Word) :=
  match c with
  | 'a' => [("as", as_), ("async", async_), ("await", await_), ("any", any_),
      ("abstract", abstract_), ("accessor", accessor_), ("assert", assert_),
      ("asserts", asserts_)]
  | 'b' => [("break", break_), ("boolean", boolean_), ("bigint", bigint_)]
  | 'c' => [("const", const_), ("case", case_), ("catch", catch_), ("class", class_),
      ("continue", continue_), ("constructor", constructor_)]
  | 'd' => [("do", do_), ("delete", delete_), ("default", default_), ("debugger", debugger_),
      ("declare", declare_), ("defer", defer_)]
  | 'e' => [("else", else_), ("export", export_), ("extends", extends_), ("enum", enum_)]
  | 'f' => [("for", for_), ("function", function_), ("false", false_), ("finally", finally_),
      ("from", from_)]
  | 'g' => [("get", get_), ("global", global_)]
  | 'i' => [("if", if_), ("in", in_), ("import", import_), ("instanceof", instanceof_),
      ("is", is_), ("infer", infer_), ("interface", interface_), ("implements", implements_),
      ("intrinsic", intrinsic_)]
  | 'k' => [("keyof", keyof_)]
  | 'l' => [("let", let_)]
  | 'm' => [("module", module_), ("meta", meta_)]
  | 'n' => [("new", new_), ("null", null_), ("number", number_), ("never", never_),
      ("namespace", namespace_)]
  | 'o' => [("of", of_), ("object", object_), ("out", out_), ("override", override_)]
  | 'p' => [("public", public_), ("private", private_), ("protected", protected_),
      ("package", package_)]
  | 'r' => [("return", return_), ("require", require_), ("readonly", readonly_)]
  | 's' => [("switch", switch_), ("super", super_), ("static", static_), ("set", set_),
      ("string", string_), ("symbol", symbol_), ("satisfies", satisfies_), ("source", source_)]
  | 't' => [("this", this_), ("true", true_), ("try", try_), ("throw", throw_),
      ("typeof", typeof_), ("type", type_), ("target", target_)]
  | 'u' => [("undefined", undefined_), ("unique", unique_), ("unknown", unknown_),
      ("using", using_)]
  | 'v' => [("var", var_), ("void", void_)]
  | 'w' => [("while", while_), ("with", with_)]
  | 'y' => [("yield", yield_)]
  | _ => []

def ofName? (name : String) : Option Word :=
  match name.toList with
  | [] => none
  | c :: _ => (beginningWith c).findSome? fun entry =>
      if entry.1 = name then some entry.2 else none

def isReserved : Word → Bool
  | break_ | case_ | catch_ | class_ | const_ | continue_ | debugger_ | default_ | delete_
  | do_ | else_ | enum_ | export_ | extends_ | false_ | finally_ | for_ | function_ | if_
  | import_ | in_ | instanceof_ | new_ | null_ | return_ | super_ | switch_ | this_ | throw_
  | true_ | try_ | typeof_ | var_ | void_ | while_ | with_ => true
  | _ => false

def isModifier : Word → Bool
  | abstract_ | accessor_ | async_ | const_ | declare_ | export_ | in_ | out_ | override_
  | private_ | protected_ | public_ | readonly_ | static_ => true
  | _ => false

end Word

/-- Signs. -/
inductive Sign where
  | braceOpen | braceClose | parenOpen | parenClose | bracketOpen | bracketClose
  | dot | ellipsis | semicolon | comma | colon | question | questionDot | at | arrow
  | tilde | bang | plus | minus | star | slash | percent | starStar
  | amp | bar | caret | less | greater | shiftLeft | shiftRight | shiftRightZero
  | lessEqual | greaterEqual | equalEqual | bangEqual | equalEqualEqual | bangEqualEqual
  | ampAmp | barBar | questionQuestion | plusPlus | minusMinus
  | equal | plusEqual | minusEqual | starEqual | slashEqual | percentEqual | starStarEqual
  | shiftLeftEqual | shiftRightEqual | shiftRightZeroEqual | ampEqual | barEqual | caretEqual
  | ampAmpEqual | barBarEqual | questionQuestionEqual
deriving DecidableEq, Repr

/-- What a token is. -/
inductive TokenKind where
  | sign (sign : Sign)
  | name (text : String) (word : Option Word)
  | privateName (text : String)
  | string (value raw : String) (lone : Bool)
  | number (value : Decimal.Binary64)
  | bigInt (value : Nat)
  /-- A piece of a template, up to its end if it is the last and to an expression if not. -/
  | template (raw : String) (wellFormed last : Bool)
  | regex (pattern flags : String)
  | markupText (text : String)
  | endOfText
  /-- A piece of text that is no token; a fault has been noted. -/
  | malformed
deriving DecidableEq, Repr, Inhabited

/-- A token and its place in bytes. -/
structure Token where
  kind : TokenKind
  start : Nat
  stop : Nat
  /-- Whether a line break stands between the token and the one before it. -/
  afterBreak : Bool
  /-- Whether the token is a name that was written with an escape. -/
  escaped : Bool
  /-- Whether a comment before the token says that the call after it is free of effects. -/
  effectFreeCall : Bool
  /-- Whether a comment before the token says so of the calls of the function after it. -/
  effectFreeFunction : Bool
deriving Repr, Inhabited

namespace Token

def word? (token : Token) : Option Word :=
  match token.kind with
  | .name _ word => word
  | _ => none

def sign? (token : Token) : Option Sign :=
  match token.kind with
  | .sign sign => some sign
  | _ => none

def isWord (token : Token) (word : Word) : Bool := token.word? == some word

def isSign (token : Token) (sign : Sign) : Bool := token.sign? == some sign

/-- Whether the token is a name of any kind, reserved words among them. -/
def isName (token : Token) : Bool :=
  match token.kind with
  | .name _ _ => true
  | _ => false

/-- Whether the token is a name that is not reserved. -/
def isIdentifier (token : Token) : Bool :=
  match token.kind with
  | .name _ none => true
  | .name _ (some word) => !word.isReserved
  | _ => false

def isLiteral (token : Token) : Bool :=
  match token.kind with
  | .string _ _ _ | .number _ | .bigInt _ | .regex _ _ => true
  | .name _ (some .true_) | .name _ (some .false_) | .name _ (some .null_) => true
  | _ => false

def isNumeric (token : Token) : Bool :=
  match token.kind with
  | .number _ | .bigInt _ => true
  | _ => false

/-- Whether the token is the end of the text or no token at all. -/
def isEndOrMalformed (token : Token) : Bool :=
  match token.kind with
  | .endOfText | .malformed => true
  | _ => false

end Token

end Bundler.Script
