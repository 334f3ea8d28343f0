import Bundler.Script.Token

/-!
# Operators

The operators of expressions, how they are written, and how tightly they bind.
-/

namespace Bundler.Script

/-- How tightly an expression holds together; the loosest is the lowest. -/
abbrev Precedence := Nat

namespace Precedence

def lowest : Precedence := 0
def comma : Precedence := 1
def spread : Precedence := 2
def yield_ : Precedence := 3
def assign : Precedence := 4
def conditional : Precedence := 5
def nullish : Precedence := 6
def logicalOr : Precedence := 7
def logicalAnd : Precedence := 8
def bitwiseOr : Precedence := 9
def bitwiseXor : Precedence := 10
def bitwiseAnd : Precedence := 11
def equals : Precedence := 12
def compare : Precedence := 13
def shift : Precedence := 14
def add : Precedence := 15
def multiply : Precedence := 16
def exponentiation : Precedence := 17
def prefixed : Precedence := 18
def postfixed : Precedence := 19
def new_ : Precedence := 20
def call : Precedence := 21
def member : Precedence := 22

end Precedence

/-- Operators before their operand. -/
inductive UnaryOp where
  | plus | minus | not | complement | typeof_ | void_ | delete_
deriving DecidableEq, Repr

namespace UnaryOp

def text : UnaryOp → String
  | plus => "+" | minus => "-" | not => "!" | complement => "~"
  | typeof_ => "typeof" | void_ => "void" | delete_ => "delete"

def isWord : UnaryOp → Bool
  | typeof_ | void_ | delete_ => true
  | _ => false

def ofToken? (token : Token) : Option UnaryOp :=
  match token.kind with
  | .sign .plus => some plus
  | .sign .minus => some minus
  | .sign .bang => some not
  | .sign .tilde => some complement
  | .name _ (some .typeof_) => some typeof_
  | .name _ (some .void_) => some void_
  | .name _ (some .delete_) => some delete_
  | _ => none

end UnaryOp

/-- Operators that count up or down. -/
inductive UpdateOp where
  | increment | decrement
deriving DecidableEq, Repr

namespace UpdateOp

def text : UpdateOp → String
  | increment => "++"
  | decrement => "--"

def ofToken? (token : Token) : Option UpdateOp :=
  match token.kind with
  | .sign .plusPlus => some increment
  | .sign .minusMinus => some decrement
  | _ => none

end UpdateOp

/-- Operators between two operands. -/
inductive BinaryOp where
  | equal | notEqual | same | notSame | less | lessEqual | greater | greaterEqual
  | shiftLeft | shiftRight | shiftRightZero | add | subtract | multiply | divide | remainder
  | bitOr | bitXor | bitAnd | in_ | instanceof_ | power | or | and | nullish
deriving DecidableEq, Repr

namespace BinaryOp

def text : BinaryOp → String
  | equal => "==" | notEqual => "!=" | same => "===" | notSame => "!=="
  | less => "<" | lessEqual => "<=" | greater => ">" | greaterEqual => ">="
  | shiftLeft => "<<" | shiftRight => ">>" | shiftRightZero => ">>>"
  | add => "+" | subtract => "-" | multiply => "*" | divide => "/" | remainder => "%"
  | bitOr => "|" | bitXor => "^" | bitAnd => "&"
  | in_ => "in" | instanceof_ => "instanceof" | power => "**"
  | or => "||" | and => "&&" | nullish => "??"

def precedence : BinaryOp → Precedence
  | nullish => .nullish
  | or => .logicalOr
  | and => .logicalAnd
  | bitOr => .bitwiseOr
  | bitXor => .bitwiseXor
  | bitAnd => .bitwiseAnd
  | equal | notEqual | same | notSame => .equals
  | less | lessEqual | greater | greaterEqual | in_ | instanceof_ => .compare
  | shiftLeft | shiftRight | shiftRightZero => .shift
  | add | subtract => .add
  | multiply | divide | remainder => .multiply
  | power => .exponentiation

def isRightAssociative (op : BinaryOp) : Bool := op == power

/-- Whether the operator decides by its left side if it needs its right one. -/
def isLogical : BinaryOp → Bool
  | or | and | nullish => true
  | _ => false

def ofToken? (token : Token) : Option BinaryOp :=
  match token.kind with
  | .sign .equalEqual => some equal
  | .sign .bangEqual => some notEqual
  | .sign .equalEqualEqual => some same
  | .sign .bangEqualEqual => some notSame
  | .sign .less => some less
  | .sign .lessEqual => some lessEqual
  | .sign .greater => some greater
  | .sign .greaterEqual => some greaterEqual
  | .sign .shiftLeft => some shiftLeft
  | .sign .shiftRight => some shiftRight
  | .sign .shiftRightZero => some shiftRightZero
  | .sign .plus => some add
  | .sign .minus => some subtract
  | .sign .star => some multiply
  | .sign .slash => some divide
  | .sign .percent => some remainder
  | .sign .bar => some bitOr
  | .sign .caret => some bitXor
  | .sign .amp => some bitAnd
  | .name _ (some .in_) => some in_
  | .name _ (some .instanceof_) => some instanceof_
  | .sign .starStar => some power
  | .sign .barBar => some or
  | .sign .ampAmp => some and
  | .sign .questionQuestion => some nullish
  | _ => none

end BinaryOp

/-- Operators that assign. -/
inductive AssignOp where
  | plain
  | with_ (op : BinaryOp)
deriving DecidableEq, Repr

namespace AssignOp

def text : AssignOp → String
  | plain => "="
  | with_ op => op.text ++ "="

def ofToken? (token : Token) : Option AssignOp :=
  match token.sign? with
  | some .equal => some plain
  | some .plusEqual => some (with_ .add)
  | some .minusEqual => some (with_ .subtract)
  | some .starEqual => some (with_ .multiply)
  | some .slashEqual => some (with_ .divide)
  | some .percentEqual => some (with_ .remainder)
  | some .starStarEqual => some (with_ .power)
  | some .shiftLeftEqual => some (with_ .shiftLeft)
  | some .shiftRightEqual => some (with_ .shiftRight)
  | some .shiftRightZeroEqual => some (with_ .shiftRightZero)
  | some .ampEqual => some (with_ .bitAnd)
  | some .barEqual => some (with_ .bitOr)
  | some .caretEqual => some (with_ .bitXor)
  | some .ampAmpEqual => some (with_ .and)
  | some .barBarEqual => some (with_ .or)
  | some .questionQuestionEqual => some (with_ .nullish)
  | _ => none

end AssignOp

end Bundler.Script
