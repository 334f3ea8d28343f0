import Bundler.Text.Hex
import Bundler.Text.Unicode.Property

/-!
# Inspected text

Texts as they are shown to a developer: in double quotes, with escapes for quotes, control
characters and every character that would not show.
-/

namespace Bundler.Text

def inspectChar (c : Char) : List Char :=
  match c with
  | '\x00' => ['\\', '0']
  | '\t' => ['\\', 't']
  | '\r' => ['\\', 'r']
  | '\n' => ['\\', 'n']
  | '"' => ['\\', '"']
  | '\\' => ['\\', '\\']
  | c =>
    if Unicode.isVisible c && !Unicode.isGraphemeExtend c then [c]
    else ['\\', 'u', '\x7b'] ++ hexDigits c.toNat ++ ['\x7d']

def inspect (text : String) : String :=
  String.ofList ('"' :: text.toList.flatMap inspectChar ++ ['"'])

def inspectList (texts : List String) : String :=
  "[" ++ ", ".intercalate (texts.map inspect) ++ "]"

end Bundler.Text
