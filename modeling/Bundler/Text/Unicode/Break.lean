import Bundler.Text.Unicode.Binary
import Bundler.Text.Unicode.Script

/-!
# Break classes

The classes by which a text is divided into clusters, words and sentences.
-/

namespace Bundler.Text.Unicode

def numberMark : CharSet := prependedMark.diff (.range 0x70f 0x70f)

namespace ClusterBreak

def extend : CharSet := graphemeExtend.union emojiModifier

def control : CharSet :=
  (CharSet.unions [categorySet fun c =>
    [.lineSeparator, .paragraphSeparator, .control, .format].contains c,
    Category.unassigned.set.inter defaultIgnorable]).diff
    (.unions [.ofText "a d 200c-200d", prependedMark, graphemeExtend])

def spacingMark : CharSet :=
  (Category.spacingMark.set.diff (graphemeExtend.union <| .ofText <| String.join [
    "102b-102c 1038 1062-1064 1067-106d 1083 1087-108c 108f 109a-109c 1a61 1a63-1a64 aa7b aa7d ",
    "11720-11721"])).union (.ofText "e33 eb3")

def prepend : CharSet :=
  prependedMark.union
    (.ofText "d4e 111c2-111c3 113d1 1193f 11941 11a3a 11a84-11a89 11d46 11f02")

/-- Syllables without a final consonant. -/
def openSyllable : CharSet := .ofCodes ((List.range 399).map fun n => 0xac00 + 28 * n)

/-- The class with a name, which is in lower case and without separators. -/
def set? : String → Option CharSet
  | "control" | "cn" => some control
  | "cr" => some (.single '\r')
  | "extend" | "ex" => some extend
  | "l" => some (.ofText "1100-115f a960-a97c")
  | "lf" => some (.single '\n')
  | "lv" => some openSyllable
  | "lvt" => some ((CharSet.range 0xac00 0xd7a3).diff openSyllable)
  | "prepend" | "pp" => some prepend
  | "regionalindicator" | "ri" => some regionalIndicator
  | "spacingmark" | "sm" => some spacingMark
  | "t" => some (.ofText "11a8-11ff d7cb-d7fb")
  | "v" => some (.ofText "1160-11a7 d7b0-d7c6 16d63 16d67-16d6a")
  | "zwj" => some (.range 0x200d 0x200d)
  | _ => none

end ClusterBreak

namespace WordBreak

def extend : CharSet := .unions [graphemeExtend, Category.spacingMark.set, emojiModifier]

def format : CharSet :=
  Category.format.set.diff (.unions [extend, prependedMark, .ofText "200b 200d"])

def scriptSet (name : String) : CharSet := ((Script.ofName? name).map Script.set).getD .empty

def katakana : CharSet :=
  (scriptSet "kana").union (.ofText "3031-3035 309b-309c 30a0 30fc ff70")

def hebrewLetter : CharSet := (scriptSet "hebr").inter Category.otherLetter.set

/-- Letters of scripts that are written without blanks. -/
def unspaced : CharSet := .ofText <| String.join [
  "e01-e30 e32-e33 e40-e46 e81-e82 e84 e86-e8a e8c-ea3 ea5 ea7-eb0 eb2-eb3 ebd ec0-ec4 ec6 ",
  "edc-edf 1000-102a 103f 1050-1055 105a-105d 1061 1065-1066 106e-1070 1075-1081 108e ",
  "1780-17b3 17d7 17dc 1950-196d 1970-1974 1980-19ab 19b0-19c9 1a20-1a54 1aa7 a9e0-a9e4 ",
  "a9e6-a9ef a9fa-a9fe aa60-aa76 aa7a aa7e-aaaf aab1 aab5-aab6 aab9-aabd aac0 aac2 aadb-aadd ",
  "11700-1171a 11740-11746"]

def letter : CharSet :=
  (alphabetic.diff (.unions
    [ideographic, katakana, scriptSet "hira", extend, hebrewLetter, unspaced])).union <| .ofText <|
      String.join [
        "2c2-2c5 2d2-2d7 2de-2df 2e5-2eb 2ed 2ef-2ff 55a-55c 55e 58a 5f3 70f a708-a716 ",
        "a720-a721 a789-a78a ab5b"]

/-- The class with a name, which is in lower case and without separators. -/
def set? : String → Option CharSet
  | "aletter" | "le" => some letter
  | "cr" => some (.single '\r')
  | "doublequote" | "dq" => some (.single '"')
  | "extend" => some extend
  | "extendnumlet" | "ex" =>
    some (Category.connectorPunctuation.set.union (.range 0x202f 0x202f))
  | "format" | "fo" => some format
  | "hebrewletter" | "hl" => some hebrewLetter
  | "katakana" | "ka" => some katakana
  | "lf" => some (.single '\n')
  | "midletter" | "ml" => some (.ofText "3a b7 387 55f 5f4 2027 fe13 fe55 ff1a")
  | "midnum" | "mn" =>
    some (.ofText "2c 3b 37e 589 60c-60d 66c 7f8 2044 fe10 fe14 fe50 fe54 ff0c ff1b")
  | "midnumlet" | "mb" => some (.ofText "2e 2018-2019 2024 fe52 ff07 ff0e")
  | "newline" | "nl" => some (.ofText "b-c 85 2028-2029")
  | "numeric" | "nu" =>
    some (.unions [Category.decimalNumber.set, .range 0x66b 0x66b, numberMark])
  | "regionalindicator" | "ri" => some regionalIndicator
  | "singlequote" | "sq" => some (.single '\'')
  | "wsegspace" => some (.ofText "20 1680 2000-2006 2008-200a 205f 3000")
  | "zwj" => some (.range 0x200d 0x200d)
  | _ => none

end WordBreak

namespace SentenceBreak

def extend : CharSet :=
  .unions [graphemeExtend, Category.spacingMark.set, .range 0x200d 0x200d]

/-- Letters of lower case; letters of the script without capitals at sentence starts are none. -/
def lower : CharSet := lowercase.diff (extend.union (.ofText "10d0-10fa 10fd-10ff"))

def upper : CharSet :=
  (uppercase.union Category.titlecaseLetter.set).diff (.ofText "1c90-1cba 1cbd-1cbf")

/-- Letters without case. -/
def letter : CharSet :=
  (alphabetic.diff (.unions [lower, upper, extend])).union (.ofText "5f3 70f")

def close : CharSet :=
  ((categorySet fun c =>
    [.openPunctuation, .closePunctuation, .initialPunctuation, .finalPunctuation].contains c).union
      (quotationMark.union (.ofText "275b-2760 2e00-2e01 2e06-2e08 2e0b 1f676-1f678"))).diff
    (.ofText "ff02 ff07")

/-- Points, which end a sentence or not. -/
def point : CharSet := .ofText "2e 2024 fe52 ff0e"

/-- The class with a name, which is in lower case and without separators. -/
def set? : String → Option CharSet
  | "aterm" | "at" => some point
  | "close" | "cl" => some close
  | "cr" => some (.single '\r')
  | "extend" | "ex" => some extend
  | "format" | "fo" =>
    some (Category.format.set.diff (.unions [extend, prependedMark, .range 0x200c 0x200c]))
  | "oletter" | "le" => some letter
  | "lf" => some (.single '\n')
  | "lower" | "lo" => some lower
  | "numeric" | "nu" =>
    some (.unions [Category.decimalNumber.set, .range 0x66b 0x66c, numberMark])
  | "scontinue" | "sc" => some <| .ofText <| String.join [
    "2c-2d 3a-3b 37e 55d 60c-60d 7f8 1802 1808 2013-2014 3001 fe10-fe11 fe13-fe14 fe31-fe32 ",
    "fe50-fe51 fe54-fe55 fe58 fe63 ff0c-ff0d ff1a-ff1b ff64"]
  | "sep" | "se" => some (.ofText "85 2028-2029")
  | "sp" => some (whiteSpace.diff (.ofText "a d 85 2028-2029"))
  | "sterm" | "st" => some (sentenceTerminal.diff point)
  | "upper" | "up" => some upper
  | _ => none

end SentenceBreak

end Bundler.Text.Unicode
