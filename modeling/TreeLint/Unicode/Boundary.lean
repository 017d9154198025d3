import TreeLint.Unicode.Property
import TreeLint.Unicode.Script

/-!
# Boundaries in texts

Unicode divides texts into clusters, words and sentences by classes of characters. The classes of
version 16 are put together from other properties and a few further characters; what is in no class
has no influence on where a boundary lies.

## Main definitions

* `TreeLint.Unicode.BreakClass` — a class of characters with its names.
* `TreeLint.Unicode.clusterClasses`, `TreeLint.Unicode.wordClasses`,
  `TreeLint.Unicode.sentenceClasses` — the classes for the three kinds of boundary.
-/

namespace TreeLint.Unicode

/-- A class of characters that decides about boundaries. -/
structure BreakClass where
  /-- The loose names of the class. -/
  names : List String
  /-- The members of the class. -/
  set : CodeSet

/-- The members of a script. -/
def scriptSet (name : String) : CodeSet := (Script.find? name).elim .empty Script.set

/-- Invisible copies of ASCII characters that continue a flag. -/
def tagSet : CodeSet := .ofRange 0xe0020 0xe007f

/-! ## Clusters -/

/-- Letters that stand before the rest of their cluster. -/
def otherPrepend : CodeSet := .ofText "
d4e 111c2-111c3 113d1 1193f 11941 11a3a 11a84-11a89 11d46 11f02"

/-- Marks with room of their own that do not join the cluster before them. -/
def separateSpacing : CodeSet := .ofText "
102b-102c 1038 1062-1064 1067-106d 1083 1087-108c 108f 109a-109c 1a61 1a63-1a64 aa7b aa7d
11720-11721"

/-- The syllables of Hangul that end with their vowel: every twenty-eighth of them. -/
def openSyllable : CodeSet := .ofList ((List.range 399).map fun i => 0xac00 + 28 * i)

/-- The classes for boundaries of clusters. -/
def clusterClasses : List BreakClass := [
  ⟨["cn", "control"], (CodeSet.unions [Category.lineSeparatorSet, Category.paragraphSeparatorSet,
    Category.controlSet, Category.formatSet, Category.unassignedSet.inter defaultIgnorable]).diff
      (.unions [.ofList [0xa, 0xd], joinControl, prependedConcatenationMark, tagSet])⟩,
  ⟨["cr"], .single 0xd⟩,
  ⟨["ex", "extend"], graphemeExtend.union emojiModifier⟩,
  ⟨["l"], .ofText "1100-115f a960-a97c"⟩,
  ⟨["lf"], .single 0xa⟩,
  ⟨["lv"], openSyllable⟩,
  ⟨["lvt"], (CodeSet.ofRange 0xac00 0xd7a3).diff openSyllable⟩,
  ⟨["pp", "prepend"], prependedConcatenationMark.union otherPrepend⟩,
  ⟨["ri", "regionalindicator"], regionalIndicator⟩,
  ⟨["sm", "spacingmark"],
    (Category.spacingMarkSet.diff (.unions [graphemeExtend, separateSpacing])).union
      (.ofList [0xe33, 0xeb3])⟩,
  ⟨["t"], .ofText "11a8-11ff d7cb-d7fb"⟩,
  ⟨["v"], .ofText "1160-11a7 d7b0-d7c6 16d63 16d67-16d6a"⟩,
  ⟨["zwj"], .single 0x200d⟩]

/-! ## Words -/

/-- Signs that count as letters of words. -/
def letterSign : CodeSet := .ofText "
2c2-2c5 2d2-2d7 2de-2df 2e5-2eb 2ed 2ef-2ff 55a-55c 55e 58a 5f3 70f a708-a716 a720-a721 a789-a78a
ab5b"

/-- Letters of scripts that put no blanks between words. -/
def spaceless : CodeSet := .ofText "
e01-e30 e32-e33 e40-e46 e81-e82 e84 e86-e8a e8c-ea3 ea5 ea7-eb0 eb2-eb3 ebd ec0-ec4 ec6 edc-edf
1000-102a 103f 1050-1055 105a-105d 1061 1065-1066 106e-1070 1075-1081 108e 1780-17b3 17d7 17dc
1950-196d 1970-1974 1980-19ab 19b0-19c9 1a20-1a54 1aa7 a9e0-a9e4 a9e6-a9ef a9fa-a9fe aa60-aa76 aa7a
aa7e-aaaf aab1 aab5-aab6 aab9-aabd aac0 aac2 aadb-aadd 11700-1171a 11740-11746"

/-- Punctuation that stands between digits of a number. -/
def midNum : CodeSet := .ofText "2c 3b 37e 589 60c-60d 66c 7f8 2044 fe50 fe54 ff0c ff1b"

/-- Signs that count as Katakana. -/
def kanaSign : CodeSet := .ofText "3031-3035 309b-309c 30a0 30fc ff70"

/-- Characters that continue a word, without being its letters. -/
def wordExtend : CodeSet := .unions [graphemeExtend, Category.spacingMarkSet, emojiModifier]

/-- The letters of Hebrew. -/
def hebrewLetter : CodeSet := (scriptSet "hebr").inter Category.otherLetterSet

/-- Katakana. -/
def kanaLetter : CodeSet := (scriptSet "kana").union kanaSign

/-- Digits and what is written around numbers. -/
def wordNumeric : CodeSet :=
  .unions [Category.decimalNumberSet, prependedConcatenationMark.diff (.single 0x70f),
    .ofList [0x66b, 0x19da]]

/-- The classes for boundaries of words. -/
def wordClasses : List BreakClass := [
  ⟨["le", "aletter"],
    ((alphabetic.diff (.unions [ideographic, kanaLetter, scriptSet "hira", wordExtend])).diff
      (hebrewLetter.union spaceless)).union letterSign⟩,
  ⟨["cr"], .single 0xd⟩,
  ⟨["dq", "doublequote"], .single 0x22⟩,
  ⟨["extend"], wordExtend⟩,
  ⟨["ex", "extendnumlet"], Category.connectorPunctuationSet.union (.single 0x202f)⟩,
  ⟨["fo", "format"],
    Category.formatSet.diff (.unions [.ofRange 0x200b 0x200d, prependedConcatenationMark, tagSet])⟩,
  ⟨["hl", "hebrewletter"], hebrewLetter⟩,
  ⟨["ka", "katakana"], kanaLetter⟩,
  ⟨["lf"], .single 0xa⟩,
  ⟨["ml", "midletter"], midLetter⟩,
  ⟨["mn", "midnum"], midNum⟩,
  ⟨["mb", "midnumlet"], midNumLet⟩,
  ⟨["nl", "newline"], .ofText "b-c 85 2028-2029"⟩,
  ⟨["nu", "numeric"], wordNumeric⟩,
  ⟨["ri", "regionalindicator"], regionalIndicator⟩,
  ⟨["sq", "singlequote"], .single 0x27⟩,
  ⟨["wsegspace"], Category.spaceSeparatorSet.diff (.ofList [0xa0, 0x2007, 0x202f])⟩,
  ⟨["zwj"], .single 0x200d⟩]

/-! ## Sentences -/

/-- Punctuation within sentences. -/
def sentenceContinue : CodeSet := .ofText "
2c-2d 3a-3b 37e 55d 60c-60d 7f8 1802 1808 2013-2014 3001 fe10-fe11 fe13-fe14 fe31-fe32 fe50-fe51
fe54-fe55 fe58 fe63 ff0c-ff0d ff1a-ff1b ff64"

/-- Full stops, which end a sentence or an abbreviation. -/
def sentenceDot : CodeSet := .ofText "2e 2024 fe52 ff0e"

/-- Ornaments and signs that stand around sentences. -/
def otherClose : CodeSet := .ofText "275b-2760 2e00-2e01 2e06-2e08 2e0b 1f676-1f678"

/-- Georgian letters whose capitals are used for whole words only. -/
def georgianSmall : CodeSet := .ofRanges [(0x10d0, 0x10fa), (0x10fd, 0x10ff)]

/-- Capital letters as Georgian uses them for whole words. -/
def georgianCapital : CodeSet := .ofRanges [(0x1c90, 0x1cba), (0x1cbd, 0x1cbf)]

/-- Characters that continue a sentence without influence on it. -/
def sentenceExtend : CodeSet :=
  .unions [graphemeExtend, Category.spacingMarkSet, .single 0x200d]

/-- Small letters at the beginning of which no sentence starts. -/
def sentenceLower : CodeSet := lowercase.diff (graphemeExtend.union georgianSmall)

/-- Capital letters, with which a sentence can start. -/
def sentenceUpper : CodeSet := (uppercase.union Category.titlecaseLetterSet).diff georgianCapital

/-- The classes for boundaries of sentences. -/
def sentenceClasses : List BreakClass := [
  ⟨["at", "aterm"], sentenceDot⟩,
  ⟨["cl", "close"],
    (CodeSet.unions [Category.openPunctuationSet, Category.closePunctuationSet,
      Category.initialPunctuationSet, Category.finalPunctuationSet, quotationMark,
      otherClose]).diff (.ofList [0xff02, 0xff07])⟩,
  ⟨["cr"], .single 0xd⟩,
  ⟨["ex", "extend"], sentenceExtend⟩,
  ⟨["fo", "format"],
    Category.formatSet.diff
      (.unions [joinControl, prependedConcatenationMark.diff (.single 0x70f), tagSet])⟩,
  ⟨["le", "oletter"],
    (alphabetic.union (.single 0x5f3)).diff
      (.unions [sentenceLower, sentenceUpper, sentenceExtend])⟩,
  ⟨["lf"], .single 0xa⟩,
  ⟨["lo", "lower"], sentenceLower⟩,
  ⟨["nu", "numeric"], wordNumeric.union (.single 0x66c)⟩,
  ⟨["sc", "scontinue"], sentenceContinue⟩,
  ⟨["se", "sep"], .ofList [0x85, 0x2028, 0x2029]⟩,
  ⟨["sp"], whiteSpace.diff (.ofList [0xa, 0xd, 0x85, 0x2028, 0x2029])⟩,
  ⟨["st", "sterm"], sentenceTerminal.diff sentenceDot⟩,
  ⟨["up", "upper"], sentenceUpper⟩]

/-- The class with a loose name. -/
def BreakClass.find? (classes : List BreakClass) (name : String) : Option BreakClass :=
  classes.find? fun c => c.names.contains name

end TreeLint.Unicode
