import Mos6502.Text.Cluster.Ranges
import Mos6502.Text.Range

/-!
# Clusters of characters

Text cut into clusters, which a reader takes for one character each: a letter with its marks, a syllable, a flag, a
pictograph made of several.
-/

namespace Mos6502

namespace Cluster

/-- How a character goes with those beside it. -/
inductive Kind where
  | carriageReturn
  | lineFeed
  | control
  /-- A consonant at the beginning of a Korean syllable. -/
  | initial
  /-- A vowel of a Korean syllable, or a vowel sign that goes with others in the same way. -/
  | medial
  /-- A consonant at the end of a Korean syllable. -/
  | final
  /-- A Korean syllable that ends in a vowel. -/
  | openSyllable
  /-- A Korean syllable that ends in a consonant. -/
  | closedSyllable
  /-- A mark on the character before it. -/
  | mark
  /-- A mark that keeps characters apart. -/
  | nonJoiner
  /-- A mark that joins characters. -/
  | joiner
  /-- A mark between two consonants. -/
  | linker
  /-- A mark beside the character before it. -/
  | spacingMark
  /-- A mark of the character after it. -/
  | prependedMark
  /-- A half of a flag. -/
  | regional
  | pictograph
  /-- A consonant that can be linked. -/
  | consonant
  | other
  deriving DecidableEq, Repr

/-- The first of the composed Korean syllables; every 28 there is one without a consonant at its end. -/
def firstSyllable : Nat := 0xac00

/-- The kind of a character that makes up syllables as in the Korean script, if it is one. -/
def syllabicKind? (code : Nat) : Option Kind :=
  if (0x1100 ≤ code && code ≤ 0x115f) || (0xa960 ≤ code && code ≤ 0xa97c) then some .initial
  else if (0x1160 ≤ code && code ≤ 0x11a7) || (0xd7b0 ≤ code && code ≤ 0xd7c6) then some .medial
  else if code = 0x16d63 || (0x16d67 ≤ code && code ≤ 0x16d6a) then some .medial
  else if (0x11a8 ≤ code && code ≤ 0x11ff) || (0xd7cb ≤ code && code ≤ 0xd7fb) then some .final
  else if firstSyllable ≤ code && code ≤ 0xd7a3 then
    some (if (code - firstSyllable) % 28 = 0 then .openSyllable else .closedSyllable)
  else none

/-- The kind of a character. -/
def Kind.ofChar (c : Char) : Kind :=
  if ' ' ≤ c && c ≤ '~' then .other
  else if c = '\r' then .carriageReturn
  else if c = '\n' then .lineFeed
  else if inRanges controlRanges c then .control
  else if c = '\u200c' then .nonJoiner
  else if c = '\u200d' then .joiner
  else if inRanges linkerRanges c then .linker
  else if inRanges extendRanges c then .mark
  else if inRanges spacingRanges c then .spacingMark
  else if inRanges prependRanges c then .prependedMark
  else if inRanges consonantRanges c then .consonant
  else if inRanges pictographRanges c then .pictograph
  else if inRanges [(0x1f1e6, 0x1f1ff)] c then .regional
  else (syllabicKind? c.toNat).getD .other

/-- Whether a kind cannot go with any other, but for the two halves of a line break. -/
def Kind.isControl (k : Kind) : Bool :=
  k = .carriageReturn || k = .lineFeed || k = .control

/-- Whether a kind is a mark on the character before it. -/
def Kind.extends (k : Kind) : Bool :=
  k = .mark || k = .nonJoiner || k = .linker

/-- Whether two kinds go together in a syllable. -/
def inSyllable : Kind → Kind → Bool
  | .initial, .initial | .initial, .medial | .initial, .openSyllable | .initial, .closedSyllable => true
  | .openSyllable, .medial | .openSyllable, .final | .medial, .medial | .medial, .final => true
  | .closedSyllable, .final | .final, .final => true
  | _, _ => false

/-- Whether a consonant after the given kinds, latest first, is linked to a consonant before. -/
def linked (before : List Kind) : Bool :=
  let isLink (k : Kind) : Bool := k = .mark || k = .joiner || k = .linker
  (before.takeWhile isLink).contains .linker && (before.dropWhile isLink).head? = some .consonant

/-- Whether a pictograph after the given kinds, latest first, is joined to a pictograph before. -/
def pictured : List Kind → Bool
  | .joiner :: before => (before.dropWhile Kind.extends).head? = some .pictograph
  | _ => false

/-- Whether a half of a flag after the given kinds, latest first, is the second half. -/
def paired (before : List Kind) : Bool :=
  (before.takeWhile (· = .regional)).length % 2 = 1

/-- Whether a character is in the cluster of those before it, whose kinds are given, latest first. -/
def continues (before : List Kind) (next : Kind) : Bool :=
  match before.head? with
  | none => false
  | some last =>
    if last.isControl || next.isControl then last = .carriageReturn && next = .lineFeed
    else
      inSyllable last next || next.extends || next = .joiner || next = .spacingMark || last = .prependedMark
        || (next = .consonant && linked before) || (next = .pictograph && pictured before)
        || (next = .regional && paired before)

/-- The clusters from one that has begun, with the kinds of the characters so far, latest first. -/
def clustersFrom (before : List Kind) (current : List Char) : List Char → List (List Char)
  | [] => [current]
  | c :: rest =>
    let kind := Kind.ofChar c
    if continues before kind then clustersFrom (kind :: before) (current ++ [c]) rest
    else current :: clustersFrom (kind :: before) [c] rest

end Cluster

/-- The clusters of a text. -/
def clusters : List Char → List (List Char)
  | [] => []
  | c :: rest => Cluster.clustersFrom [Cluster.Kind.ofChar c] [c] rest

end Mos6502
