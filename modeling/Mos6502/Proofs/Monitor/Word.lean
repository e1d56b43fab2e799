import Mos6502.Proofs.Monitor.Language
import Mos6502.Proofs.Text.Word

/-!
# The words of a command

The words of a line are what its spaces separate.  The parts of a command for the memory need no spaces between them, so
they are not its words: they are what its words give when they are run together.  The keyword, the address and the number
of lines are words of their own exactly when the line begins with a keyword and the word after it is an address
(`parse_memory_words`).  A word of five digits is no address, but the monitor cuts it in two and takes it.
-/

namespace Mos6502

namespace Monitor

open Hexadecimal (IsLiteral)

/-- The words are a keyword, an address and perhaps a number of lines. -/
inductive WholeWords : List (List Char) → UInt16 → UInt64 → Prop where
  | default {keyword : String} {second : List Char} {address : UInt16} (hkeyword : keyword ∈ memoryWords)
      (hsecond : Hexadecimal.parse? (String.ofList second) = some address) :
    WholeWords [keyword.toList, second] address defaultLines
  | given {keyword : String} {second third : List Char} {address : UInt16} {lines : UInt64}
      (hkeyword : keyword ∈ memoryWords) (hsecond : Hexadecimal.parse? (String.ofList second) = some address)
      (hthird : lineCount (String.ofList third) = .ok lines) :
    WholeWords [keyword.toList, second, third] address lines

variable {line : String} {before body gap address more count after chars : List Char} {value : UInt16} {lines : UInt64}

/-! ### The parts of a command -/

theorem not_isSpace_of_mem_memoryWords : ∀ word ∈ memoryWords, ∀ c ∈ word.toList, ¬isSpace c := by
  simp [memoryWords, isSpace]

theorem toList_ne_nil_of_mem_memoryWords : ∀ word ∈ memoryWords, word.toList ≠ [] := by
  simp [memoryWords]

/-- No word for the memory is another one with an address after it. -/
theorem toList_ne_append {word keyword : String} (hword : word ∈ memoryWords) (hkeyword : keyword ∈ memoryWords)
    (haddress : IsLiteral address value) : keyword.toList ≠ word.toList ++ address := by
  have hm : 'm' ∉ address := by
    simpa using not_mem_arguments (List.forall_mem_nil _) haddress Lines.default (List.forall_mem_nil _)
  have hne := ne_nil_of_isLiteral haddress
  intro h
  simp only [memoryWords, List.mem_cons, List.not_mem_nil, or_false] at hword hkeyword
  obtain rfl | rfl := hword <;> obtain rfl | rfl := hkeyword
  · exact hne (List.self_eq_append_right.1 h)
  · simp at h
  · have hmory : ['e', 'm', 'o', 'r', 'y'] = address := by simpa using h
    exact hm (hmory ▸ by simp)
  · exact hne (List.self_eq_append_right.1 h)

/-- An address and what can follow it, perhaps after other characters that are no spaces: a single word, or two of which
the second is the number of lines. -/
theorem words_address_lines (hbefore : ∀ c ∈ before, ¬isSpace c) (haddress : IsLiteral address value)
    (hmore : Lines more lines) :
    (wordsBy isSpace (before ++ address ++ more) = [before ++ address ++ more] ∧
      (more = [] ∧ lines = defaultLines ∨ IsCount more lines)) ∨
    ∃ count, IsCount count lines ∧ wordsBy isSpace (before ++ address ++ more) = [before ++ address, count] := by
  have hne : before ++ address ≠ [] := List.append_ne_nil_of_right_ne_nil _ (ne_nil_of_isLiteral haddress)
  have hword : ∀ c ∈ before ++ address, ¬isSpace c :=
    List.forall_mem_append.2 ⟨hbefore, not_isSpace_of_isLiteral haddress⟩
  cases hmore with
  | default =>
    rw [List.append_nil]
    exact Or.inl ⟨wordsBy_eq_singleton hne hword, Or.inl ⟨rfl, rfl⟩⟩
  | @given gap count lines hgap hcount =>
    by_cases hgapnil : gap = []
    · subst hgapnil
      refine Or.inl ⟨?_, Or.inr hcount⟩
      exact wordsBy_eq_singleton (List.append_ne_nil_of_left_ne_nil hne _)
        (List.forall_mem_append.2 ⟨hword, not_isSpace_of_isCount hcount⟩)
    · refine Or.inr ⟨count, hcount, ?_⟩
      rw [← List.append_assoc, wordsBy_append_gap hgap hgapnil, wordsBy_eq_singleton hne hword,
        wordsBy_eq_singleton (List.length_pos_iff.1 hcount.1) (not_isSpace_of_isCount hcount)]
      rfl

theorem exists_address_of_wholeWords {ws : List (List Char)} (h : WholeWords ws value lines) :
    ∃ keyword ∈ memoryWords, ∃ second others, ws = keyword.toList :: second :: others ∧
      (Hexadecimal.parse? (String.ofList second)).isSome := by
  cases h with
  | default hkeyword hsecond => exact ⟨_, hkeyword, _, _, rfl, Option.isSome_of_eq_some hsecond⟩
  | given hkeyword hsecond => exact ⟨_, hkeyword, _, _, rfl, Option.isSome_of_eq_some hsecond⟩

/-- The words of a command for the memory: its keyword, its address and its number of lines, of which any two that have no
space between them are one word. -/
theorem words_of_names (h : Names body (.memory value lines)) :
    ∃ keyword ∈ memoryWords, ∃ address count, IsLiteral address value ∧
      (count = [] ∧ lines = defaultLines ∨ IsCount count lines) ∧
      (wordsBy isSpace body = [keyword.toList ++ address ++ count] ∨
        wordsBy isSpace body = [keyword.toList ++ address, count] ∨
        (wordsBy isSpace body = [keyword.toList, address ++ count] ∧ IsLongest address count) ∨
        (wordsBy isSpace body = [keyword.toList, address, count] ∧ IsCount count lines)) := by
  obtain ⟨word, hword, gap, address, more, rfl, hgap, haddress, hlongest, hmore⟩ := exists_arguments_of_names h
  have hkeyword := not_isSpace_of_mem_memoryWords word hword
  refine ⟨word, hword, address, ?_⟩
  by_cases hgapnil : gap = []
  · subst hgapnil
    rw [List.append_nil]
    obtain ⟨hwords, hcount⟩ | ⟨count, hcount, hwords⟩ := words_address_lines hkeyword haddress hmore
    · exact ⟨more, haddress, hcount, Or.inl hwords⟩
    · exact ⟨count, haddress, Or.inr hcount, Or.inr (Or.inl hwords)⟩
  · have hsplit : wordsBy isSpace (word.toList ++ gap ++ address ++ more) =
        word.toList :: wordsBy isSpace ([] ++ address ++ more) := by
      rw [List.append_assoc _ address, wordsBy_append_gap hgap hgapnil,
        wordsBy_eq_singleton (toList_ne_nil_of_mem_memoryWords word hword) hkeyword]
      rfl
    rw [hsplit]
    obtain ⟨hwords, hcount⟩ | ⟨count, hcount, hwords⟩ := words_address_lines (List.forall_mem_nil _) haddress hmore
    · rw [hwords]
      exact ⟨more, haddress, hcount, Or.inr (Or.inr (Or.inl ⟨rfl, hlongest⟩))⟩
    · rw [hwords]
      exact ⟨count, haddress, Or.inr hcount, Or.inr (Or.inr (Or.inr ⟨rfl, hcount⟩))⟩

/-- The words of a command for the memory, run together, are its keyword, its address and its number of lines.  They are
these parts one by one exactly if a keyword is the first of them and the second is an address. -/
theorem parse_memory_words (h : Command.parse line = .ok (.memory value lines)) :
    (∃ keyword ∈ memoryWords, ∃ address count,
      (wordsBy isSpace line.toList).flatten = keyword.toList ++ address ++ count ∧ IsLiteral address value ∧
      (count = [] ∧ lines = defaultLines ∨ IsCount count lines)) ∧
    (WholeWords (wordsBy isSpace line.toList) value lines ↔
      ∃ keyword ∈ memoryWords, ∃ second others, wordsBy isSpace line.toList = keyword.toList :: second :: others ∧
        (Hexadecimal.parse? (String.ofList second)).isSome) := by
  obtain ⟨keyword, hkeyword, address, count, haddress, hcount, hwords⟩ := words_of_names (names_of_parse h)
  rw [wordsBy_trim] at hwords
  refine ⟨⟨keyword, hkeyword, address, count, ?_, haddress, hcount⟩, exists_address_of_wholeWords, ?_⟩
  · obtain hwords | hwords | ⟨hwords, -⟩ | ⟨hwords, -⟩ := hwords <;> simp [hwords]
  rintro ⟨first, hfirst, second, others, hsplit, hsecond⟩
  have hread := Hexadecimal.parse?_of_isLiteral haddress
  obtain hwords | hwords | ⟨hwords, hlongest⟩ | ⟨hwords, hcount⟩ := hwords
  · rw [hwords] at hsplit
    exact absurd (congrArg List.length hsplit) (by simp)
  · rw [hwords] at hsplit
    exact absurd (List.cons.inj hsplit).1.symm (toList_ne_append hkeyword hfirst haddress)
  · obtain ⟨rfl, rfl⟩ | hcount := hcount
    · rw [hwords, List.append_nil]
      exact WholeWords.default hkeyword hread
    · -- the digits after the address would make it longer
      rw [hwords] at hsplit
      obtain rfl : address ++ count = second := (List.cons.inj (List.cons.inj hsplit).2).1
      obtain ⟨value', hvalue'⟩ := Option.isSome_iff_exists.1 hsecond
      have hliteral : IsLiteral (address ++ count) value' :=
        Hexadecimal.isLiteral_of_parse? hvalue' (List.forall_mem_append.2
          ⟨Hexadecimal.not_isBlank_of_isLiteral haddress,
            fun c hc => Hexadecimal.not_isBlank_of_isDigit ((hcount.2.2.1 c hc).mono (by decide))⟩)
      have hle := hlongest _ _ hliteral List.prefix_rfl
      have hone := hcount.1
      rw [List.length_append] at hle
      omega
  · rw [hwords]
    exact WholeWords.given hkeyword hread (lineCount_of_isCount hcount)

theorem parse_memory_words_spaced :
    Command.parse "m $1f0 2" = .ok (.memory 0x01f0 2) ∧ WholeWords (wordsBy isSpace "m $1f0 2".toList) 0x01f0 2 := by
  have h : Command.parse "m $1f0 2" = .ok (.memory 0x01f0 2) := by rfl
  have hwords : wordsBy isSpace "m $1f0 2".toList = ["m".toList, "$1f0".toList, "2".toList] := by decide +kernel
  refine ⟨h, (parse_memory_words h).2.2 ⟨"m", by decide, "$1f0".toList, ["2".toList], hwords, by decide +kernel⟩⟩

/-- A fifth digit ends the address and begins the number of lines, although the word is no address. -/
theorem parse_divided_word :
    Command.parse "m 12345" = .ok (.memory 0x1234 5) ∧ wordsBy isSpace "m 12345".toList = ["m".toList, "12345".toList] ∧
      readHexadecimal "12345" = .error (.hexadecimal "12345") ∧
      ¬WholeWords (wordsBy isSpace "m 12345".toList) 0x1234 5 := by
  have hparse : Command.parse "m 12345" = .ok (.memory 0x1234 5) := by rfl
  have hwords : wordsBy isSpace "m 12345".toList = ["m".toList, "12345".toList] := by decide +kernel
  refine ⟨hparse, hwords, by decide +kernel, ?_⟩
  rw [hwords]
  intro h
  obtain ⟨_, -, second, others, hsplit, hsecond⟩ := exists_address_of_wholeWords h
  obtain rfl : "12345".toList = second := (List.cons.inj (List.cons.inj hsplit).2).1
  exact absurd hsecond (by decide +kernel)

end Monitor

end Mos6502
