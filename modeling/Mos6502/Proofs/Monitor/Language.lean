import Mos6502.Proofs.Monitor.Token

/-!
# The language of the monitor

A line without the spaces at its ends is nothing, a word that is a command by itself, or a word for the memory with an
address and perhaps a number of lines (`InLanguage`).  Exactly these lines are commands.  Which command a line is
(`Names`) depends on where its address ends, if digits go on after it: the address is the longest that stands there.
A line that is no command is malformed; none is refused for the value of its address or its number of lines.
-/

namespace Mos6502

namespace Monitor

open Hexadecimal (IsLiteral)

/-! ### Lines that are commands -/

/-- The words that are commands by themselves. -/
def plainWords : List (String × Command) :=
  [("step", .step), ("s", .step), ("continue", .continue), ("c", .continue), ("quit", .quit), ("q", .quit),
    ("registers", .registers), ("r", .registers), ("help", .help), ("h", .help), ("?", .help)]

/-- The words for the memory. -/
def memoryWords : List String :=
  ["memory", "m"]

/-- What can follow an address: a number of lines, perhaps after spaces, or nothing. -/
inductive Lines : List Char → UInt64 → Prop where
  | default : Lines [] 4
  | given {gap count : List Char} {lines : UInt64} (hgap : ∀ c ∈ gap, isSpace c) (hcount : IsCount count lines) :
    Lines (gap ++ count) lines

/-- The characters of a line without spaces at its ends that is a command. -/
def InLanguage (body : List Char) : Prop :=
  body = [] ∨ (∃ word ∈ plainWords.map Prod.fst, body = word.toList) ∨
    ∃ word ∈ memoryWords, ∃ gap address more, body = word.toList ++ gap ++ address ++ more ∧ (∀ c ∈ gap, isSpace c) ∧
      (∃ value, IsLiteral address value) ∧ ∃ lines, Lines more lines

/-- The command that the characters of a line without spaces at its ends name. -/
inductive Names : List Char → Command → Prop where
  | nothing : Names [] .step
  | plain {word : String} {command : Command} (hword : (word, command) ∈ plainWords) : Names word.toList command
  | memory {word : String} {gap address more : List Char} {value : UInt16} {lines : UInt64} (hword : word ∈ memoryWords)
      (hgap : ∀ c ∈ gap, isSpace c) (haddress : IsLiteral address value) (hlongest : IsLongest address more)
      (hmore : Lines more lines) :
    Names (word.toList ++ gap ++ address ++ more) (.memory value lines)

variable {p : Place} {body gap address more after : List Char} {value : UInt16} {lines : UInt64} {command c : Command}
  {e : CommandError}

/-! ### Spaces -/

theorem isBlank_of_isSpace {c : Char} (h : isSpace c) : isBlank c := by
  have hc : c = ' ' ∨ c = '\t' := by simpa [isSpace] using h
  obtain rfl | rfl := hc <;> decide

theorem not_isSpace_of_isDigit {c : Char} (h : IsDigit 16 c) : ¬isSpace c :=
  fun hc => Hexadecimal.not_isBlank_of_isDigit h (isBlank_of_isSpace hc)

theorem not_isDigit_of_isSpace {c : Char} (h : isSpace c) : ¬IsDigit 10 c :=
  fun hc => not_isSpace_of_isDigit (hc.mono (by decide)) h

theorem not_isSpace_of_isLiteral (h : IsLiteral address value) : ∀ c ∈ address, ¬isSpace c :=
  fun c hc hs => Hexadecimal.not_isBlank_of_isLiteral h c hc (isBlank_of_isSpace hs)

theorem ne_nil_of_isLiteral (h : IsLiteral address value) : address ≠ [] := by
  obtain ⟨lead, -, digits, rfl, hone, -⟩ := h
  exact List.append_ne_nil_of_right_ne_nil _ (List.length_pos_iff.1 hone)

theorem not_isSpace_of_isCount {count : List Char} (h : IsCount count lines) : ∀ c ∈ count, ¬isSpace c :=
  fun c hc => not_isSpace_of_isDigit ((h.2.2.1 c hc).mono (by decide))

/-- Characters none of which is a space stand before the spaces. -/
theorem prefix_of_prefix_append {before : List Char} (hbefore : ∀ c ∈ before, ¬isSpace c) (hafter : ∀ c ∈ after, isSpace c)
    (h : before <+: more ++ after) : before <+: more := by
  obtain hle | hlt := Nat.lt_or_ge more.length before.length |>.symm
  · exact List.prefix_of_prefix_length_le h (List.prefix_append _ _) hle
  · obtain ⟨beyond, rfl⟩ := List.prefix_of_prefix_length_le (List.prefix_append more after) h (Nat.le_of_lt hlt)
    cases beyond with
    | nil => simp
    | cons c beyond =>
      have hc : c ∈ after := ((List.prefix_append_right_inj more).1 h).subset List.mem_cons_self
      exact absurd (hafter c hc) (hbefore c (by simp))

/-! ### Commands for the memory -/

theorem finish_eq_ok_iff {expected : List Expectation} : finish p expected (.ok command) = .ok c ↔ p.rest = [] ∧ command = c := by
  unfold finish
  cases p.rest <;> simp

/-- A command is over at the end of its line, and malformed elsewhere. -/
theorem finish_cases (p : Place) (expected : List Expectation) (command : Command) :
    (∃ error, finish p expected (.ok command) = .error (.malformed error)) ∨
      p.rest = [] ∧ finish p expected (.ok command) = .ok command := by
  unfold finish
  cases p.rest with
  | nil => exact Or.inr ⟨rfl, rfl⟩
  | cons c rest => exact Or.inl ⟨_, rfl⟩

theorem ofArguments_default {text : String} (h : IsLiteral text.toList value) :
    Command.ofArguments text none = .ok (.memory value defaultLines) := by
  have hparse := Hexadecimal.parse?_of_isLiteral h
  rw [String.ofList_toList] at hparse
  rw [Command.ofArguments, hparse]

theorem ofArguments_given {text count : String} (h : IsLiteral text.toList value) (hcount : IsCount count.toList lines) :
    Command.ofArguments text (some count) = .ok (.memory value lines) := by
  have hparse := Hexadecimal.parse?_of_isLiteral h
  have hlines := lineCount_of_isCount hcount
  rw [String.ofList_toList] at hparse hlines
  rw [Command.ofArguments, hparse]
  dsimp only
  rw [hlines]
  rfl

/-- What a word for the memory is followed by: no address, or an address and what can follow it, and then something
that has to be nothing. -/
theorem memoryCommand_cases (p : Place) :
    (∃ error, memoryCommand p = .error (.malformed error)) ∨
    ∃ address value more lines gap q expected, p.rest = address ++ more ++ gap ++ q.rest ∧ IsLiteral address value ∧
      IsLongest address (more ++ gap ++ q.rest) ∧ Lines more lines ∧ (∀ c ∈ gap, isSpace c) ∧
      memoryCommand p = finish q expected (.ok (.memory value lines)) := by
  unfold memoryCommand
  cases haddress : address? p with
  | none => exact Or.inl ⟨_, rfl⟩
  | some result =>
    right
    obtain ⟨text, later⟩ := result
    obtain ⟨hp, ⟨value, hvalue⟩, hlongest⟩ := longest_of_address? haddress
    obtain ⟨gap, hgap, hlater⟩ := exists_skipBlanks later
    dsimp only
    cases hlength : length? later.skipBlanks with
    | none =>
      refine ⟨text.toList, value, [], 4, gap, later.skipBlanks, [.endOfLine, .length], ?_, hvalue, ?_, Lines.default,
        hgap, ?_⟩
      · rw [List.append_nil, List.append_assoc, ← hlater]
        exact hp
      · rw [List.nil_append, ← hlater]
        exact hlongest
      · rw [ofArguments_default hvalue]
        rfl
    | some result =>
      obtain ⟨count, q⟩ := result
      obtain ⟨hq, lines, hlines⟩ := isCount_of_length? hlength
      obtain ⟨gap', hgap', hend⟩ := exists_skipBlanks q
      have hmore : later.rest = gap ++ count.toList ++ gap' ++ q.skipBlanks.rest := by
        rw [List.append_assoc, ← hend, List.append_assoc, ← hq, ← hlater]
      refine ⟨text.toList, value, gap ++ count.toList, lines, gap', q.skipBlanks, [.endOfLine], ?_, hvalue, ?_,
        Lines.given hgap hlines, hgap', ?_⟩
      · rw [hp, hmore]
        simp only [List.append_assoc]
      · rw [← hmore]
        exact hlongest
      · dsimp only
        rw [ofArguments_given hvalue hlines]

/-- What follows an address begins with no letter of a prefix. -/
theorem head?_lines (hmore : Lines more lines) (hafter : ∀ c ∈ after, isSpace c) : (more ++ after).head? ≠ some 'x' := by
  intro hx
  have hmem : ∀ l : List Char, (∀ c ∈ l, isSpace c) → l.head? ≠ some 'x' := by
    intro l hl hx
    exact absurd (hl 'x' (List.mem_of_head? hx)) (by decide)
  cases hmore with
  | default => exact hmem after hafter hx
  | @given gap count lines hgap hcount =>
    cases gap with
    | nil =>
      obtain ⟨d, ds, rfl⟩ := List.exists_cons_of_length_pos hcount.1
      obtain rfl : d = 'x' := Option.some.inj hx
      exact absurd (hcount.2.2.1 'x' List.mem_cons_self) (by decide)
    | cons c gap =>
      exact hmem (c :: gap) hgap hx

/-- The longest literal is taken as the address, whatever spaces come at the end. -/
theorem exists_address?_of_isLongest (haddress : IsLiteral address value) (hlongest : IsLongest address more)
    (hmore : Lines more lines) (hafter : ∀ c ∈ after, isSpace c) (hp : p.rest = address ++ (more ++ after)) :
    ∃ later, address? p = some (String.ofList address, later) ∧ later.rest = more ++ after := by
  obtain ⟨text, later, htaken, hbegins⟩ := exists_address? haddress hp (head?_lines hmore hafter)
  obtain ⟨hrest, ⟨value', hliteral⟩, -⟩ := longest_of_address? htaken
  have hbefore : text.toList <+: address ++ more := by
    refine prefix_of_prefix_append (not_isSpace_of_isLiteral hliteral) hafter ?_
    rw [List.append_assoc, ← hp, hrest]
    exact List.prefix_append _ _
  have hsame : address = text.toList :=
    hbegins.eq_of_length_le (hlongest _ _ hliteral hbefore)
  subst hsame
  refine ⟨later, by rw [String.ofList_toList]; exact htaken, ?_⟩
  exact List.append_cancel_left (hrest.symm.trans hp)

/-- An address and what can follow it are a command for the memory. -/
theorem memoryCommand_eq_ok (haddress : IsLiteral address value) (hlongest : IsLongest address more)
    (hmore : Lines more lines) (hafter : ∀ c ∈ after, isSpace c) (hp : p.rest = address ++ (more ++ after)) :
    memoryCommand p = .ok (.memory value lines) := by
  obtain ⟨later, htaken, hlater⟩ := exists_address?_of_isLongest haddress hlongest hmore hafter hp
  have hend : ∀ {q : Place}, q.rest = after → q.skipBlanks.rest = [] := by
    intro q hq
    rw [rest_skipBlanks, hq, List.dropWhile_eq_nil_iff]
    exact hafter
  unfold memoryCommand
  rw [htaken]
  dsimp only
  cases hmore with
  | default =>
    have hnone : length? later.skipBlanks = none := by
      rw [length?_eq, hend hlater]
      rfl
    rw [hnone]
    dsimp only
    rw [ofArguments_default (by rw [String.toList_ofList]; exact haddress)]
    exact finish_eq_ok_iff.2 ⟨hend hlater, rfl⟩
  | @given gap count lines hgap hcount =>
    have hstart : later.skipBlanks.rest = count ++ after := by
      rw [rest_skipBlanks, hlater, List.append_assoc, List.dropWhile_append_of_pos hgap]
      obtain ⟨d, ds, rfl⟩ := List.exists_cons_of_length_pos hcount.1
      exact List.dropWhile_cons_of_neg (not_isSpace_of_isCount hcount d List.mem_cons_self)
    obtain ⟨q, hq, hrest⟩ := length?_of_isCount hcount hstart
      fun c hc => not_isDigit_of_isSpace (hafter c (List.mem_of_head? hc))
    rw [hq]
    dsimp only
    rw [ofArguments_given (by rw [String.toList_ofList]; exact haddress) (by rw [String.toList_ofList]; exact hcount)]
    exact finish_eq_ok_iff.2 ⟨hend hrest, rfl⟩

/-! ### Keywords -/

/-- The keyword at the front of some characters, as it is spelled there. -/
def keywordOf? (chars : List Char) : Option (Keyword × String) :=
  Keyword.all.findSome? fun keyword =>
    (keyword.spellings.find? fun word => word.toList.isPrefixOf chars).map (keyword, ·)

theorem keyword?_eq (p : Place) :
    keyword? p = (keywordOf? p.rest).map fun result => (result.1, p.skip result.2.length) := by
  unfold keyword? keywordOf? Place.after?
  rw [List.map_findSome?]
  refine congrFun (congrArg _ (funext fun keyword => ?_)) _
  rw [Function.comp_apply, Option.map_map, Option.map_map]
  rfl

/-- A keyword that is found is spelled at the front. -/
theorem exists_spelling {keyword : Keyword} {q : Place} (h : keyword? p = some (keyword, q)) :
    ∃ word ∈ keyword.spellings, p.rest = word.toList ++ q.rest := by
  rw [keyword?_eq] at h
  obtain ⟨⟨found, word⟩, hfound, heq⟩ := Option.map_eq_some_iff.1 h
  obtain ⟨k, -, hk⟩ := List.exists_of_findSome?_eq_some hfound
  obtain ⟨w, hw, hkw⟩ := Option.map_eq_some_iff.1 hk
  cases hkw
  cases heq
  have hstart : word.toList.isPrefixOf p.rest = true := by simpa using List.find?_some hw
  obtain ⟨rest, hrest⟩ := List.isPrefixOf_iff_prefix.1 hstart
  refine ⟨word, List.mem_of_find?_eq_some hw, ?_⟩
  rw [← String.length_toList, rest_skip_append hrest.symm]
  exact hrest.symm

/-- The command of a keyword without arguments. -/
def Keyword.command? : Keyword → Option Command
  | .step => some .step
  | .continue => some .continue
  | .quit => some .quit
  | .registers => some .registers
  | .memory => none
  | .help => some .help

theorem mem_plainWords {keyword : Keyword} {word : String} (hword : word ∈ keyword.spellings)
    (h : keyword.command? = some command) : (word, command) ∈ plainWords := by
  cases keyword <;> cases h <;> revert word <;> simp [Keyword.spellings, plainWords]

theorem keywordOf?_plain {word : String} (hword : (word, command) ∈ plainWords) (hafter : ∀ c ∈ after, isSpace c) :
    ∃ keyword, keywordOf? (word.toList ++ after) = some (keyword, word) ∧ keyword.command? = some command := by
  -- no word goes on with a space, so that the characters after the first one need not be known
  obtain rfl | ⟨spaces, rfl⟩ | ⟨spaces, rfl⟩ : after = [] ∨ (∃ spaces, after = ' ' :: spaces) ∨
      ∃ spaces, after = '\t' :: spaces := by
    cases after with
    | nil => exact Or.inl rfl
    | cons c spaces =>
      have hc : c = ' ' ∨ c = '\t' := by simpa [isSpace] using hafter c List.mem_cons_self
      obtain rfl | rfl := hc
      · exact Or.inr (Or.inl ⟨spaces, rfl⟩)
      · exact Or.inr (Or.inr ⟨spaces, rfl⟩)
  all_goals
    simp only [plainWords, List.mem_cons, Prod.mk.injEq, List.not_mem_nil, or_false] at hword
    rcases hword with ⟨rfl, rfl⟩ | ⟨rfl, rfl⟩ | ⟨rfl, rfl⟩ | ⟨rfl, rfl⟩ | ⟨rfl, rfl⟩ | ⟨rfl, rfl⟩ | ⟨rfl, rfl⟩ |
      ⟨rfl, rfl⟩ | ⟨rfl, rfl⟩ | ⟨rfl, rfl⟩ | ⟨rfl, rfl⟩ <;> exact ⟨_, rfl, rfl⟩

theorem keywordOf?_memory {word : String} (hword : word ∈ memoryWords) {chars : List Char} (hchars : 'm' ∉ chars) :
    keywordOf? (word.toList ++ chars) = some (.memory, word) := by
  simp only [memoryWords, List.mem_cons, List.not_mem_nil, or_false] at hword
  obtain rfl | rfl := hword
  · rfl
  · have hlong : ['e', 'm', 'o', 'r', 'y'].isPrefixOf chars = false := by
      rw [Bool.eq_false_iff]
      intro h
      exact hchars ((List.isPrefixOf_iff_prefix.1 h).subset (by simp))
    simp [keywordOf?, Keyword.all, Keyword.spellings, hlong]

/-! ### Lines without spaces at their ends -/

theorem not_isSpace_of_mem_plainWords : ∀ word ∈ plainWords, ∀ c ∈ word.1.toList, ¬isSpace c := by
  simp [plainWords, isSpace]

theorem not_isSpace_of_head?_names (h : Names body c) : ∀ d ∈ body.head?, ¬isSpace d := by
  cases h with
  | nothing => simp
  | plain hword => exact fun d hd => not_isSpace_of_mem_plainWords _ hword d (List.mem_of_head? hd)
  | memory hword =>
    simp only [memoryWords, List.mem_cons, List.not_mem_nil, or_false] at hword
    obtain rfl | rfl := hword <;> simp [isSpace]

theorem not_isSpace_of_getLast?_names (h : Names body c) : ∀ d ∈ body.getLast?, ¬isSpace d := by
  intro d hd
  cases h with
  | nothing => cases hd
  | plain hword => exact not_isSpace_of_mem_plainWords _ hword d (List.mem_of_getLast? hd)
  | @memory word gap address more value lines hword hgap haddress hlongest hmore =>
    cases hmore with
    | default =>
      rw [List.append_nil, List.getLast?_append_of_ne_nil _ (ne_nil_of_isLiteral haddress)] at hd
      exact not_isSpace_of_isLiteral haddress d (List.mem_of_getLast? hd)
    | @given gap' count lines hgap' hcount =>
      rw [← List.append_assoc, List.getLast?_append_of_ne_nil _ (List.length_pos_iff.1 hcount.1)] at hd
      exact not_isSpace_of_isCount hcount d (List.mem_of_getLast? hd)

/-- A line that is a command has no spaces at its ends. -/
theorem trim_names (h : Names body c) : trim isSpace body = body :=
  trim_eq_self (not_isSpace_of_head?_names h) (not_isSpace_of_getLast?_names h)

/-- No word for the memory is continued by what can follow it. -/
theorem not_mem_arguments (hgap : ∀ c ∈ gap, isSpace c) (haddress : IsLiteral address value) (hmore : Lines more lines)
    (hafter : ∀ c ∈ after, isSpace c) : 'm' ∉ gap ++ address ++ more ++ after := by
  have hspaces : ∀ l : List Char, (∀ c ∈ l, isSpace c) → 'm' ∉ l := fun l hl hm => absurd (hl 'm' hm) (by decide)
  have hliteral : 'm' ∉ address := by
    obtain ⟨lead, hlead, digits, rfl, -, -, hdigits, -⟩ := haddress
    have hleads : ∀ lead ∈ Hexadecimal.leads, 'm' ∉ lead := by simp [Hexadecimal.leads]
    exact List.not_mem_append (hleads lead hlead) fun hm => absurd (hdigits 'm' hm) (by decide)
  have hlines : 'm' ∉ more := by
    cases hmore with
    | default => exact List.not_mem_nil
    | given hgap' hcount =>
      exact List.not_mem_append (hspaces _ hgap') fun hm => absurd (hcount.2.2.1 'm' hm) (by decide)
  exact List.not_mem_append (List.not_mem_append (List.not_mem_append (hspaces _ hgap) hliteral) hlines) (hspaces _ hafter)

/-- A command for the memory has an address, which is as long as it can be, and perhaps a number of lines. -/
theorem exists_arguments_of_names (h : Names body (.memory value lines)) :
    ∃ word ∈ memoryWords, ∃ gap address more, body = word.toList ++ gap ++ address ++ more ∧ (∀ c ∈ gap, isSpace c) ∧
      IsLiteral address value ∧ IsLongest address more ∧ Lines more lines := by
  generalize hcommand : Command.memory value lines = command at h
  cases h with
  | nothing => cases hcommand
  | plain hword =>
    rw [← hcommand] at hword
    simp [plainWords] at hword
  | memory hword hgap haddress hlongest hmore =>
    cases hcommand
    exact ⟨_, hword, _, _, _, rfl, hgap, haddress, hlongest, hmore⟩

theorem lines_lt_of_names (h : Names body (.memory value lines)) : lines.toNat < 1000 := by
  obtain ⟨-, -, -, -, more, -, -, -, -, hmore⟩ := exists_arguments_of_names h
  cases hmore with
  | default => decide
  | given hgap hcount =>
    obtain ⟨-, hthree, hdigits, hlines⟩ := hcount
    calc lines.toNat = number 10 _ := hlines
      _ < 10 ^ _ := number_lt hdigits
      _ ≤ 10 ^ 3 := Nat.pow_le_pow_right (by decide) hthree

/-! ### Where the address ends -/

/-- What is left of a number of lines when characters at its front are taken away is a number of lines or nothing. -/
theorem exists_lines_of_append {taken rest : List Char} (htaken : ∀ c ∈ taken, ¬isSpace c)
    (h : Lines (taken ++ rest) lines) : ∃ lines', Lines rest lines' := by
  generalize hchars : taken ++ rest = chars at h
  cases h with
  | default =>
    rw [(List.append_eq_nil_iff.1 hchars).2]
    exact ⟨_, Lines.default⟩
  | @given gap count lines hgap hcount =>
    cases taken with
    | nil =>
      rw [List.nil_append] at hchars
      exact ⟨_, hchars ▸ Lines.given hgap hcount⟩
    | cons c taken =>
      cases gap with
      | cons d gap =>
        obtain ⟨rfl, -⟩ := List.cons.inj hchars
        exact absurd (hgap c List.mem_cons_self) (htaken c List.mem_cons_self)
      | nil =>
        rw [List.nil_append] at hchars
        obtain ⟨hone, hthree, hdigits, -⟩ := hcount
        rw [← hchars] at hthree hdigits
        by_cases hrest : rest = []
        · exact ⟨_, hrest ▸ Lines.default⟩
        · have hshort : rest.length ≤ 3 := by
            rw [List.length_append] at hthree
            omega
          have hcount := isCount_of_digits (List.length_pos_iff.2 hrest) hshort
            fun d hd => hdigits d (List.mem_append_right _ hd)
          exact ⟨_, Lines.given (List.forall_mem_nil _) hcount⟩

/-- If an address and a number of lines can be cut somewhere, they can be cut where the longest address ends. -/
theorem exists_isLongest (haddress : IsLiteral address value) (hmore : Lines more lines) :
    ∃ address' value' more' lines', address ++ more = address' ++ more' ∧ IsLiteral address' value' ∧
      IsLongest address' more' ∧ Lines more' lines' := by
  have hhead : more.head? ≠ some 'x' := by
    rw [← List.append_nil more]
    exact head?_lines hmore (by simp)
  obtain ⟨text, later, htaken, beyond, htext⟩ :=
    exists_address? (p := { offset := 0, rest := address ++ more }) haddress rfl hhead
  obtain ⟨hsplit, ⟨value', hliteral⟩, hlongest⟩ := longest_of_address? htaken
  have hbeyond : ∀ c ∈ beyond, ¬isSpace c := by
    intro c hc
    refine not_isSpace_of_isLiteral hliteral c ?_
    rw [← htext]
    exact List.mem_append_right _ hc
  have hrest : more = beyond ++ later.rest := by
    rw [← htext, List.append_assoc] at hsplit
    exact List.append_cancel_left hsplit
  obtain ⟨lines', hlines⟩ := exists_lines_of_append hbeyond (hrest ▸ hmore)
  exact ⟨text.toList, value', later.rest, lines', hsplit, hliteral, hlongest, hlines⟩

theorem exists_names_iff : (∃ c, Names body c) ↔ InLanguage body := by
  constructor
  · rintro ⟨c, h⟩
    cases h with
    | nothing => exact Or.inl rfl
    | plain hword => exact Or.inr (Or.inl ⟨_, List.mem_map_of_mem (f := Prod.fst) hword, rfl⟩)
    | memory hword hgap haddress hlongest hmore =>
      exact Or.inr (Or.inr ⟨_, hword, _, _, _, rfl, hgap, ⟨_, haddress⟩, ⟨_, hmore⟩⟩)
  · rintro (rfl | ⟨word, hword, rfl⟩ | ⟨word, hword, gap, address, more, rfl, hgap, ⟨value, haddress⟩, ⟨lines, hmore⟩⟩)
    · exact ⟨_, Names.nothing⟩
    · obtain ⟨⟨_, command⟩, hmem, rfl⟩ := List.mem_map.1 hword
      exact ⟨_, Names.plain hmem⟩
    · obtain ⟨address', value', more', lines', hcut, hliteral, hlongest, hlines⟩ := exists_isLongest haddress hmore
      rw [List.append_assoc, hcut, ← List.append_assoc]
      exact ⟨_, Names.memory hword hgap hliteral hlongest hlines⟩

/-! ### Whole lines -/

variable {line : String} {before : List Char}

/-- The beginning of a line, after spaces. -/
def start (line : String) : Place :=
  Place.skipBlanks { offset := 0, rest := line.toList }

theorem rest_start (line : String) : (start line).rest = line.toList.dropWhile isSpace :=
  rest_skipBlanks _

/-- A word is not dropped with the spaces before it. -/
theorem dropWhile_word {word : String} (hword : word ∈ plainWords.map Prod.fst ++ memoryWords) (chars : List Char) :
    (word.toList ++ chars).dropWhile isSpace = word.toList ++ chars := by
  revert word
  simp [plainWords, memoryWords, isSpace]

/-- The line after its keyword. -/
theorem parse_eq_of_keyword {keyword : Keyword} {q : Place} (h : keyword? (start line) = some (keyword, q)) :
    Command.parse line =
      match keyword.command? with
      | some command => finish q.skipBlanks [.endOfLine] (.ok command)
      | none => memoryCommand q.skipBlanks := by
  unfold Command.parse
  unfold start at h
  dsimp only
  rw [h]
  cases keyword <;> rfl

theorem parse_eq_of_no_keyword (h : keyword? (start line) = none) :
    Command.parse line =
      if (start line).rest.isEmpty then .ok .step else .error (.malformed (missingKeyword (start line))) := by
  unfold Command.parse
  unfold start at h
  dsimp only
  rw [h]
  rfl

/-- What becomes of a line: it is malformed, or it is a command with spaces at its ends. -/
theorem parse_cases (line : String) :
    (∃ error, Command.parse line = .error (.malformed error)) ∨
    ∃ before body after command, line.toList = before ++ body ++ after ∧ (∀ c ∈ before, isSpace c) ∧
      (∀ c ∈ after, isSpace c) ∧ Names body command ∧ Command.parse line = .ok command := by
  obtain ⟨before, hbefore, hsplit⟩ := exists_skipBlanks { offset := 0, rest := line.toList }
  have hline : line.toList = before ++ (start line).rest := hsplit
  cases hkeyword : keyword? (start line) with
  | none =>
    rw [parse_eq_of_no_keyword hkeyword]
    split
    · rename_i hempty
      rw [List.isEmpty_iff.1 hempty] at hline
      refine Or.inr ⟨before, [], [], .step, ?_, hbefore, List.forall_mem_nil _, Names.nothing, rfl⟩
      rw [List.append_nil]
      exact hline
    · exact Or.inl ⟨_, rfl⟩
  | some result =>
    obtain ⟨keyword, q⟩ := result
    obtain ⟨word, hword, hstart⟩ := exists_spelling hkeyword
    obtain ⟨gap, hgap, hq⟩ := exists_skipBlanks q
    rw [hstart, hq] at hline
    rw [parse_eq_of_keyword hkeyword]
    cases hplain : keyword.command? with
    | some command =>
      obtain herror | ⟨hend, hok⟩ := finish_cases q.skipBlanks [.endOfLine] command
      · exact Or.inl herror
      · rw [hend, List.append_nil, ← List.append_assoc] at hline
        exact Or.inr ⟨before, word.toList, gap, command, hline, hbefore, hgap,
          Names.plain (mem_plainWords hword hplain), hok⟩
    | none =>
      have hmemory : word ∈ memoryWords := by
        cases keyword <;> cases hplain
        exact hword
      obtain herror | ⟨address, value, more, lines, after, q', expected, hrest, haddress, hlongest, hmore, hafter, heq⟩ :=
        memoryCommand_cases q.skipBlanks
      · exact Or.inl herror
      · dsimp only
        rw [heq]
        obtain herror | ⟨hend, hok⟩ := finish_cases q' expected (.memory value lines)
        · exact Or.inl herror
        · rw [hend, List.append_nil] at hrest hlongest
          refine Or.inr ⟨before, _, after, _, ?_, hbefore, hafter,
            Names.memory hmemory hgap haddress hlongest.of_append hmore, hok⟩
          rw [hline, hrest]
          simp only [List.append_assoc]

/-- A line that is a command is read as that command, whatever spaces stand at its ends. -/
theorem parse_eq_ok (hline : line.toList = before ++ body ++ after) (hbefore : ∀ c ∈ before, isSpace c)
    (hafter : ∀ c ∈ after, isSpace c) (h : Names body command) : Command.parse line = .ok command := by
  have hstart : (start line).rest = (body ++ after).dropWhile isSpace := by
    rw [rest_start, hline, List.append_assoc, List.dropWhile_append_of_pos hbefore]
  cases h with
  | nothing =>
    rw [List.nil_append, List.dropWhile_eq_nil_iff.2 hafter] at hstart
    have hnone : keyword? (start line) = none := by
      rw [keyword?_eq, hstart]
      rfl
    rw [parse_eq_of_no_keyword hnone, hstart]
    rfl
  | @plain word command hword =>
    rw [dropWhile_word (List.mem_append_left _ (List.mem_map_of_mem (f := Prod.fst) hword))] at hstart
    obtain ⟨keyword, hkeyword, hcommand⟩ := keywordOf?_plain hword hafter
    have hfound : keyword? (start line) = some (keyword, (start line).skip word.length) := by
      rw [keyword?_eq, hstart, hkeyword]
      rfl
    have hlater := rest_skip_append hstart
    rw [String.length_toList] at hlater
    rw [parse_eq_of_keyword hfound, hcommand]
    refine finish_eq_ok_iff.2 ⟨?_, rfl⟩
    rw [rest_skipBlanks, hlater, List.dropWhile_eq_nil_iff]
    exact hafter
  | @memory word gap address more value lines hword hgap haddress hlongest hmore =>
    rw [List.append_assoc, List.append_assoc, List.append_assoc, dropWhile_word (List.mem_append_right _ hword)] at hstart
    have harguments := not_mem_arguments hgap haddress hmore hafter
    rw [List.append_assoc, List.append_assoc] at harguments
    have hfound : keyword? (start line) = some (.memory, (start line).skip word.length) := by
      rw [keyword?_eq, hstart, keywordOf?_memory hword harguments]
      rfl
    have hlater := rest_skip_append hstart
    rw [String.length_toList] at hlater
    rw [parse_eq_of_keyword hfound]
    refine memoryCommand_eq_ok haddress hlongest hmore hafter ?_
    rw [rest_skipBlanks, hlater, List.dropWhile_append_of_pos hgap]
    obtain ⟨d, ds, hcons⟩ := List.exists_cons_of_ne_nil (ne_nil_of_isLiteral haddress)
    have hd : ¬isSpace d := not_isSpace_of_isLiteral haddress d (hcons ▸ List.mem_cons_self)
    rw [hcons, List.cons_append, List.dropWhile_cons_of_neg hd]

/-- A line without the spaces at its ends names the command that it is. -/
theorem names_of_parse (h : Command.parse line = .ok command) : Names (trim isSpace line.toList) command := by
  obtain ⟨error, herror⟩ | ⟨before, body, after, c, hline, hbefore, hafter, hnames, hok⟩ := parse_cases line
  · rw [herror] at h
    cases h
  · rw [hok] at h
    cases h
    rw [hline, trim_append hbefore hafter, trim_names hnames]
    exact hnames

theorem parse_of_names (h : Names (trim isSpace line.toList) command) : Command.parse line = .ok command := by
  obtain ⟨before, after, hline, hbefore, hafter⟩ := exists_trim isSpace line.toList
  exact parse_eq_ok hline hbefore hafter h

/-- The lines that are commands without the spaces at their ends are those of the language, each is the command that it
names, and every other line is malformed. -/
theorem parse_language (line : String) :
    ((∃ command, Command.parse line = .ok command) ↔ InLanguage (trim isSpace line.toList)) ∧
    (∀ command, Command.parse line = .ok command ↔ Names (trim isSpace line.toList) command) ∧
    ∀ e, Command.parse line = .error e → ∃ error, e = .malformed error := by
  refine ⟨?_, fun command => ⟨names_of_parse, parse_of_names⟩, ?_⟩
  · rw [← exists_names_iff]
    exact exists_congr fun command => ⟨names_of_parse, parse_of_names⟩
  · intro e he
    obtain ⟨error, herror⟩ | ⟨-, -, -, command, -, -, -, -, hok⟩ := parse_cases line
    · exact ⟨error, Except.error.inj (he.symm.trans herror)⟩
    · rw [hok] at he
      cases he

/-- Without a space the digits belong to the address as long as it can take them. -/
example : Command.parse "m$1f02" = .ok (.memory 0x1f02 4) ∧ Command.parse "m$1f0 2" = .ok (.memory 0x01f0 2) := by
  exact ⟨rfl, rfl⟩

end Monitor

end Mos6502
