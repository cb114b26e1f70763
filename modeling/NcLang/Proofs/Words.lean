import NcLang.Proofs.Grammar
import NcLang.Token.Lexer

/-! # The words of a text

A word is as long as it can be: a run of digits, an alphabetic character with a run of letters,
numbers and underscores, or one symbol. `Lexeme.SpelledBy` says which words are lexemes, and
`LexicalFault.ShownBy` which are faults. Every place in a text that is no white space starts one
word of either sort, and it is the one that the lexer finds there (`Lexeme.word_cases`).
-/

namespace NcLang

/-! ## Character classes have no characters in common -/

namespace Text

/-- Whether no range of the first table meets a range of the second. -/
def CodeRanges.areApart (first second : CodeRanges) : Bool :=
  first.all fun range => second.all fun other => range.2 < other.1 || other.2 < range.1

/-- A code point that a table covers is in one of its ranges. -/
theorem CodeRanges.exists_of_covers {ranges : CodeRanges} {code : Nat}
    (covered : ranges.covers code) : ∃ range ∈ ranges, range.1 ≤ code ∧ code ≤ range.2 := by
  induction ranges with
  | nil => cases covered
  | cons range later ih =>
      obtain ⟨first, last⟩ := range
      rw [CodeRanges.covers, Bool.and_eq_true, Bool.or_eq_true, decide_eq_true_eq,
        decide_eq_true_eq] at covered
      obtain ⟨above, here | further⟩ := covered
      · exact ⟨(first, last), List.mem_cons_self, above, here⟩
      · obtain ⟨range, member, bounds⟩ := ih further
        exact ⟨range, List.mem_cons_of_mem _ member, bounds⟩

/-- Tables whose ranges do not meet have no code point in common. -/
theorem CodeRanges.covers_eq_false {first second : CodeRanges} {code : Nat}
    (apart : first.areApart second) (covered : first.covers code) :
    second.covers code = false := by
  rw [Bool.eq_false_iff]
  intro other
  obtain ⟨range, member, above, below⟩ := CodeRanges.exists_of_covers covered
  obtain ⟨range', member', above', below'⟩ := CodeRanges.exists_of_covers other
  have separate := List.all_eq_true.mp (List.all_eq_true.mp apart range member) range' member'
  rw [Bool.or_eq_true, decide_eq_true_eq, decide_eq_true_eq] at separate
  omega

/-- The code points of the digits. -/
def digits : CodeRanges :=
  [(0x30, 0x39)]

theorem digits_covers {c : Char} (digit : c.isDigit) : digits.covers c.toNat := by
  have bounds : 0x30 ≤ c.toNat ∧ c.toNat ≤ 0x39 := by
    rw [Char.isDigit, Bool.and_eq_true, decide_eq_true_eq, decide_eq_true_eq] at digit
    exact digit
  rw [digits, CodeRanges.covers, Bool.and_eq_true, Bool.or_eq_true, decide_eq_true_eq,
    decide_eq_true_eq]
  exact ⟨bounds.1, .inl bounds.2⟩

/-- Digits start no identifier, so that a word is a number or a name by its first character. -/
theorem isAlphabetic_of_isDigit {c : Char} (digit : c.isDigit) : isAlphabetic c = false :=
  CodeRanges.covers_eq_false (by decide +kernel) (digits_covers digit)

theorem isWhiteSpace_of_isDigit {c : Char} (digit : c.isDigit) : isWhiteSpace c = false :=
  CodeRanges.covers_eq_false (by decide +kernel) (digits_covers digit)

/-- White space ends every identifier. -/
theorem isWhiteSpace_of_isAlphabetic {c : Char} (letter : isAlphabetic c) :
    isWhiteSpace c = false :=
  CodeRanges.covers_eq_false (by decide +kernel) letter

/-- A symbol is no digit, not alphabetic and no white space. -/
theorem classes_of_symbol {kind : TokenKind} {c : Char} (symbol : kind.symbol? = some c) :
    c.isDigit = false ∧ isAlphabetic c = false ∧ isWhiteSpace c = false := by
  cases kind <;> cases symbol <;> decide

/-! ## Runs -/

/-- Whether a character may stand within an identifier. -/
def isWordChar (c : Char) : Bool :=
  isAlphanumeric c || c = '_'

/-- Characters of a class that are as many as can be before `rest`. -/
structure LongestRun (holds : Char → Bool) (run rest : List Char) : Prop where
  all : ∀ c ∈ run, holds c
  stops : ∀ c ∈ rest.head?, holds c = false

namespace LongestRun

variable {holds : Char → Bool} {run rest : List Char}

/-- The lexer takes the whole run. -/
theorem takeWhile_eq (longest : LongestRun holds run rest) :
    (run ++ rest).takeWhile holds = run := by
  rw [List.takeWhile_append_of_pos longest.all]
  cases rest with
  | nil => exact List.append_nil run
  | cons c rest =>
      rw [List.takeWhile_cons_of_neg, List.append_nil]
      rw [longest.stops c rfl]
      exact Bool.false_ne_true

/-- The lexer goes on after the run. -/
theorem dropWhile_eq (longest : LongestRun holds run rest) :
    (run ++ rest).dropWhile holds = rest := by
  have whole := List.takeWhile_append_dropWhile (p := holds) (l := run ++ rest)
  rw [longest.takeWhile_eq] at whole
  exact List.append_cancel_left whole

/-- Every text starts with a longest run, which may be empty. -/
theorem of_chars (holds : Char → Bool) (chars : List Char) :
    LongestRun holds (chars.takeWhile holds) (chars.dropWhile holds) where
  all := List.all_eq_true.mp List.all_takeWhile
  stops := by
    intro c first
    have stop := List.head?_dropWhile_not holds chars
    rw [Option.mem_def.mp first] at stop
    exact stop

end LongestRun

end Text

open Text

/-! ## Lexemes and faults -/

/-- The number that some digits stand for. -/
abbrev Text.decimal (digits : List Char) : Nat :=
  Nat.ofDigitChars 10 digits 0

/-- The lexeme that a word is, where the text goes on with `rest`. A number is at most the largest
one that a signed word of 64 bits holds. -/
inductive Lexeme.SpelledBy : (word rest : List Char) → Lexeme → Prop
  | int {digits rest : List Char} (nonempty : digits ≠ [])
      (longest : LongestRun Char.isDigit digits rest) (fits : decimal digits ≤ 0x7fffffffffffffff) :
      SpelledBy digits rest (.ofInt (Int64.ofNat (decimal digits)))
  | keyword {first : Char} {more rest : List Char} (word : Keyword)
      (letter : isAlphabetic first) (longest : LongestRun isWordChar more rest)
      (reserved : word.spelling.toList = first :: more) :
      SpelledBy (first :: more) rest (.ofKeyword word)
  | name {first : Char} {more rest : List Char} (letter : isAlphabetic first)
      (longest : LongestRun isWordChar more rest)
      (free : ∀ word : Keyword, word.spelling.toList ≠ first :: more) :
      SpelledBy (first :: more) rest (.ofName (String.ofList (first :: more)))
  | symbol {c : Char} {rest : List Char} (kind : TokenKind) (symbol : kind.symbol? = some c) :
      SpelledBy [c] rest (.ofKind kind)

/-- The fault that a word is, where the text goes on with `rest`. -/
inductive LexicalFault.ShownBy : (word rest : List Char) → LexicalFault → Prop
  | unexpectedChar {c : Char} {rest : List Char} (noSpace : isWhiteSpace c = false)
      (noDigit : c.isDigit = false) (noLetter : isAlphabetic c = false)
      (noSymbol : ∀ kind : TokenKind, kind.symbol? ≠ some c) :
      ShownBy [c] rest (.unexpectedChar c)
  | intOutOfRange {digits rest : List Char} (nonempty : digits ≠ [])
      (longest : LongestRun Char.isDigit digits rest)
      (exceeds : 0x7fffffffffffffff < decimal digits) :
      ShownBy digits rest .intOutOfRange

/-- What the lexer finds at a place that is no white space: the characters that go on with the word,
and what becomes of it. -/
structure Lexeme.Found (first : Char) (more rest : List Char)
    (result : Except LexicalFault Lexeme) : Prop where
  noSpace : isWhiteSpace first = false
  takeWhile_eq : (more ++ rest).takeWhile (Token.continues first) = more
  dropWhile_eq : (more ++ rest).dropWhile (Token.continues first) = rest
  ofWord_eq : Lexeme.ofWord first more = result

/-- A word that starts with a digit goes on with digits alone. -/
theorem Token.continues_of_isDigit {first : Char} (digit : first.isDigit) :
    Token.continues first = Char.isDigit := by
  funext c
  rw [Token.continues, if_pos digit]

/-- A word that starts with a letter goes on with letters, numbers and underscores. -/
theorem Token.continues_of_isAlphabetic {first : Char} (letter : isAlphabetic first) :
    Token.continues first = isWordChar := by
  have noDigit : ¬ first.isDigit := fun digit => by
    rw [isAlphabetic_of_isDigit digit] at letter
    cases letter
  funext c
  rw [Token.continues, if_neg noDigit, if_pos letter]
  rfl

/-- All other words are a single character. -/
theorem Token.continues_of_other {first : Char} (noDigit : first.isDigit = false)
    (noLetter : isAlphabetic first = false) : Token.continues first = fun _ => false := by
  funext c
  rw [Token.continues, noDigit, noLetter]
  rfl

/-! ## Tables of keywords and symbols -/

theorem Keyword.ofSpelling?_spelling (word : Keyword) :
    Keyword.ofSpelling? word.spelling = some word := by
  cases word <;> decide

/-- A keyword is only found under its own spelling. -/
theorem Keyword.spelling_of_ofSpelling? {text : String} {word : Keyword}
    (found : Keyword.ofSpelling? text = some word) : word.spelling = text := by
  have spelled := List.find?_some found
  exact of_decide_eq_true spelled

/-- What is not found is the spelling of no keyword. -/
theorem Keyword.spelling_ne_of_ofSpelling? {text : String}
    (missing : Keyword.ofSpelling? text = none) (word : Keyword) : word.spelling ≠ text := by
  intro same
  rw [← same, Keyword.ofSpelling?_spelling] at missing
  cases missing

/-- No two kinds have the same symbol. -/
theorem TokenKind.ofSymbol?_symbol {kind : TokenKind} {c : Char}
    (symbol : kind.symbol? = some c) : TokenKind.ofSymbol? c = some kind := by
  cases kind <;> cases symbol <;> decide

theorem TokenKind.symbol?_of_ofSymbol? {c : Char} {kind : TokenKind}
    (found : TokenKind.ofSymbol? c = some kind) : kind.symbol? = some c := by
  have written := List.find?_some found
  exact of_decide_eq_true written

/-- What is not found is the symbol of no kind. -/
theorem TokenKind.symbol?_ne_of_ofSymbol? {c : Char} (missing : TokenKind.ofSymbol? c = none)
    (kind : TokenKind) : kind.symbol? ≠ some c := by
  intro symbol
  rw [TokenKind.ofSymbol?_symbol symbol] at missing
  cases missing

/-! ## What the lexer finds -/

/-- The largest number that a signed word of 64 bits holds is still read. -/
theorem Lexeme.ofDigits_of_le {digits : List Char} (fits : decimal digits ≤ 0x7fffffffffffffff) :
    Lexeme.ofDigits digits = .ok (.ofInt (Int64.ofNat (decimal digits))) := by
  have below : decimal digits < Lexeme.intLimit := Nat.lt_succ_of_le fits
  rw [Lexeme.ofDigits]
  exact if_pos below

/-- A larger number is a fault, however many digits it has. -/
theorem Lexeme.ofDigits_of_lt {digits : List Char}
    (exceeds : 0x7fffffffffffffff < decimal digits) :
    Lexeme.ofDigits digits = .error .intOutOfRange := by
  have above : ¬ decimal digits < Lexeme.intLimit := Nat.not_lt.mpr (Nat.succ_le_of_lt exceeds)
  rw [Lexeme.ofDigits]
  exact if_neg above

theorem Lexeme.ofWord_of_isDigit {first : Char} (digit : first.isDigit) (more : List Char) :
    Lexeme.ofWord first more = Lexeme.ofDigits (first :: more) :=
  if_pos digit

theorem Lexeme.ofWord_of_isAlphabetic {first : Char} (letter : isAlphabetic first)
    (more : List Char) : Lexeme.ofWord first more = .ok (Lexeme.ofLetters (first :: more)) := by
  have noDigit : ¬ first.isDigit := fun digit => by
    rw [isAlphabetic_of_isDigit digit] at letter
    cases letter
  rw [Lexeme.ofWord, if_neg noDigit, if_pos letter]

/-- A run of digits is found as long as it is. -/
theorem Lexeme.found_digits {digits rest : List Char} (nonempty : digits ≠ [])
    (longest : LongestRun Char.isDigit digits rest) :
    ∃ first more, digits = first :: more ∧
      Lexeme.Found first more rest (Lexeme.ofDigits digits) := by
  obtain ⟨first, more, rfl⟩ := List.exists_cons_of_ne_nil nonempty
  have digit : first.isDigit := longest.all first List.mem_cons_self
  have run : LongestRun Char.isDigit more rest :=
    ⟨fun c member => longest.all c (List.mem_cons_of_mem first member), longest.stops⟩
  refine ⟨first, more, rfl, isWhiteSpace_of_isDigit digit, ?_, ?_,
    Lexeme.ofWord_of_isDigit digit more⟩
  · rw [Token.continues_of_isDigit digit]
    exact run.takeWhile_eq
  · rw [Token.continues_of_isDigit digit]
    exact run.dropWhile_eq

/-- A letter is found with all that goes on with its word. -/
theorem Lexeme.found_letters {first : Char} {more rest : List Char}
    (letter : isAlphabetic first) (longest : LongestRun isWordChar more rest) :
    Lexeme.Found first more rest (.ok (Lexeme.ofLetters (first :: more))) := by
  refine ⟨isWhiteSpace_of_isAlphabetic letter, ?_, ?_, Lexeme.ofWord_of_isAlphabetic letter more⟩
  · rw [Token.continues_of_isAlphabetic letter]
    exact longest.takeWhile_eq
  · rw [Token.continues_of_isAlphabetic letter]
    exact longest.dropWhile_eq

/-- A character that is neither digit nor letter is found alone. -/
theorem Lexeme.found_other {c : Char} (rest : List Char) (noSpace : isWhiteSpace c = false)
    (noDigit : c.isDigit = false) (noLetter : isAlphabetic c = false) :
    Lexeme.Found c [] rest (Lexeme.ofWord c []) := by
  have run : LongestRun (Token.continues c) [] rest := by
    refine ⟨fun _ member => (List.not_mem_nil member).elim, fun _ _ => ?_⟩
    rw [Token.continues_of_other noDigit noLetter]
  exact ⟨noSpace, run.takeWhile_eq, run.dropWhile_eq, rfl⟩

/-- A word that is a lexeme is found, with that lexeme. -/
theorem Lexeme.SpelledBy.found {word rest : List Char} {lexeme : Lexeme}
    (spelled : lexeme.SpelledBy word rest) :
    ∃ first more, word = first :: more ∧ Lexeme.Found first more rest (.ok lexeme) := by
  cases spelled with
  | int nonempty longest fits =>
      rw [← Lexeme.ofDigits_of_le fits]
      exact Lexeme.found_digits nonempty longest
  | @keyword first more _ word letter longest reserved =>
      have lexeme : Lexeme.ofLetters (first :: more) = .ofKeyword word := by
        rw [Lexeme.ofLetters, ← reserved, String.ofList_toList, Keyword.ofSpelling?_spelling]
        rfl
      rw [← lexeme]
      exact ⟨first, more, rfl, Lexeme.found_letters letter longest⟩
  | @name first more _ letter longest free =>
      have lexeme : Lexeme.ofLetters (first :: more) =
          .ofName (String.ofList (first :: more)) := by
        rw [Lexeme.ofLetters]
        cases found : Keyword.ofSpelling? (String.ofList (first :: more)) with
        | none => rfl
        | some word =>
            refine (free word ?_).elim
            rw [Keyword.spelling_of_ofSpelling? found, String.toList_ofList]
      rw [← lexeme]
      exact ⟨first, more, rfl, Lexeme.found_letters letter longest⟩
  | @symbol c _ kind symbol =>
      obtain ⟨noDigit, noLetter, noSpace⟩ := classes_of_symbol symbol
      have lexeme : Lexeme.ofWord c [] = .ok (.ofKind kind) := by
        rw [Lexeme.ofWord, noDigit, noLetter, TokenKind.ofSymbol?_symbol symbol]
        rfl
      rw [← lexeme]
      exact ⟨c, [], rfl, Lexeme.found_other rest noSpace noDigit noLetter⟩

/-- A word that is a fault is found, with that fault. -/
theorem LexicalFault.ShownBy.found {word rest : List Char} {fault : LexicalFault}
    (shown : fault.ShownBy word rest) :
    ∃ first more, word = first :: more ∧ Lexeme.Found first more rest (.error fault) := by
  cases shown with
  | @unexpectedChar c _ noSpace noDigit noLetter noSymbol =>
      have result : Lexeme.ofWord c [] = .error (.unexpectedChar c) := by
        rw [Lexeme.ofWord, noDigit, noLetter]
        cases found : TokenKind.ofSymbol? c with
        | none => rfl
        | some kind => exact (noSymbol kind (TokenKind.symbol?_of_ofSymbol? found)).elim
      rw [← result]
      exact ⟨c, [], rfl, Lexeme.found_other rest noSpace noDigit noLetter⟩
  | intOutOfRange nonempty longest exceeds =>
      rw [← Lexeme.ofDigits_of_lt exceeds]
      exact Lexeme.found_digits nonempty longest

/-- The characters from a place that is no white space on start with one word, which is a lexeme or
a fault. -/
theorem Lexeme.word_cases (first : Char) (chars : List Char)
    (noSpace : isWhiteSpace first = false) :
    (∃ lexeme : Lexeme, lexeme.SpelledBy (first :: chars.takeWhile (Token.continues first))
        (chars.dropWhile (Token.continues first))) ∨
      ∃ fault : LexicalFault, fault.ShownBy (first :: chars.takeWhile (Token.continues first))
        (chars.dropWhile (Token.continues first)) := by
  by_cases digit : first.isDigit
  · rw [Token.continues_of_isDigit digit]
    have run := LongestRun.of_chars Char.isDigit chars
    have longest : LongestRun Char.isDigit (first :: chars.takeWhile Char.isDigit)
        (chars.dropWhile Char.isDigit) := by
      refine ⟨?_, run.stops⟩
      intro c member
      rcases List.mem_cons.mp member with rfl | member
      · exact digit
      · exact run.all c member
    by_cases fits : decimal (first :: chars.takeWhile Char.isDigit) ≤ 0x7fffffffffffffff
    · exact .inl ⟨_, .int (List.cons_ne_nil _ _) longest fits⟩
    · exact .inr ⟨_, .intOutOfRange (List.cons_ne_nil _ _) longest (Nat.lt_of_not_le fits)⟩
  · by_cases letter : isAlphabetic first
    · rw [Token.continues_of_isAlphabetic letter]
      have longest := LongestRun.of_chars isWordChar chars
      left
      cases found : Keyword.ofSpelling? (String.ofList (first :: chars.takeWhile isWordChar)) with
      | some word =>
          refine ⟨_, .keyword word letter longest ?_⟩
          rw [Keyword.spelling_of_ofSpelling? found, String.toList_ofList]
      | none =>
          refine ⟨_, .name letter longest fun word same => ?_⟩
          apply Keyword.spelling_ne_of_ofSpelling? found word
          rw [← same, String.ofList_toList]
    · rw [Bool.not_eq_true] at digit letter
      have alone := Lexeme.found_other chars noSpace digit letter
      have more : chars.takeWhile (Token.continues first) = [] := alone.takeWhile_eq
      rw [more]
      cases found : TokenKind.ofSymbol? first with
      | some kind => exact .inl ⟨_, .symbol kind (TokenKind.symbol?_of_ofSymbol? found)⟩
      | none =>
          exact .inr ⟨_, .unexpectedChar noSpace digit letter
            (TokenKind.symbol?_ne_of_ofSymbol? found)⟩

end NcLang
