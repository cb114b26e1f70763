import Mathlib.Data.List.Chain
import NcLang.Proofs.Seam

/-! # Lexemes written out

Lexemes are written one after the other, with white space before, between and after them
(`Item.write`). The lexer reads them back if and only if white space stands wherever one of them
would run into the next (`Source.tokens_write_iff`): between two numbers, and after a keyword or a
name that another word follows. Where it is missing there, the text has fewer words than lexemes
were written.
-/

namespace NcLang

open Text

/-! ## Normalized characters -/

/-- The characters of a text with every line break written as one line feed. -/
def Text.normalize (chars : List Char) : List Char :=
  replaceReturns (joinPairs chars)

theorem Text.joinPairs_subset (chars : List Char) : joinPairs chars ⊆ chars := by
  fun_induction joinPairs chars with
  | case1 rest ih =>
      exact List.cons_subset.mpr ⟨List.mem_cons_of_mem _ List.mem_cons_self,
        fun c member => List.mem_cons_of_mem _ (List.mem_cons_of_mem _ (ih member))⟩
  | case2 c rest _ ih => exact List.cons_subset_cons c ih
  | case3 => exact List.Subset.refl []

/-- Without carriage returns there are no pairs to join. -/
theorem Text.joinPairs_of_noReturn {chars : List Char} (noReturn : '\r' ∉ chars) :
    joinPairs chars = chars := by
  fun_induction joinPairs chars with
  | case1 => exact (noReturn List.mem_cons_self).elim
  | case2 c rest _ ih => rw [ih fun later => noReturn (List.mem_cons_of_mem c later)]
  | case3 => rfl

/-- Normalization adds nothing but line feeds. -/
theorem Text.mem_normalize {chars : List Char} {c : Char} (member : c ∈ normalize chars) :
    c = '\n' ∨ c ∈ chars ∧ c ≠ '\r' := by
  obtain ⟨origin, present, rfl⟩ := List.mem_map.mp member
  by_cases feeds : origin = '\r'
  · exact .inl (if_pos feeds)
  · rw [if_neg feeds]
    exact .inr ⟨joinPairs_subset chars present, feeds⟩

/-- No carriage return is left. -/
theorem Text.noReturn_normalize (chars : List Char) : '\r' ∉ normalize chars := by
  intro member
  rcases mem_normalize member with feed | ⟨_, other⟩
  · cases feed
  · exact other rfl

/-- A text without carriage returns stays as it is. -/
theorem Text.normalize_of_noReturn {chars : List Char} (noReturn : '\r' ∉ chars) :
    normalize chars = chars := by
  rw [normalize, joinPairs_of_noReturn noReturn, replaceReturns]
  refine (List.map_congr_left fun c member => if_neg ?_).trans (List.map_id chars)
  rintro rfl
  exact noReturn member

/-- Two texts are normalized apart, unless a pair stands across the cut. -/
theorem Text.normalize_append {first second : List Char}
    (apart : first.getLast? = some '\r' → second.head? ≠ some '\n') :
    normalize (first ++ second) = normalize first ++ normalize second := by
  rw [normalize, joinPairs_append apart, replaceReturns, List.map_append]
  rfl

theorem Text.normalize_eq_nil_iff {chars : List Char} : normalize chars = [] ↔ chars = [] := by
  rw [normalize, replaceReturns, List.map_eq_nil_iff]
  fun_cases joinPairs chars <;> simp

theorem Text.isWordChar_of_isDigit {c : Char} (digit : c.isDigit) : isWordChar c := by
  have bounds : 0x30 ≤ c.toNat ∧ c.toNat ≤ 0x39 := by
    rw [Char.isDigit, Bool.and_eq_true, decide_eq_true_eq, decide_eq_true_eq] at digit
    exact digit
  have number : numeric.covers c.toNat = true := by
    rw [numeric, CodeRanges.covers, decide_eq_true bounds.1, decide_eq_true bounds.2]
    rfl
  rw [isWordChar, isAlphanumeric, number, Bool.or_true]
  rfl

theorem Text.dropWhile_of_stops {holds : Char → Bool} {rest : List Char}
    (stops : ∀ c ∈ rest.head?, holds c = false) : rest.dropWhile holds = rest := by
  have longest : LongestRun holds [] rest := ⟨fun _ absent => (List.not_mem_nil absent).elim, stops⟩
  exact longest.dropWhile_eq

/-! ## Items -/

/-- A text of white space. -/
structure Blank where
  chars : List Char
  blank : ∀ c ∈ chars, isWhiteSpace c

/-- White space stays white space when its line breaks are normalized. -/
def Blank.normalized (space : Blank) : Blank where
  chars := normalize space.chars
  blank := by
    intro c member
    rcases mem_normalize member with rfl | ⟨present, _⟩
    · decide
    · exact space.blank c present

/-- A lexeme that can be written: a symbol, a keyword, a number that is not negative, or a name. -/
inductive Item where
  | symbol (kind : TokenKind) (c : Char) (symbol : kind.symbol? = some c)
  | keyword (word : Keyword)
  | int (value : Int64) (natural : 0 ≤ value.toInt)
  | name (first : Char) (more : List Char) (letter : isAlphabetic first)
      (inWord : ∀ c ∈ more, isWordChar c)
      (free : ∀ word : Keyword, word.spelling.toList ≠ first :: more)

namespace Item

/-- The lexeme that an item stands for. -/
def lexeme : Item → Lexeme
  | symbol kind _ _ => .ofKind kind
  | keyword word => .ofKeyword word
  | int value _ => .ofInt value
  | name first more _ _ _ => .ofName (String.ofList (first :: more))

/-- The characters that an item is written with: its value as it is shown, or its symbol. -/
def word (item : Item) : List Char :=
  match item.lexeme.value with
  | some value => value.display.toList
  | none => item.lexeme.kind.symbol?.toList

/-- Whether white space has to stand between two items. -/
def runsInto : Item → Item → Bool
  | int .., int .. => true
  | keyword _, symbol .. | name .., symbol .. => false
  | keyword _, _ | name .., _ => true
  | _, _ => false

/-- Items with white space before the first and after each. -/
def write : Blank → List (Item × Blank) → List Char
  | lead, [] => lead.chars
  | lead, (item, after) :: items => lead.chars ++ (item.word ++ write after items)

/-- White space stands wherever an item would run into the next. -/
def Separated (items : List (Item × Blank)) : Prop :=
  items.IsChain fun earlier later => earlier.1.runsInto later.1 → earlier.2.chars ≠ []

/-! ## Words of items -/

/-- Whether a character would go on with the word of an item. -/
def continued : Item → Char → Bool
  | symbol .. => fun _ => false
  | int .. => Char.isDigit
  | keyword _ | name .. => isWordChar

theorem word_symbol {kind : TokenKind} {c : Char} (symbol : kind.symbol? = some c) :
    (Item.symbol kind c symbol).word = [c] := by
  change kind.symbol?.toList = [c]
  rw [symbol]
  rfl

theorem word_int {value : Int64} (natural : 0 ≤ value.toInt) :
    (Item.int value natural).word = Nat.toDigits 10 value.toInt.toNat := by
  change (Text.integer value.toInt).toList = _
  rw [Text.integer, if_neg (Int.not_lt.mpr natural), Text.natural, String.toList_ofList]
  congr 1
  omega

theorem word_name {first : Char} {more : List Char} (letter : isAlphabetic first)
    (inWord : ∀ c ∈ more, isWordChar c)
    (free : ∀ word : Keyword, word.spelling.toList ≠ first :: more) :
    (Item.name first more letter inWord free).word = first :: more :=
  String.toList_ofList

theorem digits_int {value : Int64} (natural : 0 ≤ value.toInt) :
    ∀ c ∈ (Item.int value natural).word, c.isDigit := by
  intro c member
  rw [word_int] at member
  exact Nat.isDigit_of_mem_toDigits (by decide) (by decide) member

/-- A number is read back from its digits. -/
theorem decimal_int {value : Int64} (natural : 0 ≤ value.toInt) :
    decimal (Item.int value natural).word = value.toInt.toNat := by
  rw [word_int, decimal, Nat.ofDigitChars_toDigits (by decide) (by decide)]

/-- A keyword is spelled like a name. -/
theorem letters_keyword (word : Keyword) :
    ∃ first more, word.spelling.toList = first :: more ∧ isAlphabetic first ∧
      ∀ c ∈ more, isWordChar c := by
  cases word with
  | i32 =>
      exact ⟨'i', ['3', '2'], rfl, by decide +kernel, List.all_eq_true.mp (by decide +kernel)⟩
  | fn => exact ⟨'f', ['n'], rfl, by decide +kernel, List.all_eq_true.mp (by decide +kernel)⟩
  | var =>
      exact ⟨'v', ['a', 'r'], rfl, by decide +kernel, List.all_eq_true.mp (by decide +kernel)⟩

theorem word_ne_nil (item : Item) : item.word ≠ [] := by
  cases item with
  | symbol kind c symbol =>
      rw [word_symbol]
      exact List.cons_ne_nil _ _
  | keyword word =>
      obtain ⟨first, more, spelled, _⟩ := letters_keyword word
      change word.spelling.toList ≠ []
      rw [spelled]
      exact List.cons_ne_nil _ _
  | int value natural =>
      rw [word_int]
      exact Nat.toDigits_ne_nil
  | name first more letter inWord free =>
      rw [word_name]
      exact List.cons_ne_nil _ _

/-- The word of an item is its lexeme wherever the text does not go on with it. -/
theorem spelledBy (item : Item) {rest : List Char}
    (stops : ∀ c ∈ rest.head?, item.continued c = false) :
    item.lexeme.SpelledBy item.word rest := by
  cases item with
  | symbol kind c symbol =>
      rw [word_symbol]
      exact .symbol kind symbol
  | keyword word =>
      obtain ⟨first, more, spelled, letter, inWord⟩ := letters_keyword word
      change (Lexeme.ofKeyword word).SpelledBy word.spelling.toList rest
      rw [spelled]
      exact .keyword word letter ⟨inWord, stops⟩ spelled
  | int value natural =>
      have bound := value.toInt_le
      have value_eq : Int64.ofNat value.toInt.toNat = value := by
        rw [← Int64.ofInt_eq_ofNat, Int.toNat_of_nonneg natural, Int64.ofInt_toInt]
      have fits : decimal (Item.int value natural).word ≤ 0x7fffffffffffffff := by
        rw [decimal_int]
        have limit : Int64.maxValue.toInt = 0x7fffffffffffffff := by decide
        omega
      have spelled := Lexeme.SpelledBy.int (word_ne_nil _) ⟨digits_int natural, stops⟩ fits
      rw [decimal_int, value_eq] at spelled
      exact spelled
  | name first more letter inWord free =>
      rw [word_name]
      exact .name letter ⟨inWord, stops⟩ free

/-- No item is written with white space. -/
theorem noSpace_word (item : Item) : ∀ c ∈ item.word, isWhiteSpace c = false := by
  have atEnd : ∀ c ∈ ([] : List Char).head?, item.continued c = false := nofun
  exact (item.spelledBy atEnd).noSpace

/-- White space ends every item. -/
theorem continued_blank (item : Item) {c : Char} (space : isWhiteSpace c) :
    item.continued c = false := by
  cases item with
  | symbol => rfl
  | int => exact isDigit_of_isWhiteSpace space
  | keyword => exact isWordChar_of_isWhiteSpace space
  | name => exact isWordChar_of_isWhiteSpace space

/-- The first character of an item decides what goes on with its word, as the rest of it does. -/
theorem continues_word (item : Item) {first : Char} {more : List Char}
    (word : item.word = first :: more) :
    Token.continues first = item.continued ∧ ∀ c ∈ more, item.continued c := by
  cases item with
  | symbol kind c symbol =>
      rw [word_symbol] at word
      obtain ⟨rfl, rfl⟩ := List.cons.inj word
      obtain ⟨noDigit, noLetter, _⟩ := classes_of_symbol symbol
      exact ⟨Token.continues_of_other noDigit noLetter, nofun⟩
  | keyword reserved =>
      obtain ⟨head, tail, spelled, letter, inWord⟩ := letters_keyword reserved
      obtain ⟨rfl, rfl⟩ := List.cons.inj (spelled.symm.trans word)
      exact ⟨Token.continues_of_isAlphabetic letter, inWord⟩
  | int value natural =>
      have digits := digits_int natural
      rw [word] at digits
      exact ⟨Token.continues_of_isDigit (digits first List.mem_cons_self),
        fun c member => digits c (List.mem_cons_of_mem first member)⟩
  | name head tail letter inWord free =>
      rw [word_name] at word
      obtain ⟨rfl, rfl⟩ := List.cons.inj word
      exact ⟨Token.continues_of_isAlphabetic letter, inWord⟩

/-! ## Items that run into each other -/

theorem isWordChar_word (item : Item) (noSymbol : ∀ kind c symbol, item ≠ .symbol kind c symbol) :
    ∀ c ∈ item.word, isWordChar c := by
  intro c member
  cases item with
  | symbol kind c symbol => exact (noSymbol kind c symbol rfl).elim
  | keyword word =>
      have all : (Item.keyword word).word.all isWordChar = true := by
        cases word <;> decide +kernel
      exact List.all_eq_true.mp all c member
  | int value natural =>
      exact isWordChar_of_isDigit (digits_int natural c member)
  | name first more letter inWord free =>
      rw [word_name] at member
      rcases List.mem_cons.mp member with rfl | later
      · rw [isWordChar, isAlphanumeric, letter]
        rfl
      · exact inWord c later

theorem isDigit_head (item : Item) (noInt : ∀ value natural, item ≠ .int value natural) :
    ∀ c ∈ item.word.head?, c.isDigit = false := by
  intro c head
  cases item with
  | symbol kind c symbol =>
      rw [word_symbol] at head
      cases head
      exact (classes_of_symbol symbol).1
  | keyword word => cases word <;> cases head <;> rfl
  | int value natural => exact (noInt value natural rfl).elim
  | name first more letter inWord free =>
      rw [word_name] at head
      cases head
      rw [Bool.eq_false_iff]
      intro digit
      rw [isAlphabetic_of_isDigit digit] at letter
      cases letter

/-- A word goes on with an item if it runs into it, and else not even with its first character. -/
theorem continued_word (earlier later : Item) :
    (earlier.runsInto later → ∀ c ∈ later.word, earlier.continued c) ∧
      (earlier.runsInto later = false → ∀ c ∈ later.word.head?, earlier.continued c = false) := by
  have noDigit := later.isDigit_head
  have inWord := later.isWordChar_word
  cases later with
  | symbol kind c symbol =>
      have noWord : isWordChar c = false := by
        cases kind <;> cases symbol <;> decide +kernel
      rw [word_symbol] at *
      cases earlier <;> simp_all [runsInto, continued]
  | keyword word => cases earlier <;> simp_all [runsInto, continued]
  | int value natural =>
      have digits := digits_int natural
      cases earlier <;> simp_all [runsInto, continued]
  | name first more letter _ free => cases earlier <;> simp_all [runsInto, continued]

/-! ## Reading items back -/

/-- The pieces of a text in which each item is a word. -/
def pieces : Blank → List (Item × Blank) → List Piece
  | _, [] => []
  | lead, (item, after) :: items =>
    { gap := lead.chars, word := item.word, lexeme := item.lexeme } :: pieces after items

/-- The white space after the last item. -/
def tail : Blank → List (Item × Blank) → Blank
  | lead, [] => lead
  | _, (_, after) :: items => tail after items

/-- The pieces of written items and the white space after them are the whole text. -/
theorem text_pieces (lead : Blank) (items : List (Item × Blank)) :
    Piece.text (pieces lead items) ++ (tail lead items).chars = write lead items := by
  induction items generalizing lead with
  | nil => rfl
  | cons entry items ih =>
      rw [pieces, tail, write, Piece.text_cons, List.append_assoc, List.append_assoc, ih]

/-- The pieces of written items have the lexemes of the items. -/
theorem map_lexeme_pieces (lead : Blank) (items : List (Item × Blank)) :
    (pieces lead items).map Piece.lexeme = items.map (·.1.lexeme) := by
  induction items generalizing lead with
  | nil => rfl
  | cons entry items ih => rw [pieces, List.map_cons, List.map_cons, ih]

/-- An item does not go on with what is written after it, unless it runs into the next item. -/
theorem stops_or_runs (item : Item) (after : Blank) (items : List (Item × Blank)) :
    (∀ c ∈ (write after items).head?, item.continued c = false) ∨
      ∃ later gap rest, after.chars = [] ∧ items = (later, gap) :: rest ∧ item.runsInto later := by
  cases spaces : after.chars with
  | cons space more =>
      left
      intro c head
      have first : (write after items).head? = some space := by
        cases items <;> rw [write, spaces] <;> rfl
      cases first.symm.trans head
      exact item.continued_blank (after.blank _ (spaces ▸ List.mem_cons_self))
  | nil =>
      cases items with
      | nil =>
          left
          intro c head
          rw [write, spaces] at head
          cases head
      | cons entry rest =>
          obtain ⟨later, gap⟩ := entry
          cases runs : item.runsInto later with
          | true => exact .inr ⟨later, gap, rest, rfl, rfl, runs⟩
          | false =>
              left
              intro c head
              rw [write, spaces, List.nil_append,
                List.head?_append_of_ne_nil _ (word_ne_nil _)] at head
              exact (item.continued_word later).2 runs c head

/-- Items are separated if each goes on with nothing that is written after it. -/
theorem separated_cons_iff (item : Item) (after : Blank) (items : List (Item × Blank)) :
    Separated ((item, after) :: items) ↔
      (∀ c ∈ (write after items).head?, item.continued c = false) ∧ Separated items := by
  constructor
  · intro separated
    refine ⟨(item.stops_or_runs after items).resolve_right ?_, ?_⟩
    · rintro ⟨later, gap, rest, none, rfl, runs⟩
      exact (List.isChain_cons_cons.mp separated).1 runs none
    · exact separated.of_cons
  · rintro ⟨stops, separated⟩
    cases items with
    | nil => exact .singleton _
    | cons entry rest =>
        obtain ⟨later, gap⟩ := entry
        refine List.isChain_cons_cons.mpr ⟨fun runs none => ?_, separated⟩
        obtain ⟨first, more, word⟩ := List.exists_cons_of_ne_nil later.word_ne_nil
        have goesOn := (item.continued_word later).1 runs first (word ▸ List.mem_cons_self)
        have stopped := stops first (by rw [write, none, word]; rfl)
        cases goesOn.symm.trans stopped

/-- The pieces of separated items are as long as they can be. -/
theorem fit_pieces (lead : Blank) {items : List (Item × Blank)} (separated : Separated items) :
    Piece.Fit (pieces lead items) (tail lead items).chars := by
  induction items generalizing lead with
  | nil => trivial
  | cons entry items ih =>
      obtain ⟨item, after⟩ := entry
      obtain ⟨stops, separated⟩ := (separated_cons_iff item after items).mp separated
      refine ⟨lead.blank, ?_, ih after separated⟩
      change item.lexeme.SpelledBy item.word
        (Piece.text (pieces after items) ++ (tail after items).chars)
      rw [text_pieces]
      exact item.spelledBy stops

/-- The division of a text of separated items into them. -/
def division {text : List Char} {lead : Blank} {items : List (Item × Blank)}
    (separated : Separated items) (whole : text = write lead items) : Division text where
  pieces := pieces lead items
  tail := (tail lead items).chars
  whole := whole.trans (text_pieces lead items).symm
  fit := fit_pieces lead separated
  blank := (tail lead items).blank

/-! ## Counting words -/

/-- What goes on with an item ends where that item or a later one does. -/
theorem exists_dropWhile (item : Item) (after : Blank) (items : List (Item × Blank)) :
    ∃ gap rest, rest <:+ items ∧
      (write after items).dropWhile item.continued = write gap rest := by
  induction items generalizing after with
  | nil =>
      rcases item.stops_or_runs after [] with stops | ⟨_, _, _, _, absent, _⟩
      · exact ⟨after, [], List.suffix_rfl, dropWhile_of_stops stops⟩
      · cases absent
  | cons entry items ih =>
      rcases item.stops_or_runs after (entry :: items) with
        stops | ⟨later, gap, _, none, same, runs⟩
      · exact ⟨after, entry :: items, List.suffix_rfl, dropWhile_of_stops stops⟩
      · cases same
        obtain ⟨gap', rest, suffix, ends⟩ := ih gap
        refine ⟨gap', rest, suffix.trans (List.suffix_cons _ _), ?_⟩
        rw [write, none, List.nil_append,
          List.dropWhile_append_of_pos ((item.continued_word later).1 runs), ends]

/-- The first word of a text of items starts with the first item, and takes all that goes on with
it. -/
theorem exists_of_piece {piece : Piece} {pieces : List Piece} {rest : List Char} {lead : Blank}
    {items : List (Item × Blank)} (fit : Piece.Fit (piece :: pieces) rest)
    (whole : Piece.text (piece :: pieces) ++ rest = write lead items) :
    ∃ item after later, items = (item, after) :: later ∧
      Piece.text pieces ++ rest = (write after later).dropWhile item.continued := by
  obtain ⟨blank, spelled, _⟩ := fit
  obtain ⟨first, more, word, found⟩ := spelled.found
  rw [Piece.text_cons, word, List.append_assoc, List.append_assoc] at whole
  cases items with
  | nil =>
      rw [write] at whole
      have space := lead.blank first (whole ▸ List.mem_append_right _ List.mem_cons_self)
      cases found.noSpace.symm.trans space
  | cons entry later =>
      obtain ⟨item, after⟩ := entry
      obtain ⟨head, tail, itemWord⟩ := List.exists_cons_of_ne_nil item.word_ne_nil
      have headSpace := item.noSpace_word head (itemWord ▸ List.mem_cons_self)
      rw [write, itemWord] at whole
      -- White space ends at the same place on both sides, so the words start together.
      have left :
          LongestRun isWhiteSpace piece.gap (first :: more ++ (Piece.text pieces ++ rest)) :=
        ⟨blank, fun c same => by cases same; exact found.noSpace⟩
      have right : LongestRun isWhiteSpace lead.chars (head :: tail ++ write after later) :=
        ⟨lead.blank, fun c same => by cases same; exact headSpace⟩
      have together := left.dropWhile_eq
      rw [whole, right.dropWhile_eq] at together
      rw [List.cons_append, List.cons_append] at together
      obtain ⟨rfl, chars⟩ := List.cons.inj together
      obtain ⟨continues, tailContinues⟩ := item.continues_word itemWord
      refine ⟨item, after, later, rfl, ?_⟩
      rw [← found.dropWhile_eq, ← chars, continues,
        List.dropWhile_append_of_pos tailContinues]

/-- A text of items has no more words than items. -/
theorem length_le {pieces : List Piece} {rest : List Char} {lead : Blank}
    {items : List (Item × Blank)} (fit : Piece.Fit pieces rest)
    (whole : Piece.text pieces ++ rest = write lead items) : pieces.length ≤ items.length := by
  induction pieces generalizing lead items with
  | nil => exact Nat.zero_le _
  | cons piece pieces ih =>
      obtain ⟨item, after, later, rfl, left⟩ := exists_of_piece fit whole
      obtain ⟨gap, further, suffix, ends⟩ := item.exists_dropWhile after later
      have fewer := ih fit.2.2 (left.trans ends)
      have shorter := suffix.length_le
      simp only [List.length_cons]
      omega

/-- Items of which each is a word of its own are separated. -/
theorem separated_of_length {pieces : List Piece} {rest : List Char} {lead : Blank}
    {items : List (Item × Blank)} (fit : Piece.Fit pieces rest)
    (whole : Piece.text pieces ++ rest = write lead items)
    (each : pieces.length = items.length) : Separated items := by
  induction pieces generalizing lead items with
  | nil =>
      rw [List.length_eq_zero_iff.mp each.symm]
      exact .nil
  | cons piece pieces ih =>
      obtain ⟨item, after, later, rfl, left⟩ := exists_of_piece fit whole
      have each : pieces.length = later.length := Nat.succ.inj each
      rcases item.stops_or_runs after later with stops | ⟨next, gap, further, none, rfl, runs⟩
      · rw [dropWhile_of_stops stops] at left
        exact (separated_cons_iff item after later).mpr ⟨stops, ih fit.2.2 left each⟩
      · -- The word takes the next item too, so there are not enough words for the others.
        obtain ⟨gap', others, suffix, ends⟩ := item.exists_dropWhile gap further
        rw [write, none, List.nil_append,
          List.dropWhile_append_of_pos ((item.continued_word next).1 runs), ends] at left
        have fewer := length_le fit.2.2 left
        have shorter := suffix.length_le
        rw [List.length_cons] at each
        omega

/-! ## Line breaks between items -/

/-- Line breaks of a text of items are those of its white space. -/
theorem normalize_write (lead : Blank) (items : List (Item × Blank)) :
    normalize (write lead items) =
      write lead.normalized (items.map (Prod.map id Blank.normalized)) := by
  induction items generalizing lead with
  | nil => rfl
  | cons entry items ih =>
      obtain ⟨item, after⟩ := entry
      have noReturn : '\r' ∉ item.word := fun member => by
        cases item.noSpace_word '\r' member
      have noFeed : (item.word ++ write after items).head? ≠ some '\n' := by
        rw [List.head?_append_of_ne_nil _ item.word_ne_nil]
        intro head
        cases item.noSpace_word '\n' (List.mem_of_mem_head? head)
      have word : normalize (item.word ++ write after items) =
          item.word ++ normalize (write after items) := by
        rw [normalize_append fun ends => (noReturn (List.mem_of_getLast? ends)).elim,
          normalize_of_noReturn noReturn]
      rw [write, normalize_append fun _ => noFeed, word, ih]
      rfl

theorem tail_normalized (lead : Blank) (items : List (Item × Blank)) :
    tail lead.normalized (items.map (Prod.map id Blank.normalized)) =
      (tail lead items).normalized := by
  induction items generalizing lead with
  | nil => rfl
  | cons entry items ih => exact ih entry.2

/-- Whether items are separated does not depend on how lines are broken. -/
theorem separated_normalized {items : List (Item × Blank)} :
    Separated (items.map (Prod.map id Blank.normalized)) ↔ Separated items := by
  have empty (space : Blank) : space.normalized.chars = [] ↔ space.chars = [] :=
    normalize_eq_nil_iff
  rw [Separated, List.isChain_map]
  simp only [Prod.map_fst, Prod.map_snd, id_eq, ne_eq, empty]
  rfl

end Item

/-! ## Texts -/

/-- The characters of a source that items are written to. -/
theorem Source.toList_write (lead : Blank) (items : List (Item × Blank)) (path : String) :
    (Source.ofText (String.ofList (Item.write lead items)) path).text.toList =
      Item.write lead.normalized (items.map (Prod.map id Blank.normalized)) := by
  rw [← Item.normalize_write]
  change (normalizeBreaks _).toList = _
  rw [toList_normalizeBreaks, String.toList_ofList]
  rfl

/-- Separated items are read back. -/
theorem Source.tokens_write (lead : Blank) {items : List (Item × Blank)}
    (separated : Item.Separated items) (path : String) :
    ∃ tokens, (Source.ofText (String.ofList (Item.write lead items)) path).tokens = .ok tokens ∧
      tokens.map (·.toLexeme) = items.map (·.1.lexeme) ++ [Lexeme.eof] := by
  let division := Item.division (Item.separated_normalized.mpr separated)
    (Source.toList_write lead items path)
  refine ⟨_, division.tokens_eq _, ?_⟩
  have lexemes : division.pieces.map Piece.lexeme = items.map (·.1.lexeme) := by
    change (Item.pieces _ _).map Piece.lexeme = _
    rw [Item.map_lexeme_pieces, List.map_map]
    rfl
  rw [division.map_tokens, lexemes]

/-- **Lexing undoes writing.** Items with white space around them are read back, with their kinds
and values in order and one end of input, if and only if white space stands between any two numbers
next to each other, and after every keyword or name that a number, a keyword or a name follows. -/
theorem Source.tokens_write_iff (lead : Blank) (items : List (Item × Blank)) (path : String) :
    (∃ tokens, (Source.ofText (String.ofList (Item.write lead items)) path).tokens = .ok tokens ∧
        tokens.map (·.toLexeme) = items.map (·.1.lexeme) ++ [Lexeme.eof]) ↔
      Item.Separated items := by
  refine ⟨?_, fun separated => Source.tokens_write lead separated path⟩
  rintro ⟨tokens, lexed, same⟩
  obtain ⟨division, rfl⟩ := Source.exists_division lexed
  rw [division.map_tokens] at same
  have each : division.pieces.length = items.length := by
    simpa using congrArg List.length (List.append_cancel_right same)
  have whole := division.whole.symm.trans (Source.toList_write lead items path)
  apply Item.separated_normalized.mp
  apply Item.separated_of_length division.fit whole
  rw [each, List.length_map]

end NcLang
