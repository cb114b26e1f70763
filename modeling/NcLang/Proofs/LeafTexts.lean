import NcLang.Proofs.ProgramText
import NcLang.Text.Quoted

/-! # The texts of leaves

The leaves in the outline of a tree show names between quotes, numbers and types. All of these texts
stand on one line. They can be read back: names whichever of their characters are shown by their
code (`Quoted.enclose_append_inj`), numbers, and types up to the sign flag of floating-point ones
(`ScalarType.display_eq_iff`). Each shows where it ends, as long as no character follows that could
go on with a number or a word (`Text.IsLeaf.toldApart`).
-/

namespace NcLang.Text

/-! ## Texts that are told apart -/

/-- Two texts that are not mistaken for each other, whatever follows of some kind: where the same
text starts with both, they stand for the same and the same is left. -/
def ToldApart (follows : List Char → Prop) (chars chars' : List Char) (same : Prop) : Prop :=
  ∀ rest rest', follows rest → follows rest' → chars ++ rest = chars' ++ rest' →
    same ∧ rest = rest'

/-- Whether a run of characters of a class ends before the rest. -/
def Ends (holds : Char → Bool) (rest : List Char) : Prop :=
  ∀ c ∈ rest.head?, holds c = false

theorem ends_cons {holds : Char → Bool} {c : Char} (beside : holds c = false)
    (rest : List Char) : Ends holds (c :: rest) := by
  rintro first ⟨rfl⟩
  exact beside

namespace ToldApart

variable {follows between : List Char → Prop} {chars chars' more more' : List Char}
  {same same' : Prop}

theorem imp (told : ToldApart follows chars chars' same) (implies : same → same') :
    ToldApart follows chars chars' same' := by
  intro rest rest' fits fits' equal
  obtain ⟨holds, left⟩ := told rest rest' fits fits' equal
  exact ⟨implies holds, left⟩

/-- Texts are told apart after a text that they share. -/
theorem after (told : ToldApart follows chars chars' same) (lead : List Char) :
    ToldApart follows (lead ++ chars) (lead ++ chars') same := by
  intro rest rest' fits fits' equal
  rw [List.append_assoc, List.append_assoc] at equal
  exact told rest rest' fits fits' (List.append_cancel_left equal)

/-- Texts are told apart before a text that both go on with, if it is such that may follow. -/
theorem before (told : ToldApart between chars chars' same) (trail : List Char)
    (next : ∀ rest, follows rest → between (trail ++ rest)) :
    ToldApart follows (chars ++ trail) (chars' ++ trail) same := by
  intro rest rest' fits fits' equal
  rw [List.append_assoc, List.append_assoc] at equal
  obtain ⟨here, left⟩ := told _ _ (next rest fits) (next rest' fits') equal
  exact ⟨here, List.append_cancel_left left⟩

/-- Texts are told apart one after the other if the second ones are such that may follow. -/
theorem append (first : ToldApart between chars chars' same)
    (second : ToldApart follows more more' same')
    (next : ∀ rest, follows rest → between (more ++ rest))
    (next' : ∀ rest, follows rest → between (more' ++ rest)) :
    ToldApart follows (chars ++ more) (chars' ++ more') (same ∧ same') := by
  intro rest rest' fits fits' equal
  rw [List.append_assoc, List.append_assoc] at equal
  obtain ⟨here, left⟩ := first _ _ (next rest fits) (next' rest' fits') equal
  obtain ⟨there, left⟩ := second rest rest' fits fits' left
  exact ⟨⟨here, there⟩, left⟩

/-- Runs of characters of a class are told apart where they end. -/
theorem run {holds : Char → Bool} (all : ∀ c ∈ chars, holds c) (all' : ∀ c ∈ chars', holds c) :
    ToldApart (Ends holds) chars chars' (chars = chars') := by
  intro rest rest' ends ends' equal
  have longest : LongestRun holds chars rest := ⟨all, ends⟩
  have longest' : LongestRun holds chars' rest' := ⟨all', ends'⟩
  have taken := congrArg (List.takeWhile holds) equal
  have left := congrArg (List.dropWhile holds) equal
  rw [longest.takeWhile_eq, longest'.takeWhile_eq] at taken
  rw [longest.dropWhile_eq, longest'.dropWhile_eq] at left
  exact ⟨taken, left⟩

end ToldApart

/-! ## Hexadecimal digits -/

/-- The value of a digit, with letters of lower case from ten on. -/
def hexDigit (c : Char) : Nat :=
  if c.isDigit then c.toNat - '0'.toNat else c.toNat - 'a'.toNat + 10

/-- The value of digits one after the other. -/
def hexValue (digits : List Char) : Nat :=
  digits.foldl (fun value c => 16 * value + hexDigit c) 0

theorem hexDigit_digitChar : ∀ digit < 16, hexDigit (Nat.digitChar digit) = digit := by
  decide

theorem isAlphanum_digitChar : ∀ digit < 16, (Nat.digitChar digit).isAlphanum := by
  decide

theorem isAlphanum_of_mem_toDigits {c : Char} {n : Nat} (member : c ∈ Nat.toDigits 16 n) :
    c.isAlphanum := by
  induction n using Nat.strongRecOn with
  | ind n ih =>
      rw [Nat.toDigits_eq_if (by decide)] at member
      split at member
      · rw [List.mem_singleton.mp member]
        exact isAlphanum_digitChar n ‹_›
      · obtain earlier | last := List.mem_append.mp member
        · exact ih (n / 16) (by omega) earlier
        · rw [List.mem_singleton.mp last]
          exact isAlphanum_digitChar _ (Nat.mod_lt n (by decide))

/-- A code is read back from its digits. -/
theorem hexValue_toDigits (n : Nat) : hexValue (Nat.toDigits 16 n) = n := by
  induction n using Nat.strongRecOn with
  | ind n ih =>
      rw [Nat.toDigits_eq_if (by decide)]
      split
      · have small : n < 16 := ‹_›
        rw [hexValue, List.foldl_cons, List.foldl_nil, hexDigit_digitChar n small]
        omega
      · have before := ih (n / 16) (by omega)
        rw [hexValue] at before ⊢
        rw [List.foldl_append, before, List.foldl_cons, List.foldl_nil,
          hexDigit_digitChar _ (Nat.mod_lt n (by decide))]
        omega

namespace Quoted

/-! ## One character -/

/-- Reads the character that an escape stands for, or a character that is not escaped. -/
def readOne : List Char → Option (Char × List Char)
  | [] => none
  | '\\' :: '0' :: rest => some ('\x00', rest)
  | '\\' :: 't' :: rest => some ('\t', rest)
  | '\\' :: 'r' :: rest => some ('\r', rest)
  | '\\' :: 'n' :: rest => some ('\n', rest)
  | '\\' :: 'u' :: '\x7b' :: rest =>
    some (Char.ofNat (hexValue (rest.takeWhile (· ≠ '\x7d'))), (rest.dropWhile (· ≠ '\x7d')).tail)
  | '\\' :: c :: rest => some (c, rest)
  | c :: rest => some (c, rest)

variable {byCode : Char → Bool}

/-- A character is escaped by a letter, shown by its code, or left as it is. -/
theorem escape_cases (byCode : Char → Bool) (c : Char) :
    (∃ letter, escape byCode '"' c = ['\\', letter] ∧ letter ≠ '\n' ∧
        ∀ rest, readOne ('\\' :: letter :: rest) = some (c, rest)) ∨
      escape byCode '"' c = codeEscape c ∨
      escape byCode '"' c = [c] ∧ c ≠ '\n' ∧ c ≠ '\\' := by
  rw [escape]
  split
  · subst c
    exact .inl ⟨'0', rfl, by decide, fun _ => rfl⟩
  split
  · subst c
    exact .inl ⟨'t', rfl, by decide, fun _ => rfl⟩
  split
  · subst c
    exact .inl ⟨'r', rfl, by decide, fun _ => rfl⟩
  split
  · subst c
    exact .inl ⟨'n', rfl, by decide, fun _ => rfl⟩
  split
  · rename_i marked
    rw [Bool.or_eq_true, decide_eq_true_eq, decide_eq_true_eq] at marked
    obtain rfl | rfl := marked
    · exact .inl ⟨'"', rfl, by decide, fun _ => rfl⟩
    · exact .inl ⟨'\\', rfl, by decide, fun _ => rfl⟩
  split
  · exact .inr (.inl rfl)
  · rename_i inLine unmarked _
    rw [Bool.or_eq_true, decide_eq_true_eq, decide_eq_true_eq, not_or] at unmarked
    exact .inr (.inr ⟨rfl, inLine, unmarked.2⟩)

/-- A character shown by its code is read back, whatever follows. -/
theorem readOne_codeEscape (c : Char) (rest : List Char) :
    readOne (codeEscape c ++ rest) = some (c, rest) := by
  have digits : ∀ digit ∈ Nat.toDigits 16 c.toNat, decide (digit ≠ '\x7d') = true := by
    intro digit member
    apply decide_eq_true
    rintro rfl
    cases isAlphanum_of_mem_toDigits member
  have shown : codeEscape c ++ rest =
      '\\' :: 'u' :: '\x7b' :: (Nat.toDigits 16 c.toNat ++ '\x7d' :: rest) := by
    simp [codeEscape]
  rw [shown, readOne, List.takeWhile_append_of_pos digits, List.dropWhile_append_of_pos digits]
  simp [hexValue_toDigits]

/-- A character between double quotes is read back from its escape, whatever follows. -/
theorem readOne_escape (c : Char) (rest : List Char) :
    readOne (escape byCode '"' c ++ rest) = some (c, rest) := by
  obtain ⟨letter, shown, _, read⟩ | shown | ⟨shown, _, plain⟩ := escape_cases byCode c
  · rw [shown]
    exact read rest
  · rw [shown]
    exact readOne_codeEscape c rest
  · rw [shown, List.singleton_append]
    simp [readOne, plain]

/-- Two characters that are shown alike are the same, and so is what follows them. -/
theorem escape_append_inj {c c' : Char} {rest rest' : List Char}
    (same : escape byCode '"' c ++ rest = escape byCode '"' c' ++ rest') :
    c = c' ∧ rest = rest' := by
  have read := congrArg readOne same
  rw [readOne_escape, readOne_escape] at read
  exact Prod.mk.inj (Option.some.inj read)

/-- No escape starts like the quote that ends a text. -/
theorem escape_ne_quote (c : Char) (rest rest' : List Char) :
    escape byCode '"' c ++ rest ≠ '"' :: rest' := by
  intro same
  have read := congrArg readOne same
  rw [readOne_escape] at read
  obtain ⟨rfl, -⟩ := Prod.mk.inj (Option.some.inj read)
  cases same

/-- No character is shown with a line feed. -/
theorem isOneLine_escape (c : Char) : (escape byCode '"' c).all (· ≠ '\n') := by
  obtain ⟨letter, shown, plain, _⟩ | shown | ⟨shown, plain, _⟩ := escape_cases byCode c
  · rw [shown]
    simp [plain]
  · have digits : ∀ digit ∈ Nat.toDigits 16 c.toNat, digit ≠ '\n' := by
      rintro digit member rfl
      cases isAlphanum_of_mem_toDigits member
    rw [shown]
    simpa [codeEscape] using digits
  · rw [shown]
    simp [plain]

/-! ## Whole texts -/

/-- Quoted text ends where it seems to, and gives back the text. -/
theorem enclose_append_inj {chars chars' rest rest' : List Char}
    (same : enclose byCode '"' chars ++ rest = enclose byCode '"' chars' ++ rest') :
    chars = chars' ∧ rest = rest' := by
  rw [enclose, enclose, List.cons_append, List.cons_append, List.cons_append, List.cons_append,
    List.cons.injEq] at same
  obtain ⟨-, same⟩ := same
  rw [List.append_assoc, List.append_assoc, List.singleton_append, List.singleton_append] at same
  induction chars generalizing chars' with
  | nil =>
      cases chars' with
      | nil => exact ⟨rfl, (List.cons.inj same).2⟩
      | cons c chars' =>
          rw [List.flatMap_cons, List.append_assoc] at same
          exact (escape_ne_quote c _ _ same.symm).elim
  | cons c chars ih =>
      cases chars' with
      | nil =>
          rw [List.flatMap_cons, List.append_assoc] at same
          exact (escape_ne_quote c _ _ same).elim
      | cons c' chars' =>
          rw [List.flatMap_cons, List.flatMap_cons, List.append_assoc, List.append_assoc] at same
          obtain ⟨rfl, further⟩ := escape_append_inj same
          obtain ⟨rfl, left⟩ := ih further
          exact ⟨rfl, left⟩

theorem toList_textWith (byCode : Char → Bool) (text : String) :
    (textWith byCode text).toList = enclose byCode '"' text.toList :=
  String.toList_ofList

/-- Texts that are quoted alike are the same, whatever characters are shown by their code. -/
theorem textWith_injective {text text' : String}
    (same : textWith byCode text = textWith byCode text') : text = text' := by
  have chars := congrArg (String.toList · ++ []) same
  simp only [toList_textWith] at chars
  exact String.toList_inj.mp (enclose_append_inj chars).1

theorem isOneLine_textWith (byCode : Char → Bool) (text : String) :
    isOneLine (textWith byCode text) := by
  have escaped : (text.toList.flatMap (escape byCode '"')).all (· ≠ '\n') := by
    rw [List.all_flatMap]
    exact List.all_eq_true.mpr fun c _ => isOneLine_escape c
  rw [isOneLine, toList_textWith, enclose, List.cons_append, List.all_cons, List.all_append,
    escaped]
  rfl

end Quoted

/-! ## Numbers -/

/-- Natural numbers that are shown alike are the same. -/
theorem natural_injective {value value' : Nat} (same : natural value = natural value') :
    value = value' := by
  have digits := congrArg (fun text => Nat.ofDigitChars 10 text.toList 0) same
  simp only [natural, String.toList_ofList] at digits
  rwa [Nat.ofDigitChars_toDigits (by decide) (by decide),
    Nat.ofDigitChars_toDigits (by decide) (by decide)] at digits

theorem isDigit_of_mem_natural {value : Nat} {c : Char} (member : c ∈ (natural value).toList) :
    c.isDigit := by
  rw [natural, String.toList_ofList] at member
  exact Nat.isDigit_of_mem_toDigits (by decide) (by decide) member

/-- No number without a sign is written like one with a sign. -/
theorem minus_ne_natural (text : String) (value : Nat) : "-" ++ text ≠ natural value := by
  intro same
  have minus : '-' ∈ (natural value).toList := by
    rw [← same, String.toList_append]
    exact List.mem_append_left _ (List.mem_singleton_self _)
  cases isDigit_of_mem_natural minus

/-- Integers that are shown alike are the same. -/
theorem integer_injective {value value' : Int} (same : integer value = integer value') :
    value = value' := by
  rw [integer, integer] at same
  split at same
  · split at same
    · have sizes := natural_injective ((String.append_right_inj _).mp same)
      omega
    · exact (minus_ne_natural _ _ same).elim
  · split at same
    · exact (minus_ne_natural _ _ same.symm).elim
    · have sizes := natural_injective same
      omega

/-! ## Words and values -/

/-- Whether the character may stand in a number or in the words for a type. -/
def isBareChar (c : Char) : Bool :=
  c.isAlphanum || c = '-' || c = ' '

/-- Whether the text is a number or like the words for a type: it has no quotes or brackets, and it
starts with a digit, a sign or a letter of lower case. -/
def isBare (text : String) : Bool :=
  text.toList.head?.any (fun c => c.isDigit || c.isLower || c = '-') && text.toList.all isBareChar

/-- The texts that the leaves of trees have. -/
inductive IsLeaf (byCode : Char → Bool) : String → Prop
  | quoted (name : String) : IsLeaf byCode (Quoted.textWith byCode name)
  | bare {text : String} (bare : isBare text) : IsLeaf byCode text

theorem isBareChar_of_isDigit {c : Char} (digit : c.isDigit) : isBareChar c := by
  simp [isBareChar, Char.isAlphanum, digit]

theorem natural_ne_nil (value : Nat) : (natural value).toList ≠ [] := by
  rw [natural, String.toList_ofList]
  exact Nat.toDigits_ne_nil

theorem all_isBareChar_natural (value : Nat) : (natural value).toList.all isBareChar :=
  List.all_eq_true.mpr fun _ member => isBareChar_of_isDigit (isDigit_of_mem_natural member)

theorem isBare_natural (value : Nat) : isBare (natural value) := by
  obtain ⟨c, chars, split⟩ := List.exists_cons_of_ne_nil (natural_ne_nil value)
  have digit : c.isDigit := isDigit_of_mem_natural (split ▸ List.mem_cons_self)
  rw [isBare, all_isBareChar_natural, split, List.head?_cons, Option.any_some, digit]
  rfl

/-- Numbers need no quotes. -/
theorem isBare_integer (value : Int) : isBare (integer value) := by
  rw [integer]
  split
  · rw [isBare, String.toList_append, List.all_append, all_isBareChar_natural]
    rfl
  · exact isBare_natural _

end NcLang.Text

/-! ## Types -/

namespace NcLang

open Text

/-- The word for an access, with a blank after it. -/
def Access.word : Access → String
  | .readOnly => ""
  | .writeOnly => "writeonly "
  | .readWrite => "mut "

namespace ScalarType

/-- The letter for the numbers of a type. -/
def letter (type : ScalarType) : Char :=
  match type.family, type.signed with
  | .float, _ => 'f'
  | .int, true => 'i'
  | .int, false => 'u'

/-- The type without what is not shown of it, which is the sign flag of floating-point types. -/
def shown (type : ScalarType) : ScalarType :=
  match type.family with
  | .int => type
  | .float => { type with signed := false }

/-- A type is shown by its access, the letter of its family, and its size in bits. -/
theorem toList_display (type : ScalarType) :
    type.display.toList =
      type.access.word.toList ++ type.letter :: (natural (type.byteSize * 8)).toList := by
  obtain ⟨family, signed, byteSize, access, legal⟩ := type
  cases access <;> cases family <;> cases signed <;> simp [display, Access.word, letter]

/-- Types need no quotes. -/
theorem isBare_display (type : ScalarType) : isBare type.display := by
  rw [isBare, toList_display, List.all_append, List.all_cons, all_isBareChar_natural, letter]
  cases type.access <;> cases type.family <;> cases type.signed <;> rfl

/-- The access that a display starts with. -/
def readAccess : List Char → Access
  | 'w' :: _ => .writeOnly
  | 'm' :: _ => .readWrite
  | _ => .readOnly

theorem readAccess_display (type : ScalarType) : readAccess type.display.toList = type.access := by
  rw [toList_display, letter]
  cases type.access <;> cases type.family <;> cases type.signed <;> rfl

/-- What is left out of the display of a type does not change it. -/
theorem display_shown (type : ScalarType) : type.shown.display = type.display := by
  obtain ⟨family, signed, byteSize, access, legal⟩ := type
  cases family <;> rfl

/-- A display shows all of a type but the sign flag of floating-point types. -/
theorem display_eq_iff {type type' : ScalarType} :
    type.display = type'.display ↔ type.shown = type'.shown := by
  constructor
  · intro same
    have accessEq : type.access = type'.access := by
      rw [← readAccess_display, ← readAccess_display, same]
    have chars := congrArg String.toList same
    rw [toList_display, toList_display, accessEq] at chars
    obtain ⟨letterEq, digits⟩ := List.cons.inj (List.append_cancel_left chars)
    have sizeEq : type.byteSize = type'.byteSize := by
      have bits := natural_injective (String.toList_inj.mp digits)
      omega
    obtain ⟨family, signed, byteSize, access, legal⟩ := type
    obtain ⟨family', signed', byteSize', access', legal'⟩ := type'
    cases accessEq
    cases sizeEq
    revert letterEq
    cases family <;> cases family' <;> cases signed <;> cases signed' <;> simp [letter, shown]
  · intro same
    rw [← display_shown type, same, display_shown]

end ScalarType

/-! ## Reading a leaf -/

namespace Text.IsLeaf

variable {byCode : Char → Bool} {text text' : String}

/-- A bare text starts with a digit, a letter or a minus sign. -/
theorem bare_head (bare : isBare text) :
    ∃ c chars, text.toList = c :: chars ∧ (c.isDigit || c.isLower || c = '-') := by
  rw [isBare, Bool.and_eq_true] at bare
  cases split : text.toList with
  | nil =>
      rw [split] at bare
      cases bare.1
  | cons c chars =>
      rw [split] at bare
      exact ⟨c, chars, rfl, bare.1⟩

/-- A bare text is not taken for a quoted one, whatever follows either. -/
theorem bare_ne_quoted (bare : isBare text) (name : String) (rest rest' : List Char) :
    text.toList ++ rest ≠ (Quoted.textWith byCode name).toList ++ rest' := by
  obtain ⟨c, chars, split, start⟩ := bare_head bare
  intro equal
  rw [split, Quoted.toList_textWith] at equal
  cases (List.cons.inj equal).1
  cases start

/-- Leaves are told apart where no number or word goes on. -/
theorem toldApart (leaf : IsLeaf byCode text) (leaf' : IsLeaf byCode text') :
    ToldApart (Ends isBareChar) text.toList text'.toList (text = text') := by
  cases leaf with
  | quoted name =>
      intro rest rest' _ _ equal
      cases leaf' with
      | quoted name' =>
          rw [Quoted.toList_textWith, Quoted.toList_textWith] at equal
          obtain ⟨chars, left⟩ := Quoted.enclose_append_inj equal
          rw [String.toList_inj.mp chars]
          exact ⟨rfl, left⟩
      | bare bare => exact (bare_ne_quoted bare name _ _ equal.symm).elim
  | bare bare =>
      cases leaf' with
      | quoted name' =>
          intro rest rest' _ _ equal
          exact (bare_ne_quoted bare name' _ _ equal).elim
      | bare bare' =>
          rw [isBare, Bool.and_eq_true, List.all_eq_true] at bare bare'
          exact (ToldApart.run bare.2 bare'.2).imp String.toList_inj.mp

end Text.IsLeaf

end NcLang
