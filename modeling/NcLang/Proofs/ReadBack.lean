import NcLang.Proofs.Regrouping
import NcLang.Proofs.Spelling

/-! # Values read back from their C text

The C text of a value has no parentheses. Read as part of a program, its numbers and operators are
grouped by the grammar, whatever the tree was that they were written for. So a value is read back
exactly if it is grouped in that way (`Node.needsNoParentheses`) and has no negative numbers, which
have no literals (`Node.reads_back_iff`).
-/

namespace NcLang

open Text

variable {α : Type}

/-! ## The words of a value -/

/-- No white space. -/
def Blank.none : Blank where
  chars := []
  blank := nofun

/-- One blank. -/
def Blank.space : Blank where
  chars := [' ']
  blank := by
    intro c member
    rw [List.mem_singleton.mp member]
    decide

/-- The item that spells an operator. -/
def Item.operator : BinaryOp → Item
  | .add => .symbol .plus '+' rfl
  | .mul => .symbol .star '*' rfl

theorem Item.lexeme_operator (op : BinaryOp) :
    (Item.operator op).lexeme = Lexeme.ofKind op.kind := by
  cases op <;> rfl

theorem Item.word_operator (op : BinaryOp) : (Item.operator op).word = op.symbol.toList := by
  cases op <;> rfl

/-- Operators are separate from whatever follows them. -/
theorem Item.separated_operator (op : BinaryOp) {after : Blank} {items : List (Item × Blank)}
    (separated : Item.Separated items) : Item.Separated ((Item.operator op, after) :: items) := by
  refine (Item.separated_cons_iff _ _ _).mpr ⟨fun c _ => ?_, separated⟩
  cases op <;> rfl

/-- The characters of an operation in C text. -/
theorem Node.toList_valueText_binary {lhs rhs : Node α} (op : BinaryOp) (loc : α)
    (left : lhs.isArithmetic) (right : rhs.isArithmetic) :
    (Lexeme.valueText (Node.binary op lhs rhs loc).lexemes).toList =
      (Lexeme.valueText lhs.lexemes).toList ++ Blank.space.chars ++ (Item.operator op).word ++
        Blank.space.chars ++ (Lexeme.valueText rhs.lexemes).toList := by
  rw [Node.valueText_binary op loc left right, Item.word_operator]
  simp only [String.toList_append]
  rfl

/-- Items that a value is written with, where the text goes on after some white space. -/
structure Node.WrittenWith (value : Node α) (after : Blank) (items : List (Item × Blank)) :
    Prop where
  lexemes : items.map (·.1.lexeme) = value.lexemes
  chars : ∀ lead rest, Item.write lead (items ++ rest) =
    lead.chars ++ ((Lexeme.valueText value.lexemes).toList ++ Item.write after rest)
  separated : ∀ rest, (∀ c ∈ (Item.write after rest).head?, c.isDigit = false) →
    Item.Separated rest → Item.Separated (items ++ rest)

/-- A value without negative numbers is written with items. -/
theorem Node.exists_writtenWith {value : Node α} (shaped : value.isArithmetic)
    (natural : ∀ number ∈ value.literals, 0 ≤ number.toInt) (after : Blank) :
    ∃ items, value.WrittenWith after items := by
  fun_induction Node.isArithmetic value generalizing after with
  | case1 op lhs rhs loc ihLeft ihRight =>
      rw [Bool.and_eq_true] at shaped
      obtain ⟨left, leftWritten⟩ := ihLeft shaped.1
        (fun number member => natural number (List.mem_append_left _ member)) .space
      obtain ⟨right, rightWritten⟩ := ihRight shaped.2
        (fun number member => natural number (List.mem_append_right _ member)) after
      refine ⟨left ++ (Item.operator op, .space) :: right, ?_, ?_, ?_⟩
      · rw [List.map_append, List.map_cons, leftWritten.lexemes, rightWritten.lexemes,
          Item.lexeme_operator]
        rfl
      · intro lead rest
        rw [List.append_assoc, leftWritten.chars, List.cons_append, Item.write,
          rightWritten.chars, Node.toList_valueText_binary op loc shaped.1 shaped.2]
        simp only [List.append_assoc]
      · intro rest stops separated
        rw [List.append_assoc, List.cons_append]
        refine leftWritten.separated _ (fun c head => ?_)
          (Item.separated_operator op (rightWritten.separated rest stops separated))
        cases head
        rfl
  | case2 number loc =>
      have natural := natural number List.mem_cons_self
      refine ⟨[(.int number natural, after)], rfl, ?_, ?_⟩
      · intro lead rest
        rw [Node.lexemes, Lexeme.valueText_int]
        rfl
      · intro rest stops separated
        exact (Item.separated_cons_iff _ _ _).mpr ⟨stops, separated⟩
  | case3 => cases shaped

/-- Items up to the first negative number of a value, with its sign after them. -/
structure Node.BreaksOffAfter (value : Node α) (items : List (Item × Blank)) (more : List Char) :
    Prop where
  chars : ∀ lead, Item.write lead items ++ '-' :: more =
    lead.chars ++ (Lexeme.valueText value.lexemes).toList
  separated : Item.Separated items
  spaced : ∀ lead : Blank, lead.chars ≠ [] → (Item.tail lead items).chars ≠ []

theorem Item.tail_append (lead after : Blank) (item : Item) (first second : List (Item × Blank)) :
    Item.tail lead (first ++ (item, after) :: second) = Item.tail after second := by
  induction first generalizing lead with
  | nil => rfl
  | cons entry first ih => exact ih entry.2

/-- The text of a value with a negative number breaks off at its minus sign. -/
theorem Node.exists_breaksOffAfter {value : Node α} (shaped : value.isArithmetic)
    (negative : ∃ number ∈ value.literals, number.toInt < 0) :
    ∃ items more, value.BreaksOffAfter items more := by
  fun_induction Node.isArithmetic value with
  | case1 op lhs rhs loc ihLeft ihRight =>
      rw [Bool.and_eq_true] at shaped
      have whole := Node.toList_valueText_binary op loc shaped.1 shaped.2
      by_cases inLeft : ∃ number ∈ lhs.literals, number.toInt < 0
      · obtain ⟨items, more, breaksOff⟩ := ihLeft shaped.1 inLeft
        refine ⟨items, more ++ (Blank.space.chars ++ ((Item.operator op).word ++
          (Blank.space.chars ++ (Lexeme.valueText rhs.lexemes).toList))), ?_,
          breaksOff.separated, breaksOff.spaced⟩
        intro lead
        rw [← List.cons_append, ← List.append_assoc, breaksOff.chars, whole]
        simp only [List.append_assoc]
      · have inRight : ∃ number ∈ rhs.literals, number.toInt < 0 := by
          obtain ⟨number, member, below⟩ := negative
          rcases List.mem_append.mp member with left | right
          · exact (inLeft ⟨number, left, below⟩).elim
          · exact ⟨number, right, below⟩
        have natural : ∀ number ∈ lhs.literals, 0 ≤ number.toInt := fun number member =>
          Int.not_lt.mp fun below => inLeft ⟨number, member, below⟩
        obtain ⟨left, written⟩ := Node.exists_writtenWith shaped.1 natural .space
        obtain ⟨items, more, breaksOff⟩ := ihRight shaped.2 inRight
        refine ⟨left ++ (Item.operator op, .space) :: items, more, ?_, ?_, ?_⟩
        · intro lead
          rw [written.chars, Item.write, whole]
          simp only [List.append_assoc, breaksOff.chars]
        · refine written.separated _ (fun c head => ?_)
            (Item.separated_operator op breaksOff.separated)
          cases head
          rfl
        · intro lead _
          rw [Item.tail_append]
          exact breaksOff.spaced .space (List.cons_ne_nil _ _)
  | case2 number loc =>
      obtain ⟨_, member, below⟩ := negative
      cases List.mem_singleton.mp member
      refine ⟨[], (Text.natural number.toInt.natAbs).toList, ?_, .nil, fun _ spaced => spaced⟩
      intro lead
      rw [Node.lexemes, Lexeme.valueText_int, Text.integer, if_pos below, String.toList_append]
      rfl
  | case3 => cases shaped

/-! ## Reading a value back -/

/-- A name of one letter. -/
def Item.letter (c : Char) (letter : isAlphabetic c) : Item :=
  .name c [] letter nofun fun word => by cases word <;> exact fun same => nomatch same

/-- What stands before the value in the text of a program that holds it. -/
def Item.beforeValue : List (Item × Blank) :=
  [(.keyword .fn, .space), (.letter 'f' (by decide +kernel), .none),
    (.symbol .leftParen '(' rfl, .none), (.symbol .rightParen ')' rfl, .space),
    (.keyword .i32, .space), (.symbol .leftBrace '\x7b' rfl, .space), (.keyword .var, .space),
    (.letter 'x' (by decide +kernel), .space), (.keyword .i32, .space),
    (.symbol .equals '=' rfl, .space)]

/-- The items after the value. They end the definition and close the function. -/
def Item.afterValue : List (Item × Blank) :=
  [(.symbol .semicolon ';' rfl, .space), (.symbol .rightBrace '\x7d' rfl, .none)]

/-- The text before the value, up to the white space before it. -/
def Item.opening : List Char :=
  "fn f() i32 \x7b var x i32 =".toList

theorem Item.write_beforeValue (rest : List (Item × Blank)) :
    Item.write .none (Item.beforeValue ++ rest) = Item.opening ++ Item.write .space rest :=
  rfl

theorem Item.separated_beforeValue {rest : List (Item × Blank)} (separated : Item.Separated rest) :
    Item.Separated (Item.beforeValue ++ rest) := by
  refine List.isChain_append.mpr ⟨?_, separated, ?_⟩
  · simp [Item.beforeValue, Item.letter, Item.runsInto, Blank.space]
  · intro last isLast next _ _
    cases isLast
    exact List.cons_ne_nil _ _

/-- The text of a program that holds a value, as characters. -/
theorem toList_programHolding (value : String) :
    (programHolding value).toList =
      Item.opening ++ (Blank.space.chars ++ (value.toList ++
        Item.write .none Item.afterValue)) := by
  have opening : "fn f() i32 \x7b var x i32 = ".toList = Item.opening ++ Blank.space.chars := by
    decide
  have closing : "; \x7d".toList = Item.write .none Item.afterValue := rfl
  unfold programHolding
  rw [String.toList_append, String.toList_append, opening, closing]
  simp only [List.append_assoc]

theorem Scope.ofText_of_tokens {text path : String} {tokens : List (Token Span)}
    (lexed : (Source.ofText text path).tokens = .ok tokens) {root : Scope Span}
    (parsed : Scope.parse tokens = .ok root) : Scope.ofText text path = .ok root := by
  rw [Scope.ofText, tokensOf, lexed]
  change treeOf tokens = .ok root
  rw [treeOf, parsed]
  rfl

theorem Scope.parse_of_ofText {text path : String} {root : Scope Span}
    (read : Scope.ofText text path = .ok root) :
    ∃ tokens, (Source.ofText text path).tokens = .ok tokens ∧ Scope.parse tokens = .ok root := by
  rw [Scope.ofText, tokensOf, bind_eq_ok_iff] at read
  simpa only [treeOf, mapError_eq_ok_iff] using read

/-- Without negative numbers, a value is read back as the expression of the grammar that has the
same operands and operators. -/
theorem Scope.exists_ofText_holding {value : Node α} (shaped : value.isArithmetic)
    (natural : ∀ number ∈ value.literals, 0 ≤ number.toInt) {regrouped : Node Unit}
    (expression : regrouped.isExpression) (same : regrouped.lexemes = value.lexemes)
    (path : String) :
    ∃ root, Scope.ofText (programHolding (Lexeme.valueText value.lexemes)) path = .ok root ∧
      root.erase = Scope.holding () regrouped := by
  obtain ⟨items, written⟩ := Node.exists_writtenWith shaped natural .none
  have separated : Item.Separated (Item.beforeValue ++ (items ++ Item.afterValue)) := by
    apply Item.separated_beforeValue
    apply written.separated
    · intro c head
      cases head
      rfl
    · simp [Item.Separated, Item.afterValue, Item.runsInto]
  have text : programHolding (Lexeme.valueText value.lexemes) =
      String.ofList (Item.write .none (Item.beforeValue ++ (items ++ Item.afterValue))) := by
    apply String.toList_injective
    rw [toList_programHolding, String.toList_ofList, Item.write_beforeValue, written.chars]
  obtain ⟨tokens, lexed, lexemes⟩ := Source.tokens_write .none separated path
  rw [← text] at lexed
  obtain ⟨division, rfl⟩ := Source.exists_division lexed
  have program : Token.lexemesBeforeEof (division.tokens _) =
      (Scope.holding () regrouped).lexemes := by
    rw [division.map_tokens] at lexemes
    rw [division.lexemesBeforeEof, List.append_cancel_right lexemes, Scope.lexemes_holding, same,
      List.map_append, List.map_append, written.lexemes]
    rfl
  have shapedProgram : (Scope.holding () regrouped).isProgram := by
    rw [Scope.isProgram_holding]
    exact expression
  obtain ⟨root, parsed, erased⟩ := Scope.parse_complete (division.consistent_tokens _)
    shapedProgram program
  exact ⟨root, Scope.ofText_of_tokens lexed parsed, erased⟩

/-- A minus sign after white space is a fault. -/
theorem Source.tokens_write_minus {lead : Blank} {items : List (Item × Blank)}
    (separated : Item.Separated items) (spaced : (Item.tail lead items).chars ≠ [])
    (more : List Char) (path : String) :
    ∃ loc, (Source.ofText (String.ofList (Item.write lead items ++ '-' :: more)) path).tokens =
      .error { loc, cause := .unexpectedChar '-' } := by
  let front := items.map (Prod.map id Blank.normalized)
  let source := Source.ofText (String.ofList (Item.write lead items ++ '-' :: more)) path
  have chars : source.text.toList =
      Item.write lead.normalized front ++ (['-'] ++ normalize more) := by
    change (normalizeBreaks _).toList = _
    rw [toList_normalizeBreaks, String.toList_ofList, ← Item.normalize_write]
    change normalize (Item.write lead items ++ (['-'] ++ more)) = _
    have noFeed : (['-'] ++ more).head? ≠ some '\n' := by
      intro head
      cases head
    have noReturn : ['-'].getLast? ≠ some '\r' := by
      intro last
      cases last
    rw [normalize_append fun _ => noFeed, normalize_append fun last => (noReturn last).elim]
    rfl
  have shown : LexicalFault.ShownBy ['-'] (normalize more) (.unexpectedChar '-') :=
    .unexpectedChar (by decide +kernel) (by decide) (by decide +kernel)
      fun kind => by cases kind <;> decide
  have blank : ∀ c ∈ ((Item.tail lead.normalized front).chars ++
      (['-'] ++ normalize more)).head?, isWhiteSpace c := by
    intro c head
    have nonempty : (Item.tail lead.normalized front).chars ≠ [] := by
      rw [Item.tail_normalized]
      exact fun empty => spaced (normalize_eq_nil_iff.mp empty)
    rw [List.head?_append_of_ne_nil _ nonempty] at head
    exact (Item.tail lead.normalized front).blank c (List.mem_of_mem_head? head)
  let breach : Breach source.text.toList (.unexpectedChar '-') :=
    { pieces := Item.pieces lead.normalized front
      gap := (Item.tail lead.normalized front).chars
      word := ['-']
      rest := normalize more
      whole := by rw [chars, ← Item.text_pieces, List.append_assoc]
      fit := (Item.fit_pieces lead.normalized
        (Item.separated_normalized.mpr separated)).before_blank blank
      blank := (Item.tail lead.normalized front).blank
      shown }
  exact ⟨_, breach.tokens_eq source⟩

/-- A negative number in a value is a fault where its sign stands. -/
theorem Scope.ofText_negative {value : Node α} (shaped : value.isArithmetic)
    (negative : ∃ number ∈ value.literals, number.toInt < 0) (path : String) :
    ∃ loc, Scope.ofText (programHolding (Lexeme.valueText value.lexemes)) path =
      .error (.lexical { loc, cause := .unexpectedChar '-' }) := by
  obtain ⟨items, more, breaksOff⟩ := Node.exists_breaksOffAfter shaped negative
  have text : programHolding (Lexeme.valueText value.lexemes) =
      String.ofList (Item.write .none (Item.beforeValue ++ items) ++
        '-' :: (more ++ Item.write .none Item.afterValue)) := by
    apply String.toList_injective
    have chars := breaksOff.chars .space
    rw [toList_programHolding, String.toList_ofList, Item.write_beforeValue, ← List.cons_append,
      List.append_assoc, ← List.append_assoc (Item.write .space items), chars, List.append_assoc]
  have spaced : (Item.tail .none (Item.beforeValue ++ items)).chars ≠ [] :=
    breaksOff.spaced .space (List.cons_ne_nil _ _)
  obtain ⟨loc, fails⟩ := Source.tokens_write_minus
    (Item.separated_beforeValue breaksOff.separated) spaced
    (more ++ Item.write .none Item.afterValue) path
  refine ⟨loc, ?_⟩
  rw [Scope.ofText, tokensOf, text, fails]
  rfl

/-! ## Values and their C texts -/

/-- What the C text of a program has for the value of a variable. -/
def Node.WrittenAs (value : Node Span) (written : String) : Prop :=
  ∀ loc, (Scope.holding loc value).cText standardIndent =
    .ok ("int f() \x7b\n    const int x = " ++ written ++ ";\n\x7d\n")

/-- The value that is read from a text, as part of a program. -/
def Node.ReadFrom (value : Node Span) (text path : String) : Prop :=
  ∃ root, Scope.ofText (programHolding text) path = .ok root ∧ root.heldValue? = some value

/-- What is read is grouped as the grammar groups it. -/
theorem Node.isExpression_of_readFrom {value : Node Span} {text path : String}
    (read : value.ReadFrom text path) : value.isExpression := by
  obtain ⟨root, parsed, held⟩ := read
  obtain ⟨_, _, parsed⟩ := Scope.parse_of_ofText parsed
  exact Scope.isExpression_heldValue (Scope.isProgram_of_parse parsed) held

/-- Without negative numbers, a value is read back, perhaps regrouped. -/
theorem Node.exists_readFrom {value : Node Span} (shaped : value.isArithmetic)
    (natural : ∀ number ∈ value.literals, 0 ≤ number.toInt) (path : String) :
    ∃ found : Node Span, found.ReadFrom (Lexeme.valueText value.lexemes) path ∧
      found.lexemes = value.lexemes := by
  obtain ⟨regrouped, expression, same⟩ := Node.exists_regrouped shaped
  obtain ⟨root, read, erased⟩ := Scope.exists_ofText_holding shaped natural expression same path
  have held := Scope.heldValue?_erase root
  rw [erased] at held
  obtain ⟨found, heldFound, erasedFound⟩ := Option.map_eq_some_iff.mp held.symm
  refine ⟨found, ⟨root, read, heldFound⟩, ?_⟩
  rw [← Node.lexemes_map fun _ => (), ← same]
  exact congrArg Node.lexemes erasedFound

/-- Expressions that need no parentheses and have the same operands and operators are the same, up
to locations. -/
theorem Node.erase_eq_of_lexemes {β : Type} {first : Node α} {second : Node β}
    (shapedFirst : first.isExpression) (shapedSecond : second.isExpression)
    (same : first.lexemes = second.lexemes) : first.erase = second.erase := by
  apply Node.lexemes_injective
  · rw [Node.erase, Node.isExpression_map]
    exact shapedFirst
  · rw [Node.erase, Node.isExpression_map]
    exact shapedSecond
  · rw [Node.erase, Node.erase, Node.lexemes_map, Node.lexemes_map]
    exact same

/-- A value that needs no parentheses is read back from its text. -/
theorem Node.readFrom_of_needsNoParentheses {value : Node Span} (shaped : value.isArithmetic)
    (natural : ∀ number ∈ value.literals, 0 ≤ number.toInt) (bare : value.needsNoParentheses)
    (path : String) :
    ∃ found : Node Span, found.ReadFrom (Lexeme.valueText value.lexemes) path ∧
      found.erase = value.erase := by
  obtain ⟨found, read, same⟩ := Node.exists_readFrom shaped natural path
  rw [Node.needsNoParentheses_eq] at bare
  exact ⟨found, read, Node.erase_eq_of_lexemes (Node.isExpression_of_readFrom read) bare same⟩

/-- The values in a program that was read from a text need no parentheses and have no negative
numbers. -/
theorem Scope.bare_of_ofText {text path : String} {root : Scope Span}
    (read : Scope.ofText text path = .ok root) {value : Node Span}
    (member : value ∈ Scope.partsOfAll root.statements) (shaped : value.isArithmetic) :
    (∀ number ∈ value.literals, 0 ≤ number.toInt) ∧ value.needsNoParentheses := by
  obtain ⟨tokens, lexed, parsed⟩ := Scope.parse_of_ofText read
  obtain ⟨division, rfl⟩ := Source.exists_division lexed
  have program := Scope.isProgram_of_parse parsed
  have functions : ∀ function ∈ root.statements, function.isFunction := by
    rw [Scope.isProgram, Bool.and_eq_true] at program
    exact List.all_eq_true.mp program.2
  refine ⟨?_, ?_⟩
  · have words : ∀ function ∈ root.statements, ∀ lexeme ∈ function.lexemes,
        ∃ word rest, lexeme.SpelledBy word rest := by
      intro function among lexeme present
      have inProgram : lexeme ∈ root.lexemes := by
        rw [Scope.lexemes_program program]
        exact List.mem_flatMap.mpr ⟨function, among, present⟩
      rw [(division.lexemes_parsed _ parsed).1] at inProgram
      obtain ⟨piece, isPiece, rfl⟩ := List.mem_map.mp inProgram
      obtain ⟨rest, spelled⟩ := Piece.exists_spelledBy division.fit piece isPiece
      exact ⟨piece.word, rest, spelled⟩
    have spelled := Scope.forall_parts_all (Node.handedDown_lexemes _) root.statements words
      value member
    intro number isLiteral
    obtain ⟨word, rest, spelled⟩ := spelled _ (Node.mem_lexemes_of_literal isLiteral)
    exact spelled.natural
  · have grammar := Scope.forall_parts_all Node.handedDown_grammar root.statements
      (fun function among => .inr (.inr (functions function among))) value member
    rcases grammar with bare | statement | function
    · exact bare
    · cases value with
      | binary | literal => cases statement
      | _ => cases shaped
    · cases value with
      | binary | literal => cases function
      | _ => cases shaped

/-- **A value is read back from its C text if it needs no parentheses.** The C text of an
expression, as the value of a variable, is read back as that expression if and only if it has no
negative numbers, no sum is a factor, and no right operand has the operator that it is an operand
of. A negative number is a lexical fault at its sign. Without one the text is always read, as the
only expression that needs no parentheses and has the same numbers and operators in order. In
particular every expression of a program that was read from a text is read back unchanged. -/
theorem Node.reads_back_iff :
    (∀ value : Node Span, value.isArithmetic →
      ∃ written, value.WrittenAs written ∧ ∀ path,
        ((∃ found : Node Span, found.ReadFrom written path ∧ found.erase = value.erase) ↔
          (∀ number ∈ value.literals, 0 ≤ number.toInt) ∧ value.needsNoParentheses) ∧
        ((∃ number ∈ value.literals, number.toInt < 0) →
          ∃ loc, Scope.ofText (programHolding written) path =
            .error (.lexical { loc, cause := .unexpectedChar '-' })) ∧
        ((∀ number ∈ value.literals, 0 ≤ number.toInt) →
          ∃ found : Node Span, found.ReadFrom written path ∧
            found.needsNoParentheses ∧ found.lexemes = value.lexemes ∧
            ∀ other : Node Span, other.needsNoParentheses → other.lexemes = value.lexemes →
              other.erase = found.erase)) ∧
      ∀ text path root, Scope.ofText text path = .ok root →
        ∀ value ∈ Scope.partsOfAll root.statements, value.isArithmetic →
          ∃ written, value.WrittenAs written ∧ ∀ path', ∃ found : Node Span,
            found.ReadFrom written path' ∧ found.erase = value.erase := by
  refine ⟨?_, ?_⟩
  · intro value shaped
    refine ⟨Lexeme.valueText value.lexemes, fun loc => Scope.cText_holding loc shaped, ?_⟩
    intro path
    refine ⟨⟨?_, ?_⟩, fun negative => Scope.ofText_negative shaped negative path, ?_⟩
    · rintro ⟨found, read, erased⟩
      have bare : value.isExpression := by
        rw [← Node.isExpression_map fun _ => ()]
        change value.erase.isExpression
        rw [← erased, Node.erase, Node.isExpression_map]
        exact Node.isExpression_of_readFrom read
      rw [Node.needsNoParentheses_eq]
      refine ⟨fun number member => Int.not_lt.mp fun below => ?_, bare⟩
      obtain ⟨root, parsed, _⟩ := read
      obtain ⟨loc, fails⟩ := Scope.ofText_negative shaped ⟨number, member, below⟩ path
      cases parsed.symm.trans fails
    · rintro ⟨natural, bare⟩
      exact Node.readFrom_of_needsNoParentheses shaped natural bare path
    · intro natural
      obtain ⟨found, read, same⟩ := Node.exists_readFrom shaped natural path
      have expression := Node.isExpression_of_readFrom read
      refine ⟨found, read, ?_, same, ?_⟩
      · rw [Node.needsNoParentheses_eq]
        exact expression
      · intro other bare others
        rw [Node.needsNoParentheses_eq] at bare
        exact Node.erase_eq_of_lexemes bare expression (others.trans same.symm)
  · intro text path root read value member shaped
    obtain ⟨natural, bare⟩ := Scope.bare_of_ofText read member shaped
    exact ⟨Lexeme.valueText value.lexemes, fun loc => Scope.cText_holding loc shaped,
      Node.readFrom_of_needsNoParentheses shaped natural bare⟩

/-- The empty span at the start of the empty text. -/
def Span.sampleEmpty : Span :=
  (Pos.origin { text := "", path := "" }).emptySpan

/-- A sum as a factor: `(1 + 2) * 3`. -/
def Node.sampleProduct : Node Span :=
  .binary .mul (.binary .add (.literal 1 .sampleEmpty) (.literal 2 .sampleEmpty) .sampleEmpty)
    (.literal 3 .sampleEmpty) .sampleEmpty

/-- A sum as a factor is read as something else, and a negative number not at all; what was read
from a text is read back. -/
theorem Node.reads_back_samples :
    (∃ written, Node.sampleProduct.WrittenAs written ∧ ∀ path,
        (¬ ∃ found : Node Span, found.ReadFrom written path ∧
          found.erase = Node.sampleProduct.erase) ∧
        ∃ found : Node Span, found.ReadFrom written path ∧
          found.lexemes = Node.sampleProduct.lexemes) ∧
      (∃ written, (Node.literal (-1) .sampleEmpty).WrittenAs written ∧ ∀ path,
        ∃ loc, Scope.ofText (programHolding written) path =
          .error (.lexical { loc, cause := .unexpectedChar '-' })) ∧
      ∃ root value, Scope.ofText (programHolding "1 + 2 * 3") "p" = .ok root ∧
        value ∈ Scope.partsOfAll root.statements ∧ value.isArithmetic ∧
        ∃ written, value.WrittenAs written ∧ ∀ path', ∃ found : Node Span,
          found.ReadFrom written path' ∧ found.erase = value.erase := by
  obtain ⟨each, parsed⟩ := Node.reads_back_iff
  refine ⟨?_, ?_, ?_⟩
  · obtain ⟨written, isWritten, read⟩ := each Node.sampleProduct (by decide)
    refine ⟨written, isWritten, fun path => ?_⟩
    obtain ⟨same, _, regrouped⟩ := read path
    have natural : (Node.sampleProduct.literals.all fun number => 0 ≤ number.toInt) = true := by
      decide
    obtain ⟨found, foundRead, _, lexemes, _⟩ := regrouped fun number member =>
      of_decide_eq_true (List.all_eq_true.mp natural number member)
    refine ⟨fun unchanged => ?_, found, foundRead, lexemes⟩
    have grouped : Node.sampleProduct.needsNoParentheses = false := by decide
    rw [(same.mp unchanged).2] at grouped
    cases grouped
  · obtain ⟨written, isWritten, read⟩ := each (.literal (-1) .sampleEmpty) rfl
    exact ⟨written, isWritten, fun path => (read path).2.1 ⟨-1, List.mem_cons_self, by decide⟩⟩
  · have present : ((Scope.ofText (programHolding "1 + 2 * 3") "p").toOption.any fun root =>
        (Scope.partsOfAll root.statements).any Node.isArithmetic) = true := by
      decide +kernel
    cases read : Scope.ofText (programHolding "1 + 2 * 3") "p" with
    | error fault =>
        rw [read] at present
        cases present
    | ok root =>
        rw [read] at present
        obtain ⟨value, member, shaped⟩ := List.any_eq_true.mp present
        exact ⟨root, value, rfl, member, shaped, parsed _ _ root read value member shaped⟩

end NcLang
