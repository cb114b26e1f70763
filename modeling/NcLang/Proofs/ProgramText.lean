import NcLang.Compile
import NcLang.Proofs.Division
import NcLang.Proofs.ParseProgram
import NcLang.Proofs.Pen

/-! # The C text of a program, from its lexemes

The C text of a program can be told from its lexemes alone, without a tree: a function for each
`fn`, and in it a line for each `var`, with the lexemes between `=` and `;` as they stand. Blocks
leave no trace. `compile_eq_programText` says that this is what compilation gives.
-/

namespace NcLang

variable {α : Type}

namespace Lexeme

/-- What stands after each opening lexeme, up to the next one. -/
def partsAfter (opens : Lexeme → Bool) : List Lexeme → List (List Lexeme)
  | [] => []
  | lexeme :: rest =>
    if opens lexeme then rest.takeWhile (fun other => !opens other) :: partsAfter opens rest
    else partsAfter opens rest

/-- The name that the first of some lexemes spells. -/
def leadingName (lexemes : List Lexeme) : String :=
  (lexemes.head?.bind name?).getD ""

/-- A number in decimal, or a symbol. -/
def spelling (lexeme : Lexeme) : String :=
  match lexeme.int? with
  | some value => toString value.toInt
  | none => (lexeme.kind.symbol?.map String.singleton).getD ""

/-- The lexemes between `=` and `;`. -/
def valuePart (lexemes : List Lexeme) : List Lexeme :=
  ((lexemes.dropWhile (·.kind ≠ .equals)).drop 1).takeWhile (·.kind ≠ .semicolon)

/-- The text of the lexemes of a value, with a blank between any two. -/
def valueText (lexemes : List Lexeme) : String :=
  " ".intercalate (lexemes.map spelling)

/-- The line of a variable, from what stands after its `var`. -/
def definitionText (lexemes : List Lexeme) : String :=
  "    const int " ++ leadingName lexemes ++ " = " ++ valueText (valuePart lexemes) ++ ";\n"

/-- The lines of the variables among some lexemes. -/
def bodyText (lexemes : List Lexeme) : String :=
  String.join ((partsAfter (·.isKeyword .var) lexemes).map definitionText)

/-- The text of a function, from what stands after its `fn`. -/
def functionText (lexemes : List Lexeme) : String :=
  "int " ++ leadingName lexemes ++ "() \x7b\n" ++ bodyText lexemes ++ "\x7d\n"

/-- The texts of the functions among some lexemes. -/
def programText (lexemes : List Lexeme) : String :=
  String.join ((partsAfter (·.isKeyword .fn) lexemes).map functionText)

example : programText [.ofKeyword .fn, .ofName "f", .ofKind .leftParen, .ofKind .rightParen,
    .ofKeyword .i32, .ofKind .leftBrace, .ofKind .leftBrace, .ofKeyword .var, .ofName "x",
    .ofKeyword .i32, .ofKind .equals, .ofInt 1, .ofKind .plus, .ofInt 20, .ofKind .semicolon,
    .ofKind .rightBrace, .ofKind .rightBrace, .eof] =
    "int f() \x7b\n    const int x = 1 + 20;\n\x7d\n" := by
  decide +kernel

/-- Whether the name that a lexeme stands for, if any, is on one line. -/
def isOneLine (lexeme : Lexeme) : Bool :=
  lexeme.name?.all Text.isOneLine

/-! ## Parts -/

theorem partsAfter_cons_of_opens {opens : Lexeme → Bool} {lexeme : Lexeme} (opening : opens lexeme)
    (rest : List Lexeme) :
    partsAfter opens (lexeme :: rest) =
      rest.takeWhile (fun other => !opens other) :: partsAfter opens rest :=
  if_pos opening

/-- Lexemes that open no part add none. -/
theorem partsAfter_append {opens : Lexeme → Bool} {front : List Lexeme}
    (closed : ∀ lexeme ∈ front, opens lexeme = false) (rest : List Lexeme) :
    partsAfter opens (front ++ rest) = partsAfter opens rest := by
  induction front with
  | nil => rfl
  | cons lexeme front ih =>
      have here : ¬ opens lexeme := by
        rw [closed lexeme List.mem_cons_self]
        exact Bool.false_ne_true
      rw [List.cons_append, partsAfter, if_neg here]
      exact ih fun other member => closed other (List.mem_cons_of_mem lexeme member)

theorem takeWhile_append {opens : Lexeme → Bool} {front : List Lexeme}
    (closed : ∀ lexeme ∈ front, opens lexeme = false) (rest : List Lexeme) :
    (front ++ rest).takeWhile (fun other => !opens other) =
      front ++ rest.takeWhile fun other => !opens other := by
  apply List.takeWhile_append_of_pos
  intro lexeme member
  rw [closed lexeme member]
  rfl

theorem bodyText_append {front : List Lexeme}
    (closed : ∀ lexeme ∈ front, lexeme.isKeyword .var = false) (rest : List Lexeme) :
    bodyText (front ++ rest) = bodyText rest := by
  rw [bodyText, partsAfter_append closed]
  rfl

/-- The line of a variable does not depend on what stands after the semicolon. -/
theorem definitionText_eq (name : String) {value : List Lexeme}
    (inside : ∀ lexeme ∈ value, lexeme.kind ≠ .semicolon) (rest : List Lexeme) :
    definitionText (ofName name :: ofKeyword .i32 :: ofKind .equals :: value ++
        ofKind .semicolon :: rest) =
      "    const int " ++ name ++ " = " ++ valueText value ++ ";\n" := by
  have part : valuePart (ofName name :: ofKeyword .i32 :: ofKind .equals :: value ++
      ofKind .semicolon :: rest) = value := by
    have within : ∀ lexeme ∈ value, decide (lexeme.kind ≠ .semicolon) = true :=
      fun lexeme member => decide_eq_true (inside lexeme member)
    change (value ++ ofKind .semicolon :: rest).takeWhile (·.kind ≠ .semicolon) = value
    rw [List.takeWhile_append_of_pos within]
    exact List.append_nil value
  change "    const int " ++ name ++ " = " ++ valueText (valuePart _) ++ ";\n" = _
  rw [part]

end Lexeme

/-! ## Values -/

/-- Whether a node is made of literals and operators only. -/
def Node.isArithmetic : Node α → Bool
  | .binary _ lhs rhs _ => lhs.isArithmetic && rhs.isArithmetic
  | .literal .. => true
  | _ => false

theorem Node.isArithmetic_of_isTerm {node : Node α} (term : node.isTerm) : node.isArithmetic := by
  fun_induction Node.isTerm node with
  | case1 => rfl
  | case2 lhs _ _ _ ih =>
      rw [Node.isArithmetic, ih term]
      rfl
  | case3 => cases term

theorem Node.isArithmetic_of_isExpression {node : Node α} (expression : node.isExpression) :
    node.isArithmetic := by
  fun_induction Node.isExpression node with
  | case1 lhs rhs _ ih =>
      rw [Bool.and_eq_true] at expression
      rw [Node.isArithmetic, ih expression.1, Node.isArithmetic_of_isTerm expression.2]
      rfl
  | case2 => exact Node.isArithmetic_of_isTerm expression

/-- The lexemes that a value may have. -/
inductive Lexeme.InValue : Lexeme → Prop
  | int (value : Int64) : InValue (.ofInt value)
  | operator (op : BinaryOp) : InValue (.ofKind op.kind)

/-- No value has a keyword in it. -/
theorem Lexeme.InValue.isKeyword {lexeme : Lexeme} (inValue : lexeme.InValue) (word : Keyword) :
    lexeme.isKeyword word = false := by
  cases inValue <;> rfl

/-- No value has a semicolon in it, so that the first one after a definition ends it. -/
theorem Lexeme.InValue.kind_ne_semicolon {lexeme : Lexeme} (inValue : lexeme.InValue) :
    lexeme.kind ≠ .semicolon := by
  cases inValue with
  | int => exact TokenKind.noConfusion
  | operator op => cases op <;> exact TokenKind.noConfusion

/-- The lexemes of an arithmetic value may all stand in a value. -/
theorem Node.inValue {node : Node α} (shaped : node.isArithmetic) :
    ∀ lexeme ∈ node.lexemes, lexeme.InValue := by
  fun_induction Node.isArithmetic node with
  | case1 op lhs rhs _ ihLeft ihRight =>
      rw [Bool.and_eq_true] at shaped
      intro lexeme member
      rw [Node.lexemes, List.mem_append, List.mem_cons] at member
      rcases member with left | rfl | right
      · exact ihLeft shaped.1 lexeme left
      · exact .operator op
      · exact ihRight shaped.2 lexeme right
  | case2 value =>
      intro lexeme member
      rw [List.mem_singleton.mp member]
      exact .int value
  | case3 => cases shaped

theorem Node.lexemes_ne_nil {node : Node α} (shaped : node.isArithmetic) : node.lexemes ≠ [] := by
  cases node with
  | binary => exact List.append_ne_nil_of_right_ne_nil _ (List.cons_ne_nil _ _)
  | literal => exact List.cons_ne_nil _ _
  | _ => cases shaped

theorem Text.integer_eq (value : Int) : Text.integer value = toString value := by
  rw [Int.toString_eq_repr, Int.repr_eq_if, Text.integer]
  by_cases negative : value < 0
  · have size : value.natAbs = (-value).toNat := by omega
    rw [if_pos negative, if_neg (Int.not_le.mpr negative), size, Nat.repr_eq_ofList_toDigits]
    rfl
  · have size : value.natAbs = value.toNat := by omega
    rw [if_neg negative, if_pos (Int.not_lt.mp negative), size, Nat.repr_eq_ofList_toDigits]
    rfl

theorem Text.isOneLine_integer (value : Int) : Text.isOneLine (Text.integer value) := by
  have digits : Text.isOneLine (Text.natural value.natAbs) := by
    apply List.all_eq_true.mpr
    intro c member
    rw [Text.natural, String.toList_ofList] at member
    have digit := Nat.isDigit_of_mem_toDigits (by decide) (by decide) member
    apply decide_eq_true
    rintro rfl
    cases digit
  rw [Text.integer]
  split
  · rw [Text.isOneLine_append, digits]
    rfl
  · exact digits

theorem Lexeme.spelling_operator (op : BinaryOp) :
    (Lexeme.ofKind op.kind).spelling = op.symbol := by
  cases op <;> rfl

theorem Lexeme.valueText_int (value : Int64) :
    Lexeme.valueText [Lexeme.ofInt value] = Text.integer value.toInt := by
  rw [Text.integer_eq]
  exact String.intercalate_singleton

/-- An operator stands between the texts of its operands, which have no parentheses. -/
theorem Node.valueText_binary {lhs rhs : Node α} (op : BinaryOp) (loc : α)
    (left : lhs.isArithmetic) (right : rhs.isArithmetic) :
    Lexeme.valueText (Node.binary op lhs rhs loc).lexemes =
      Lexeme.valueText lhs.lexemes ++ " " ++ op.symbol ++ " " ++
        Lexeme.valueText rhs.lexemes := by
  have before : lhs.lexemes.map Lexeme.spelling ≠ [] :=
    fun empty => Node.lexemes_ne_nil left (List.map_eq_nil_iff.mp empty)
  have after : rhs.lexemes.map Lexeme.spelling ≠ [] :=
    fun empty => Node.lexemes_ne_nil right (List.map_eq_nil_iff.mp empty)
  rw [Node.lexemes, Lexeme.valueText, List.map_append, List.map_cons,
    String.intercalate_append_of_ne_nil before (List.cons_ne_nil _ _),
    String.intercalate_cons_of_ne_nil after, Lexeme.spelling_operator]
  simp only [Lexeme.valueText, String.append_assoc]

/-- A value is written as its lexemes stand. -/
theorem Node.writes_value {node : Node α} (shaped : node.isArithmetic) (unit : String)
    (depth : Nat) :
    node.emission.Writes unit ⟨depth, false⟩ (Lexeme.valueText node.lexemes) ⟨depth, false⟩ := by
  fun_induction Node.isArithmetic node with
  | case1 op lhs rhs loc ihLeft ihRight =>
      rw [Bool.and_eq_true] at shaped
      have space : (Emission.text " " : Emission α).Writes unit ⟨depth, false⟩ " " ⟨depth, false⟩ :=
        Emission.writes_inLine (by decide)
      have symbol : (Emission.text op.symbol : Emission α).Writes unit ⟨depth, false⟩ op.symbol
          ⟨depth, false⟩ :=
        Emission.writes_inLine (by cases op <;> decide)
      have written := ((((ihLeft shaped.1).append space).append symbol).append space).append
        (ihRight shaped.2)
      rw [Node.valueText_binary op loc shaped.1 shaped.2]
      exact written
  | case2 value =>
      rw [Node.lexemes, Lexeme.valueText_int]
      exact Emission.writes_inLine (Text.isOneLine_integer value.toInt)
  | case3 => cases shaped

/-! ## Bodies -/

/-- An emission that writes the lines of the variables among some lexemes, as part of a body. -/
structure Emission.WritesBody (emission : Emission α) (lexemes : List Lexeme) (text : String) :
    Prop where
  writes : emission.Writes standardIndent ⟨1, true⟩ text ⟨1, true⟩
  lines : ∀ rest, Lexeme.bodyText (lexemes ++ rest) = text ++ Lexeme.bodyText rest
  noFunction : ∀ lexeme ∈ lexemes, lexeme.isKeyword .fn = false

namespace Emission.WritesBody

variable {first second : Emission α} {lexemes lexemes' : List Lexeme} {text text' : String}

theorem nil : WritesBody ({} : Emission α) [] "" where
  writes := Writes.nil
  lines _ := String.empty_append.symm
  noFunction _ member := (List.not_mem_nil member).elim

/-- What two pieces of work write to a body are the texts of their lexemes, one after the other. -/
theorem append (firstWrites : first.WritesBody lexemes text)
    (secondWrites : second.WritesBody lexemes' text') :
    (first ++ second).WritesBody (lexemes ++ lexemes') (text ++ text') where
  writes := firstWrites.writes.append secondWrites.writes
  lines rest := by
    rw [List.append_assoc, firstWrites.lines, secondWrites.lines, String.append_assoc]
  noFunction lexeme member := by
    rcases List.mem_append.mp member with early | late
    · exact firstWrites.noFunction lexeme early
    · exact secondWrites.noFunction lexeme late

theorem newLine (writes : first.WritesBody lexemes text) :
    (first ++ Emission.op .newLine).WritesBody lexemes text := by
  have ended : (Emission.op .newLine : Emission α).WritesBody [] "" :=
    ⟨writes_newLine_fresh, fun _ => String.empty_append.symm,
      fun _ member => (List.not_mem_nil member).elim⟩
  have both := writes.append ended
  rw [List.append_nil, String.append_empty] at both
  exact both

/-- Braces leave no trace. -/
theorem braces (writes : first.WritesBody lexemes text) :
    first.WritesBody (Lexeme.ofKind .leftBrace :: lexemes ++ [Lexeme.ofKind .rightBrace])
      text where
  writes := writes.writes
  lines rest := by
    have opened : ∀ lexeme ∈ [Lexeme.ofKind .leftBrace], lexeme.isKeyword .var = false := by
      decide
    have closed : ∀ lexeme ∈ [Lexeme.ofKind .rightBrace], lexeme.isKeyword .var = false := by
      decide
    rw [List.append_assoc, ← List.singleton_append, List.append_assoc,
      Lexeme.bodyText_append opened, writes.lines, Lexeme.bodyText_append closed]
  noFunction lexeme member := by
    rcases List.mem_append.mp member with early | late
    · rcases List.mem_cons.mp early with rfl | inside
      · rfl
      · exact writes.noFunction lexeme inside
    · rw [List.mem_singleton.mp late]
      rfl

end Emission.WritesBody

/-- The lexemes of a variable definition. -/
def Node.definitionLexemes (name : String) (value : Node α) : List Lexeme :=
  Lexeme.ofName name :: Lexeme.ofKeyword .i32 :: Lexeme.ofKind .equals :: value.lexemes ++
    [Lexeme.ofKind .semicolon]

/-- The only keyword after that of a definition is the type. -/
theorem Node.isKeyword_definitionLexemes {name : String} {value : Node α}
    (shaped : value.isArithmetic) {lexeme : Lexeme}
    (member : lexeme ∈ Node.definitionLexemes name value) {word : Keyword} (other : word ≠ .i32) :
    lexeme.isKeyword word = false := by
  simp only [Node.definitionLexemes, List.mem_append, List.mem_cons, List.not_mem_nil,
    or_false] at member
  rcases member with (rfl | rfl | rfl | inside) | rfl
  · rfl
  · apply decide_eq_false
    rintro same
    cases same
    exact other rfl
  · rfl
  · exact (Node.inValue shaped lexeme inside).isKeyword word
  · rfl

/-- A variable is one line of the body. -/
theorem Node.writesBody_varDef {name : String} (oneLine : Text.isOneLine name) {value : Node α}
    (shaped : value.isArithmetic) (loc : α) :
    ((Node.varDef name .i32 value loc).emission ++ Emission.op .newLine).WritesBody
      (Node.varDef name .i32 value loc).lexemes
      ("    const int " ++ name ++ " = " ++ Lexeme.valueText value.lexemes ++ ";\n") := by
  refine ⟨?_, ?_, ?_⟩
  · have starts : Text.isOneLine ("const int" ++ " " ++ name ++ " = ") := by
      simp only [Text.isOneLine_append, oneLine]
      decide
    have nonempty : "const int" ++ " " ++ name ++ " = " ≠ "" := by
      simp [String.append_eq_empty_iff]
    have start : (Emission.text ("const int" ++ " " ++ name ++ " = ") : Emission α).Writes
        standardIndent ⟨1, true⟩ _ ⟨1, false⟩ := Emission.writes_fresh starts nonempty
    have semicolon : (Emission.text ";" : Emission α).Writes standardIndent ⟨1, false⟩ ";"
        ⟨1, false⟩ := Emission.writes_inLine (by decide)
    have written := ((start.append (Node.writes_value shaped standardIndent 1)).append
      semicolon).append Emission.writes_newLine_inLine
    have text : "    const int " ++ name ++ " = " ++ Lexeme.valueText value.lexemes ++ ";\n" =
        String.join (List.replicate 1 standardIndent) ++ ("const int" ++ " " ++ name ++ " = ") ++
          Lexeme.valueText value.lexemes ++ ";" ++ "\n" := by
      have opening : "    const int " = standardIndent ++ "const int" ++ " " := by decide
      have ending : ";\n" = ";" ++ "\n" := by decide
      rw [opening, ending]
      simp only [List.replicate, String.join_cons, String.join_nil, String.append_empty,
        String.append_assoc]
    rw [text]
    exact written
  · intro rest
    -- The part after this `var` may go on past the semicolon, up to the next `var`.
    have closed : ∀ lexeme ∈ Node.definitionLexemes name value, lexeme.isKeyword .var = false :=
      fun lexeme member => Node.isKeyword_definitionLexemes shaped member (by decide)
    have inside : ∀ lexeme ∈ value.lexemes, lexeme.kind ≠ .semicolon :=
      fun lexeme member => (Node.inValue shaped lexeme member).kind_ne_semicolon
    have line (after : List Lexeme) :
        Lexeme.definitionText (Node.definitionLexemes name value ++ after) =
          "    const int " ++ name ++ " = " ++ Lexeme.valueText value.lexemes ++ ";\n" := by
      rw [Node.definitionLexemes, List.append_assoc]
      exact Lexeme.definitionText_eq name inside after
    change Lexeme.bodyText (Lexeme.ofKeyword .var ::
      (Node.definitionLexemes name value ++ rest)) = _
    rw [Lexeme.bodyText, Lexeme.partsAfter_cons_of_opens rfl, Lexeme.takeWhile_append closed,
      Lexeme.partsAfter_append closed, List.map_cons, String.join_cons, line]
    rfl
  · intro lexeme member
    rcases List.mem_cons.mp member with rfl | later
    · rfl
    · exact Node.isKeyword_definitionLexemes shaped later (by decide)

mutual

/-- A statement writes the lines of the variables in it, whatever their depth. -/
theorem Node.writesBody :
    ∀ node : Node α, node.isStatement → (∀ lexeme ∈ node.lexemes, lexeme.isOneLine) →
      ∃ text, (node.emission ++ Emission.op .newLine).WritesBody node.lexemes text
  | .varDef name type value loc, shaped, oneLine => by
      rw [Node.isStatement, Bool.and_eq_true] at shaped
      obtain rfl : type = .i32 := of_decide_eq_true shaped.1
      have named : Text.isOneLine name :=
        oneLine (Lexeme.ofName name) (List.mem_cons_of_mem _ List.mem_cons_self)
      exact ⟨_, Node.writesBody_varDef named (Node.isArithmetic_of_isExpression shaped.2) loc⟩
  | .scope inner, shaped, oneLine => by
      obtain ⟨text, writes⟩ := Scope.writesBody inner shaped oneLine
      exact ⟨text, writes.newLine⟩

/-- A block writes what its statements write. -/
theorem Scope.writesBody :
    ∀ scope : Scope α, scope.isBlock → (∀ lexeme ∈ scope.lexemes, lexeme.isOneLine) →
      ∃ text, scope.emission.WritesBody scope.lexemes text
  | ⟨kind, statements, loc⟩, shaped, oneLine => by
      rw [Scope.isBlock, Bool.and_eq_true] at shaped
      obtain rfl : kind = .block := of_decide_eq_true shaped.1
      obtain ⟨text, writes⟩ := Scope.writesBodyOfAll statements shaped.2 fun lexeme member =>
        oneLine lexeme (List.mem_append_left _ (List.mem_cons_of_mem _ member))
      exact ⟨text, writes.braces⟩

theorem Scope.writesBodyOfAll :
    ∀ nodes : List (Node α), Scope.areStatements nodes →
      (∀ lexeme ∈ Scope.lexemesOfAll nodes, lexeme.isOneLine) →
      ∃ text, (Scope.emissionOfAll nodes).WritesBody (Scope.lexemesOfAll nodes) text
  | [], _, _ => ⟨"", Emission.WritesBody.nil⟩
  | node :: nodes, shaped, oneLine => by
      rw [Scope.areStatements, Bool.and_eq_true] at shaped
      obtain ⟨text, writes⟩ := Node.writesBody node shaped.1 fun lexeme member =>
        oneLine lexeme (List.mem_append_left _ member)
      obtain ⟨more, writesMore⟩ := Scope.writesBodyOfAll nodes shaped.2 fun lexeme member =>
        oneLine lexeme (List.mem_append_right _ member)
      exact ⟨text ++ more, writes.append writesMore⟩

end

/-! ## Programs -/

/-- A function is written as its header, its body one level deeper, and its closing brace. -/
theorem Node.writes_function {name : String} (oneLine : Text.isOneLine name) {body : Scope α}
    {lexemes : List Lexeme} {text : String} (writes : body.emission.WritesBody lexemes text)
    (loc : α) :
    (Node.functionEmission name .i32 body loc).Writes standardIndent ⟨0, true⟩
      ("int " ++ name ++ "() \x7b\n" ++ text ++ "\x7d\n") ⟨0, true⟩ := by
  have result : (Emission.text "int" : Emission α).Writes standardIndent ⟨0, true⟩ _ ⟨0, false⟩ :=
    Emission.writes_fresh (by decide) (by decide)
  have header : Text.isOneLine (" " ++ name ++ "() \x7b") := by
    simp only [Text.isOneLine_append, oneLine]
    decide
  have opened : (Emission.text (" " ++ name ++ "() \x7b" ++ "\n") : Emission α).Writes
      standardIndent ⟨0, false⟩ (" " ++ name ++ "() \x7b" ++ "\n") ⟨0, true⟩ :=
    (Emission.writes_inLine header).text_append (Emission.writes_feed false)
  have brace : (Emission.text "\x7d" : Emission α).Writes standardIndent ⟨0, true⟩ "\x7d"
      ⟨0, false⟩ := Emission.writes_fresh (by decide) (by decide)
  have closed : (Emission.text ("\x7d" ++ "\n") : Emission α).Writes standardIndent ⟨0, true⟩
      ("\x7d" ++ "\n") ⟨0, true⟩ := brace.text_append (Emission.writes_feed false)
  have written := ((((((Emission.writes_newLine_fresh.append result).append opened).append
    (Emission.writes_indent true)).append writes.writes).append
    (Emission.writes_dedent true)).append Emission.writes_newLine_fresh).append closed
  have ending : "() \x7b\n" = "() \x7b" ++ "\n" := by decide
  have spelled : "int " ++ name ++ "() \x7b\n" ++ text ++ "\x7d\n" =
      "" ++ (String.join (List.replicate 0 standardIndent) ++ "int") ++
        (" " ++ name ++ "() \x7b" ++ "\n") ++ "" ++ text ++ "" ++ "" ++ ("\x7d" ++ "\n") := by
    have opening : "int " = "int" ++ " " := by decide
    rw [opening, ending]
    simp only [List.replicate, String.join_nil, String.append_empty, String.empty_append,
      String.append_assoc]
    rfl
  have emission : " " ++ name ++ "() \x7b\n" = " " ++ name ++ "() \x7b" ++ "\n" := by
    rw [ending, ← String.append_assoc]
  rw [spelled, Node.functionEmission, emission]
  exact written

/-- The lexemes of a function. -/
def Node.functionLexemes (name : String) (body : Scope α) : List Lexeme :=
  [Lexeme.ofName name, Lexeme.ofKind .leftParen, Lexeme.ofKind .rightParen,
    Lexeme.ofKeyword .i32] ++ body.lexemes

/-- After a function, no variable stands before the next function or the end. -/
theorem Scope.bodyText_takeWhile {functions : List (Node α)}
    (shaped : functions.all Node.isFunction) :
    Lexeme.bodyText ((functions.flatMap Node.lexemes ++ [Lexeme.eof]).takeWhile
      fun other => !other.isKeyword .fn) = "" := by
  cases functions with
  | nil => rfl
  | cons node nodes =>
      rw [List.all_cons, Bool.and_eq_true] at shaped
      cases node with
      | funcDef name returnType body loc => rfl
      | _ => cases shaped.1

/-- A function before others has its own text. -/
theorem Lexeme.programText_function {name : String} {body : Scope α} {emission : Emission α}
    {text : String} (writes : emission.WritesBody body.lexemes text) {rest : List Lexeme}
    (blank : Lexeme.bodyText (rest.takeWhile fun other => !other.isKeyword .fn) = "") :
    Lexeme.programText (Lexeme.ofKeyword .fn :: (Node.functionLexemes name body ++ rest)) =
      "int " ++ name ++ "() \x7b\n" ++ text ++ "\x7d\n" ++ Lexeme.programText rest := by
  have closed : ∀ lexeme ∈ Node.functionLexemes name body, lexeme.isKeyword .fn = false := by
    intro lexeme member
    rcases List.mem_append.mp member with header | inside
    · simp only [List.mem_cons, List.not_mem_nil, or_false] at header
      rcases header with rfl | rfl | rfl | rfl <;> rfl
    · exact writes.noFunction lexeme inside
  have lines : Lexeme.bodyText (Node.functionLexemes name body ++
      rest.takeWhile fun other => !other.isKeyword .fn) = text := by
    change Lexeme.bodyText (body.lexemes ++ _) = text
    rw [writes.lines, blank, String.append_empty]
  rw [Lexeme.programText, Lexeme.partsAfter_cons_of_opens rfl, Lexeme.takeWhile_append closed,
    Lexeme.partsAfter_append closed, List.map_cons, String.join_cons, Lexeme.functionText, lines]
  rfl

/-- Functions are written one after the other, each from the start of a line to the start of the
next. -/
theorem Scope.writes_functions {functions : List (Node α)}
    (shaped : functions.all Node.isFunction)
    (oneLine : ∀ lexeme ∈ functions.flatMap Node.lexemes, lexeme.isOneLine) :
    (Scope.topEmission functions).Writes standardIndent ⟨0, true⟩
      (Lexeme.programText (functions.flatMap Node.lexemes ++ [Lexeme.eof])) ⟨0, true⟩ := by
  induction functions with
  | nil => exact Emission.Writes.nil
  | cons node nodes ih =>
      rw [List.all_cons, Bool.and_eq_true] at shaped
      cases node with
      | funcDef name returnType body loc =>
          rw [Node.isFunction, Bool.and_eq_true] at shaped
          obtain ⟨⟨typed, block⟩, laterShaped⟩ := shaped
          obtain rfl : returnType = .i32 := of_decide_eq_true typed
          rw [List.flatMap_cons] at oneLine
          have here (lexeme : Lexeme) (member : lexeme ∈ Node.functionLexemes name body) :
              lexeme.isOneLine :=
            oneLine lexeme (List.mem_append_left _ (List.mem_cons_of_mem _ member))
          have named : Text.isOneLine name := here (Lexeme.ofName name) List.mem_cons_self
          obtain ⟨text, writes⟩ := Scope.writesBody body block fun lexeme member =>
            here lexeme (List.mem_append_right _ member)
          have function := (Node.writes_function named writes loc).append
            Emission.writes_newLine_fresh
          have later := ih laterShaped fun lexeme member =>
            oneLine lexeme (List.mem_append_right _ member)
          have written := function.append later
          rw [String.append_empty, ← Lexeme.programText_function writes
            (Scope.bodyText_takeWhile laterShaped)] at written
          rw [List.flatMap_cons, List.append_assoc]
          exact written
      | _ => cases shaped.1

theorem Scope.writes_program {root : Scope α} (shaped : root.isProgram)
    (oneLine : ∀ lexeme ∈ root.lexemes, lexeme.isOneLine) :
    root.programEmission.Writes standardIndent ⟨0, true⟩
      (Lexeme.programText (root.lexemes ++ [Lexeme.eof])) ⟨0, true⟩ := by
  rw [Scope.lexemes_program shaped] at oneLine ⊢
  obtain ⟨kind, functions, loc⟩ := root
  rw [Scope.isProgram, Bool.and_eq_true] at shaped
  obtain rfl : kind = .global := of_decide_eq_true shaped.1
  exact Scope.writes_functions shaped.2 oneLine

/-- The C text of a program is what its emission writes from the start of a line on. -/
theorem Scope.cText_of_writes {root : Scope Span} {indent text : String} {after : Pen.Place}
    (writes : root.programEmission.Writes indent ⟨0, true⟩ text after) :
    root.cText indent = .ok text := by
  -- The sink never refuses anything, so all that is left is what the pen has written.
  obtain ⟨next, performed, pen⟩ := Sink.performAll_pen
    { out := "", unit := indent } root.programEmission.ops
  have moved := writes.moved { unit := indent } rfl rfl
  have written : next.out = text := by
    calc next.out = next.pen.text := rfl
      _ = "" ++ text := by
        rw [pen]
        exact moved.text
      _ = text := String.empty_append
  rw [Scope.cText, Scope.write, performed, writes.complete, ← written]
  rfl

/-! ## Texts -/

/-- No name that the lexer finds has a line feed in it. -/
theorem Lexeme.SpelledBy.isOneLine {word rest : List Char} {lexeme : Lexeme}
    (spelled : lexeme.SpelledBy word rest) : lexeme.isOneLine := by
  have noSpace := spelled.noSpace
  cases spelled with
  | int => rfl
  | keyword => rfl
  | @name first more _ letter longest free =>
      apply List.all_eq_true.mpr
      intro c member
      rw [String.toList_ofList] at member
      apply decide_eq_true
      rintro rfl
      cases noSpace '\n' member
  | symbol kind symbol => cases kind <;> cases symbol <;> rfl

theorem Division.lexemesBeforeEof (source : Source) (division : Division source.text.toList) :
    Token.lexemesBeforeEof (division.tokens source) = division.pieces.map Piece.lexeme := by
  have noEof := (division.consistent_tokens source).eofLast
  rw [Division.tokens, List.dropLast_concat] at noEof
  rw [Division.tokens, Token.lexemesBeforeEof_append _ noEof, Piece.map_tokens]
  exact List.append_nil _

/-- A program that is parsed from a text has the lexemes of its words, with names on one line. -/
theorem Division.lexemes_parsed (source : Source) (division : Division source.text.toList)
    {root : Scope Span} (parsed : Scope.parse (division.tokens source) = .ok root) :
    root.lexemes = division.pieces.map Piece.lexeme ∧
      ∀ lexeme ∈ root.lexemes, lexeme.isOneLine := by
  have consistent := division.consistent_tokens source
  obtain ⟨_, written⟩ := Scope.parse_sound consistent parsed
  have lexemes : root.lexemes = division.pieces.map Piece.lexeme :=
    written.symm.trans (division.lexemesBeforeEof source)
  refine ⟨lexemes, ?_⟩
  rw [lexemes]
  intro lexeme member
  obtain ⟨piece, isPiece, rfl⟩ := List.mem_map.mp member
  obtain ⟨_, spelled⟩ := Piece.exists_spelledBy division.fit piece isPiece
  exact spelled.isOneLine

/-- If the tokens of a text are a program, its output is the text that its lexemes give. -/
theorem Division.cText_eq (source : Source) (division : Division source.text.toList)
    {root : Scope Span} (parsed : Scope.parse (division.tokens source) = .ok root) :
    root.cText standardIndent =
      .ok (Lexeme.programText ((division.tokens source).map (·.toLexeme))) := by
  obtain ⟨lexemes, oneLine⟩ := division.lexemes_parsed source parsed
  rw [Scope.cText_of_writes (Scope.writes_program (Scope.isProgram_of_parse parsed) oneLine),
    division.map_tokens, lexemes]

theorem mapError_eq_ok_iff {ε ε' β : Type} {f : ε → ε'} {result : Except ε β} {value : β} :
    result.mapError f = .ok value ↔ result = .ok value := by
  cases result with
  | error fault => exact ⟨nofun, nofun⟩
  | ok found => exact ⟨fun same => congrArg _ (Except.ok.inj same),
      fun same => congrArg _ (Except.ok.inj same)⟩

theorem bind_eq_ok_iff {ε β γ : Type} {result : Except ε β} {f : β → Except ε γ} {value : γ} :
    result >>= f = .ok value ↔ ∃ found, result = .ok found ∧ f found = .ok value := by
  cases result with
  | error fault => exact ⟨nofun, nofun⟩
  | ok found =>
      refine ⟨fun same => ⟨found, rfl, same⟩, ?_⟩
      rintro ⟨other, same, given⟩
      cases same
      exact given

/-- Compilation succeeds if the text has tokens, these are a program, and the program has a text. -/
theorem compile_eq_ok_iff {text path out : String} :
    compile text path = .ok out ↔
      ∃ tokens, (Source.ofText text path).tokens = .ok tokens ∧
        ∃ root, Scope.parse tokens = .ok root ∧ root.cText standardIndent = .ok out := by
  rw [compile, tokensOf, bind_eq_ok_iff]
  simp only [treeOf, bind_eq_ok_iff, mapError_eq_ok_iff]

/-- **The C text of a program text is told by its lexemes.** Compilation succeeds if and only if
lexing and parsing do, and then gives the functions among the lexemes in their order, each with one
line for each variable in it, and nothing else. -/
theorem compile_eq_programText (text path out : String) :
    compile text path = .ok out ↔
      ∃ tokens, (Source.ofText text path).tokens = .ok tokens ∧
        (∃ root, Scope.parse tokens = .ok root) ∧
        out = Lexeme.programText (tokens.map (·.toLexeme)) := by
  rw [compile_eq_ok_iff]
  constructor
  · rintro ⟨tokens, lexed, root, parsed, compiled⟩
    obtain ⟨division, rfl⟩ := Source.exists_division lexed
    rw [division.cText_eq _ parsed] at compiled
    exact ⟨_, lexed, ⟨root, parsed⟩, (Except.ok.inj compiled).symm⟩
  · rintro ⟨tokens, lexed, ⟨root, parsed⟩, rfl⟩
    obtain ⟨division, rfl⟩ := Source.exists_division lexed
    exact ⟨_, lexed, root, parsed, division.cText_eq _ parsed⟩

end NcLang
