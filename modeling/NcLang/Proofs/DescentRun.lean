import NcLang.Proofs.Descent
import NcLang.Proofs.ParseProgram

/-! # Recursive descent reads what drafts read

Each routine leads from the draft where its construct begins to the draft where it ends, and leaves
a token after it (`Descent.Arrives`). Only `fn` and a type may be read off the last token, since
they are told by their value alone. The cursor then comes to stand after that token, and what is due
next, a name, `=` or a brace, is not found there.

Recursive descent therefore ends on all lists of tokens, with the result of the parser
(`Scope.parse_eq_descent`).
-/

namespace NcLang

variable {α τ : Type}

namespace Descent

variable [Stretch α] {tokens : List (Token α)} {last : Token α} {draft : Draft α}
  {course : Course}

/-! ## Single tokens -/

section Tokens

variable (closed : Closed tokens last)

/-- A value for which a draft stands where it should, with the cursor further on and not past the
last token. -/
structure Arrives (tokens : List (Token α)) (start : Nat) (next : τ → Draft α) (value : τ)
    (reached : Draft α) (cursor : Nat) : Prop where
  draft : reached = next value
  onward : start < cursor
  inside : cursor < tokens.length

include closed

/-- A token that is no end of input is taken, and there is another one after it. -/
theorem arrives_take {accepts : Token α → Option τ} {cause : GrammarFault} {next : τ → Draft α}
    (sound : course.Sound tokens.length)
    (noEof : ∀ token value, accepts token = some value → token.kind ≠ .eof)
    (reads : draft.read (current tokens last course.cursor) =
      (accepts (current tokens last course.cursor)).map fun value => .more (next value))
    (shows : accepts (current tokens last course.cursor) = none →
      draft.place.fault (current tokens last course.cursor).toLexeme = cause) :
    Leads tokens last draft course (Arrives tokens course.cursor next)
      (take tokens accepts cause course) := by
  have room : ∀ value, accepts (current tokens last course.cursor) = some value →
      course.cursor + 1 < tokens.length := fun value taken =>
    closed.lt_of_kind_ne (noEof _ value taken)
  refine (leads_take closed sound reads (fun value taken => ?_) shows).weaken ?_
  · exact Nat.lt_of_succ_lt (room value taken)
  · rintro value _ _ ⟨taken, rfl, rfl⟩
    exact ⟨rfl, Nat.lt_succ_self _, room value taken⟩

theorem leads_consume {kind : TokenKind} (next : α → Draft α) (noEof : kind ≠ .eof)
    (sound : course.Sound tokens.length)
    (reads : draft.read (current tokens last course.cursor) =
      if (current tokens last course.cursor).kind = kind then
        some (.more (next (current tokens last course.cursor).loc))
      else none)
    (shows : (current tokens last course.cursor).kind ≠ kind →
      draft.place.fault (current tokens last course.cursor).toLexeme = .expected kind) :
    Leads tokens last draft course (Arrives tokens course.cursor next)
      (consume tokens kind course) := by
  refine arrives_take closed sound ?_ ?_ ?_
  · intro token value taken
    rw [Option.ite_none_right_eq_some] at taken
    rw [taken.1]
    exact noEof
  · rw [reads]
    split <;> rfl
  · intro refused
    apply shows
    rintro same
    rw [if_pos same] at refused
    cases refused

theorem leads_name (next : String → Draft α) (sound : course.Sound tokens.length)
    (reads : draft.read (current tokens last course.cursor) =
      (current tokens last course.cursor).name?.map fun name => .more (next name))
    (shows : draft.place.fault (current tokens last course.cursor).toLexeme =
      .expectedIdentifier) :
    Leads tokens last draft course (Arrives tokens course.cursor next) (name tokens course) := by
  refine arrives_take closed sound ?_ reads fun _ => shows
  intro token name named
  rw [Lexeme.eq_ofName named]
  nofun

theorem leads_value (next : Node α → Draft α) (sound : course.Sound tokens.length)
    (reads : draft.read (current tokens last course.cursor) =
      (current tokens last course.cursor).int?.map fun value =>
        .more (next (.literal value (current tokens last course.cursor).loc)))
    (shows : draft.place.fault (current tokens last course.cursor).toLexeme = .expectedValue) :
    Leads tokens last draft course (Arrives tokens course.cursor next) (value tokens course) := by
  refine arrives_take closed sound ?_ ?_ fun _ => shows
  · intro token node taken
    obtain ⟨value, counted, -⟩ := Option.map_eq_some_iff.mp taken
    rw [Lexeme.eq_ofInt counted]
    nofun
  · rw [reads, Option.map_map]
    rfl

/-- A type may be spelled by the last token, so that the cursor comes to stand after it. -/
theorem leads_type (next : ScalarType → Draft α) (sound : course.Sound tokens.length)
    (inside : course.cursor < tokens.length)
    (reads : draft.read (current tokens last course.cursor) =
      (current tokens last course.cursor).type?.map fun type => .more (next type))
    (shows : draft.place.fault (current tokens last course.cursor).toLexeme = .expectedType) :
    Leads tokens last draft course
      (fun type reached cursor => reached = next type ∧ cursor = course.cursor + 1)
      (type tokens course) :=
  (leads_take closed sound reads (fun _ _ => inside) fun _ => shows).weaken
    fun _ _ _ taken => taken.2

end Tokens

/-! ## Expressions -/

section Expressions

variable {functions : List (Node α)} {opened : OpenFunction α} {head : VariableHead α}
  {fuel : Nat} (closed : Closed tokens last)

/-- A draft that stands at a place within a function. -/
abbrev within (functions : List (Node α)) (opened : OpenFunction α) (place : BlockPlace α) :
    Draft α :=
  { functions, place := .within opened place }

/-- The value of an expression up to a cursor, at which no `*` makes its last term longer. -/
def AfterTerm (tokens : List (Token α)) (last : Token α) (functions : List (Node α))
    (opened : OpenFunction α) (head : VariableHead α) (start : Nat) (node : Node α)
    (reached : Draft α) (cursor : Nat) : Prop :=
  ∃ sum product, node = .join .add sum product ∧
    Arrives tokens start (fun product => within functions opened (.operator head sum product))
      product reached cursor ∧
    (current tokens last cursor).kind ∉ [TokenKind.star]

include closed

/-- A chain of operators is read if its operands are. -/
theorem leads_binary {operators : List TokenKind} {tighter : List (List TokenKind)}
    (invariant : Node α → Draft α → Nat → Prop)
    (enough : tokens.length - course.cursor < fuel)
    (first : Leads tokens last draft course invariant (binary tokens fuel tighter course))
    (operate : ∀ (lhs : Node α) (draft : Draft α) (before : Course),
      course.cursor ≤ before.cursor → before.Sound tokens.length →
      invariant lhs draft before.cursor →
      (current tokens last before.cursor).kind ∈ operators →
      before.cursor < tokens.length ∧ ∃ op next,
        operatorOf (current tokens last before.cursor).kind = some op ∧
        draft.read (current tokens last before.cursor) = some (.more next) ∧
        ∀ after : Course, after.cursor = before.cursor + 1 → after.Sound tokens.length →
          Leads tokens last next after
            (fun rhs => invariant (.binary op lhs rhs (Stretch.through lhs.loc rhs.loc)))
            (binary tokens fuel tighter after)) :
    Leads tokens last draft course
      (fun node reached cursor => invariant node reached cursor ∧
        (current tokens last cursor).kind ∉ operators)
      (binary tokens fuel (operators :: tighter) course) := by
  rw [binary]
  refine first.bind ?_
  intro lhs reached after onward sound holds
  refine (leads_repeatWhile closed invariant ?_ onward sound (by omega) holds).weaken ?_
  · intro lhs draft before began sound holds asked
    obtain ⟨inside, op, next, isOp, reads, operand⟩ :=
      operate lhs draft before began sound holds (List.contains_iff_mem.mp asked)
    refine (leads_advance closed sound inside reads).bind ?_
    rintro _ _ after - sound' ⟨rfl, rfl, moved⟩
    rw [isOp]
    refine (operand after moved sound').bind ?_
    intro rhs reached later onward sound'' holds'
    exact leads_pure sound'' ⟨holds', by omega⟩
  · rintro node reached cursor ⟨holds, done⟩
    refine ⟨holds, fun member => ?_⟩
    rw [List.contains_iff_mem.mpr member] at done
    cases done

/-- A term is read up to a token that is no `*`. -/
theorem leads_term (sum : Option (Node α)) (sound : course.Sound tokens.length)
    (enough : tokens.length - course.cursor < fuel) :
    Leads tokens last (within functions opened (.operand head { sum })) course
      (fun product reached cursor =>
        Arrives tokens course.cursor (fun product => within functions opened
          (.operator head sum product)) product reached cursor ∧
        (current tokens last cursor).kind ∉ [TokenKind.star])
      (binary tokens fuel [[.star]] course) := by
  refine leads_binary closed _ enough ?_ ?_
  · rw [binary]
    refine leads_value closed _ sound ?_ rfl
    exact Option.map_map ..
  · rintro lhs _ before began sound ⟨rfl, onward, inside⟩ operator
    have star := List.mem_singleton.mp operator
    refine ⟨inside, .mul, within functions opened (.operand head { sum, product := some lhs }), ?_,
      ?_, ?_⟩
    · rw [star]
      rfl
    · simp only [Draft.read, BlockPlace.read, star]
      rfl
    · intro after moved sound
      rw [binary]
      let joined (rhs : Node α) : Draft α :=
        within functions opened (.operator head sum (.join .mul (some lhs) rhs))
      refine (leads_value closed joined sound ?_ rfl).weaken ?_
      · exact Option.map_map ..
      · rintro rhs _ cursor ⟨rfl, onward', inside'⟩
        exact ⟨rfl, by omega, inside'⟩

/-- An expression is read up to a token that is no operator. -/
theorem leads_expression (sound : course.Sound tokens.length)
    (enough : tokens.length - course.cursor < fuel) :
    Leads tokens last (within functions opened (.operand head {})) course
      (fun node reached cursor =>
        AfterTerm tokens last functions opened head course.cursor node reached cursor ∧
        (current tokens last cursor).kind ∉ [TokenKind.plus])
      (binary tokens fuel precedence course) := by
  -- A draft also goes on at a `*`, but terms leave none for the loop to meet.
  refine leads_binary closed _ enough ?_ ?_
  · refine (leads_term closed none sound enough).weaken ?_
    rintro product reached cursor ⟨arrives, noStar⟩
    exact ⟨none, product, rfl, arrives, noStar⟩
  · rintro lhs _ before began sound ⟨sum, product, rfl, ⟨rfl, onward, inside⟩, noStar⟩ operator
    have plus := List.mem_singleton.mp operator
    let whole : Node α := .join .add sum product
    refine ⟨inside, .add, within functions opened (.operand head { sum := some whole }), ?_, ?_,
      ?_⟩
    · rw [plus]
      rfl
    · simp only [Draft.read, BlockPlace.read, plus]
      rfl
    · intro after moved sound
      refine (leads_term closed (some whole) sound (by omega)).weaken ?_
      rintro rhs _ cursor ⟨⟨rfl, onward', inside'⟩, noStar⟩
      exact ⟨some whole, rhs, rfl, ⟨rfl, by omega, inside'⟩, noStar⟩

end Expressions

/-! ## Statements and blocks -/

section Blocks

variable {functions : List (Node α)} {opened : OpenFunction α} {fuel : Nat}
  (closed : Closed tokens last)

/-- The draft after a statement. -/
abbrev afterStatement (functions : List (Node α)) (opened : OpenFunction α) (statement : Node α) :
    Draft α :=
  within functions { opened with inner := opened.inner.push statement } .statement

/-- After an expression, only a semicolon goes on. -/
theorem read_semicolon {head : VariableHead α} {sum : Option (Node α)} {product : Node α}
    {token : Token α} (noStar : token.kind ≠ .star) (noPlus : token.kind ≠ .plus) :
    (within functions opened (.operator head sum product)).read token =
      if token.kind = .semicolon then
        some (.more (afterStatement functions opened
          (head.complete (.join .add sum product) token.loc)))
      else none := by
  by_cases semicolon : token.kind = .semicolon
  · rw [if_pos semicolon]
    simp only [Draft.read, BlockPlace.read, semicolon]
    rfl
  · rw [if_neg semicolon]
    simp only [Draft.read, BlockPlace.read, Option.map_none]

/-- What begins a statement that is no block is the keyword. -/
theorem read_keyword (functions : List (Node α)) (opened : OpenFunction α) {token : Token α}
    (noClose : token.kind ≠ .rightBrace) (noEof : token.kind ≠ .eof)
    (noOpen : token.kind ≠ .leftBrace) :
    (within functions opened .statement).read token =
      if token.isKeyword .var then
        some (.more (within functions opened (.variableName token.loc)))
      else none := by
  simp only [Draft.read, BlockPlace.read]
  split
  · rfl
  · rfl

/-- The draft after a block, given the blocks around it. -/
def afterBlock (functions : List (Node α)) (head : FunctionHead α) :
    List (OpenBlock α) → Scope α → Draft α
  | [], scope => { functions := functions ++ [head.complete scope] }
  | inner :: outer, scope => afterStatement functions { head, outer, inner } (.scope scope)

theorem read_leftBrace (functions : List (Node α)) (opened : OpenFunction α) {token : Token α}
    (opens : token.kind = .leftBrace) :
    (within functions opened .statement).read token =
      some (.more (within functions
        { opened with outer := opened.inner :: opened.outer, inner := { loc := token.loc } }
        .statement)) := by
  simp only [Draft.read, BlockPlace.read, opens]
  rfl

theorem read_rightBrace (functions : List (Node α)) (head : FunctionHead α)
    (outer : List (OpenBlock α)) (inner : OpenBlock α) {token : Token α}
    (ends : token.kind = .rightBrace ∨ token.kind = .eof) :
    (within functions { head, outer, inner } .statement).read token =
      if token.kind = .rightBrace then
        some (.more (afterBlock functions head outer (inner.complete token.loc)))
      else none := by
  rcases ends with closes | eof
  · rw [if_pos closes]
    simp only [Draft.read, BlockPlace.read, closes]
    cases outer with
    | nil => rfl
    | cons block outer => rfl
  · have noClose : token.kind ≠ .rightBrace := by
      rw [eof]
      decide
    rw [if_neg noClose]
    simp only [Draft.read, BlockPlace.read, eof]
    rfl

include closed

theorem leads_varDef (sound : course.Sound tokens.length)
    (enough : tokens.length - course.cursor < fuel) (inside : course.cursor < tokens.length)
    (reads : (within functions opened .statement).read (current tokens last course.cursor) =
      some (.more (within functions opened
        (.variableName (current tokens last course.cursor).loc)))) :
    Leads tokens last (within functions opened .statement) course
      (Arrives tokens course.cursor (afterStatement functions opened))
      (varDef tokens fuel course) := by
  rw [varDef]
  refine (leads_advance closed sound inside reads).bind ?_
  rintro keyword _ afterKeyword - sound ⟨rfl, rfl, moved⟩
  generalize (current tokens last course.cursor).loc = loc
  refine Leads.bind (leads_name closed
    (fun name => within functions opened (.variableType loc name)) sound ?_ rfl) ?_
  · exact Option.map_map ..
  rintro name _ afterName - sound ⟨rfl, onward, inside⟩
  refine Leads.bind (leads_type closed
    (fun type => within functions opened (.equals { loc, name, type })) sound inside ?_ rfl) ?_
  · exact Option.map_map ..
  rintro type _ afterType - sound ⟨rfl, moved⟩
  refine Leads.bind (leads_consume closed
    (fun _ => within functions opened (.operand { loc, name, type } {})) (by decide) sound ?_
    fun _ => rfl) ?_
  · simp only [Draft.read, BlockPlace.read]
    split <;> rfl
  rintro equals _ afterEquals - sound ⟨rfl, onward, -⟩
  refine Leads.bind (leads_expression closed sound (by omega)) ?_
  rintro value _ afterValue - sound ⟨⟨sum, product, rfl, ⟨rfl, onward, inside⟩, noStar⟩, noPlus⟩
  refine Leads.bind (leads_consume closed (fun semicolon => afterStatement functions opened
    (VariableHead.complete { loc, name, type } (.join .add sum product) semicolon)) (by decide)
    sound ?_ fun _ => rfl) ?_
  · exact read_semicolon (List.ne_of_not_mem_cons noStar) (List.ne_of_not_mem_cons noPlus)
  rintro semicolon _ afterSemicolon - sound ⟨rfl, onward, inside⟩
  exact leads_pure sound ⟨rfl, by omega, inside⟩

/-- A statement is read if the blocks in it are. -/
theorem leads_statement {block : Descent α (Scope α)} (sound : course.Sound tokens.length)
    (enough : tokens.length - course.cursor < fuel)
    (noClose : (current tokens last course.cursor).kind ≠ .rightBrace)
    (noEof : (current tokens last course.cursor).kind ≠ .eof)
    (nested : ∀ after : Course, after.cursor = course.cursor → after.Sound tokens.length →
      (current tokens last after.cursor).kind = .leftBrace →
      Leads tokens last (within functions opened .statement) after
        (Arrives tokens after.cursor fun scope =>
          afterStatement functions opened (.scope scope))
        (block after)) :
    Leads tokens last (within functions opened .statement) course
      (Arrives tokens course.cursor (afterStatement functions opened))
      (statement tokens fuel block course) := by
  rw [statement]
  refine (leads_look closed sound).bind ?_
  rintro token _ after - sound ⟨rfl, rfl, cursor⟩
  rw [← cursor] at enough noClose noEof ⊢
  by_cases opens : (current tokens last after.cursor).kind = .leftBrace
  · rw [if_pos opens]
    refine (nested after cursor sound opens).bind ?_
    rintro scope _ afterBlock - sound ⟨rfl, onward, inside⟩
    exact leads_pure sound ⟨rfl, onward, inside⟩
  · have reads := read_keyword functions opened noClose noEof opens
    rw [if_neg opens]
    by_cases keyword : (current tokens last after.cursor).isKeyword .var
    · rw [if_pos keyword] at reads ⊢
      exact leads_varDef closed sound enough (Nat.lt_of_succ_lt (closed.lt_of_kind_ne noEof)) reads
    · rw [if_neg keyword] at reads ⊢
      exact leads_halt sound reads (if_neg noEof)

/-- A block is read from its opening brace to its closing one, if there is fuel enough for the
tokens that are left. -/
theorem leads_block (head : FunctionHead α) (outer : List (OpenBlock α))
    (sound : course.Sound tokens.length) (enough : tokens.length - course.cursor < fuel)
    (opens : draft.read (current tokens last course.cursor) =
      if (current tokens last course.cursor).kind = .leftBrace then
        some (.more (within functions
          { head, outer, inner := { loc := (current tokens last course.cursor).loc } } .statement))
      else none)
    (shows : (current tokens last course.cursor).kind ≠ .leftBrace →
      draft.place.fault (current tokens last course.cursor).toLexeme = .expected .leftBrace) :
    Leads tokens last draft course (Arrives tokens course.cursor (afterBlock functions head outer))
      (block tokens fuel course) := by
  -- The fuel goes down with the depth of the blocks; the statements of one block are a loop.
  induction fuel generalizing draft course outer with
  | zero => omega
  | succ fuel ih =>
      rw [block]
      refine Leads.bind (leads_consume closed
        (fun loc => within functions { head, outer, inner := { loc } } .statement) (by decide) sound
        opens shows) ?_
      rintro loc _ afterBrace - sound ⟨rfl, onward, inside⟩
      refine Leads.bind (leads_repeatWhile closed (Arrives tokens course.cursor fun statements =>
        within functions { head, outer, inner := { loc, statements } } .statement) ?_
        (Nat.le_refl _) sound (by omega) ⟨rfl, onward, inside⟩) ?_
      · rintro statements _ before began sound ⟨rfl, onward, inside⟩ asked
        obtain ⟨noClose, noEof⟩ := of_decide_eq_true asked
        refine Leads.bind (leads_statement closed sound (by omega) noClose noEof ?_) ?_
        · intro after cursor sound opens
          refine ih ({ loc, statements } :: outer) sound (by omega) ?_ ?_
          · rw [if_pos opens]
            exact read_leftBrace functions _ opens
          · intro other
            exact (other opens).elim
        · rintro statement _ after - sound ⟨rfl, onward', inside'⟩
          exact leads_pure sound ⟨⟨rfl, by omega, inside'⟩, onward'⟩
      · rintro statements _ afterStatements - sound ⟨⟨rfl, onward, inside⟩, ended⟩
        have ends : (current tokens last afterStatements.cursor).kind = .rightBrace ∨
            (current tokens last afterStatements.cursor).kind = .eof := by
          have both := of_decide_eq_false ended
          rw [Decidable.not_and_iff_not_or_not] at both
          exact both.imp Decidable.not_not.mp Decidable.not_not.mp
        refine Leads.bind (leads_consume closed (fun brace => afterBlock functions head outer
          (OpenBlock.complete { loc, statements } brace)) (by decide) sound ?_ ?_) ?_
        · exact read_rightBrace functions head outer _ ends
        · intro noClose
          exact if_pos (ends.resolve_left noClose)
        rintro brace _ afterBrace - sound ⟨rfl, onward', inside'⟩
        exact leads_pure sound ⟨rfl, by omega, inside'⟩

end Blocks

/-! ## Functions and programs -/

section Programs

variable {functions : List (Node α)} {fuel : Nat} (closed : Closed tokens last)

include closed in
theorem leads_function (sound : course.Sound tokens.length)
    (enough : tokens.length - course.cursor < fuel) (inside : course.cursor < tokens.length)
    (keyword : (current tokens last course.cursor).isKeyword .fn) :
    Leads tokens last { functions } course
      (Arrives tokens course.cursor fun function => { functions := functions ++ [function] })
      (function tokens fuel course) := by
  rw [function]
  have reads : ({ functions } : Draft α).read (current tokens last course.cursor) =
      some (.more { functions, place := .functionName (current tokens last course.cursor).loc }) :=
    if_pos keyword
  refine (leads_advance closed sound inside reads).bind ?_
  rintro keyword _ afterKeyword - sound ⟨rfl, rfl, moved⟩
  generalize (current tokens last course.cursor).loc = loc
  refine Leads.bind (leads_name closed
    (fun name => { functions, place := .leftParen loc name }) sound rfl rfl) ?_
  rintro name _ afterName - sound ⟨rfl, pastName, -⟩
  refine Leads.bind (leads_consume closed
    (fun _ => { functions, place := .rightParen loc name }) (by decide) sound rfl fun _ => rfl) ?_
  rintro _ _ afterLeft - sound ⟨rfl, pastLeft, -⟩
  refine Leads.bind (leads_consume closed
    (fun _ => { functions, place := .returnType loc name }) (by decide) sound rfl fun _ => rfl) ?_
  rintro _ _ afterRight - sound ⟨rfl, pastRight, inside⟩
  refine Leads.bind (leads_type closed
    (fun returnType => { functions, place := .body { loc, name, returnType } }) sound inside rfl
    rfl) ?_
  rintro returnType _ afterType - sound ⟨rfl, pastType⟩
  refine Leads.bind (leads_block closed { loc, name, returnType } [] sound (by omega) rfl
    fun _ => rfl) ?_
  rintro body _ afterBody - sound ⟨rfl, pastBody, inside⟩
  exact leads_pure sound ⟨rfl, by omega, inside⟩

/-- A routine that ends as a draft does: with the program that it completes, or at the token where
it stops. -/
structure EndsAs (tokens : List (Token α)) (last : Token α) (draft : Draft α) (cursor : Nat)
    (result : Except (Halt α) (Scope α) × Course) : Prop where
  sound : result.2.Sound tokens.length
  same : result.1 = (draft.run last (tokens.drop cursor)).mapError .fault
  shown : ∀ fault, result.1 = .error (.fault fault) →
    fault.loc = (current tokens last result.2.cursor).loc

theorem Leads.endsAs {routine : Descent α τ} {next : τ → Descent α (Scope α)}
    {middle : τ → Draft α → Nat → Prop}
    (first : Leads tokens last draft course middle (routine course))
    (further : ∀ value reached after, after.Sound tokens.length →
      middle value reached after.cursor →
      EndsAs tokens last reached after.cursor (next value after)) :
    EndsAs tokens last draft course.cursor ((routine >>= next) course) := by
  generalize done : routine course = result at first
  cases first with
  | @stopped fault after onward sound same shown =>
      rw [bind_of_error done]
      refine ⟨sound, ?_, ?_⟩
      · rw [same]
        rfl
      · rintro _ ⟨rfl⟩
        exact shown
  | @reached value reached after onward sound same holds =>
      obtain ⟨sound', same', shown'⟩ := further value reached after sound holds
      rw [bind_of_ok done]
      exact ⟨sound', same ▸ same', shown'⟩

include closed in
/-- The routine for programs ends as drafts do. -/
theorem endsAs_program (enough : tokens.length < fuel) :
    EndsAs tokens last {} 0 (program tokens fuel {}) := by
  have nonempty : 0 < tokens.length := List.length_pos_of_mem (List.mem_of_getLast? closed.ends)
  rw [program]
  refine Leads.endsAs (leads_repeatWhile closed
    (fun functions reached cursor => reached = { functions } ∧ cursor < tokens.length) ?_
    (Nat.le_refl _) (Course.sound_start _) enough ⟨rfl, nonempty⟩) ?_
  · rintro functions _ before - sound ⟨rfl, inside⟩ keyword
    refine Leads.bind (leads_function closed sound (by omega) inside keyword) ?_
    rintro function _ after - sound ⟨rfl, onward, inside⟩
    exact leads_pure sound ⟨⟨rfl, inside⟩, onward⟩
  · rintro functions _ afterFunctions sound ⟨⟨rfl, inside⟩, noKeyword⟩
    refine Leads.endsAs (leads_look closed sound) ?_
    rintro token _ after sound ⟨rfl, rfl, cursor⟩
    rw [← cursor] at inside noKeyword ⊢
    have reads : ({ functions } : Draft α).read (current tokens last after.cursor) =
        if (current tokens last after.cursor).kind = .eof then
          some (.complete
            (({ functions } : Draft α).complete (current tokens last after.cursor).loc))
        else none := by
      exact if_neg (Bool.eq_false_iff.mp noKeyword)
    by_cases eof : (current tokens last after.cursor).kind = .eof
    · rw [if_pos eof] at reads ⊢
      refine ⟨sound, ?_, nofun⟩
      rw [drop_eq_current last inside, Draft.run, reads]
      rfl
    · rw [if_neg eof] at reads ⊢
      refine ⟨sound, ?_, ?_⟩
      · rw [run_of_none reads]
        rfl
      · rintro _ ⟨rfl⟩
        rfl

end Programs

/-! ## The tree of a program -/

/-- Tokens are closed once an end of input is put after those that lack one. -/
theorem closed_terminate (tokens : List (Token Span)) :
    Closed (Token.terminate tokens)
      ((Token.terminate tokens).getLastD (Token.endAfter tokens)) := by
  rw [Token.terminate]
  by_cases ends : tokens.getLast?.any (·.kind = .eof)
  · rw [if_pos ends]
    cases isLast : tokens.getLast? with
    | none =>
        rw [isLast] at ends
        cases ends
    | some last =>
        rw [isLast] at ends
        rw [List.getLastD_eq_getLast?, isLast]
        exact ⟨isLast, of_decide_eq_true ends⟩
  · rw [if_neg ends, List.getLastD_concat]
    exact ⟨List.getLast?_concat, rfl⟩

end Descent

/-- Whatever the tokens, recursive descent ends with the result of the parser, given fuel for more
turns than there are tokens. The cursor never goes back or past the end of the tokens, every turn of
a loop moves it, and a fault shows at the token where it stands. -/
theorem Scope.parse_eq_descent (tokens : List (Token Span)) {fuel : Nat}
    (enough : (Token.terminate tokens).length < fuel) :
    let terminated := Token.terminate tokens
    let run := Descent.program terminated fuel {}
    run.1 = (Scope.parse tokens).mapError .fault ∧
      run.2.Sound terminated.length ∧
      ∀ fault, Scope.parse tokens = .error fault →
        terminated[min run.2.cursor (terminated.length - 1)]?.map (·.loc) = some fault.loc := by
  intro terminated run
  have closed := Descent.closed_terminate tokens
  obtain ⟨sound, same, shown⟩ := Descent.endsAs_program closed enough
  refine ⟨same, sound, ?_⟩
  intro fault failed
  have stopped : run.1 = .error (.fault fault) := by
    refine same.trans ?_
    change (Scope.parse tokens).mapError _ = _
    rw [failed]
    rfl
  rw [closed.getElem?_min, Option.map_some, shown fault stopped]

/-- A `+` in the place of a keyword, and an end of input in the place of a type. -/
def Token.sampleGuises : List (Token Span) :=
  Token.inRow [⟨.plus, some (.keyword .fn)⟩, .ofName "f", .ofKind .leftParen, .ofKind .rightParen,
    ⟨.eof, some (.keyword .i32)⟩]

/-- The end of input passes for a type, so that the cursor comes to stand after it. It is shown
again where a brace is missing. -/
theorem Scope.parse_eq_descent_sampleGuises :
    let run := Descent.program (Token.terminate Token.sampleGuises) 6 {}
    (Token.terminate Token.sampleGuises).length = 5 ∧ run.2.cursor = 5 ∧
      run.1 = (Scope.parse Token.sampleGuises).mapError .fault ∧ run.2.Sound 5 ∧
      ∃ fault, Scope.parse Token.sampleGuises = .error fault ∧
        fault.cause = .expected .leftBrace ∧
        (Token.terminate Token.sampleGuises)[4]?.map (·.loc) = some fault.loc := by
  have size : (Token.terminate Token.sampleGuises).length = 5 := rfl
  have cursor : (Descent.program (Token.terminate Token.sampleGuises) 6 {}).2.cursor = 5 := by
    decide +kernel
  have enough : (Token.terminate Token.sampleGuises).length < 6 := by decide
  obtain ⟨same, sound, shown⟩ := Scope.parse_eq_descent Token.sampleGuises enough
  rw [size, cursor] at shown
  exact ⟨size, cursor, same, sound, _, rfl, rfl, shown _ rfl⟩

end NcLang
