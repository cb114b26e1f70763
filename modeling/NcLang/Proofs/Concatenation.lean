import NcLang.Proofs.Compilable
import NcLang.Proofs.Seam

/-! # Compilation of texts after each other

A program after another program, on a new line, is compiled as if it stood alone: the C text is that
of the one and then that of the other, and a fault of the second text is the same fault at a place
further on (`compile_append_feed`). A draft keeps its complete functions apart from all it reads
after them (`Draft.under`), and between functions a sink is always at the start of a line.
-/

namespace NcLang

open Text

variable {α : Type}

/-! ## Reading after complete functions -/

section Under

variable [Stretch α]

/-- The draft with some functions before its own. -/
def Draft.under (functions : List (Node α)) (draft : Draft α) : Draft α :=
  { draft with functions := functions ++ draft.functions }

/-- What a token makes of a draft, where there are functions before. -/
def Reading.under (functions : List (Node α)) (draft : Draft α) (loc : α) : Reading α → Reading α
  | .more next => .more (next.under functions)
  | .complete _ => .complete ((draft.under functions).complete loc)

theorem Draft.afterStep_under (functions own : List (Node α)) (opened : OpenFunction α)
    (step : BlockStep α) :
    Draft.afterStep (functions ++ own) opened step =
      (Draft.afterStep own opened step).under functions := by
  obtain ⟨head, outer, inner⟩ := opened
  cases step with
  | closeBlock brace =>
      cases outer with
      | nil =>
          simp only [Draft.afterStep, Draft.under, List.append_assoc]
      | cons block outer => rfl
  | _ => rfl

/-- A token does the same to a draft where there are functions before. -/
theorem Draft.read_under (functions : List (Node α)) (draft : Draft α) (token : Token α) :
    (draft.under functions).read token =
      (draft.read token).map (Reading.under functions draft token.loc) := by
  obtain ⟨own, place⟩ := draft
  cases place with
  | function =>
      simp only [Draft.under, Draft.read]
      rw [apply_ite (Option.map _), apply_ite (Option.map _)]
      rfl
  | functionName loc =>
      simp only [Draft.under, Draft.read, Option.map_map]
      rfl
  | returnType loc name =>
      simp only [Draft.under, Draft.read, Option.map_map]
      rfl
  | within opened place =>
      simp only [Draft.under, Draft.read, Option.map_map]
      congr 1
      funext step
      simp only [Function.comp_apply, Reading.under, Draft.afterStep_under]
  | _ =>
      simp only [Draft.under, Draft.read]
      rw [apply_ite (Option.map _)]
      rfl

/-- A run fails alike where there are functions before, and else gives them and its own. -/
theorem Draft.run_under (functions : List (Node α)) (last : Token α) (draft : Draft α)
    (tokens : List (Token α)) :
    (∀ fault, draft.run last tokens = .error fault →
        (draft.under functions).run last tokens = .error fault) ∧
      ∀ root, draft.run last tokens = .ok root →
        ∃ whole, (draft.under functions).run last tokens = .ok whole ∧
          whole.kind = .global ∧ whole.statements = functions ++ root.statements := by
  induction tokens generalizing draft with
  | nil =>
      refine ⟨fun fault failed => failed, fun root done => ?_⟩
      cases done
  | cons token tokens ih =>
      rw [Draft.run, Draft.run, Draft.read_under]
      cases step : draft.read token with
      | none =>
          refine ⟨fun fault failed => failed, fun root done => ?_⟩
          cases done
      | some reading =>
          cases reading with
          | more next => exact ih next
          | complete root =>
              refine ⟨fun fault failed => ?_, fun other done => ?_⟩
              · cases failed
              · cases done
                obtain ⟨_, _, rfl⟩ := Draft.read_complete step
                exact ⟨_, rfl, rfl, rfl⟩

end Under

/-! ## Parsing after complete functions -/

theorem Scope.parse_eq_run (tokens : List (Token Span)) {eof : Token Span}
    (isEof : eof.kind = .eof) :
    Scope.parse (tokens ++ [eof]) = ({} : Draft Span).run eof (tokens ++ [eof]) := by
  rw [Scope.parse, Token.terminate_concat isEof, List.getLastD_concat]

theorem Scope.parse_map {f : Span → Span} (keeps : KeepsStretch f) (tokens : List (Token Span))
    {eof : Token Span} (isEof : eof.kind = .eof) :
    Scope.parse ((tokens ++ [eof]).map (Token.map f)) =
      Located.mapResult f (Scope.map f) (Scope.parse (tokens ++ [eof])) := by
  rw [Scope.parse_eq_run tokens isEof, ← Draft.run_map keeps, List.map_append]
  exact Scope.parse_eq_run (tokens.map (Token.map f)) isEof

/-- After tokens of complete functions, tokens at other locations are parsed alike: parsing fails as
without them, and else gives their functions first. -/
theorem Scope.parse_after {before : List (Token Span)} {functions : List (Node Span)}
    (path : ({} : Draft Span).after? before = some { functions }) {f : Span → Span}
    (keeps : KeepsStretch f) (tokens : List (Token Span)) {eof : Token Span}
    (isEof : eof.kind = .eof) :
    let joint := before ++ (tokens ++ [eof]).map (Token.map f)
    (∀ fault, Scope.parse (tokens ++ [eof]) = .error fault →
        Scope.parse joint = .error (fault.map f)) ∧
      ∀ root, Scope.parse (tokens ++ [eof]) = .ok root →
        ∃ whole, Scope.parse joint = .ok whole ∧ whole.kind = .global ∧
          whole.statements = functions ++ (root.map f).statements := by
  intro joint
  have moved : (eof.map f).kind = .eof := isEof
  have ends : joint = (before ++ tokens.map (Token.map f)) ++ [eof.map f] := by
    rw [List.append_assoc]
    exact congrArg (before ++ ·) List.map_append
  have joined : Scope.parse joint = (({} : Draft Span).under functions).run (eof.map f)
      ((tokens ++ [eof]).map (Token.map f)) := by
    rw [ends, Scope.parse_eq_run _ moved, ← ends, Draft.run_append _ _ path, Draft.under,
      List.append_nil]
  have alone := Scope.parse_map keeps tokens isEof
  rw [List.map_append, List.map_cons, List.map_nil, Scope.parse_eq_run _ moved] at alone
  obtain ⟨fails, gives⟩ := Draft.run_under functions (eof.map f) {}
    (tokens.map (Token.map f) ++ [eof.map f])
  rw [joined, List.map_append, List.map_cons, List.map_nil]
  refine ⟨?_, ?_⟩
  · intro fault failed
    rw [failed] at alone
    exact fails _ alone
  · intro root parsed
    rw [parsed] at alone
    exact gives _ alone

/-- The tokens before the end of a text that is a program lead to its functions. -/
theorem Division.after?_tokens (source : Source) (division : Division source.text.toList)
    {root : Scope Span} (parsed : Scope.parse (division.tokens source) = .ok root) :
    ({} : Draft Span).after? (Piece.tokens source [] division.pieces) =
      some { functions := root.statements } := by
  have consistent := division.consistent_tokens source
  obtain ⟨before, eof, terminated⟩ := consistent.terminated
  have same : before = Piece.tokens source [] division.pieces := by
    have ends := terminated.terminate
    rw [Division.tokens, Token.terminate_concat rfl] at ends
    exact (List.append_inj' ends rfl).1.symm
  rcases terminated.parse_cases with ⟨functions, path, result⟩ | ⟨_, _, _, _, _, _, _, result⟩
  · cases parsed.symm.trans result
    rw [← same]
    exact path
  · cases parsed.symm.trans result

/-! ## Emissions after each other -/

theorem Emission.append_assoc (first second third : Emission α) :
    first ++ second ++ third = first ++ (second ++ third) := by
  obtain ⟨ops, fault⟩ := first
  obtain ⟨ops', fault'⟩ := second
  cases fault with
  | some located => rfl
  | none =>
      cases fault' with
      | some located => rfl
      | none =>
          change Emission.mk (ops ++ ops' ++ third.ops) third.fault =
            Emission.mk (ops ++ (ops' ++ third.ops)) third.fault
          rw [List.append_assoc]

theorem Scope.topEmission_append (first second : List (Node α)) :
    Scope.topEmission (first ++ second) = Scope.topEmission first ++ Scope.topEmission second := by
  induction first with
  | nil => rfl
  | cons node first ih =>
      rw [List.cons_append, Scope.topEmission, Scope.topEmission, ih]
      simp only [Emission.append_assoc]

theorem Scope.programEmission_global {root : Scope α} (global : root.kind = .global) :
    root.programEmission = Scope.topEmission root.statements := by
  rw [Scope.programEmission, global]

/-- A program writes the same text at other locations. -/
theorem Division.writes_map (source : Source) (division : Division source.text.toList)
    {root : Scope Span} (parsed : Scope.parse (division.tokens source) = .ok root) {text : String}
    (written : root.cText standardIndent = .ok text) (f : Span → Span) :
    (Scope.topEmission (root.map f).statements).Writes standardIndent ⟨0, true⟩ text ⟨0, true⟩ := by
  -- The text is that of the lexemes, which have no locations.
  have shaped := Scope.isProgram_of_parse parsed
  have oneLine := (division.lexemes_parsed source parsed).2
  have writes := Scope.writes_program shaped oneLine
  have text_eq : text = Lexeme.programText (root.lexemes ++ [Lexeme.eof]) :=
    Except.ok.inj (written.symm.trans (Scope.cText_of_writes writes))
  have shapedMap : (root.map f).isProgram := by
    rw [Scope.isProgram_map]
    exact shaped
  have mapped := Scope.writes_program shapedMap (by rw [Scope.lexemes_map]; exact oneLine)
  rw [Scope.lexemes_map, ← text_eq, Scope.programEmission_global
    (Scope.compilable_of_isProgram shapedMap).global] at mapped
  exact mapped

/-! ## Texts after each other -/

/-- The tokens of a text after another one that is divided into words. -/
theorem Source.tokens_append_feed (first second path : String)
    (division : Division (Source.ofText first path).text.toList) :
    let joint := Source.ofText (first ++ "\n" ++ second) path
    let shift := Span.shift joint (normalizeBreaks (first ++ "\n"))
    joint.tokens = Located.mapResult shift
      (fun tokens => Piece.tokens joint [] division.pieces ++ tokens.map (Token.map shift))
      (Source.ofText second path).tokens := by
  intro joint
  obtain ⟨tail, front, blank, ends⟩ := division.exists_tail
  have whole : joint.text.toList =
      Piece.text division.pieces ++ (tail ++ (Source.ofText second path).text.toList) := by
    change (normalizeBreaks (first ++ "\n" ++ second)).toList = _
    rw [normalizeBreaks_append, String.toList_append, front, List.append_assoc]
    rfl
  have starts : ∀ c ∈ (tail ++ (Source.ofText second path).text.toList).head?,
      isWhiteSpace c := by
    cases tail with
    | nil => cases ends
    | cons space tail =>
        intro c head
        cases head
        exact blank space List.mem_cons_self
  have tokens := Source.tokens_after whole (division.fit.before_blank starts) blank ends
  rw [← front, String.ofList_toList] at tokens
  exact tokens

/-- The tokens of a text that is a program lead to its functions, also as part of another source. -/
theorem Division.after?_joint (source joint : Source) (division : Division source.text.toList)
    {root : Scope Span} (parsed : Scope.parse (division.tokens source) = .ok root) :
    ({} : Draft Span).after? (Piece.tokens joint [] division.pieces) =
      some { functions := (root.map (Span.shift joint "")).statements } := by
  have moved := Draft.after?_map (Span.keepsStretch_shift joint "") {}
    (Piece.tokens source [] division.pieces)
  rw [division.after?_tokens source parsed, ← Piece.tokens_shift joint source] at moved
  obtain ⟨kind, statements, loc⟩ := root
  rw [Scope.map, Scope.mapAll_eq]
  exact moved

theorem compile_joint_of_lexical {first second path : String}
    (division : Division (Source.ofText first path).text.toList) {fault : Located Span LexicalFault}
    (failed : (Source.ofText second path).tokens = .error fault) :
    compile (first ++ "\n" ++ second) path = .error (.lexical
      (fault.map (Span.shift (Source.ofText (first ++ "\n" ++ second) path)
        (normalizeBreaks (first ++ "\n"))))) := by
  have tokens := Source.tokens_append_feed first second path division
  rw [failed] at tokens
  rw [compile_eq, tokens]
  rfl

/-- What becomes of the words of a second text after a first one that is a program. -/
theorem compile_joint_of_division {first second path : String}
    (division : Division (Source.ofText first path).text.toList) {root : Scope Span}
    (parsed : Scope.parse (division.tokens (Source.ofText first path)) = .ok root)
    (later : Division (Source.ofText second path).text.toList) :
    let joint := Source.ofText (first ++ "\n" ++ second) path
    let shift := Span.shift joint (normalizeBreaks (first ++ "\n"))
    let tokens := later.tokens (Source.ofText second path)
    (∀ fault, Scope.parse tokens = .error fault →
        compile (first ++ "\n" ++ second) path = .error (.grammar (fault.map shift))) ∧
      ∀ other, Scope.parse tokens = .ok other →
        ∃ whole : Scope Span,
          compile (first ++ "\n" ++ second) path = whole.cText standardIndent ∧
          whole.kind = .global ∧
          whole.statements =
            (root.map (Span.shift joint "")).statements ++ (other.map shift).statements := by
  intro joint shift tokens
  let all := Piece.tokens joint [] division.pieces ++ tokens.map (Token.map shift)
  have lexed : joint.tokens = .ok all := by
    rw [Source.tokens_append_feed first second path division, later.tokens_eq]
    rfl
  have functions := division.after?_joint (Source.ofText first path) joint parsed
  have isEof : (Source.ofText second path).eofToken.kind = .eof := rfl
  obtain ⟨fails, gives⟩ := Scope.parse_after functions
    (Span.keepsStretch_shift joint (normalizeBreaks (first ++ "\n"))) _ isEof
  rw [compile_eq, lexed]
  dsimp only
  refine ⟨?_, ?_⟩
  · intro fault failed
    have joined : Scope.parse all = .error (fault.map shift) := fails fault failed
    rw [joined]
  · intro other parsedOther
    obtain ⟨whole, (joined : Scope.parse all = .ok whole), kind, statements⟩ :=
      gives other parsedOther
    exact ⟨whole, by rw [joined], kind, statements⟩

/-- **Compilation takes texts one after the other.** If a text is compiled, then a second text after
it and a line feed is compiled just as it is alone: both or neither give a C text, and that is the
text of the first with the text of the second after it. If the second text has a fault, the whole
has the same fault, as many lines and bytes further on as the first text has with its line feed, in
the same columns. -/
theorem compile_append_feed (first second path out : String)
    (compiled : compile first path = .ok out) :
    let joint := first ++ "\n" ++ second
    let shift := Span.shift (Source.ofText joint path) (normalizeBreaks (first ++ "\n"))
    ((∃ all, compile joint path = .ok all) ↔ ∃ more, compile second path = .ok more) ∧
      (∀ more, compile second path = .ok more → compile joint path = .ok (out ++ more)) ∧
      (∀ fault, compile second path = .error (.lexical fault) →
        compile joint path = .error (.lexical (fault.map shift))) ∧
      ∀ fault, compile second path = .error (.grammar fault) →
        compile joint path = .error (.grammar (fault.map shift)) := by
  intro joint shift
  obtain ⟨_, lexed, root, parsed, written⟩ := compile_eq_ok_iff.mp compiled
  obtain ⟨division, rfl⟩ := Source.exists_division lexed
  rcases compile_cases second path with
    ⟨_, other, more, lexedMore, parsedMore, writtenMore, alone⟩ | ⟨fault, lexedMore, alone⟩ |
      ⟨_, fault, lexedMore, stuck, alone⟩
  · obtain ⟨later, rfl⟩ := Source.exists_division lexedMore
    obtain ⟨whole, result, global, statements⟩ :=
      (compile_joint_of_division division parsed later).2 other parsedMore
    -- Between the functions of the two the sink is at the start of a line, as it is at first.
    have front := division.writes_map _ parsed written (Span.shift (Source.ofText joint path) "")
    have writes := front.append (later.writes_map _ parsedMore writtenMore shift)
    rw [← Scope.topEmission_append, ← statements, ← Scope.programEmission_global global] at writes
    have together : compile joint path = .ok (out ++ more) :=
      result.trans (Scope.cText_of_writes writes)
    simp [alone, together]
  · have together := compile_joint_of_lexical division lexedMore
    simp [alone, together, joint, shift]
  · obtain ⟨later, rfl⟩ := Source.exists_division lexedMore
    have together := (compile_joint_of_division division parsed later).1 fault stuck
    simp [alone, together, joint, shift]

/-- A carriage return at the end of the first text goes together with the line feed after it, so the
fault is on the second line. -/
theorem compile_append_feed_stray :
    let first := "fn f() i32 \x7b\x7d\r"
    let source := Source.ofText (first ++ "\n" ++ "  $") "p"
    compile first "p" = .ok "int f() \x7b\n\x7d\n" ∧
      compile (first ++ "\n" ++ "  $") "p" = .error (.lexical
        { loc := { start := ⟨1, 2, 16, source⟩, stop := ⟨1, 3, 17, source⟩ }
          cause := .unexpectedChar '$' }) := by
  intro first source
  have compiled : compile first "p" = .ok "int f() \x7b\n\x7d\n" := by
    decide +kernel
  let alone := Source.ofText "  $" "p"
  have stray : compile "  $" "p" = .error (.lexical
      { loc := { start := ⟨0, 2, 2, alone⟩, stop := ⟨0, 3, 3, alone⟩ }
        cause := .unexpectedChar '$' }) := by
    decide +kernel
  obtain ⟨_, _, lexical, _⟩ := compile_append_feed first "  $" "p" _ compiled
  refine ⟨compiled, (lexical _ stray).trans ?_⟩
  decide +kernel

end NcLang
