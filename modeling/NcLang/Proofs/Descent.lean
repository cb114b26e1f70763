import NcLang.Proofs.DraftRun

/-! # Recursive descent

The grammar can also be read by routines that call each other, one for each construct, with a cursor
into the list of tokens. The cursor may come to stand after the last token, which is then looked at
again, and keywords are told by their value alone, so that an end of input may pass for one. Nothing
in the routines says that they end: they are given fuel, and running out of it is a result, as is a
look at a token that is not there or an operator that is none. What they did is kept in a `Course`.

A routine *leads* from a draft to another if it moves the cursor over the tokens that take the one
to the other, or stops where the draft does (`Descent.Leads`). Such steps compose, and loops make
them one after the other as long as each turn moves the cursor (`Descent.leads_repeatWhile`).
-/

namespace NcLang

variable {α σ τ : Type}

namespace Descent

/-- The loops of the routines. -/
inductive Loop where
  | program
  | block
  | operators

/-- A turn of a loop that came to its end, and the cursor before and after it. -/
structure Turn where
  loop : Loop
  before : Nat
  after : Nat

/-- What the routines did so far. -/
structure Course where
  cursor : Nat := 0
  /-- The cursor at each look at a token and after each move, in order. -/
  trail : List Nat := []
  turns : List Turn := []

/-- Why a routine stops without a result. -/
inductive Halt (α : Type) where
  | fault (fault : Located α GrammarFault)
  | outOfRange
  | noOperator
  | outOfFuel

end Descent

/-- A routine that reads tokens. Its course is kept if it stops without a result. -/
def Descent (α τ : Type) : Type :=
  Descent.Course → Except (Descent.Halt α) τ × Descent.Course

instance : Monad (Descent α) where
  pure value := fun course => (.ok value, course)
  bind routine next := fun course =>
    match routine course with
    | (.ok value, after) => next value after
    | (.error halt, after) => (.error halt, after)

namespace Descent

section Bind

variable {routine : Descent α σ} {next : σ → Descent α τ} {course after : Course}

theorem bind_of_ok {value : σ} (done : routine course = (.ok value, after)) :
    (routine >>= next) course = next value after := by
  simp only [Bind.bind, done]

theorem bind_of_error {halt : Halt α} (stopped : routine course = (.error halt, after)) :
    (routine >>= next) course = (.error halt, after) := by
  simp only [Bind.bind, stopped]

end Bind

/-! ## Moves of the cursor -/

/-- Stops the descent. -/
def halt (why : Halt α) : Descent α τ :=
  fun course => (.error why, course)

section Moves

variable (tokens : List (Token α))

/-- The token at the cursor, or the last one if the cursor is past it. -/
def look : Descent α (Token α) := fun course =>
  match tokens[min course.cursor (tokens.length - 1)]? with
  | some token => (.ok token, { course with trail := course.trail ++ [course.cursor] })
  | none => (.error .outOfRange, course)

/-- The token at the cursor, which is moved on. -/
def advance : Descent α (Token α) := do
  let token ← look tokens
  fun course =>
    let cursor := course.cursor + 1
    (.ok token, { course with cursor, trail := course.trail ++ [cursor] })

/-- Moves on if the token at the cursor can be taken for something. -/
def take (accepts : Token α → Option τ) (cause : GrammarFault) : Descent α τ := do
  let token ← look tokens
  match accepts token with
  | some value => do
    let _ ← advance tokens
    return value
  | none => halt (.fault { loc := token.loc, cause })

/-- Notes a turn of a loop. -/
def turn (loop : Loop) (body : Descent α σ) : Descent α σ := fun course =>
  match body course with
  | (.ok state, after) =>
    let made : Turn := { loop, before := course.cursor, after := after.cursor }
    (.ok state, { after with turns := after.turns ++ [made] })
  | (.error halt, after) => (.error halt, after)

/-- Does something again and again, as long as the token at the cursor asks for it. -/
def repeatWhile (loop : Loop) (goesOn : Token α → Bool) (body : σ → Descent α σ) :
    Nat → σ → Descent α σ
  | 0, _ => halt .outOfFuel
  | fuel + 1, state => do
    let token ← look tokens
    if goesOn token then
      let next ← turn loop (body state)
      repeatWhile loop goesOn body fuel next
    else return state

end Moves

/-! ## The routines of the grammar -/

section Routines

variable (tokens : List (Token α))

/-- The location of a token of some kind. -/
def consume (kind : TokenKind) : Descent α α :=
  take tokens (fun token => if token.kind = kind then some token.loc else none) (.expected kind)

/-- Reads a name. -/
def name : Descent α String :=
  take tokens (fun token => token.name?) .expectedIdentifier

/-- Reads a type. -/
def type : Descent α ScalarType :=
  take tokens (fun token => token.type?) .expectedType

/-- Reads a number. -/
def value : Descent α (Node α) :=
  take tokens (fun token => token.int?.map fun value => .literal value token.loc) .expectedValue

/-- The operator of a token of some kind. -/
def operatorOf : TokenKind → Option BinaryOp
  | .plus => some .add
  | .star => some .mul
  | _ => none

/-- The operators from the loosest to the tightest. -/
def precedence : List (List TokenKind) :=
  [[.plus], [.star]]

variable [Stretch α]

/-- Operands with the operators of the first level between them. They are grouped to the left, and
their own operators are those of the further levels. -/
def binary (fuel : Nat) : List (List TokenKind) → Descent α (Node α)
  | [] => value tokens
  | operators :: tighter => do
    let first ← binary fuel tighter
    let operate (lhs : Node α) : Descent α (Node α) := do
      let token ← advance tokens
      match operatorOf token.kind with
      | some op => do
        let rhs ← binary fuel tighter
        return .binary op lhs rhs (Stretch.through lhs.loc rhs.loc)
      | none => halt .noOperator
    repeatWhile tokens .operators (fun token => operators.contains token.kind) operate fuel first

/-- Reads a variable definition, from its keyword to its semicolon. -/
def varDef (fuel : Nat) : Descent α (Node α) := do
  let keyword ← advance tokens
  let name ← name tokens
  let type ← type tokens
  let _ ← consume tokens .equals
  let value ← binary tokens fuel precedence
  let semicolon ← consume tokens .semicolon
  return .varDef name type value (Stretch.through keyword.loc semicolon)

/-- A statement, given the routine for blocks. -/
def statement (fuel : Nat) (block : Descent α (Scope α)) : Descent α (Node α) := do
  let token ← look tokens
  if token.kind = .leftBrace then do
    let scope ← block
    return .scope scope
  else if token.isKeyword .var then varDef tokens fuel
  else halt (.fault { loc := token.loc, cause := .expectedStatement })

/-- Reads a block, from one brace to the other. -/
def block : Nat → Descent α (Scope α)
  | 0 => halt .outOfFuel
  | fuel + 1 => do
    let start ← consume tokens .leftBrace
    let inside (token : Token α) : Bool := token.kind ≠ .rightBrace ∧ token.kind ≠ .eof
    let add (statements : List (Node α)) : Descent α (List (Node α)) := do
      let next ← statement tokens fuel (block fuel)
      return statements ++ [next]
    let statements ← repeatWhile tokens .block inside add fuel []
    let stop ← consume tokens .rightBrace
    return { kind := .block, statements, loc := Stretch.through start stop }

/-- Reads a function, from its keyword to the end of its body. -/
def function (fuel : Nat) : Descent α (Node α) := do
  let keyword ← advance tokens
  let name ← name tokens
  let _ ← consume tokens .leftParen
  let _ ← consume tokens .rightParen
  let returnType ← type tokens
  let body ← block tokens fuel
  return .funcDef name returnType body (Stretch.through keyword.loc body.loc)

/-- Reads functions up to the end of input. -/
def program (fuel : Nat) : Descent α (Scope α) := do
  let add (functions : List (Node α)) : Descent α (List (Node α)) := do
    let next ← function tokens fuel
    return functions ++ [next]
  let functions ←
    repeatWhile tokens .program (fun token => token.isKeyword .fn) add fuel []
  let eof ← look tokens
  if eof.kind = .eof then
    let loc :=
      match functions.head?, functions.getLast? with
      | some first, some last => Stretch.through first.loc last.loc
      | _, _ => eof.loc
    return { kind := .global, statements := functions, loc }
  else halt (.fault { loc := eof.loc, cause := .unexpectedToken })

end Routines

/-! ## The token at the cursor -/

/-- The token at a place in a list, or the last one if the place is past it. -/
def current (tokens : List (Token α)) (last : Token α) (cursor : Nat) : Token α :=
  (tokens.drop cursor).headD last

/-- Tokens that end with an end of input. -/
structure Closed (tokens : List (Token α)) (last : Token α) : Prop where
  ends : tokens.getLast? = some last
  isEof : last.kind = .eof

section Cursor

variable {tokens : List (Token α)} {last : Token α} {cursor : Nat}

theorem Closed.getElem?_min (closed : Closed tokens last) (cursor : Nat) :
    tokens[min cursor (tokens.length - 1)]? = some (current tokens last cursor) := by
  rw [current]
  rcases Nat.lt_or_ge cursor tokens.length with inside | past
  · rw [Nat.min_eq_left (by omega), List.drop_eq_getElem_cons inside, List.headD_cons,
      List.getElem?_eq_getElem inside]
  · rw [Nat.min_eq_right (by omega), List.drop_eq_nil_of_le past, List.headD_nil,
      ← List.getLast?_eq_getElem?, closed.ends]

theorem drop_eq_current (last : Token α) (inside : cursor < tokens.length) :
    tokens.drop cursor = current tokens last cursor :: tokens.drop (cursor + 1) := by
  rw [current, List.drop_eq_getElem_cons inside, List.headD_cons]

/-- A token that is no end of input has another one after it. -/
theorem Closed.lt_of_kind_ne (closed : Closed tokens last)
    (other : (current tokens last cursor).kind ≠ .eof) : cursor + 1 < tokens.length := by
  apply Nat.lt_of_not_le
  intro atEnd
  have isLast : current tokens last cursor = last := by
    have found := closed.getElem?_min cursor
    rw [Nat.min_eq_right (by omega), ← List.getLast?_eq_getElem?, closed.ends] at found
    exact (Option.some.inj found).symm
  rw [isLast] at other
  exact other closed.isEof

end Cursor

/-! ## Courses that are in order -/

/-- A course in which the cursor never went back or past the end of some tokens, and which every
turn of a loop brought on. -/
structure Course.Sound (course : Course) (size : Nat) : Prop where
  trail : course.trail.Pairwise (· ≤ ·)
  reached : ∀ cursor ∈ course.trail, cursor ≤ course.cursor
  bounded : course.cursor ≤ size
  turns : ∀ turn ∈ course.turns, turn.before < turn.after

namespace Course

variable {course : Course} {size : Nat}

theorem sound_start (size : Nat) : ({} : Course).Sound size :=
  ⟨.nil, nofun, Nat.zero_le size, nofun⟩

/-- A course stays sound if its cursor moves onward within the tokens. -/
theorem Sound.goTo (sound : course.Sound size) {cursor : Nat} (onward : course.cursor ≤ cursor)
    (inside : cursor ≤ size) :
    ({ course with cursor, trail := course.trail ++ [cursor] } : Course).Sound size := by
  have before : ∀ earlier ∈ course.trail, earlier ≤ cursor := fun earlier member =>
    Nat.le_trans (sound.reached earlier member) onward
  refine ⟨?_, ?_, inside, sound.turns⟩
  · rw [List.pairwise_append]
    refine ⟨sound.trail, List.pairwise_singleton _ _, ?_⟩
    intro earlier member now here
    rw [List.mem_singleton.mp here]
    exact before earlier member
  · intro earlier member
    rcases List.mem_append.mp member with old | new
    · exact before earlier old
    · exact Nat.le_of_eq (List.mem_singleton.mp new)

/-- A course stays sound if a turn of a loop has moved its cursor. -/
theorem Sound.note (sound : course.Sound size) {made : Turn} (onward : made.before < made.after) :
    ({ course with turns := course.turns ++ [made] } : Course).Sound size := by
  refine ⟨sound.trail, sound.reached, sound.bounded, ?_⟩
  intro turn member
  rcases List.mem_append.mp member with old | new
  · exact sound.turns turn old
  · rw [List.mem_singleton.mp new]
    exact onward

end Course

/-! ## Runs of drafts from the cursor on -/

section Runs

variable [Stretch α] {tokens : List (Token α)} {last : Token α} {draft next : Draft α}
  {cursor : Nat}

/-- A token that a draft goes on with is the next step of its run. -/
theorem run_of_more (inside : cursor < tokens.length)
    (reads : draft.read (current tokens last cursor) = some (.more next)) :
    draft.run last (tokens.drop cursor) = next.run last (tokens.drop (cursor + 1)) := by
  rw [drop_eq_current last inside, Draft.run, reads]

/-- A draft stops at a token that cannot stand there. Past the last token, it stops at that one. -/
theorem run_of_none (stuck : draft.read (current tokens last cursor) = none) :
    draft.run last (tokens.drop cursor) =
      .error { loc := (current tokens last cursor).loc
               cause := draft.place.fault (current tokens last cursor).toLexeme } := by
  rcases Nat.lt_or_ge cursor tokens.length with inside | past
  · rw [drop_eq_current last inside, Draft.run, stuck]
  · rw [current, List.drop_eq_nil_of_le past]
    rfl

end Runs

/-! ## Routines that follow drafts -/

section Leads

variable [Stretch α] (tokens : List (Token α)) (last : Token α)

/-- A routine leads from a draft to another if it moves the cursor over the tokens between them, or
stops where the draft does. Nothing else can become of it. -/
inductive Leads (draft : Draft α) (course : Course) (post : τ → Draft α → Nat → Prop) :
    Except (Halt α) τ × Course → Prop
  | reached {value : τ} {next : Draft α} {after : Course}
      (onward : course.cursor ≤ after.cursor) (sound : after.Sound tokens.length)
      (same : draft.run last (tokens.drop course.cursor) =
        next.run last (tokens.drop after.cursor))
      (holds : post value next after.cursor) : Leads draft course post (.ok value, after)
  | stopped {fault : Located α GrammarFault} {after : Course}
      (onward : course.cursor ≤ after.cursor) (sound : after.Sound tokens.length)
      (same : draft.run last (tokens.drop course.cursor) = .error fault)
      (shown : fault.loc = (current tokens last after.cursor).loc) :
      Leads draft course post (.error (.fault fault), after)

variable {tokens last} {draft : Draft α} {course : Course}

/-- A routine leads on from where another leads to. -/
theorem Leads.bind {routine : Descent α σ} {next : σ → Descent α τ}
    {middle : σ → Draft α → Nat → Prop} {post : τ → Draft α → Nat → Prop}
    (first : Leads tokens last draft course middle (routine course))
    (further : ∀ value reached after, course.cursor ≤ after.cursor → after.Sound tokens.length →
      middle value reached after.cursor →
      Leads tokens last reached after post (next value after)) :
    Leads tokens last draft course post ((routine >>= next) course) := by
  generalize done : routine course = result at first
  cases first with
  | stopped onward sound same shown =>
      rw [bind_of_error done]
      exact .stopped onward sound same shown
  | @reached value reached after onward sound same holds =>
      rw [bind_of_ok done]
      have later := further value reached after onward sound holds
      generalize next value after = outcome at later
      cases later with
      | reached onward' sound' same' holds' =>
          exact .reached (Nat.le_trans onward onward') sound' (same.trans same') holds'
      | stopped onward' sound' same' shown' =>
          exact .stopped (Nat.le_trans onward onward') sound' (same.trans same') shown'

/-- What a routine leads to may be told in less detail. -/
theorem Leads.weaken {result : Except (Halt α) τ × Course} {strong weak : τ → Draft α → Nat → Prop}
    (leads : Leads tokens last draft course strong result)
    (implies : ∀ value reached cursor, strong value reached cursor → weak value reached cursor) :
    Leads tokens last draft course weak result := by
  cases leads with
  | reached onward sound same holds => exact .reached onward sound same (implies _ _ _ holds)
  | stopped onward sound same shown => exact .stopped onward sound same shown

theorem leads_pure (sound : course.Sound tokens.length) {value : τ}
    {post : τ → Draft α → Nat → Prop} (holds : post value draft course.cursor) :
    Leads tokens last draft course post ((pure value : Descent α τ) course) :=
  .reached (Nat.le_refl _) sound rfl holds

/-- A routine may report a fault only at a token that the draft cannot go on with. -/
theorem leads_halt (sound : course.Sound tokens.length) {cause : GrammarFault}
    {post : τ → Draft α → Nat → Prop}
    (stuck : draft.read (current tokens last course.cursor) = none)
    (shows : draft.place.fault (current tokens last course.cursor).toLexeme = cause) :
    Leads tokens last draft course post
      (halt (.fault { loc := (current tokens last course.cursor).loc, cause }) course) := by
  subst shows
  exact .stopped (Nat.le_refl _) sound (run_of_none stuck) rfl

/-- A turn that moves the cursor may be noted. -/
theorem Leads.turn {loop : Loop} {body : Descent α σ} {post : σ → Draft α → Nat → Prop}
    (leads : Leads tokens last draft course
      (fun next reached cursor => post next reached cursor ∧ course.cursor < cursor)
      (body course)) :
    Leads tokens last draft course
      (fun next reached cursor => post next reached cursor ∧ course.cursor < cursor)
      (turn loop body course) := by
  rw [Descent.turn]
  generalize body course = result at leads
  cases leads with
  | reached onward sound same holds => exact .reached onward (sound.note holds.2) same holds
  | stopped onward sound same shown => exact .stopped onward sound same shown

variable (closed : Closed tokens last)
include closed

theorem leads_look (sound : course.Sound tokens.length) :
    Leads tokens last draft course
      (fun token reached cursor => token = current tokens last course.cursor ∧ reached = draft ∧
        cursor = course.cursor)
      (look tokens course) := by
  rw [look, closed.getElem?_min]
  exact .reached (Nat.le_refl _) (sound.goTo (Nat.le_refl _) sound.bounded) rfl ⟨rfl, rfl, rfl⟩

/-- Going on to the next token is a step of the draft. -/
theorem leads_advance {next : Draft α} (sound : course.Sound tokens.length)
    (inside : course.cursor < tokens.length)
    (reads : draft.read (current tokens last course.cursor) = some (.more next)) :
    Leads tokens last draft course
      (fun token reached cursor => token = current tokens last course.cursor ∧ reached = next ∧
        cursor = course.cursor + 1)
      (advance tokens course) := by
  rw [advance]
  refine (leads_look closed sound).bind ?_
  rintro token reached after - sound' ⟨rfl, rfl, cursor⟩
  rw [← cursor] at inside reads ⊢
  exact .reached (Nat.le_succ _) (sound'.goTo (Nat.le_succ _) inside) (run_of_more inside reads)
    ⟨rfl, rfl, rfl⟩

/-- A token is taken where the draft reads it, and refused where the draft stops. -/
theorem leads_take {accepts : Token α → Option τ} {cause : GrammarFault} {next : τ → Draft α}
    (sound : course.Sound tokens.length)
    (reads : draft.read (current tokens last course.cursor) =
      (accepts (current tokens last course.cursor)).map fun value => .more (next value))
    (inside : ∀ value, accepts (current tokens last course.cursor) = some value →
      course.cursor < tokens.length)
    (shows : accepts (current tokens last course.cursor) = none →
      draft.place.fault (current tokens last course.cursor).toLexeme = cause) :
    Leads tokens last draft course
      (fun value reached cursor => accepts (current tokens last course.cursor) = some value ∧
        reached = next value ∧ cursor = course.cursor + 1)
      (take tokens accepts cause course) := by
  rw [take]
  refine (leads_look closed sound).bind ?_
  rintro token reached after - sound' ⟨rfl, rfl, cursor⟩
  rw [← cursor] at reads inside shows ⊢
  cases taken : accepts (current tokens last after.cursor) with
  | none =>
      rw [taken] at reads
      exact leads_halt sound' reads (shows taken)
  | some value =>
      rw [taken] at reads
      refine (leads_advance closed sound' (inside value taken) reads).bind ?_
      rintro _ _ _ - sound'' ⟨-, rfl, moved⟩
      exact leads_pure sound'' ⟨rfl, rfl, moved⟩

/-- A loop leads from one state to another as long as each turn of it does and moves the cursor. It
has fuel enough for a turn at each token. -/
theorem leads_repeatWhile {loop : Loop} {goesOn : Token α → Bool} {body : σ → Descent α σ}
    (invariant : σ → Draft α → Nat → Prop) {start : Nat}
    (step : ∀ state draft course, start ≤ course.cursor → course.Sound tokens.length →
      invariant state draft course.cursor → goesOn (current tokens last course.cursor) →
      Leads tokens last draft course
        (fun next reached cursor => invariant next reached cursor ∧ course.cursor < cursor)
        (body state course))
    {fuel : Nat} {state : σ} (began : start ≤ course.cursor) (sound : course.Sound tokens.length)
    (enough : tokens.length - course.cursor < fuel) (holds : invariant state draft course.cursor) :
    Leads tokens last draft course
      (fun next reached cursor => invariant next reached cursor ∧
        goesOn (current tokens last cursor) = false)
      (repeatWhile tokens loop goesOn body fuel state course) := by
  -- Each turn moves the cursor, so that no more turns are left to make than there is fuel.
  induction fuel generalizing state draft course with
  | zero => omega
  | succ fuel ih =>
      rw [repeatWhile]
      refine (leads_look closed sound).bind ?_
      rintro token reached after - sound' ⟨rfl, rfl, cursor⟩
      rw [← cursor] at began enough holds ⊢
      cases asked : goesOn (current tokens last after.cursor) with
      | false => exact leads_pure sound' ⟨holds, asked⟩
      | true =>
          refine (step state _ after began sound' holds asked).turn.bind ?_
          rintro next reached' after' onward sound'' ⟨holds', moved⟩
          have bound := sound''.bounded
          exact ih (by omega) sound'' (by omega) holds'

end Leads

end Descent

end NcLang
