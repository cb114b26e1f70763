import NcLang.Compile
import NcLang.Proofs.Spelling

/-! # Line breaks are normalized in one pass

Pairs are joined first and lone carriage returns replaced after that, but a single pass over the
text does the same (`Text.normalize_eq_unifyBreaks`). Two texts may be normalized apart wherever the
cut between them does not go through a pair (`Text.normalize_append_iff`). Tokens carry the source
they were read from, so they tell two texts apart exactly where their normalized forms differ
(`Source.ofText_normalized`).
-/

namespace NcLang

open Text

/-! ## A single pass -/

/-- Reads a text once from the left. A carriage return becomes a line feed, together with the line
feed after it if there is one, and every other character is copied. -/
def Text.unifyBreaks : List Char → List Char
  | '\r' :: '\n' :: rest => '\n' :: unifyBreaks rest
  | '\r' :: rest => '\n' :: unifyBreaks rest
  | c :: rest => c :: unifyBreaks rest
  | [] => []

theorem Text.normalize_eq_unifyBreaks (chars : List Char) :
    normalize chars = unifyBreaks chars := by
  fun_induction unifyBreaks chars with
  | case1 rest ih =>
      rw [← ih, normalize, joinPairs]
      rfl
  | case2 rest noPair ih =>
      have lone : joinPairs ('\r' :: rest) = '\r' :: joinPairs rest :=
        joinPairs.eq_2 _ _ fun more _ starts => noPair more starts
      rw [← ih, normalize, lone]
      rfl
  | case3 c rest noPair noReturn ih =>
      have other : joinPairs (c :: rest) = c :: joinPairs rest :=
        joinPairs.eq_2 _ _ fun more isReturn _ => noReturn isReturn
      have copied : (if c = '\r' then '\n' else c) = c := if_neg noReturn
      rw [← ih, normalize, other, replaceReturns, List.map_cons, copied]
      rfl
  | case4 => rfl

/-! ## Cuts -/

/-- A cut through a pair: the first text ends with its carriage return, and the second begins with
its line feed. -/
def Text.CutsPair (first second : List Char) : Prop :=
  first.getLast? = some '\r' ∧ second.head? = some '\n'

/-- Where a cut goes through a pair, the sides have one line feed more than the whole. -/
theorem Text.normalize_of_cutsPair {first second : List Char} (cut : CutsPair first second) :
    ∃ later, normalize second = '\n' :: later ∧
      normalize (first ++ second) = normalize first ++ later := by
  obtain ⟨front, rfl⟩ := List.getLast?_eq_some_iff.mp cut.1
  obtain ⟨back, rfl⟩ := List.head?_eq_some_iff.mp cut.2
  have alone : normalize (front ++ ['\r']) = normalize front ++ ['\n'] :=
    normalize_append fun _ => nofun
  have paired : normalize (front ++ ['\r', '\n']) = normalize front ++ ['\n'] :=
    normalize_append fun _ => nofun
  have feed : normalize (['\n'] ++ back) = '\n' :: normalize back :=
    normalize_append nofun
  have ends : (front ++ ['\r', '\n']).getLast? = some '\n' :=
    List.getLast?_append_of_ne_nil front (List.cons_ne_nil _ _)
  refine ⟨normalize back, feed, ?_⟩
  calc normalize (front ++ ['\r'] ++ '\n' :: back)
      = normalize (front ++ ['\r', '\n'] ++ back) := by
        rw [List.append_assoc, List.append_assoc]
        rfl
    _ = normalize (front ++ ['\r', '\n']) ++ normalize back :=
        normalize_append fun returns => nomatch ends.symm.trans returns
    _ = normalize (front ++ ['\r']) ++ normalize back := by rw [paired, alone]

/-- Two texts may be normalized apart if and only if the cut between them goes through no pair. -/
theorem Text.normalize_append_iff {first second : List Char} :
    normalize (first ++ second) = normalize first ++ normalize second ↔
      ¬CutsPair first second := by
  constructor
  · intro apart cut
    obtain ⟨later, begins, whole⟩ := normalize_of_cutsPair cut
    rw [whole, begins, List.append_cancel_left_eq] at apart
    exact List.cons_ne_self _ _ apart.symm
  · intro noCut
    exact normalize_append fun returns feeds => noCut ⟨returns, feeds⟩

/-! ## Tokens carry their source -/

/-- The source of the first token, or of the fault that there is in its place. -/
def Source.shownBy :
    Except (Located Span LexicalFault) (List (Token Span)) → Option Source
  | .error fault => some fault.loc.start.source
  | .ok tokens => tokens.head?.map (·.loc.start.source)

theorem Source.shownBy_scan (pos : Pos) (chars : List Char) :
    Source.shownBy (Token.scan pos chars) = some pos.source := by
  fun_induction Token.scan pos chars with
  | case1 pos => rfl
  | case2 pos first rest space ih => exact ih
  | case3 pos first rest noSpace more loc cause word => rfl
  | case4 pos first rest noSpace more loc lexeme word ih =>
      have sameSource : loc.stop.source = pos.source := Pos.source_after pos (first :: more)
      cases later : Token.scan loc.stop (rest.dropWhile (Token.continues first)) with
      | error fault =>
          rw [later, sameSource] at ih
          exact ih
      | ok tokens => rfl

/-- Sources with the same tokens, or with the same fault, are the same. -/
theorem Source.tokens_injective : Function.Injective Source.tokens := by
  intro first second same
  have shown := congrArg Source.shownBy same
  rw [Source.tokens, Source.tokens, Source.shownBy_scan, Source.shownBy_scan] at shown
  exact Option.some.inj shown

/-- Results are told apart if their errors still are. -/
theorem mapError_injective {ε ε' β : Type} {mark : ε → ε'} (injective : Function.Injective mark) :
    Function.Injective (Except.mapError mark : Except ε β → Except ε' β) := by
  intro first second same
  cases first with
  | ok value =>
      cases second with
      | ok other => rw [Except.ok.inj same]
      | error fault => cases same
  | error fault =>
      cases second with
      | ok value => cases same
      | error other => rw [injective (Except.error.inj same)]

theorem Source.tokensOf_eq_iff {first second path : String} :
    tokensOf first path = tokensOf second path ↔
      (Source.ofText first path).text = (Source.ofText second path).text := by
  constructor
  · intro same
    have tokens : (Source.ofText first path).tokens = (Source.ofText second path).tokens := by
      have marked : Function.Injective Error.lexical := fun _ _ => Error.lexical.inj
      exact mapError_injective marked same
    exact congrArg Source.text (Source.tokens_injective tokens)
  · intro same
    change normalizeBreaks first = normalizeBreaks second at same
    rw [tokensOf, tokensOf, Source.ofText, Source.ofText, same]

/-! ## Sources -/

/-- **Line breaks are normalized in one pass, and nothing after that sees how they were written.** A
source holds the text as a single pass over it gives it. It has no carriage return, and to normalize
it again changes nothing. Two texts are normalized apart exactly if the cut between them goes
through no pair. Under one path, two texts have the same tokens, places included, exactly if their
normalized forms are the same, and then they have the same tree or fault and the same C text. -/
theorem Source.ofText_normalized :
    (∀ text path : String,
      (Source.ofText text path).text = String.ofList (unifyBreaks text.toList) ∧
        '\r' ∉ (Source.ofText text path).text.toList ∧
        Source.ofText (Source.ofText text path).text path = Source.ofText text path) ∧
    (∀ first second path : String,
      (Source.ofText (first ++ second) path).text =
          (Source.ofText first path).text ++ (Source.ofText second path).text ↔
        ¬CutsPair first.toList second.toList) ∧
    ∀ first second path : String,
      (tokensOf first path = tokensOf second path ↔
        (Source.ofText first path).text = (Source.ofText second path).text) ∧
      ((Source.ofText first path).text = (Source.ofText second path).text →
        tokensOf first path >>= treeOf = tokensOf second path >>= treeOf ∧
          compile first path = compile second path ∧
          ∀ stream : Stream, compileTo first path stream = compileTo second path stream) := by
  refine ⟨?_, ?_, ?_⟩
  · intro text path
    have noReturn : '\r' ∉ (normalizeBreaks text).toList := by
      rw [toList_normalizeBreaks]
      exact noReturn_normalize text.toList
    have again : normalizeBreaks (normalizeBreaks text) = normalizeBreaks text := by
      apply String.toList_injective
      rw [toList_normalizeBreaks]
      exact normalize_of_noReturn noReturn
    refine ⟨?_, noReturn, ?_⟩
    · rw [← normalize_eq_unifyBreaks]
      rfl
    · rw [Source.ofText, Source.ofText, again]
  · intro first second path
    change normalizeBreaks (first ++ second) = normalizeBreaks first ++ normalizeBreaks second ↔ _
    rw [← String.toList_inj, String.toList_append, toList_normalizeBreaks, toList_normalizeBreaks,
      toList_normalizeBreaks, String.toList_append]
    exact normalize_append_iff
  · intro first second path
    refine ⟨Source.tokensOf_eq_iff, ?_⟩
    intro same
    have tokens := Source.tokensOf_eq_iff.mpr same
    refine ⟨?_, ?_, ?_⟩
    · rw [tokens]
    · rw [compile, compile, tokens]
    · intro stream
      rw [compileTo, compileTo, tokens]

/-- Two ways to write three line breaks in a row, and a cut through a pair. -/
theorem Source.ofText_normalized_sample :
    (Source.ofText "fn\r\r\n\rf" "p").text = "fn\n\n\nf" ∧
      (Source.ofText "fn\n\r\n\nf" "p").text = "fn\n\n\nf" ∧
      compile "fn\r\r\n\rf" "p" = compile "fn\n\r\n\nf" "p" ∧
      (Source.ofText ("\r" ++ "\n") "p").text = "\n" ∧
      (Source.ofText ("\r" ++ "\n") "p").text ≠
        (Source.ofText "\r" "p").text ++ (Source.ofText "\n" "p").text := by
  obtain ⟨once, cuts, told⟩ := Source.ofText_normalized
  have first : (Source.ofText "fn\r\r\n\rf" "p").text = "fn\n\n\nf" := by
    rw [(once _ "p").1]
    decide
  have second : (Source.ofText "fn\n\r\n\nf" "p").text = "fn\n\n\nf" := by
    rw [(once _ "p").1]
    decide
  have pair : (Source.ofText ("\r" ++ "\n") "p").text = "\n" := by
    rw [(once _ "p").1]
    decide
  refine ⟨first, second, ((told _ _ "p").2 (first.trans second.symm)).2.1, pair, ?_⟩
  intro apart
  exact (cuts "\r" "\n" "p").mp apart ⟨rfl, rfl⟩

end NcLang
