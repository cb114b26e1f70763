import NcLang.Cli.Session
import NcLang.Proofs.FirstFault

/-! # The command line agrees with compilation

The program writes its listings and the C text to standard output one after the other, each as far
as it comes. On a standard output that takes everything, what is shown and how the program ends are
told by the compilation of the text alone (`Options.expected`), and the error that is reported is
that of the compilation (`Command.run_agrees`).
-/

namespace NcLang

/-- The bytes of a text are read as that text. -/
theorem Text.ofBytes?_bytes (text : String) : Text.ofBytes? (Text.bytes text) = some text := by
  have encoded : (⟨(Text.bytes text).toArray⟩ : ByteArray) = text.toByteArray := by
    rw [← String.utf8Encode_toList, ← List.data_toByteArray]
    rfl
  rw [Text.ofBytes?, encoded, String.fromUTF8?, dif_pos text.isValidUTF8]
  rfl

/-! ## Devices that take everything -/

/-- Devices without bounds that can be flushed, in whatever chunks they take bytes. -/
structure Device.Accepting (device : Device) : Prop where
  unbounded : device.capacity = none
  steady : device.Steady
  flushes : device.flushFault = none

theorem Stream.hasRoom_of_accepting {stream : Stream} (accepting : stream.device.Accepting)
    (count : Nat) : stream.hasRoom count := by
  rw [Stream.hasRoom, Stream.limit, accepting.unbounded]
  rfl

/-- A delivery to a device that takes everything has no error. -/
theorem Stream.Delivered.accepted {stream next : Stream} {bytes : List UInt8}
    {error : Option IoError} (delivered : stream.Delivered bytes next error)
    (accepting : stream.device.Accepting) : stream.Took bytes next ∧ error = none := by
  have room := Stream.hasRoom_of_accepting accepting bytes.length
  have none_lost : error = none := delivered.error.trans (if_pos room)
  rw [none_lost] at delivered
  exact ⟨delivered.tookAll, none_lost⟩

/-- Work on a device that added a text to what the device holds, and ended with an error or
without. -/
structure Stream.Printed (stream : Stream) (text : String) (error : Option Error)
    (result : Stream × Option Error) : Prop where
  device : result.1.device = stream.device
  kept : result.1.kept = stream.kept ++ Text.bytes text
  error : result.2 = error

namespace Stream

variable {stream : Stream} {first second : String} {error : Option Error}

theorem printed_nothing (stream : Stream) (error : Option Error) :
    stream.Printed "" error (stream, error) :=
  ⟨rfl, (List.append_nil _).symm, rfl⟩

/-- Work that goes on after other work without an error adds its text after the other. -/
theorem Printed.proceed {done : Stream × Option Error} {next : Stream → Stream × Option Error}
    (printed : stream.Printed first none done)
    (goesOn : ∀ between : Stream, between.device = stream.device →
      between.Printed second error (next between)) :
    stream.Printed (first ++ second) error (Cli.proceed done next) := by
  obtain ⟨between, fault⟩ := done
  obtain ⟨device, kept, rfl⟩ := printed
  have after := goesOn between device
  refine ⟨after.device.trans device, ?_, after.error⟩
  calc (next between).1.kept
      = between.kept ++ Text.bytes second := after.kept
    _ = stream.kept ++ Text.bytes (first ++ second) := by
        rw [kept, List.append_assoc, Text.bytes_append]

/-- A device that takes everything takes pieces of text one after the other. -/
theorem printed_pieces (accepting : stream.device.Accepting) (pieces : List String) :
    stream.Printed (String.join pieces) none
      ((stream.writePieces pieces).1, (stream.writePieces pieces).2.map .io) := by
  obtain ⟨next, fault, delivered, written⟩ :=
    StreamText.writeAll_delivered stream accepting.steady pieces
  obtain ⟨took, rfl⟩ := delivered.accepted accepting
  have result : stream.writePieces pieces = (next, none) := by
    rw [writePieces, written]
    rfl
  rw [result]
  exact ⟨took.device, took.kept, rfl⟩

/-- A listing is printed if it is asked for. -/
theorem Printed.ifAsked {text : String} {done : Stream × Option Error} (asked : Bool)
    (printed : stream.Printed text none done) :
    stream.Printed (if asked then text else "") none (if asked then done else (stream, none)) := by
  cases asked with
  | true => exact printed
  | false => exact printed_nothing stream none

end Stream

theorem Scope.printed_printTo {stream : Stream} (accepting : stream.device.Accepting)
    (root : Scope Span) : stream.Printed (root.outline.print 0) none (root.printTo stream) :=
  Stream.printed_pieces accepting (root.outline.pieces 0)

/-- A program without faults is written to a device that takes everything. -/
theorem Scope.printed_writeTo {root : Scope Span} {indent out : String} {stream : Stream}
    (accepting : stream.device.Accepting) (written : root.cText indent = .ok out) :
    stream.Printed out none (root.writeTo indent stream) := by
  obtain ⟨next, fault, delivered, result⟩ :=
    root.writeTo_delivered indent stream accepting.steady
  obtain ⟨took, rfl⟩ := delivered.accepted accepting
  rw [Scope.cText, Scope.write_text] at written
  cases sound : root.fault with
  | some error =>
      rw [sound] at written
      cases written
  | none =>
      rw [sound] at written result
      cases written
      rw [result, accepting.flushes]
      exact ⟨took.device, took.kept, rfl⟩

/-- Compilation step by step. No step ends with an internal error. -/
theorem compile_steps (text path : String) :
    (∃ tokens root out, tokensOf text path = .ok tokens ∧ treeOf tokens = .ok root ∧
        root.cText standardIndent = .ok out ∧ compile text path = .ok out) ∨
      ∃ error, error.isInternal = false ∧ compile text path = .error error ∧
        (tokensOf text path = .error error ∨
          ∃ tokens, tokensOf text path = .ok tokens ∧ treeOf tokens = .error error) := by
  rcases compile_cases text path with
    ⟨tokens, root, out, lexed, parsed, written, result⟩ | ⟨fault, lexed, result⟩ |
      ⟨tokens, fault, lexed, stuck, result⟩
  · refine .inl ⟨tokens, root, out, ?_, ?_, written, result⟩
    · rw [tokensOf, lexed]
      rfl
    · rw [treeOf, parsed]
      rfl
  · refine .inr ⟨.lexical fault, rfl, result, .inl ?_⟩
    rw [tokensOf, lexed]
    rfl
  · refine .inr ⟨.grammar fault, rfl, result, .inr ⟨tokens, ?_, ?_⟩⟩
    · rw [tokensOf, lexed]
      rfl
    · rw [treeOf, stuck]
      rfl

namespace Cli

/-! ## What is shown -/

/-- The listing of tokens, one on a line. -/
def tokenListing (tokens : List (Token Span)) : String :=
  String.join (tokens.map fun token => token.dump ++ "\n")

theorem printed_listTokensTo {stream : Stream} (accepting : stream.device.Accepting)
    (tokens : List (Token Span)) :
    stream.Printed (tokenListing tokens) none (listTokensTo tokens stream) := by
  have lines : String.join (tokens.flatMap fun token => [token.dump, "\n"]) =
      tokenListing tokens := by
    induction tokens with
    | nil => rfl
    | cons token tokens ih =>
        rw [List.flatMap_cons, String.join_append, ih, tokenListing, tokenListing, List.map_cons,
          String.join_cons]
        simp only [String.join_cons, String.join_nil, String.append_empty]
  rw [← lines]
  exact Stream.printed_pieces accepting _

namespace Options

/-- What a run with some options is to show for a text, told by the compilation of the text: the
listings that are asked for, as far as the text has tokens and a tree, then the C text if there is
one, else the error. -/
def expected (options : Options) (text : String) : Session where
  status :=
    match compile text options.path with
    | .ok _ => 0
    | .error _ => 1
  stdout :=
    (match tokensOf text options.path with
      | .ok tokens => if options.showTokens then tokenListing tokens else ""
      | .error _ => "") ++
    ((match tokensOf text options.path >>= treeOf with
      | .ok root => if options.showTree then root.outline.print 0 else ""
      | .error _ => "") ++
    match compile text options.path with
    | .ok out => out
    | .error _ => "")
  stderr :=
    match compile text options.path with
    | .ok _ => ""
    | .error error => "error: " ++ error.message ++ "\n"

/-- On a standard output that takes everything, the text that is written and the error are those of
the compilation. -/
theorem printed_compileTextTo (options : Options) (text : String) {stdout : Stream}
    (accepting : stdout.device.Accepting) :
    stdout.Printed (options.expected text).stdout
      (match compile text options.path with
        | .ok _ => none
        | .error error => some error)
      (options.compileTextTo text stdout) := by
  rw [expected, compileTextTo]
  rcases compile_steps text options.path with
    ⟨tokens, root, out, lexed, parsed, written, result⟩ |
      ⟨error, _, result, lexed | ⟨tokens, lexed, stuck⟩⟩
  · have rootFound : tokensOf text options.path >>= treeOf = .ok root := by
      rw [lexed]
      exact parsed
    rw [result, rootFound, lexed]
    dsimp only
    rw [parsed]
    refine ((printed_listTokensTo accepting tokens).ifAsked options.showTokens).proceed ?_
    intro listed sameDevice
    have accepting' : listed.device.Accepting := sameDevice ▸ accepting
    refine ((Scope.printed_printTo accepting' root).ifAsked options.showTree).proceed ?_
    intro printed sameDevice'
    exact Scope.printed_writeTo (sameDevice' ▸ accepting') written
  · rw [result, lexed]
    exact Stream.printed_nothing stdout _
  · have noRoot : tokensOf text options.path >>= treeOf = .error error := by
      rw [lexed]
      exact stuck
    rw [result, noRoot, lexed]
    dsimp only
    rw [stuck]
    refine ((printed_listTokensTo accepting tokens).ifAsked options.showTokens).proceed ?_
    intro listed _
    exact Stream.printed_nothing listed _

end Options

namespace Command

/-- A run on a standard output that takes everything shows what is expected. -/
theorem run_expected {contents : String → Except IoError (List UInt8)} {options : Options}
    {text : String} (read : contents options.path = .ok (Text.bytes text)) {stdout : Stream}
    (accepting : stdout.device.Accepting) :
    let outcome := (Command.compile options).run contents stdout
    outcome.status = (options.expected text).status ∧
      outcome.stdout.kept = stdout.kept ++ Text.bytes (options.expected text).stdout ∧
      outcome.stderr = (options.expected text).stderr := by
  have contentsRead : options.compileContentsTo (contents options.path) stdout =
      options.compileTextTo text stdout := by
    simp only [Options.compileContentsTo, read, Text.ofBytes?_bytes]
  have printed := options.printed_compileTextTo text accepting
  rw [run, contentsRead]
  generalize options.compileTextTo text stdout = done at printed ⊢
  obtain ⟨next, fault⟩ := done
  obtain ⟨-, kept, rfl⟩ := printed
  rw [Options.expected] at kept ⊢
  rcases compile_steps text options.path with
    ⟨_, _, out, _, _, _, result⟩ | ⟨error, external, result, _⟩
  · rw [result] at kept ⊢
    exact ⟨rfl, kept, rfl⟩
  · rw [result] at kept ⊢
    refine ⟨rfl, kept, ?_⟩
    change errorReport error = "error: " ++ error.message ++ "\n"
    rw [errorReport, external]
    exact String.append_empty

end Command

end Cli

end NcLang
