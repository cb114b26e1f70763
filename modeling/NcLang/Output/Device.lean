import NcLang.Output.IoError
import NcLang.Output.Writer
import NcLang.Text.Bytes

/-! # Devices

A device takes bytes, a chunk at a time, up to its capacity. A write may also be interrupted
before it takes anything, which is no failure: `Stream.writeAll` tries again. An attempt that can
take none of its bytes fails; once the capacity is reached, every attempt does.

The error of a refused write is therefore never an interruption. `IoErrorKind` has no kind for
interruptions, and a device that answers nothing else from some point on is left out of account, as
no write to it would end.
-/

namespace NcLang

/-- How a device behaves. -/
structure Device where
  /-- The number of bytes it takes in all, if there is a bound. -/
  capacity : Option Nat := none
  /-- The number of bytes that each attempt takes at most, if there is a bound. -/
  chunk : Nat → Option Nat := fun _ => none
  /-- How often a write is interrupted before each attempt. -/
  interruptions : Nat → Nat := fun _ => 0
  /-- The error of a write that can take nothing; without one, the device just takes nothing. It is
  no interruption. -/
  refusal : Option IoError := none
  /-- The error of a flush, if it fails. -/
  flushFault : Option IoError := none

/-- The interruptions of a device on which every `period`-th write is interrupted. A write that is
always interrupted would not end, so periods below two stand for none. -/
def Device.everyNth (period : Nat) (attempt : Nat) : Nat :=
  if 2 ≤ period ∧ 0 < attempt ∧ attempt % (period - 1) = 0 then 1 else 0

/-- A device in use. -/
structure Stream where
  device : Device
  /-- The bytes taken so far. -/
  kept : List UInt8
  /-- The number of attempts so far. -/
  attempts : Nat
  /-- The interruptions that are still to come before the next attempt. -/
  pending : Nat
  /-- How many bytes had been taken at each flush so far. -/
  flushes : List Nat

/-- A device before its first use. -/
def Device.stream (device : Device) : Stream where
  device := device
  kept := []
  attempts := 0
  pending := device.interruptions 0
  flushes := []

/-- The answer to a write. -/
inductive WriteAnswer where
  | took (count : Nat)
  | interrupted
  | failed (error : IoError)

namespace Stream

/-- How many of `count` bytes the next attempt takes. -/
def room (stream : Stream) (count : Nat) : Nat :=
  let byChunk := ((stream.device.chunk stream.attempts).map (min count)).getD count
  (stream.device.capacity.map fun capacity => min byChunk (capacity - stream.kept.length)).getD
    byChunk

/-- One write: an interruption, or an attempt that takes as many of the bytes as there is room
for. -/
def write (stream : Stream) (bytes : List UInt8) : Stream × WriteAnswer :=
  match stream.pending with
  | pending + 1 => ({ stream with pending }, .interrupted)
  | 0 =>
    let count := stream.room bytes.length
    let next :=
      { stream with
        kept := stream.kept ++ bytes.take count
        attempts := stream.attempts + 1
        pending := stream.device.interruptions (stream.attempts + 1) }
    match stream.device.refusal with
    | some error => (next, if count = 0 ∧ bytes ≠ [] then .failed error else .took count)
    | none => (next, .took count)

/-- An interruption leaves fewer to come. -/
theorem pending_lt_of_interrupted {stream next : Stream} {bytes : List UInt8}
    (answer : stream.write bytes = (next, .interrupted)) : next.pending < stream.pending := by
  unfold write at answer
  split at answer
  · rename_i pending still
    rw [← congrArg (fun result => result.1.pending) answer, still]
    exact Nat.lt_succ_self pending
  · dsimp only at answer
    split at answer
    · split at answer <;> simp at answer
    · simp at answer

/-- Writes all of the bytes, going on after interruptions and where a write took only some. The
result has the error that stopped it, if there was one. -/
def writeAll (stream : Stream) (bytes : List UInt8) : Stream × Option IoError :=
  if bytes = [] then (stream, none)
  else
    match answer : stream.write bytes with
    | (next, .interrupted) => next.writeAll bytes
    | (next, .failed error) => (next, some error)
    | (next, .took 0) => (next, some .writeZero)
    | (next, .took (count + 1)) => next.writeAll (bytes.drop (count + 1))
termination_by (bytes.length, stream.pending)
decreasing_by
  · exact Prod.Lex.right _ (pending_lt_of_interrupted answer)
  · apply Prod.Lex.left
    have := List.length_pos_iff.mpr ‹¬bytes = []›
    simp only [List.length_drop]
    omega

/-- Asks the device to pass on what it has taken. -/
def flush (stream : Stream) : Stream × Option IoError :=
  ({ stream with flushes := stream.flushes ++ [stream.kept.length] }, stream.device.flushFault)

end Stream

/-- A device in use as a writer of text. A refusal does not say why, so the error is kept here. -/
structure StreamText where
  stream : Stream
  fault : Option IoError := none

instance : TextWriter StreamText where
  write out piece :=
    match out.stream.writeAll (Text.bytes piece) with
    | (stream, none) => .taken { out with stream }
    | (stream, some error) => .refused { stream, fault := some error }

/-- Writes pieces of text to a device, up to the first that it does not take. -/
def Stream.writePieces (stream : Stream) (pieces : List String) : Stream × Option IoError :=
  let out := (TextWriter.writeAll ({ stream } : StreamText) pieces).writer
  (out.stream, out.fault)

end NcLang
