import NcLang.Output.Device

/-! # What a device takes of a text

A device takes the bytes of a text up to its capacity, in whatever chunks and after however many
interruptions, and reports an error exactly if there are more (`Stream.Delivered`). Deliveries that
follow each other are one delivery, so a text may be written in pieces.
-/

namespace NcLang

/-- Devices that take something at each attempt, as long as they have capacity left. -/
def Device.Steady (device : Device) : Prop :=
  ∀ attempt size, device.chunk attempt = some size → 0 < size

/-- The error of a write for which there is no capacity left. -/
def Device.fullError (device : Device) : IoError :=
  device.refusal.getD .writeZero

namespace Stream

/-- How many more bytes the device takes, if there is a bound. -/
def limit (stream : Stream) : Option Nat :=
  stream.device.capacity.map (· - stream.kept.length)

/-- Whether the device takes this many bytes more. -/
def hasRoom (stream : Stream) (count : Nat) : Bool :=
  stream.limit.all (count ≤ ·)

/-- The bytes at the front that the device takes. -/
def share (stream : Stream) (bytes : List UInt8) : List UInt8 :=
  match stream.limit with
  | some limit => bytes.take limit
  | none => bytes

/-- A stream after some bytes were taken. -/
structure Took (stream : Stream) (added : List UInt8) (next : Stream) : Prop where
  device : next.device = stream.device
  flushes : next.flushes = stream.flushes
  kept : next.kept = stream.kept ++ added

/-- A stream after it was asked to take some bytes: it took what there was room for, and there is an
error if that was not all. -/
structure Delivered (stream : Stream) (bytes : List UInt8) (next : Stream)
    (error : Option IoError) : Prop where
  took : stream.Took (stream.share bytes) next
  error : error = if stream.hasRoom bytes.length then none else some stream.device.fullError

variable {stream next last : Stream} {bytes first second : List UInt8} {error : Option IoError}

/-! ## Deliveries in a row -/

/-- What a stream took is no longer left of its limit. -/
theorem Took.limit (took : stream.Took first next) :
    next.limit = stream.limit.map (· - first.length) := by
  rw [Stream.limit, Stream.limit, took.device, took.kept, Option.map_map]
  congr 1
  funext capacity
  simp only [Function.comp_apply, List.length_append]
  omega

/-- A stream that takes bytes twice takes both, in this order. -/
theorem Took.trans (before : stream.Took first next) (after : next.Took second last) :
    stream.Took (first ++ second) last where
  device := after.device.trans before.device
  flushes := after.flushes.trans before.flushes
  kept := by rw [after.kept, before.kept, List.append_assoc]

theorem share_of_limit {limit : Nat} (bound : stream.limit = some limit) :
    stream.share bytes = bytes.take limit := by
  rw [share, bound]

theorem hasRoom_of_limit {limit count : Nat} (bound : stream.limit = some limit) :
    stream.hasRoom count = decide (count ≤ limit) := by
  rw [hasRoom, bound, Option.all_some]

/-- A stream with room for all bytes gets them all. -/
theorem share_of_hasRoom (room : stream.hasRoom bytes.length) : stream.share bytes = bytes := by
  cases bound : stream.limit with
  | none => rw [share, bound]
  | some limit =>
      rw [hasRoom_of_limit bound] at room
      rw [share_of_limit bound]
      exact List.take_of_length_le (of_decide_eq_true room)

/-- After a first part has been taken, there is room for both parts if there still is for the
second. -/
theorem hasRoom_append (room : stream.hasRoom first.length) (took : stream.Took first next) :
    stream.hasRoom (first ++ second).length = next.hasRoom second.length := by
  have after := took.limit
  cases bound : stream.limit with
  | none =>
      rw [bound] at after
      rw [hasRoom, hasRoom, bound, after]
      rfl
  | some limit =>
      rw [bound, Option.map_some] at after
      rw [hasRoom_of_limit bound] at room
      have enough := of_decide_eq_true room
      rw [hasRoom_of_limit bound, hasRoom_of_limit after, List.length_append, decide_eq_decide]
      omega

/-- After a first part has been taken, the stream gets what it can of the second. -/
theorem share_append (room : stream.hasRoom first.length) (took : stream.Took first next) :
    stream.share (first ++ second) = first ++ next.share second := by
  have after := took.limit
  cases bound : stream.limit with
  | none =>
      rw [bound] at after
      rw [share, share, bound, after]
      rfl
  | some limit =>
      rw [bound, Option.map_some] at after
      rw [hasRoom_of_limit bound] at room
      rw [share_of_limit bound, share_of_limit after, List.take_append,
        List.take_of_length_le (of_decide_eq_true room)]

theorem hasRoom_zero (stream : Stream) : stream.hasRoom 0 := by
  rw [hasRoom]
  cases stream.limit with
  | none => rfl
  | some limit => exact decide_eq_true limit.zero_le

/-- Bytes for which there is room are delivered when they are taken. -/
theorem Took.delivered (took : stream.Took bytes next) (room : stream.hasRoom bytes.length) :
    stream.Delivered bytes next none := by
  refine ⟨?_, (if_pos room).symm⟩
  rw [share_of_hasRoom room]
  exact took

theorem Delivered.nil (stream : Stream) : stream.Delivered [] stream none :=
  Took.delivered ⟨rfl, rfl, (List.append_nil _).symm⟩ stream.hasRoom_zero

/-- What is delivered without an error had room. -/
theorem Delivered.hasRoom (delivered : stream.Delivered bytes next none) :
    stream.hasRoom bytes.length := by
  cases room : stream.hasRoom bytes.length with
  | true => rfl
  | false =>
      have outcome := delivered.error
      rw [room] at outcome
      cases outcome

/-- What is delivered without an error is taken whole. -/
theorem Delivered.tookAll (delivered : stream.Delivered bytes next none) :
    stream.Took bytes next := by
  have took := delivered.took
  rw [share_of_hasRoom delivered.hasRoom] at took
  exact took

/-- What is delivered after something that had room is delivered together with it. -/
theorem Delivered.append (before : stream.Delivered first next none)
    (after : next.Delivered second last error) : stream.Delivered (first ++ second) last error := by
  have room := before.hasRoom
  have took := before.tookAll
  refine ⟨?_, ?_⟩
  · rw [share_append room took]
    exact took.trans after.took
  · rw [after.error, hasRoom_append room took, took.device]

theorem limit_of_not_hasRoom {count : Nat} (full : stream.hasRoom count = false) :
    ∃ limit, stream.limit = some limit ∧ limit < count := by
  cases bound : stream.limit with
  | none =>
      rw [hasRoom, bound] at full
      cases full
  | some limit =>
      rw [hasRoom_of_limit bound] at full
      exact ⟨limit, rfl, Nat.lt_of_not_le (of_decide_eq_false full)⟩

/-- Once there was no room, more bytes make no difference. -/
theorem Delivered.full {fault : IoError} (delivered : stream.Delivered first next (some fault))
    (second : List UInt8) : stream.Delivered (first ++ second) next (some fault) := by
  obtain ⟨took, outcome⟩ := delivered
  cases room : stream.hasRoom first.length with
  | true =>
      rw [room] at outcome
      cases outcome
  | false =>
      obtain ⟨limit, bound, short⟩ := limit_of_not_hasRoom room
      have still : stream.hasRoom (first ++ second).length = false := by
        rw [hasRoom_of_limit bound, List.length_append]
        exact decide_eq_false (by omega)
      have same : stream.share (first ++ second) = stream.share first := by
        rw [share_of_limit bound, share_of_limit bound,
          List.take_append_of_le_length (Nat.le_of_lt short)]
      refine ⟨?_, ?_⟩
      · rw [same]
        exact took
      · rw [still, ← room]
        exact outcome

/-! ## One write -/

theorem room_le (stream : Stream) (count : Nat) : stream.room count ≤ count := by
  rw [room]
  cases stream.device.chunk stream.attempts <;> cases stream.device.capacity <;>
    simp only [Option.map_none, Option.map_some, Option.getD_none, Option.getD_some] <;> omega

theorem hasRoom_room (stream : Stream) (count : Nat) : stream.hasRoom (stream.room count) := by
  rw [hasRoom, limit, room]
  cases stream.device.capacity with
  | none => rfl
  | some capacity => exact decide_eq_true (Nat.min_le_right _ _)

/-- A steady device that takes none of some bytes takes no more at all. -/
theorem limit_eq_zero (steady : stream.device.Steady) {count : Nat} (some_left : 0 < count)
    (none_taken : stream.room count = 0) : stream.limit = some 0 := by
  have offered : 0 < ((stream.device.chunk stream.attempts).map (min count)).getD count := by
    cases chunk : stream.device.chunk stream.attempts with
    | none => exact some_left
    | some size => exact Nat.lt_min.mpr ⟨some_left, steady _ _ chunk⟩
  rw [room] at none_taken
  rw [limit]
  cases bound : stream.device.capacity with
  | none =>
      rw [bound] at none_taken
      exact (Nat.ne_of_gt offered none_taken).elim
  | some capacity =>
      rw [bound] at none_taken
      simp only [Option.map_some, Option.getD_some] at none_taken
      simp only [Option.map_some, Option.some.injEq]
      omega

/-- What a write can do: nothing but be interrupted, or take what there is room for. An error is
only reported if that is nothing. -/
theorem write_cases {answer : WriteAnswer} (written : stream.write bytes = (next, answer)) :
    (answer = .interrupted ∧ stream.Took [] next) ∨
      stream.Took (bytes.take (stream.room bytes.length)) next ∧
        ((answer = .took (stream.room bytes.length) ∧
            (stream.room bytes.length = 0 → bytes ≠ [] → stream.device.refusal = none)) ∨
          ∃ fault, answer = .failed fault ∧ stream.device.refusal = some fault ∧
            stream.room bytes.length = 0) := by
  unfold write at written
  split at written
  · cases written
    exact .inl ⟨rfl, rfl, rfl, (List.append_nil _).symm⟩
  · right
    dsimp only at written
    split at written
    · rename_i fault refusal
      cases written
      refine ⟨⟨rfl, rfl, rfl⟩, ?_⟩
      split
      · rename_i nothing
        exact .inr ⟨fault, rfl, refusal, nothing.1⟩
      · rename_i something
        exact .inl ⟨rfl, fun none_taken nonempty => (something ⟨none_taken, nonempty⟩).elim⟩
    · cases written
      exact ⟨⟨rfl, rfl, rfl⟩, .inl ⟨rfl, fun _ _ => ‹_›⟩⟩

/-- An interrupted attempt delivers nothing and is no error. -/
theorem delivered_of_interrupted (written : stream.write bytes = (next, .interrupted)) :
    stream.Delivered [] next none := by
  rcases write_cases written with ⟨_, took⟩ | ⟨_, ⟨answer, _⟩ | ⟨_, answer, _⟩⟩
  · exact took.delivered stream.hasRoom_zero
  · cases answer
  · cases answer

/-- An attempt that takes some bytes delivers them. -/
theorem delivered_of_took {count : Nat} (written : stream.write bytes = (next, .took count)) :
    stream.Delivered (bytes.take count) next none := by
  rcases write_cases written with ⟨answer, _⟩ | ⟨took, ⟨answer, _⟩ | ⟨_, answer, _⟩⟩
  · cases answer
  · obtain rfl : count = stream.room bytes.length := WriteAnswer.took.inj answer
    have length : (bytes.take (stream.room bytes.length)).length = stream.room bytes.length :=
      List.length_take_of_le (stream.room_le bytes.length)
    have room : stream.hasRoom (bytes.take (stream.room bytes.length)).length := by
      rw [length]
      exact stream.hasRoom_room bytes.length
    exact took.delivered room
  · cases answer

/-- A write that takes none of some bytes is the end of the delivery. -/
theorem delivered_of_room_eq_zero (steady : stream.device.Steady) (nonempty : bytes ≠ [])
    (took : stream.Took (bytes.take (stream.room bytes.length)) next)
    (none_taken : stream.room bytes.length = 0) :
    stream.Delivered bytes next (some stream.device.fullError) := by
  have left := List.length_pos_iff.mpr nonempty
  have bound := limit_eq_zero steady left none_taken
  rw [none_taken] at took
  have full : stream.hasRoom bytes.length = false := by
    rw [hasRoom_of_limit bound]
    exact decide_eq_false (by omega)
  refine ⟨?_, ?_⟩
  · rw [share_of_limit bound]
    exact took
  · rw [full]
    rfl

/-- An attempt fails only if there is no room left, so that no byte of what is missing would fit. -/
theorem delivered_of_failed (steady : stream.device.Steady) (nonempty : bytes ≠ [])
    {fault : IoError} (written : stream.write bytes = (next, .failed fault)) :
    stream.Delivered bytes next (some fault) := by
  rcases write_cases written with ⟨answer, _⟩ | ⟨took, ⟨answer, _⟩ | ⟨_, answer, refusal, zero⟩⟩
  · cases answer
  · cases answer
  · cases answer
    have delivered := delivered_of_room_eq_zero steady nonempty took zero
    rw [Device.fullError, refusal] at delivered
    exact delivered

/-- An attempt that takes nothing of something is an error of its own. -/
theorem delivered_of_took_zero (steady : stream.device.Steady) (nonempty : bytes ≠ [])
    (written : stream.write bytes = (next, .took 0)) :
    stream.Delivered bytes next (some .writeZero) := by
  rcases write_cases written with ⟨answer, _⟩ | ⟨took, ⟨answer, silent⟩ | ⟨_, answer, _⟩⟩
  · cases answer
  · have zero := (WriteAnswer.took.inj answer).symm
    have delivered := delivered_of_room_eq_zero steady nonempty took zero
    rw [Device.fullError, silent zero nonempty] at delivered
    exact delivered
  · cases answer

/-! ## All of the bytes -/

/-- Writing all of some bytes delivers them, whatever the chunks and the interruptions are. -/
theorem delivered_writeAll (stream : Stream) (bytes : List UInt8) (steady : stream.device.Steady) :
    stream.Delivered bytes (stream.writeAll bytes).1 (stream.writeAll bytes).2 := by
  -- Each turn of the loop is a delivery by itself, after which the device is as steady as before.
  fun_induction Stream.writeAll stream bytes with
  | case1 stream => exact Delivered.nil stream
  | case2 stream bytes nonempty next answer ih =>
      have interrupted := delivered_of_interrupted answer
      exact interrupted.append (ih (interrupted.took.device ▸ steady))
  | case3 stream bytes nonempty next fault answer =>
      exact delivered_of_failed steady nonempty answer
  | case4 stream bytes nonempty next answer =>
      exact delivered_of_took_zero steady nonempty answer
  | case5 stream bytes nonempty next count answer ih =>
      have taken := delivered_of_took answer
      have whole := taken.append (ih (taken.took.device ▸ steady))
      rw [List.take_append_drop] at whole
      exact whole

end Stream

/-! ## Texts in pieces -/

theorem Text.bytes_append (first second : String) :
    Text.bytes (first ++ second) = Text.bytes first ++ Text.bytes second := by
  rw [Text.bytes, String.toList_append, List.flatMap_append]
  rfl

/-- The answer of a device to a text: the error, if there was one, is kept with it. -/
def StreamText.reply (stream : Stream) : Option IoError → Reply StreamText
  | none => .taken { stream }
  | some fault => .refused { stream, fault := some fault }

theorem StreamText.write_eq (stream : Stream) (piece : String) :
    TextWriter.write ({ stream } : StreamText) piece =
      StreamText.reply (stream.writeAll (Text.bytes piece)).1
        (stream.writeAll (Text.bytes piece)).2 := by
  dsimp only [TextWriter.write]
  obtain ⟨next, error⟩ := stream.writeAll (Text.bytes piece)
  cases error with
  | none => rfl
  | some fault => rfl

/-- A text is delivered as a whole, in whatever pieces it is written. -/
theorem StreamText.writeAll_delivered (stream : Stream) (steady : stream.device.Steady)
    (pieces : List String) :
    ∃ next error, stream.Delivered (Text.bytes (String.join pieces)) next error ∧
      TextWriter.writeAll ({ stream } : StreamText) pieces = StreamText.reply next error := by
  induction pieces generalizing stream with
  | nil => exact ⟨stream, none, Stream.Delivered.nil stream, rfl⟩
  | cons piece pieces ih =>
      have delivered := stream.delivered_writeAll (Text.bytes piece) steady
      rw [String.join_cons, Text.bytes_append, TextWriter.writeAll, StreamText.write_eq]
      cases error : (stream.writeAll (Text.bytes piece)).2 with
      | none =>
          rw [error] at delivered
          obtain ⟨last, fault, deliveredOn, written⟩ := ih _ (delivered.took.device ▸ steady)
          exact ⟨last, fault, delivered.append deliveredOn, written⟩
      | some fault =>
          rw [error] at delivered
          exact ⟨_, some fault, delivered.full _, rfl⟩

end NcLang
