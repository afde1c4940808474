/-!
# Sinks that can be full

A sink receives bytes in calls.  One call takes at least one byte of what it is
offered, as long as there is room, and never more than there is room for; how
many it takes is up to the sink.  A full sink either takes nothing or refuses the
call with an error of its own.  Writing a whole text repeats calls until nothing
is left, a call takes nothing or a call fails.  A call that fails because it was
interrupted is repeated as well, so a sink that interrupts every call keeps the
write from ever ending.
-/

namespace ByteClass

/-- The bytes of a text in UTF-8. -/
def utf8Bytes (text : String) : List UInt8 :=
  text.toUTF8.data.toList

@[simp]
theorem utf8Bytes_empty : utf8Bytes "" = [] :=
  rfl

@[simp]
theorem utf8Bytes_append (first second : String) :
    utf8Bytes (first ++ second) = utf8Bytes first ++ utf8Bytes second := by
  simp [utf8Bytes]

/-- The kinds of errors.  Writing a text tells interruptions from all others and
reports one kind itself. -/
inductive WriteErrorKind
  | interrupted
  | writeZero
  | other (name : String)
  deriving DecidableEq

def WriteErrorKind.name : WriteErrorKind → String
  | interrupted => "Interrupted"
  | writeZero => "WriteZero"
  | other name => name

structure WriteError where
  kind : WriteErrorKind
  message : String
  deriving DecidableEq

/-- The report of a call that took nothing. -/
def WriteError.nothingAccepted : WriteError where
  kind := .writeZero
  message := "failed to write whole buffer"

/-- The answer of a full sink to a call. -/
inductive FullSink
  | acceptNothing
  | refuse (error : WriteError)
  deriving DecidableEq

/-- The received bytes, the room that is left, the most bytes that the next call
takes, and the answer once there is no room.  A missing bound is no bound.  The
bound of a call may depend on what was received before it, so that calls of one
write may take any number of bytes each. -/
structure Sink where
  received : Array UInt8
  room : Option Nat
  chunk : (received : Array UInt8) → Option { limit : Nat // 0 < limit }
  whenFull : FullSink

namespace Sink

/-- The sink without bounds that has received nothing. -/
def unbounded : Sink where
  received := #[]
  room := none
  chunk := fun _ => none
  whenFull := .acceptNothing

/-- How many of the offered bytes there is room for. -/
def withinRoom (sink : Sink) (offered : Nat) : Nat :=
  sink.room.elim offered (min offered)

/-- How many of the offered bytes fit into the next call. -/
def withinCall (sink : Sink) (offered : Nat) : Nat :=
  (sink.chunk sink.received).elim (sink.withinRoom offered) fun chunk =>
    min (sink.withinRoom offered) chunk.val

/-- One call, answered by the number of bytes taken. -/
def call (sink : Sink) (offered : Nat) : Except WriteError Nat :=
  match sink.room, sink.whenFull with
  | some 0, .refuse error => .error error
  | _, _ => .ok (sink.withinCall offered)

def take (sink : Sink) (bytes : List UInt8) : Sink :=
  { sink with
    received := sink.received ++ bytes.toArray
    room := sink.room.map (· - bytes.length) }

/-- One call on behalf of a write, and what it leaves to be written.  Only an
interrupted call leaves everything as it was.  It is inlined, so that the write
holds the sink once and appends to it in place. -/
@[inline]
def attempt (sink : Sink) (bytes : List UInt8) :
    Except WriteError (Sink × List UInt8) :=
  match sink.call bytes.length with
  | .error error =>
      if error.kind = .interrupted then .ok (sink, bytes) else .error error
  | .ok 0 => .error .nothingAccepted
  | .ok count => .ok (sink.take (bytes.take count), bytes.drop count)

/-- Call until every byte is taken or the write fails.  A call that leaves
everything as it was is answered the same again each time, so there is never a
result. -/
def writeAll (sink : Sink) (bytes : List UInt8) :
    Option (Sink × Option WriteError) :=
  if bytes.isEmpty then
    some (sink, none)
  else
    match sink.attempt bytes with
    | .error error => some (sink, some error)
    | .ok (next, rest) =>
        if rest.length < bytes.length then next.writeAll rest else none
  termination_by bytes.length

/-- Write the fragments of a text in order, up to the first error. -/
def writeFragments (sink : Sink) :
    List String → Option (Sink × Option WriteError)
  | [] => some (sink, none)
  | fragment :: fragments =>
      match sink.writeAll (utf8Bytes fragment) with
      | none => none
      | some (next, some error) => some (next, some error)
      | some (next, none) => writeFragments next fragments

end Sink

end ByteClass
