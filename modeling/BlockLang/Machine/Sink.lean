/-!
# Where output goes

A `Sink` takes what a program prints.  It may refuse a text, and it may refuse to pass on what it
has taken (`Sink.flush`); what it has taken then stays taken.

A `Buffer` is the sink that keeps the bytes it takes, up to an optional capacity.
-/

namespace BlockLang

/-- A state that texts can be written to.  An operation gives the reason why it failed, if it
did, and the state after it. -/
class Sink (σ : Type) where
  /-- Take a text. -/
  write : String → σ → Option String × σ
  /-- Pass on what has been taken. -/
  flush : σ → Option String × σ

/-- A sink that keeps what is written to it. -/
structure Buffer where
  written : ByteArray
  /-- The number of bytes that are taken in all. -/
  capacity : Option Nat
  /-- The reason why flushing fails, if it does. -/
  flushFault : Option String
  deriving Inhabited

namespace Buffer

/-- An empty buffer that takes everything. -/
def unbounded : Buffer :=
  ⟨.empty, none, none⟩

/-- An empty buffer that takes so many bytes. -/
def bounded (capacity : Nat) : Buffer :=
  ⟨.empty, some capacity, none⟩

/-- Take bytes.  Of bytes that do not fit those are taken that do. -/
def append (buffer : Buffer) (bytes : ByteArray) : Option String × Buffer :=
  match buffer with
  | ⟨written, none, flushFault⟩ => (none, ⟨written ++ bytes, none, flushFault⟩)
  | ⟨written, some capacity, flushFault⟩ =>
    let room := capacity - written.size
    if bytes.size ≤ room then (none, ⟨written ++ bytes, some capacity, flushFault⟩)
    else
      (some "failed to write whole buffer",
        ⟨written ++ bytes.extract 0 room, some capacity, flushFault⟩)

instance : Sink Buffer where
  write text buffer := buffer.append text.toUTF8
  flush buffer := (buffer.flushFault, buffer)

/-- Bytes as text, where a character that was cut off at the end shows as a replacement
character. -/
def shown (bytes : ByteArray) : String :=
  match String.fromUTF8? bytes with
  | some text => text
  | none =>
    match [1, 2, 3].findSome? fun cut => String.fromUTF8? (bytes.extract 0 (bytes.size - cut)) with
    | some text => text.push '\ufffd'
    | none => ""

/-- What was written behind the first `start` bytes. -/
def textFrom (buffer : Buffer) (start : Nat) : String :=
  shown (buffer.written.extract start buffer.written.size)

/-- All that was written. -/
def text (buffer : Buffer) : String :=
  buffer.textFrom 0

/-! ## What a buffer holds -/

/-- A buffer without a capacity takes everything. -/
theorem append_of_capacity_eq_none {buffer : Buffer} (h : buffer.capacity = none)
    (bytes : ByteArray) :
    buffer.append bytes = (none, { buffer with written := buffer.written ++ bytes }) := by
  obtain ⟨written, capacity, flushFault⟩ := buffer
  cases h
  rfl

/-- A buffer never holds more bytes than its capacity. -/
theorem size_append_le {buffer : Buffer} {capacity : Nat} (h : buffer.capacity = some capacity)
    (fits : buffer.written.size ≤ capacity) (bytes : ByteArray) :
    (buffer.append bytes).2.written.size ≤ capacity := by
  obtain ⟨written, _, flushFault⟩ := buffer
  cases h
  simp only at fits
  simp only [append]
  split
  · simp only [ByteArray.size_append]
    omega
  · simp only [ByteArray.size_append, ByteArray.size_extract]
    omega

end Buffer

end BlockLang
