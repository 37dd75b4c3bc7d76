import Bosh.Http.Message

/-! How the bytes of a connection become requests: what `hc_process` finds in the buffer
and takes from it. -/
namespace Bosh
open Text

namespace HttpConnection

def empty : HttpConnection where
  buffer := []
  bufferSize := 0
  sock := 0
  it := 0
  header := none
  closeCallback := none

def unconsumed (connection : HttpConnection) : Bytes :=
  connection.buffer.take connection.bufferSize

/-- What is asked of `hc_process` once the header ends at `size`: a request stays inside the
bytes received and takes its own bytes from their front, and one that is too long is refused. -/
structure FramesSafely (h : ConnectionId) (size : Nat) (header : HttpHeader)
    (connection : HttpConnection) : Prop where
  complete : ∀ request length, connection.frame h = .ok (.complete request length) →
    size + request.dataSize ≤ connection.bufferSize ∧
      (connection.consume length).bufferSize = connection.bufferSize - (size + request.dataSize) ∧
      (connection.consume length).unconsumed =
        connection.unconsumed.drop (size + request.dataSize)
  tooBig : maxBufferSize ≤ size + contentSize header → connection.frame h = .ok .tooBig

structure Headed (connection : HttpConnection) (received : Bytes) (header : HttpHeader)
    (blank : Nat) : Prop where
  buffer : ∃ rest, connection.buffer = received ++ rest
  size : connection.bufferSize = received.length
  few : received.length ≤ maxBufferSize
  parsed : connection.header = some header
  ends : find (httpLineSep ++ httpLineSep) (cstr connection.buffer) = some blank
  inside : blank + 4 ≤ received.length

variable {connection : HttpConnection} {received : Bytes} {header : HttpHeader} {blank : Nat}
  {h : ConnectionId}

theorem contentSize_bounds (header : HttpHeader) :
    -(2 ^ 31) ≤ contentSize header ∧ contentSize header < 2 ^ 31 := by
  unfold contentSize
  cases httpGetField header (ascii "Content-Length") with
  | none => decide
  | some value => exact atoi_bounds value

theorem Headed.unconsumed (headed : Headed connection received header blank) :
    connection.unconsumed = received := by
  obtain ⟨rest, buffer⟩ := headed.buffer
  rw [HttpConnection.unconsumed, buffer, headed.size, List.take_left]

theorem Headed.frame (headed : Headed connection received header blank) :
    connection.frame h =
      if toInt32 (contentSize header + (blank + 4 : Nat)) ≥ maxBufferSize then .ok .tooBig
      else if received.length ≥ toSize (toInt32 ((blank + 4 : Nat) + contentSize header)) then
        .ok (.complete
          { connection := h, header, data := connection.buffer.drop (blank + 4),
            dataSize := toSize (contentSize header) }
          ((blank + 4 : Nat) + contentSize header).toNat)
      else .ok .incomplete := by
  simp only [HttpConnection.frame, headed.parsed, headed.ends, headed.size]

theorem consume_eq (buffer : ∃ stale, connection.buffer = received ++ stale)
    (size : connection.bufferSize = received.length) {length : Nat}
    (whole : length ≤ received.length) :
    (∃ stale, (connection.consume length).buffer = received.drop length ++ stale) ∧
      (connection.consume length).bufferSize = (received.drop length).length ∧
      (connection.consume length).header = none := by
  obtain ⟨stale, buffer⟩ := buffer
  unfold consume
  rw [size]
  split
  · refine ⟨?_, by simp, rfl⟩
    have moved : (connection.buffer.drop length).take (received.length - length) =
      received.drop length := by
      rw [buffer, List.drop_append_of_le_length whole, ← List.length_drop, List.take_left]
    dsimp only
    rw [moved, writeAt]
    exact ⟨connection.buffer.drop (received.length - length), by simp⟩
  · have all : received.drop length = [] := by simp; omega
    rw [all]
    exact ⟨⟨connection.buffer, rfl⟩, rfl, rfl⟩

theorem unconsumed_consume (headed : Headed connection received header blank) {length : Nat}
    (whole : length ≤ received.length) :
    (connection.consume length).bufferSize = received.length - length ∧
      (connection.consume length).unconsumed = received.drop length := by
  obtain ⟨⟨stale, buffer⟩, size, -⟩ := consume_eq headed.buffer headed.size whole
  rw [HttpConnection.unconsumed, buffer, size, List.take_left]
  exact ⟨List.length_drop, rfl⟩

/-- Without a sign and without an overflow, the `int` arithmetic is that of the numbers. -/
theorem Headed.safe (headed : Headed connection received header blank)
    (positive : 0 ≤ contentSize header) (fits : (blank + 4 : Nat) + contentSize header < 2 ^ 31) :
    FramesSafely h (blank + 4) header connection := by
  have framed := headed.frame (h := h)
  rw [Int.add_comm, toInt32_of_lt (by omega) fits, toSize_of_nonneg (by omega) (by omega),
    toSize_of_nonneg positive (by omega)] at framed
  refine ⟨fun request length complete => ?_, fun large => ?_⟩
  · rw [framed] at complete
    split at complete
    · cases complete
    · split at complete
      · rename_i whole
        cases complete
        have sum : ((blank + 4 : Nat) + contentSize header).toNat =
            blank + 4 + (contentSize header).toNat := by omega
        rw [sum] at whole ⊢
        obtain ⟨size, rest⟩ := unconsumed_consume headed whole
        rw [headed.size, headed.unconsumed]
        exact ⟨whole, size, rest⟩
      · cases complete
  · rw [framed, if_pos large]

/-- A length so negative that the header itself is cut into is never complete. -/
theorem Headed.waits (headed : Headed connection received header blank)
    (negative : (blank + 4 : Nat) + contentSize header < 0) :
    FramesSafely h (blank + 4) header connection := by
  have bounds := contentSize_bounds header
  have few := headed.few
  have framed := headed.frame (h := h)
  have huge := toSize_of_neg negative (by omega)
  rw [Int.add_comm, toInt32_of_fits (by omega) (by omega)] at framed
  have small : ¬ (blank + 4 : Nat) + contentSize header ≥ maxBufferSize := by omega
  have incomplete : ¬ received.length ≥ toSize ((blank + 4 : Nat) + contentSize header) := by
    simp only [maxBufferSize] at few
    omega
  rw [if_neg small, if_neg incomplete] at framed
  refine ⟨fun request length complete => ?_, fun large => absurd large (by omega)⟩
  rw [framed] at complete
  cases complete

/-- A negative length that leaves some of the header is handed over as a huge size. -/
theorem Headed.overruns (headed : Headed connection received header blank)
    (negative : contentSize header < 0) (part : 0 ≤ (blank + 4 : Nat) + contentSize header) :
    ¬ FramesSafely h (blank + 4) header connection := fun safe => by
  have bounds := contentSize_bounds header
  have few := headed.few
  have inside := headed.inside
  have framed := headed.frame (h := h)
  simp only [maxBufferSize] at few
  rw [Int.add_comm, toInt32_of_lt part (by omega), toSize_of_nonneg part (by omega)] at framed
  have small : ¬ (blank + 4 : Nat) + contentSize header ≥ maxBufferSize := by
    simp only [maxBufferSize]
    omega
  rw [if_neg small, if_pos (by omega)] at framed
  have huge := toSize_of_neg negative (by omega)
  have stays := (safe.complete _ _ framed).1
  rw [headed.size] at stays
  dsimp only at stays
  omega

/-- A sum that does not fit an `int` turns negative and is not found too big. -/
theorem Headed.overflows (headed : Headed connection received header blank)
    (wraps : 2 ^ 31 ≤ (blank + 4 : Nat) + contentSize header) :
    ¬ FramesSafely h (blank + 4) header connection := fun safe => by
  have bounds := contentSize_bounds header
  have few := headed.few
  have inside := headed.inside
  have framed := headed.frame (h := h)
  simp only [maxBufferSize] at few
  rw [Int.add_comm, toInt32_of_wraps wraps (by omega)] at framed
  have refused := safe.tooBig (by simp only [maxBufferSize]; omega)
  rw [if_neg (by simp only [maxBufferSize]; omega)] at framed
  rw [framed] at refused
  split at refused <;> cases refused

/-- The sizes are handled safely if and only if the length is not negative, or so negative
that nothing is taken for complete, and the whole request's length fits an `int`. -/
theorem framesSafely_iff (headed : Headed connection received header blank) :
    FramesSafely h (blank + 4) header connection ↔
      (0 ≤ contentSize header ∨ (blank + 4 : Nat) + contentSize header < 0) ∧
        (blank + 4 : Nat) + contentSize header < 2 ^ 31 := by
  refine ⟨fun safe => ⟨?_, ?_⟩, ?_⟩
  · by_contra between
    rw [not_or] at between
    exact headed.overruns (by omega) (by omega) safe
  · by_contra wraps
    exact headed.overflows (by omega) safe
  · rintro ⟨positive | negative, fits⟩
    · exact headed.safe positive fits
    · exact headed.waits negative

/-- A request of 42 bytes with the start of the next one behind it. -/
theorem framesSafely_body : ∃ request length,
    (receive (ascii "POST / HTTP/1.1\r\nContent-Length:5\r\n\r\nhelloGET") empty).frame 1 =
      .ok (.complete request length) ∧ request.body = ascii "hello" ∧
    ((receive (ascii "POST / HTTP/1.1\r\nContent-Length:5\r\n\r\nhelloGET") empty).consume
      length).unconsumed = ascii "GET" := by
  have headed : Headed
      (receive (ascii "POST / HTTP/1.1\r\nContent-Length:5\r\n\r\nhelloGET") empty)
      (ascii "POST / HTTP/1.1\r\nContent-Length:5\r\n\r\nhelloGET")
      ⟨ascii "POST", ascii "/", [⟨ascii "Content-Length", ascii "5"⟩]⟩ 33 :=
    ⟨⟨[0], by decide⟩, by decide, by decide, by decide, by decide, by decide⟩
  have framed :
      (receive (ascii "POST / HTTP/1.1\r\nContent-Length:5\r\n\r\nhelloGET") empty).frame 1 =
        .ok (.complete ⟨1, ⟨ascii "POST", ascii "/", [⟨ascii "Content-Length", ascii "5"⟩]⟩,
          ascii "helloGET" ++ [0], 5⟩ 42) := by decide
  obtain ⟨-, -, rest⟩ := ((framesSafely_iff headed).mpr (by decide)).complete _ _ framed
  exact ⟨_, _, framed, by decide, rest.trans (by decide)⟩

/-- The body of this request is handed over with a size of `2 ^ 64 - 5`. -/
theorem framesSafely_negative :
    ¬ ∀ connection received header blank, Headed connection received header blank →
      ∀ h, FramesSafely h (blank + 4) header connection := fun claim => by
  have headed : Headed (receive (ascii "GET / HTTP/1.1\r\nContent-Length:-5\r\n\r\n") empty)
      (ascii "GET / HTTP/1.1\r\nContent-Length:-5\r\n\r\n")
      ⟨ascii "GET", ascii "/", [⟨ascii "Content-Length", ascii "-5"⟩]⟩ 33 :=
    ⟨⟨[0], by decide⟩, by decide, by decide, by decide, by decide, by decide⟩
  exact headed.overruns (by decide) (by decide) (claim _ _ _ _ headed 1)

end HttpConnection

end Bosh
