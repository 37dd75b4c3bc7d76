import Bosh.Http.Refusal

/-! Whatever bytes arrive on a connection, its requests are cut out of them one after the other,
and the buffer holds the rest. -/
namespace Bosh
open Effect Text HttpConnection

/-- A request has been made of these bytes: a head up to a blank line, and its body, which is as
long as its Content-Length says. -/
structure CutFrom (segment : Bytes) (request : HttpRequest) : Prop where
  cut : ∃ head, httpLineSep ++ httpLineSep <:+ head ∧ segment = head ++ request.body ∧
    (request.body.length : Int) = contentSize request.header

namespace HttpConnection
variable {connection : HttpConnection} {old new pending : Bytes} {h : ConnectionId}

structure Pending (pending : Bytes) (connection : HttpConnection) : Prop where
  buffer : ∃ stale, connection.buffer = pending ++ stale
  size : connection.bufferSize = pending.length

theorem Pending.unconsumed (pends : connection.Pending pending) : connection.unconsumed = pending := by
  obtain ⟨⟨stale, buffer⟩, size⟩ := pends
  rw [HttpConnection.unconsumed, buffer, size, List.take_left]

theorem Pending.receive (pends : connection.Pending old) (new : Bytes) :
    (connection.receive new).Pending (old ++ new) := by
  obtain ⟨stale, buffer⟩ := receive_buffer pends.buffer pends.size new
  exact ⟨⟨_, buffer⟩, by simp [HttpConnection.receive, pends.size]⟩

theorem headed_of_complete (pends : connection.Pending old)
    (room : (old ++ new).length ≤ maxBufferSize) {request : HttpRequest} {length : Nat}
    (framed : (connection.receive new).frame h = .ok (.complete request length)) :
    ∃ header blank, Headed (connection.receive new) (old ++ new) header blank := by
  obtain ⟨stale, buffer⟩ := receive_buffer pends.buffer pends.size new
  have text : cstr (connection.receive new).buffer = cstr (old ++ new) := by
    rw [buffer, cstr_terminated]
  cases parsed : (connection.receive new).header with
  | none => simp [HttpConnection.frame, parsed] at framed
  | some header =>
    cases ends : find (httpLineSep ++ httpLineSep) (cstr (connection.receive new).buffer) with
    | none => simp [HttpConnection.frame, parsed, ends] at framed
    | some blank =>
      have inside := find_bound (by decide) ends
      rw [text] at inside
      have short : (cstr (old ++ new)).length ≤ (old ++ new).length :=
        (List.takeWhile_prefix _).length_le
      refine ⟨header, blank, ⟨_, buffer⟩, (pends.receive new).size, room, parsed, ends, ?_⟩
      exact inside.trans short

/-- A request is only found complete when the sum of its sizes has not wrapped. -/
theorem Headed.complete_length {received : Bytes} {header : HttpHeader} {blank : Nat}
    (headed : Headed connection received header blank) {request : HttpRequest} {length : Nat}
    (framed : connection.frame h = .ok (.complete request length)) :
    (length : Int) = (blank + 4 : Nat) + contentSize header ∧ length ≤ received.length ∧
      request = { connection := h, header, data := connection.buffer.drop (blank + 4),
                  dataSize := toSize (contentSize header) } := by
  have bounds := contentSize_bounds header
  have few := headed.few
  have inside := headed.inside
  simp only [maxBufferSize] at few
  rw [headed.frame] at framed
  split at framed
  · cases framed
  · split at framed
    · rename_i whole
      have sum : 0 ≤ (blank + 4 : Nat) + contentSize header ∧
          (blank + 4 : Nat) + contentSize header < 2 ^ 31 := by
        constructor
        · by_contra negative
          rw [toInt32_of_fits (by omega) (by omega)] at whole
          have huge := toSize_of_neg (not_le.mp negative) (by omega)
          omega
        · by_contra wraps
          rw [toInt32_of_wraps (by omega) (by omega)] at whole
          have huge : (toSize ((blank + 4 : Nat) + contentSize header - 2 ^ 32) : Int) = _ :=
            toSize_of_neg (by omega) (by omega)
          omega
      rw [toInt32_of_lt sum.1 sum.2, toSize_of_nonneg sum.1 (by omega)] at whole
      cases framed
      exact ⟨Int.toNat_of_nonneg sum.1, whole, rfl⟩
    · cases framed

theorem Headed.cutFrom {received : Bytes} {header : HttpHeader} {blank : Nat}
    (headed : Headed connection received header blank) {request : HttpRequest} {length : Nat}
    (framed : connection.frame h = .ok (.complete request length))
    (positive : 0 ≤ contentSize request.header) :
    length ≤ received.length ∧ CutFrom (received.take length) request := by
  obtain ⟨sum, whole, rfl⟩ := headed.complete_length framed
  replace positive : 0 ≤ contentSize header := positive
  have inside := headed.inside
  have bounds := contentSize_bounds header
  obtain ⟨stale, buffer⟩ := headed.buffer
  have behind : (contentSize header).toNat ≤ (received.drop (blank + 4)).length := by
    rw [List.length_drop]
    omega
  have body : HttpRequest.body
      ⟨h, header, connection.buffer.drop (blank + 4), toSize (contentSize header)⟩ =
      (received.drop (blank + 4)).take (contentSize header).toNat := by
    rw [HttpRequest.body, toSize_of_nonneg positive (by omega), buffer,
      List.drop_append_of_le_length inside]
    exact List.take_append_of_le_length behind
  refine ⟨whole, received.take (blank + 4), ?_, ?_, ?_⟩
  · have here := ((find_eq_some_iff (by decide)).mp headed.ends).1
    have same : received.take (blank + 4) = (cstr connection.buffer).take (blank + 4) := by
      obtain ⟨tail, front⟩ : cstr connection.buffer <+: connection.buffer :=
        List.takeWhile_prefix _
      have bound : blank + 4 ≤ (cstr connection.buffer).length := find_bound (by decide) headed.ends
      rw [← List.take_append_of_le_length bound, front, buffer]
      exact (List.take_append_of_le_length inside).symm
    rw [same, List.take_add]
    exact ⟨_, congrArg _ (List.prefix_iff_eq_take.mp here)⟩
  · rw [body, ← List.take_add]
    congr 1
    omega
  · rw [body, List.length_take_of_le behind]
    exact Int.toNat_of_nonneg positive

theorem Pending.read (pends : connection.Pending old) (room : (old ++ new).length ≤ maxBufferSize)
    (positive : ∀ request ∈ (connection.read h new).2, 0 ≤ contentSize request.header) :
    ∃ segments, List.Forall₂ CutFrom segments (connection.read h new).2.toList ∧
      ∃ rest, old ++ new = segments.flatten ++ rest ∧ (connection.read h new).1.Pending rest := by
  by_cases complete : ∃ request length,
      (connection.receive new).frame h = .ok (.complete request length)
  · obtain ⟨request, length, framed⟩ := complete
    obtain ⟨header, blank, headed⟩ := headed_of_complete pends room framed
    rw [read_framed framed] at positive ⊢
    obtain ⟨whole, cut⟩ := headed.cutFrom framed (positive request rfl)
    obtain ⟨buffer, size, -⟩ := consume_eq headed.buffer headed.size whole
    exact ⟨[_], .cons cut .nil, (old ++ new).drop length, by simp, buffer, size⟩
  · rw [read_unframed fun request length framed => complete ⟨request, length, framed⟩]
    exact ⟨[], .nil, old ++ new, rfl, pends.receive new⟩

theorem Pending.serve {chunks : List Bytes} (pends : connection.Pending old)
    (few : old.length ≤ maxBufferSize) (roomy : connection.Roomy h chunks)
    (positive : ∀ request ∈ (connection.serve h chunks).2, 0 ≤ contentSize request.header) :
    ∃ segments, List.Forall₂ CutFrom segments (connection.serve h chunks).2 ∧
      ∃ rest, old ++ chunks.flatten = segments.flatten ++ rest ∧
        (connection.serve h chunks).1.Pending rest ∧ rest.length ≤ maxBufferSize := by
  induction chunks generalizing connection old with
  | nil => exact ⟨[], .nil, old, by simp, pends, few⟩
  | cons bytes chunks ih =>
    have room : (old ++ bytes).length ≤ maxBufferSize := by
      have := roomy [] bytes ⟨chunks, rfl⟩
      simpa [HttpConnection.serve, pends.size] using this
    have parts : ∀ request, request ∈ (connection.read h bytes).2 ∨
        request ∈ ((connection.read h bytes).1.serve h chunks).2 →
          0 ≤ contentSize request.header := fun request handed =>
      positive request (List.mem_append.mpr (handed.imp_left Option.mem_toList.mpr))
    obtain ⟨first, cuts, rest, whole, pends₁⟩ :=
      pends.read (h := h) room fun request handed => parts request (.inl handed)
    have short : rest.length ≤ maxBufferSize := by
      have := congrArg List.length whole
      rw [@List.length_append _ first.flatten] at this
      omega
    have roomy₁ : (connection.read h bytes).1.Roomy h chunks := fun past later listed => by
      obtain ⟨tail, rfl⟩ := listed
      exact roomy (bytes :: past) later ⟨tail, rfl⟩
    obtain ⟨segments, cuts', rest', whole', pends', few'⟩ :=
      ih pends₁ short roomy₁ fun request handed => parts request (.inr handed)
    refine ⟨first ++ segments, List.rel_append cuts cuts', rest', ?_, pends', few'⟩
    rw [List.flatten_cons, ← List.append_assoc, whole, List.append_assoc, whole']
    simp

end HttpConnection

section Runs
variable {Iks : Type} [Iksemel Iks] {c : Configuration Iks}

/-- Unless one of its requests has had a negative Content-Length, the requests of a connection have
been cut out of what it has received without a gap, and what its buffer counts as received is the
rest: no byte is lost or used twice, and none is beyond the buffer. -/
theorem requests_cut (run : Reachable c) (h : ConnectionId)
    (positive : ∀ request ∈ handedOn h c.server.history, 0 ≤ contentSize request.header) :
    ∃ segments rest, List.Forall₂ CutFrom segments (handedOn h c.server.history) ∧
      (receivedOn h c.server.history).flatten = segments.flatten ++ rest ∧
      ∀ connection, c.server.connections h = some connection → connection.unconsumed = rest ∧
        connection.bufferSize = rest.length ∧ rest.length ≤ maxBufferSize := by
  have start : empty.Pending [] := ⟨⟨[], rfl⟩, rfl⟩
  obtain ⟨segments, cuts, rest, whole, pends, few⟩ := start.serve (Nat.zero_le _) (run.fits h)
    fun request handed => positive request (handed_of_reaches run h ▸ handed)
  rw [handed_of_reaches run h] at cuts
  refine ⟨segments, rest, cuts, whole, fun connection here => ?_⟩
  rw [serve_of_reaches run here] at pends
  have bare : connection.Pending rest := ⟨pends.buffer, pends.size⟩
  exact ⟨bare.unconsumed, bare.size, few⟩

end Runs

/-- Two requests with bodies arrive at once, and then one byte more. -/
theorem requests_cut_bodies : ∃ c : Configuration Sample, Reachable c ∧
    (handedOn 1 c.server.history).map HttpRequest.body = [ascii "bare", ascii "message"] ∧
    ∃ segments, List.Forall₂ CutFrom segments (handedOn 1 c.server.history) ∧
      segments.flatten = Sample.post "bare" ++ Sample.post "message" := by
  obtain ⟨c, run, bodies, positive, all, left⟩ : ∃ c : Configuration Sample, Reachable c ∧
      (handedOn 1 c.server.history).map HttpRequest.body = [ascii "bare", ascii "message"] ∧
      (∀ request ∈ handedOn 1 c.server.history, 0 ≤ contentSize request.header) ∧
      (receivedOn 1 c.server.history).flatten =
        Sample.post "bare" ++ Sample.post "message" ++ ascii "G" ∧
      (c.server.connections 1).map unconsumed = some (ascii "G") :=
    Sample.exists_reached (show (replay _ Sample.boot (Sample.accept 4 1 ++
      Sample.arrive 4 (Sample.post "bare" ++ Sample.post "message") ++
      Sample.arrive 4 (ascii "G"))).any _ by decide +kernel)
  obtain ⟨segments, rest, cuts, whole, still⟩ := requests_cut run 1 positive
  obtain ⟨connection, here, left⟩ := Option.map_eq_some_iff.mp left
  have rest_eq := (still connection here).1.symm.trans left
  rw [all, rest_eq] at whole
  exact ⟨c, run, bodies, segments, cuts, (List.append_cancel_right whole).symm⟩

end Bosh
