import Bosh.Http.Framing

/-! What a series of reads makes of a stream of requests, however it is cut into chunks. -/
namespace Bosh
open Text

namespace RequestText

def stream (rs : List RequestText) : Bytes := rs.flatMap text

@[simp] theorem stream_nil : stream [] = [] := rfl

@[simp] theorem stream_cons (r : RequestText) (rs : List RequestText) :
    stream (r :: rs) = r.text ++ stream rs := by
  simp [stream]

/-- How many of the requests lie whole in the first `size` bytes of their stream. -/
def whole : List RequestText → Nat → Nat
  | [], _ => 0
  | r :: rs, size => if r.text.length ≤ size then whole rs (size - r.text.length) + 1 else 0

theorem whole_drop (rs : List RequestText) (size : Nat) : ∀ k ≤ rs.length,
    whole rs ((stream (rs.take k)).length + size) = k + whole (rs.drop k) size := by
  induction rs with
  | nil => simp
  | cons r rs ih =>
    intro k few
    cases k with
    | zero => simp
    | succ k =>
      have rest := ih k (by simpa using few)
      have size' : (stream ((r :: rs).take (k + 1))).length + size - r.text.length =
          (stream (rs.take k)).length + size := by
        simp
        omega
      rw [whole, size', rest, if_pos (by simp; omega), List.drop_succ_cons]
      omega

theorem whole_le (rs : List RequestText) (size : Nat) : whole rs size ≤ rs.length := by
  induction rs generalizing size with
  | nil => exact le_rfl
  | cons r rs ih =>
    rw [whole]
    split
    · exact Nat.succ_le_succ (ih _)
    · exact Nat.zero_le _

theorem head_length (r : RequestText) : 4 ≤ r.head.length := by
  simp only [head, List.length_append, httpLineSep_eq, List.length_cons, List.length_nil]
  omega

theorem text_length (r : RequestText) : 4 ≤ r.text.length := by
  have := r.head_length
  simp only [text, List.length_append]
  omega

def followed (r : RequestText) (after : Bytes) : RequestText := { r with body := r.body ++ after }

theorem followed_text (r : RequestText) (after : Bytes) :
    (r.followed after).text = r.text ++ after :=
  (List.append_assoc _ _ _).symm

theorem followed_headed {r : RequestText} (headed : r.Headed) (after : Bytes) :
    (r.followed after).Headed where
  type := headed.type
  path := headed.path
  version := headed.version
  fields := headed.fields
  some_fields := headed.some_fields
  few_fields := headed.few_fields

end RequestText

structure HttpRequest.Carries (h : ConnectionId) (request : HttpRequest) (r : RequestText) :
    Prop where
  connection : request.connection = h
  header : request.header = r.header
  dataSize : request.dataSize = r.body.length
  body : request.body = r.body

namespace HttpConnection
open RequestText

def bare (connection : HttpConnection) : HttpConnection :=
  { connection with sock := 0, it := 0, closeCallback := none }

def read (h : ConnectionId) (bytes : Bytes) (connection : HttpConnection) :
    HttpConnection × Option HttpRequest :=
  match (connection.receive bytes).frame h with
  | .ok (.complete request length) => ((connection.receive bytes).consume length, some request)
  | .ok .tooBig | .ok .incomplete | .error _ => (connection.receive bytes, none)

theorem read_framed {h : ConnectionId} {bytes : Bytes} {connection : HttpConnection}
    {request : HttpRequest} {length : Nat}
    (framed : (connection.receive bytes).frame h = .ok (.complete request length)) :
    connection.read h bytes = ((connection.receive bytes).consume length, some request) := by
  rw [read, framed]

theorem read_unframed {h : ConnectionId} {bytes : Bytes} {connection : HttpConnection}
    (unframed : ∀ request length, (connection.receive bytes).frame h ≠ .ok (.complete request length)) :
    connection.read h bytes = (connection.receive bytes, none) := by
  unfold read
  split
  · rename_i framed
    exact absurd framed (unframed _ _)
  · rfl
  · rfl
  · rfl

def serve (h : ConnectionId) : List Bytes → HttpConnection → HttpConnection × List HttpRequest
  | [], connection => (connection, [])
  | bytes :: chunks, connection =>
    let (next, handed) := connection.read h bytes
    let (last, requests) := serve h chunks next
    (last, handed.toList ++ requests)

/-- Between two reads: these bytes have not been used up, and the rest of the stream starts
with them. -/
structure Stands (connection : HttpConnection) (rest : List RequestText) (bytes : Bytes) :
    Prop where
  buffer : ∃ stale, connection.buffer = bytes ++ stale
  size : connection.bufferSize = bytes.length
  coming : bytes <+: stream rest
  header : ∀ header, connection.header = some header →
    ∃ r later, rest = r :: later ∧ header = r.header ∧ r.head <+: bytes

variable {connection : HttpConnection} {rest : List RequestText} {old new bytes : Bytes}
  {h : ConnectionId} {r : RequestText} {later : List RequestText}

theorem stands_empty (rs : List RequestText) : empty.Stands rs [] where
  buffer := ⟨[], rfl⟩
  size := rfl
  coming := List.nil_prefix
  header _ parsed := by cases parsed

theorem Stands.unconsumed (stands : connection.Stands rest bytes) :
    connection.unconsumed = bytes := by
  obtain ⟨stale, buffer⟩ := stands.buffer
  rw [HttpConnection.unconsumed, buffer, stands.size, List.take_left]

theorem writeAt_append (old stale new : Bytes) :
    writeAt (old ++ stale) old.length new = old ++ new ++ stale.drop new.length := by
  rw [writeAt, List.take_left, List.drop_append]
  simp

theorem receive_buffer (buffer : ∃ stale, connection.buffer = old ++ stale)
    (size : connection.bufferSize = old.length) (new : Bytes) :
    ∃ stale, (connection.receive new).buffer = (old ++ new) ++ 0 :: stale := by
  obtain ⟨stale, buffer⟩ := buffer
  refine ⟨(stale.drop new.length).drop 1, ?_⟩
  have both : old.length + new.length = (old ++ new).length := by simp
  unfold receive
  dsimp only
  rw [buffer, size, writeAt_append, both, writeAt_append]
  simp

theorem head_or_part (coming : bytes <+: stream (r :: later)) :
    r.head <+: bytes ∨ bytes <+: r.head ∧ bytes.length < r.head.length := by
  have head : r.head <+: stream (r :: later) := by
    rw [stream_cons, text, List.append_assoc]
    exact List.prefix_append _ _
  rcases List.prefix_or_prefix_of_prefix head coming with whole | part
  · exact .inl whole
  · by_cases shorter : bytes.length < r.head.length
    · exact .inr ⟨part, shorter⟩
    · have same := part.eq_of_length (le_antisymm part.length_le (not_lt.mp shorter))
      exact .inl (same ▸ List.prefix_rfl)

theorem Stands.parsed (stands : connection.Stands rest old) (valid : ∀ r ∈ rest, r.Headed)
    (coming : old ++ new <+: stream rest) :
    ((connection.receive new).header = none ∧
        ∀ r later, rest = r :: later → (old ++ new).length < r.head.length) ∨
      ∃ r later, rest = r :: later ∧ r.head <+: old ++ new ∧
        (connection.receive new).header = some r.header := by
  cases cached : connection.header with
  | some header =>
    obtain ⟨r, later, same, rfl, head⟩ := stands.header header cached
    refine .inr ⟨r, later, same, head.trans (List.prefix_append _ _), ?_⟩
    simp [receive, cached]
  | none =>
    obtain ⟨stale, buffer⟩ := receive_buffer stands.buffer stands.size new
    have parses : (connection.receive new).header =
      httpParse (cstr ((old ++ new) ++ 0 :: stale)) := by
      rw [← buffer]
      simp [receive, cached]
    rw [parses]
    cases rest with
    | nil =>
      rw [List.prefix_nil.mp coming]
      exact .inl ⟨by simp [cstr, httpParse, find, httpLineSep_eq],
        fun r later same => by cases same⟩
    | cons r later =>
      have valid := valid r (by simp)
      rcases head_or_part coming with head | ⟨part, shorter⟩
      · refine .inr ⟨r, later, rfl, head, ?_⟩
        obtain ⟨tail, same⟩ := head
        rw [← same, List.append_assoc]
        exact httpParse_buffered valid _
      · have clean : 0 ∉ old ++ new := fun member => nul_notMem_head valid (part.subset member)
        refine .inl ⟨?_, fun r' later' same => ?_⟩
        · rw [cstr_terminated, cstr_eq_self clean]
          exact httpParse_short valid part shorter
        · cases same
          exact shorter

/-- What `hc_process` finds once the head is there: the request as soon as its bytes are. -/
theorem frame_eq (valid : r.WellFormed) (parsed : connection.header = some r.header)
    (buffer : ∃ stale, connection.buffer = bytes ++ stale)
    (size : connection.bufferSize = bytes.length) (head : r.head <+: bytes) :
    connection.frame h = if r.text.length ≤ bytes.length then
        .ok (.complete
          { connection := h, header := r.header, data := connection.buffer.drop r.head.length,
            dataSize := r.body.length } r.text.length)
      else .ok .incomplete := by
  obtain ⟨stale, buffer⟩ := buffer
  obtain ⟨tail, rfl⟩ := head
  have ends : find (httpLineSep ++ httpLineSep) (cstr connection.buffer) =
    some (r.head.length - 4) := by
    rw [buffer, List.append_assoc, cstr_append (nul_notMem_head valid.toHeaded)]
    exact find_blank_head valid.toHeaded
  have long := r.head_length
  have blank : r.head.length - 4 + 4 = r.head.length := by omega
  have whole : (r.head.length : Int) + r.body.length = r.text.length := by simp [text]
  have fits := valid.fits
  simp only [frame, parsed, ends, blank, contentSize_header valid, size]
  rw [Int.add_comm, whole, toInt32_of_lt (by omega) (by simp only [maxBufferSize] at fits; omega),
    toSize_of_nonneg (by omega) (by simp only [maxBufferSize] at fits; omega),
    toSize_of_nonneg (by omega) (by simp only [maxBufferSize] at fits; omega), if_neg (by omega)]
  simp only [Int.toNat_natCast, ge_iff_le]

theorem stream_drop (coming : bytes <+: stream (r :: later)) :
    bytes.drop r.text.length <+: stream later := by
  have := coming.drop r.text.length
  rwa [stream_cons, List.drop_left] at this

theorem text_starts (coming : bytes <+: stream (r :: later))
    (complete : r.text.length ≤ bytes.length) : r.text <+: bytes := by
  rw [stream_cons] at coming
  exact List.prefix_of_prefix_length_le (List.prefix_append _ _) coming complete

theorem Stands.received (stands : connection.Stands rest old) (headed : ∀ r ∈ rest, r.Headed)
    (coming : old ++ new <+: stream rest) : (connection.receive new).Stands rest (old ++ new) := by
  obtain ⟨stale, buffer⟩ := receive_buffer stands.buffer stands.size new
  refine ⟨⟨_, buffer⟩, by simp [receive, stands.size], coming, fun header there => ?_⟩
  rcases stands.parsed headed coming with ⟨missing, -⟩ | ⟨r, later, rfl, head, parsed⟩
  · rw [missing] at there
    cases there
  · exact ⟨r, later, rfl, Option.some.inj (there.symm.trans parsed), head⟩

/-- One read: the next request is handed over if it is whole, and it alone. -/
theorem Stands.read (stands : connection.Stands rest old) (headed : ∀ r ∈ rest, r.Headed)
    (valid : ∀ r ∈ rest.head?, r.WellFormed) (coming : old ++ new <+: stream rest) :
    ((connection.read h new).2 = none ∧ (connection.read h new).1.Stands rest (old ++ new) ∧
        whole rest (old ++ new).length = 0) ∨
      ∃ r later request, rest = r :: later ∧ (connection.read h new).2 = some request ∧
        request.Carries h r ∧ r.text.length ≤ (old ++ new).length ∧
        (connection.read h new).1.Stands later ((old ++ new).drop r.text.length) := by
  have received := stands.received headed coming
  obtain ⟨stale, buffer⟩ := received.buffer
  rcases stands.parsed headed coming with ⟨missing, part⟩ | ⟨r, later, rfl, head, parsed⟩
  · rw [read_unframed fun request length => by simp [frame, missing]]
    refine .inl ⟨rfl, received, ?_⟩
    cases rest with
    | nil => rfl
    | cons r later =>
      have shorter := part r later rfl
      rw [whole, if_neg]
      simp only [text, List.length_append] at shorter ⊢
      omega
  · have framed := frame_eq (h := h) (valid r rfl) parsed received.buffer received.size head
    by_cases complete : r.text.length ≤ (old ++ new).length
    · rw [if_pos complete] at framed
      rw [read_framed framed]
      obtain ⟨left, left_size, left_header⟩ := consume_eq received.buffer received.size complete
      refine .inr ⟨r, later, _, rfl, rfl, ⟨rfl, rfl, rfl, ?_⟩, complete, ?_⟩
      · obtain ⟨tail, same⟩ := text_starts coming complete
        rw [HttpRequest.body, buffer, ← same, text]
        simp
      · refine ⟨left, left_size, stream_drop coming, fun header there => ?_⟩
        rw [left_header] at there
        cases there
    · rw [if_neg complete] at framed
      rw [read_unframed fun request length => by simp [framed]]
      exact .inl ⟨rfl, received, by rw [whole, if_neg complete]⟩

theorem Stands.framed (stands : connection.Stands rest old) (valid : ∀ r ∈ rest, r.WellFormed)
    (coming : old ++ new <+: stream rest) (there : (connection.receive new).header.isSome) :
    ∃ framed, (connection.receive new).frame h = .ok framed := by
  rcases stands.parsed (fun r listed => (valid r listed).toHeaded) coming with ⟨missing, -⟩ | ⟨r, later, rfl, head, parsed⟩
  · rw [missing] at there
    cases there
  · obtain ⟨stale, buffer⟩ := receive_buffer stands.buffer stands.size new
    have size : (connection.receive new).bufferSize = (old ++ new).length := by
      simp [receive, stands.size]
    rw [frame_eq (valid r (by simp)) parsed ⟨_, buffer⟩ size head]
    split
    · exact ⟨_, rfl⟩
    · exact ⟨_, rfl⟩

theorem serve_cons (chunk : Bytes) (chunks : List Bytes) : connection.serve h (chunk :: chunks) =
    (((connection.read h chunk).1.serve h chunks).1,
      (connection.read h chunk).2.toList ++ ((connection.read h chunk).1.serve h chunks).2) := rfl

theorem serve_append (past : List Bytes) (chunk : Bytes) : connection.serve h (past ++ [chunk]) =
    (((connection.serve h past).1.read h chunk).1,
      (connection.serve h past).2 ++ ((connection.serve h past).1.read h chunk).2.toList) := by
  induction past generalizing connection with
  | nil => simp [serve_cons, serve]
  | cons bytes past ih => rw [List.cons_append, serve_cons, ih, serve_cons, List.append_assoc]

/-- However the stream is cut: the first requests have been handed over, each with its own parts,
and the bytes behind them wait. -/
theorem Stands.serve (stands : connection.Stands rest old) (valid : ∀ r ∈ rest, r.WellFormed)
    (chunks : List Bytes) (coming : old ++ chunks.flatten <+: stream rest) :
    ∃ k ≤ rest.length, ∃ waiting, stream (rest.take k) ++ waiting = old ++ chunks.flatten ∧
      List.Forall₂ (HttpRequest.Carries h) (connection.serve h chunks).2 (rest.take k) ∧
      (connection.serve h chunks).1.Stands (rest.drop k) waiting := by
  induction chunks generalizing connection rest old with
  | nil => exact ⟨0, Nat.zero_le _, old, by simp, .nil, stands⟩
  | cons chunk chunks ih =>
    have first : old ++ chunk <+: stream rest :=
      List.IsPrefix.trans ⟨chunks.flatten, by simp⟩ coming
    rw [serve_cons]
    rcases stands.read (h := h) (fun r listed => (valid r listed).toHeaded)
        (fun r first => valid r (List.mem_of_mem_head? first)) first with
      ⟨nothing, next, -⟩ | ⟨r, later, request, rfl, handed, carries, complete, next⟩
    · obtain ⟨k, few, waiting, bytes, requests, last⟩ := ih next valid (by simpa using coming)
      rw [nothing]
      exact ⟨k, few, waiting, by simpa using bytes, requests, last⟩
    · obtain ⟨tail, split⟩ := text_starts first complete
      have behind : (old ++ chunk).drop r.text.length = tail := by rw [← split, List.drop_left]
      rw [behind] at next
      have whole : old ++ (chunk :: chunks).flatten = r.text ++ (tail ++ chunks.flatten) := by
        rw [List.flatten_cons, ← List.append_assoc, ← split, List.append_assoc]
      have onward : tail ++ chunks.flatten <+: stream later := by
        rw [whole, stream_cons] at coming
        exact (List.prefix_append_right_inj _).mp coming
      obtain ⟨k, few, waiting, bytes, requests, last⟩ :=
        ih next (fun r listed => valid r (by simp [listed])) onward
      rw [handed]
      refine ⟨k + 1, by simpa using few, waiting, ?_, .cons carries requests, last⟩
      rw [whole, ← bytes]
      simp

/-- What follows the last request of a stream may be anything: until the last one is handed over,
the reads find their way in the others. -/
theorem serve_before {rs : List RequestText} {chunks : List Bytes} (valid : ∀ r ∈ rs, r.WellFormed)
    (headed : r.Headed) (sent : chunks.flatten <+: stream (rs ++ [r]))
    (few : (empty.serve h chunks).2.length ≤ rs.length) :
    ∃ waiting, stream (rs.take (empty.serve h chunks).2.length) ++ waiting = chunks.flatten ∧
      (empty.serve h chunks).1.Stands (rs.drop (empty.serve h chunks).2.length ++ [r]) waiting := by
  induction chunks using List.reverseRecOn with
  | nil => exact ⟨[], rfl, stands_empty _⟩
  | append_singleton past chunk ih =>
    have flat : (past ++ [chunk]).flatten = past.flatten ++ chunk := by simp
    rw [flat] at sent ⊢
    rw [serve_append] at few ⊢
    simp only [List.length_append] at few
    obtain ⟨waiting, split, stands⟩ := ih ((List.prefix_append _ _).trans sent) (by omega)
    generalize empty.serve h past = served at few split stands ⊢
    have all : ∀ x ∈ rs.drop served.2.length ++ [r], x.Headed := fun x listed => by
      rcases List.mem_append.mp listed with other | last
      · exact (valid x (List.mem_of_mem_drop other)).toHeaded
      · rwa [List.mem_singleton.mp last]
    have coming : waiting ++ chunk <+: stream (rs.drop served.2.length ++ [r]) := by
      have both : stream (rs ++ [r]) = stream (rs.take served.2.length) ++
          stream (rs.drop served.2.length ++ [r]) := by
        rw [stream, stream, stream, ← List.flatMap_append, ← List.append_assoc,
          List.take_append_drop]
      rw [← split, both, List.append_assoc] at sent
      exact (List.prefix_append_right_inj _).mp sent
    cases handed : (served.1.read h chunk).2 with
    | none =>
      refine ⟨waiting ++ chunk, by rw [← List.append_assoc]; simp [split], ?_⟩
      have unframed : served.1.read h chunk = (served.1.receive chunk, none) :=
        read_unframed fun request length framed => by
          rw [read_framed framed] at handed
          cases handed
      rw [unframed]
      simpa using stands.received all coming
    | some request =>
      replace few : served.2.length + 1 ≤ rs.length := by simpa [handed] using few
      have next := List.drop_eq_getElem_cons few
      have first : ∀ x ∈ (rs.drop served.2.length ++ [r]).head?, x.WellFormed := fun x same => by
        rw [next] at same
        cases same
        exact valid _ (List.getElem_mem few)
      rcases stands.read (h := h) all first coming with ⟨nothing, -⟩ | ⟨x, later, _, rest, -, -, complete, stands'⟩
      · rw [handed] at nothing
        cases nothing
      · rw [next, List.cons_append, List.cons_eq_cons] at rest
        obtain ⟨rfl, rfl⟩ := rest
        have start : rs[served.2.length].text <+: waiting ++ chunk := by
          rw [next, List.cons_append] at coming
          exact text_starts coming complete
        have more : (served.2 ++ (some request).toList).length = served.2.length + 1 := by simp
        refine ⟨(waiting ++ chunk).drop rs[served.2.length].text.length, ?_, by rwa [more]⟩
        obtain ⟨tail, same⟩ := start
        rw [more, List.take_succ_eq_append_getElem few, ← same, List.drop_left, stream,
          List.flatMap_append]
        simp only [List.flatMap_singleton, List.append_assoc, same]
        rw [← List.append_assoc, ← split, stream]

theorem Stands.completes {after : Bytes} (stands : connection.Stands [r.followed after] old)
    (valid : r.WellFormed) (all : old ++ new = r.text ++ after) :
    (connection.receive new).header = some r.header ∧
      ∃ stale, (connection.receive new).frame h = .ok (.complete
        { connection := h, header := r.header, data := r.body ++ after ++ 0 :: stale,
          dataSize := r.body.length } r.text.length) := by
  have headed : ∀ x ∈ [r.followed after], x.Headed :=
    List.forall_mem_singleton.mpr (followed_headed valid.toHeaded after)
  have coming : old ++ new <+: stream [r.followed after] := by
    rw [stream_cons, stream_nil, List.append_nil, followed_text, all]
  obtain ⟨stale, buffer⟩ := receive_buffer stands.buffer stands.size new
  have size : (connection.receive new).bufferSize = (old ++ new).length :=
    (stands.received headed coming).size
  rcases stands.parsed headed coming with ⟨-, part⟩ | ⟨x, later, same, head, parsed⟩
  · have shorter := part _ _ rfl
    have long : (r.followed after).head.length = r.head.length := rfl
    rw [all, long] at shorter
    simp only [text, List.length_append] at shorter
    omega
  · cases same
    refine ⟨parsed, stale, ?_⟩
    have rest : (connection.receive new).buffer.drop r.head.length =
      r.body ++ after ++ 0 :: stale := by
      rw [buffer, all, text]
      simp
    rw [frame_eq valid parsed ⟨_, buffer⟩ size head, if_pos (by simp [all]), rest]

theorem Stands.followed {after : Bytes} (stands : connection.Stands [r.followed after] old)
    (part : old <+: r.text) (other : Bytes) : connection.Stands [r.followed other] old where
  buffer := stands.buffer
  size := stands.size
  coming := by
    rw [stream_cons, stream_nil, List.append_nil, followed_text]
    exact part.trans (List.prefix_append _ _)
  header header parsed := by
    obtain ⟨x, later, same, rfl, head⟩ := stands.header header parsed
    cases same
    exact ⟨_, [], rfl, rfl, head⟩

variable {rs : List RequestText} {chunks : List Bytes}

theorem serve_stands (valid : ∀ r ∈ rs, r.WellFormed) (sent : chunks.flatten <+: stream rs)
    {served : HttpConnection × List HttpRequest} (ran : empty.serve h chunks = served) :
    served.2.length ≤ rs.length ∧
      List.Forall₂ (HttpRequest.Carries h) served.2 (rs.take served.2.length) ∧
      stream (rs.take served.2.length) ++ served.1.unconsumed = chunks.flatten ∧
      served.1.Stands (rs.drop served.2.length) served.1.unconsumed := by
  obtain ⟨k, few, waiting, bytes, requests, stands⟩ :=
    (stands_empty rs).serve (h := h) valid chunks sent
  rw [ran] at requests stands
  have count : served.2.length = k := by
    rw [requests.length_eq, List.length_take_of_le few]
  rw [count, stands.unconsumed]
  exact ⟨few, requests, bytes, stands⟩

theorem whole_split {k : Nat} {waiting : Bytes} (few : k ≤ rs.length)
    (split : stream (rs.take k) ++ waiting = bytes) :
    whole rs bytes.length = k + whole (rs.drop k) waiting.length := by
  rw [← split, List.length_append, whole_drop rs _ k few]

theorem coming_behind {k : Nat} {waiting : Bytes} (split : stream (rs.take k) ++ waiting = bytes)
    (coming : bytes <+: stream rs) : waiting <+: stream (rs.drop k) := by
  have both : stream rs = stream (rs.take k) ++ stream (rs.drop k) := by
    rw [stream, stream, stream, ← List.flatMap_append, List.take_append_drop]
  rw [← split, both] at coming
  exact (List.prefix_append_right_inj _).mp coming

theorem serve_next (valid : ∀ r ∈ rs, r.WellFormed) {past : List Bytes} {chunk : Bytes}
    (sent : (past ++ [chunk]).flatten <+: stream rs) :
    (empty.serve h (past ++ [chunk])).2.length =
      min ((empty.serve h past).2.length + 1) (whole rs (past ++ [chunk]).flatten.length) := by
  have flat : (past ++ [chunk]).flatten = past.flatten ++ chunk := by simp
  have before : past.flatten <+: stream rs := List.IsPrefix.trans ⟨chunk, flat.symm⟩ sent
  rw [serve_append]
  generalize ran : empty.serve h past = served
  obtain ⟨few, -, split, stands⟩ := serve_stands (h := h) valid before ran
  have split' : stream (rs.take served.2.length) ++ (served.1.unconsumed ++ chunk) =
      (past ++ [chunk]).flatten := by
    rw [flat, ← split, List.append_assoc]
  have later : ∀ r ∈ rs.drop served.2.length, r.WellFormed := fun r listed =>
    valid r (List.mem_of_mem_drop listed)
  rw [whole_split few split']
  rcases stands.read (h := h) (fun r listed => (later r listed).toHeaded)
      (fun r first => later r (List.mem_of_mem_head? first)) (coming_behind split' sent) with
    ⟨nothing, -, none⟩ | ⟨r, rest, request, more, handed, -, complete, -⟩
  · rw [nothing, none]
    simp
  · rw [handed, more, whole, if_pos complete]
    simp only [Option.toList_some, List.length_append, List.length_singleton]
    omega

/-- The texts of two requests do not begin one another: the next one lies whole in what waits. -/
theorem next_whole {other : RequestText} (valid : r.WellFormed) (here : r.text <+: bytes)
    (valid' : other.WellFormed) (coming : bytes <+: stream (other :: later)) :
    other.text.length ≤ bytes.length := by
  have head : r.head <+: bytes := (List.prefix_append _ _).trans here
  obtain ⟨tail, same⟩ := head
  have parsed : httpParse bytes = some r.header := same ▸ httpParse_head valid.toHeaded
  rcases head_or_part coming with ⟨tail', same'⟩ | ⟨part, shorter⟩
  · have headers : r.header = other.header := by
      have parsed' : httpParse bytes = some other.header := same' ▸ httpParse_head valid'.toHeaded
      exact Option.some.inj (parsed.symm.trans parsed')
    have bodies : r.body.length = other.body.length := by
      have size := contentSize_header valid
      rw [headers, contentSize_header valid'] at size
      omega
    have heads : r.head.length = other.head.length := by
      have ends : find (httpLineSep ++ httpLineSep) (r.head ++ tail) = _ :=
        find_blank_head valid.toHeaded
      have ends' : find (httpLineSep ++ httpLineSep) (other.head ++ tail') = _ :=
        find_blank_head valid'.toHeaded
      rw [same] at ends
      rw [same', ends, Option.some.injEq] at ends'
      have := r.head_length
      have := other.head_length
      omega
    have := here.length_le
    simp only [text, List.length_append] at this ⊢
    omega
  · rw [httpParse_short valid'.toHeaded part shorter] at parsed
    cases parsed

theorem waiting_iff (valid : ∀ r ∈ rs, r.WellFormed) (sent : chunks.flatten <+: stream rs)
    {served : HttpConnection × List HttpRequest} (ran : empty.serve h chunks = served) :
    (∀ r : RequestText, r.WellFormed → ¬ r.text <+: served.1.unconsumed) ↔
      served.2.length = whole rs chunks.flatten.length := by
  obtain ⟨few, -, split, stands⟩ := serve_stands (h := h) valid sent ran
  rw [whole_split few split]
  cases rest : rs.drop served.2.length with
  | nil =>
    have nothing : served.1.unconsumed = [] := by
      have coming := stands.coming
      rw [rest] at coming
      exact List.prefix_nil.mp coming
    refine iff_of_true (fun r _ here => ?_) (by simp [whole])
    rw [nothing, List.prefix_nil] at here
    have long := r.text_length
    rw [here] at long
    cases long
  | cons other later =>
    have valid' := valid other (List.mem_of_mem_drop (rest ▸ List.mem_cons_self))
    have coming : served.1.unconsumed <+: stream (other :: later) := rest ▸ stands.coming
    rw [whole]
    split
    · rename_i complete
      exact iff_of_false (fun nothing => nothing other valid' (text_starts coming complete)) (by omega)
    · rename_i part
      exact iff_of_true (fun r wellFormed here => part (next_whole wellFormed here valid' coming)) rfl

/-- Every request that has been received whole has been handed over, and nothing complete waits. -/
def Prompt (rs : List RequestText) (received : Bytes) (connection : HttpConnection)
    (handed : List HttpRequest) : Prop :=
  (∀ r : RequestText, r.WellFormed → ¬ r.text <+: connection.unconsumed) ∧
    handed.length = whole rs received.length

/-- No chunk brings the ends of two requests. -/
def Single (rs : List RequestText) (chunks : List Bytes) : Prop :=
  ∀ past chunk, past ++ [chunk] <+: chunks →
    whole rs (past ++ [chunk]).flatten.length ≤ whole rs past.flatten.length + 1

theorem prompt_iff (valid : ∀ r ∈ rs, r.WellFormed) (sent : chunks.flatten <+: stream rs) :
    Prompt rs chunks.flatten (empty.serve h chunks).1 (empty.serve h chunks).2 ↔
      (empty.serve h chunks).2.length = whole rs chunks.flatten.length :=
  ⟨And.right, fun all => ⟨(waiting_iff valid sent rfl).mpr all, all⟩⟩

/-- After every read all that is whole has been handed over if and only if no chunk brings the
ends of two requests. -/
theorem serve_prompt_iff (valid : ∀ r ∈ rs, r.WellFormed) (sent : chunks.flatten <+: stream rs) :
    (∀ past, past <+: chunks →
      Prompt rs past.flatten (empty.serve h past).1 (empty.serve h past).2) ↔ Single rs chunks := by
  have sent_of : ∀ {past : List Bytes}, past <+: chunks → past.flatten <+: stream rs := by
    rintro past ⟨rest, rfl⟩
    exact List.IsPrefix.trans ⟨rest.flatten, by simp⟩ sent
  have start : ∀ {past : List Bytes} {chunk}, past ++ [chunk] <+: chunks → past <+: chunks :=
    fun listed => (List.prefix_append _ _).trans listed
  constructor
  · intro prompt past chunk listed
    have next := serve_next (h := h) valid (sent_of listed)
    rw [(prompt _ listed).2, (prompt _ (start listed)).2] at next
    omega
  · intro single past
    induction past using List.reverseRecOn with
    | nil =>
      intro listed
      rw [prompt_iff valid (sent_of listed)]
      cases rs with
      | nil => rfl
      | cons r rs =>
        have long := r.text_length
        have part : ¬ r.text.length ≤ 0 := by omega
        exact (if_neg part).symm
    | append_singleton past chunk ih =>
      intro listed
      rw [prompt_iff valid (sent_of listed)]
      have next := serve_next (h := h) valid (sent_of listed)
      rw [(ih (start listed)).2] at next
      have := single past chunk listed
      omega

end HttpConnection

end Bosh
