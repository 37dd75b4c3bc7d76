import Bosh.Bind.Rejection
import Bosh.Http.Intake
import Bosh.Server.Blind

/-! Which of the bytes received decide how a request is handled. -/
namespace Bosh
open Effect Text HttpConnection RequestText

section Decisions
variable {Iks : Type} [Iksemel Iks] {s s' : Server Iks} {request request' : HttpRequest}

/-- What handling a request comes to: all of the state beside the bytes of its connection, and the
calls recorded. -/
def decision (request : HttpRequest) (s : Server Iks) :
    Except Fault (Server Iks × List (Record Iks)) :=
  (jbHandleRequest request s).map fun result =>
    (result.2.masked request.connection,
      result.2.history.take (result.2.history.length - s.history.length))

/-- The bytes of the connection have no part in it. -/
theorem decision_masked (request : HttpRequest) (s : Server Iks) :
    decision request s = (jbHandleRequest request (s.masked request.connection)).map fun result =>
      (result.2.masked request.connection, result.2.history) := by
  have blind := jbHandleRequest_blind (x := s.hidden request.connection) request (s.masked request.connection)
  rw [reveal_masked] at blind
  rw [decision, blind]
  cases jbHandleRequest request (s.masked request.connection) with
  | error fault => rfl
  | ok result =>
    have state : ((s.hidden request.connection).reveal result.2).masked request.connection =
      result.2.masked request.connection := masked_reveal rfl result.2
    have news : (result.2.history ++ s.history).take ((result.2.history ++ s.history).length - s.history.length) =
        result.2.history := by simp
    exact congrArg Except.ok (Prod.ext state news)

theorem decision_of_ok {news : List (Record Iks)} (ran : jbHandleRequest request s = .ok ((), s'))
    (history : s'.history = news ++ s.history) :
    decision request s = .ok (s'.masked request.connection, news) := by
  rw [decision, ran]
  simp [Except.map, history]

theorem jbHandleRequest_congr (connection : request'.connection = request.connection)
    (header : request'.header = request.header)
    (parsed : request.header.type = ascii "POST" →
      (iksTree request'.data request'.dataSize : Except Fault (Option Iks)) = iksTree request.data request.dataSize) :
    (jbHandleRequest request' : ServerM Iks Unit) = jbHandleRequest request := by
  unfold jbHandleRequest
  rw [header, connection]
  by_cases post : request.header.type = ascii "POST"
  · rw [if_pos post, if_pos post]
    unfold jbHandleHttpPost
    rw [parsed post, connection]
  · rw [if_neg post, if_neg post]
    unfold jbHandleHttpGet
    rw [connection]

theorem decision_congr (connection : request'.connection = request.connection)
    (header : request'.header = request.header)
    (parsed : request.header.type = ascii "POST" →
      (iksTree request'.data request'.dataSize : Except Fault (Option Iks)) = iksTree request.data request.dataSize)
    (same : s'.masked request.connection = s.masked request.connection) :
    decision request' s' = decision request s := by
  rw [decision_masked, decision_masked, jbHandleRequest_congr connection header parsed, connection,
    same]

theorem refusal_of_decision (upright : Upright s) (upright' : Upright s')
    {connection connection' : HttpConnection}
    (found : s.connections request.connection = some connection)
    (found' : s'.connections request'.connection = some connection')
    (same : decision request' s' = decision request s) {code : BindErrorCode}
    (refused : refusal s request = some code) : refusal s' request' = some code := by
  obtain ⟨s₁, ran, rejected⟩ := jbHandleRequest_rejects upright found refused
  have reported := decision_of_ok ran (rejected.answered.trans (List.singleton_append).symm)
  rw [reported] at same
  cases refused' : refusal s' request' with
  | none =>
    have fine := jbHandleRequest_faultless upright' refused'
    cases ran' : jbHandleRequest request' s' with
    | error fault =>
      rw [decision, ran'] at same
      cases same
    | ok result =>
      obtain ⟨news, history, faultless⟩ := fine.of_ok ran'
      rw [decision_of_ok ran' history] at same
      have listed : news = [_] := congrArg Prod.snd (Except.ok.inj same)
      exact absurd rfl (faultless (.answer request.connection .request (errorResponse code)) (by simp [listed]) code)
  | some code' =>
    obtain ⟨s₁', ran', rejected'⟩ := jbHandleRequest_rejects upright' found' refused'
    rw [decision_of_ok ran' (rejected'.answered.trans (List.singleton_append).symm)] at same
    have listed := congrArg Prod.snd (Except.ok.inj same)
    simp only [List.cons.injEq, Record.answer.injEq] at listed
    rw [errorResponse_injective listed.1.2.2]

end Decisions

section Brings
variable {Iks : Type} {c : Configuration Iks} {input : Input Iks} {request : HttpRequest}
  {s : Server Iks} {h : ConnectionId} {rs : List RequestText} {r : RequestText}

def Input.bringing (bytes : Bytes) : Input Iks → Input Iks
  | .event oracle => .event { oracle with arrivals := [{ result := .data bytes }] }
  | input => input

theorem turn_bringing (c : Configuration Iks) (input : Input Iks) (bytes : Bytes) :
    c.turn (input.bringing bytes) = c.turn input := by
  obtain ⟨server, control⟩ := c
  cases input with
  | event oracle =>
    cases control with
    | dispatching events => cases events <;> rfl
    | polling | finished => rfl
  | wait | timeout | shutdown => rfl

/-- In a run, this input brings the end of the request that follows these on the connection. -/
structure Brings [Iksemel Iks] (h : ConnectionId) (rs : List RequestText) (r : RequestText)
    (c : Configuration Iks) (input : Input Iks) (request : HttpRequest) (s : Server Iks) :
    Prop where
  run : Reachable c
  brings : c.brings input = some (request, s)
  connection : request.connection = h
  coming : stream (rs ++ [r]) <+: (receivedOn h s.history).flatten
  turn : (handedOn h s.history).length = rs.length + 1

variable [Iksemel Iks]

theorem Brings.waits (valid : ∀ x ∈ rs, x.WellFormed) (wellFormed : r.WellFormed)
    (brought : Brings h rs r c input request s) :
    ∃ connection waiting bytes after length, c.server.connections h = some connection ∧
      stream rs ++ waiting = (receivedOn h c.server.history).flatten ∧
        waiting ++ bytes = r.text ++ after ∧
      connection.Stands [r.followed after] waiting ∧
      (connection.receive bytes).frame h = .ok (.complete request length) ∧
      s = (((c.server.hear input.oracle).setConnection h
        (some (connection.receive bytes))).record (.received h bytes)).record (.request h request) := by
  obtain ⟨-, connection, here, computed⟩ := brings_eq_some.mp brought.brings
  obtain ⟨connection', length, here', -, -, framed, same⟩ := handOver_eq_some.mp computed
  obtain rfl := Option.some.inj (here.symm.trans here')
  rw [brought.connection] at here framed same
  generalize received (maxBufferSize - connection.bufferSize) input.oracle.recv =
    bytes at framed same
  have serves := serve_of_reaches brought.run here
  have turn := brought.turn
  obtain ⟨after, coming⟩ := brought.coming
  subst same
  have flat : (receivedOn h c.server.history ++ [bytes]).flatten =
      (receivedOn h c.server.history).flatten ++ bytes := by simp
  simp only [Server.record, Server.setConnection, Server.hear, receivedOn, handedOn, if_true, flat,
    List.length_append, List.length_singleton, Nat.add_right_cancel_iff] at coming turn
  have whole : stream (rs ++ [r.followed after]) =
    (receivedOn h c.server.history).flatten ++ bytes := by
    rw [← coming]
    simp [stream, followed_text]
  have few : (empty.serve h (receivedOn h c.server.history)).2.length ≤ rs.length := by
    rw [serves]; exact turn.le
  obtain ⟨waiting, split, stands⟩ :=
    serve_before valid (followed_headed wellFormed.toHeaded after) ⟨bytes, whole.symm⟩ few
  rw [serves] at split stands
  simp only [turn, List.take_length, List.drop_length, List.nil_append] at split stands
  refine ⟨connection, waiting, bytes, after, length, here, split, ?_, stands_bare stands, framed,
    rfl⟩
  rw [← split, List.append_assoc, stream, List.flatMap_append] at whole
  have behind := List.append_cancel_left whole
  simpa [followed_text] using behind.symm

theorem Brings.handedOver (brought : Brings h rs r c input request s) :
    HandedOver c input.oracle request s := by
  obtain ⟨-, connection, -, computed⟩ := brings_eq_some.mp brought.brings
  exact handedOver_of computed

theorem Brings.carries (valid : ∀ x ∈ rs, x.WellFormed) (wellFormed : r.WellFormed)
    (brought : Brings h rs r c input request s) :
    request.header = r.header ∧ request.dataSize = r.body.length ∧
      ∃ after stale, request.data = r.body ++ after ++ 0 :: stale := by
  obtain ⟨connection, waiting, bytes, after, length, -, -, all, stands, framed, -⟩ :=
    brought.waits valid wellFormed
  obtain ⟨-, stale, framed'⟩ := stands.completes (h := h) wellFormed all
  cases framed.symm.trans framed'
  exact ⟨rfl, rfl, after, stale, rfl⟩

omit [Iksemel Iks] in
theorem masked_handed {connection : HttpConnection} {bytes bytes' : Bytes}
    {entries entries' : List (Record Iks)}
    (header : (connection.receive bytes').header = (connection.receive bytes).header)
    (s : Server Iks) (arrivals : List (Arrival Iks)) :
    Server.masked h { s.setConnection h (some (connection.receive bytes')) with
      oracle := { s.oracle with arrivals }, history := entries' } =
    Server.masked h { s.setConnection h (some (connection.receive bytes)) with history := entries } := by
  have connections : ∀ k,
      (Function.update s.connections h (some (connection.receive bytes')) k).map
        (Hidden.refill ({ connection := h } : Hidden Iks) k) =
      (Function.update s.connections h (some (connection.receive bytes)) k).map
        (Hidden.refill ({ connection := h } : Hidden Iks) k) := by
    intro k
    by_cases mine : k = h
    · subst mine
      simp only [Function.update_self, Option.map_some, Hidden.refill, if_true, Option.some.injEq]
      rw [header]
      rfl
    · rw [Function.update_of_ne mine, Function.update_of_ne mine]
  unfold Server.masked Hidden.reveal
  simp only [Server.setConnection, connections]

omit [Iksemel Iks] in
theorem brings_bringing (completes : c.request input = some request) {connection : HttpConnection}
    {bytes : Bytes} {request' : HttpRequest} {length : Nat}
    (here : c.server.connections request.connection = some connection) (more : bytes ≠ [])
    (fits : bytes.length ≤ maxBufferSize - connection.bufferSize)
    (framed : (connection.receive bytes).frame request.connection = .ok (.complete request' length)) :
    c.brings (input.bringing bytes) = some (request', (((c.server.hear (input.bringing bytes).oracle).setConnection
      request.connection (some (connection.receive bytes))).record (.received request.connection bytes)).record
        (.request request.connection request')) := by
  obtain ⟨turn, who, completes⟩ := Option.bind_eq_some_iff.mp completes
  cases input with
  | event oracle =>
    have all : received (maxBufferSize - connection.bufferSize) (.data bytes) = bytes :=
      List.take_of_length_le fits
    have mine : request'.connection = request.connection := frame_connection framed
    have arrives : handed request.connection (c.heard (.bringing bytes (.event oracle))) =
      some request' := by
      refine handed_eq_some.mpr ⟨connection, length, here, ?_, ?_⟩
      · exact all.symm ▸ more
      · exact all.symm ▸ framed
    have completes' : c.request (.bringing bytes (.event oracle)) = some request' :=
      Option.bind_eq_some_iff.mpr ⟨turn, (turn_bringing _ _ _).trans who,
        (requestOf_eq_some completes (c.heard (.bringing bytes (.event oracle))) rfl).trans arrives⟩
    refine brings_eq_some.mpr ⟨completes', connection, mine ▸ here, ?_⟩
    rw [mine]
    refine handOver_eq_some.mpr ⟨connection, length, here, ?_⟩
    exact all.symm ▸ ⟨more, fits, framed, rfl⟩
  | wait | timeout | shutdown => cases who

theorem Brings.other (valid : ∀ x ∈ rs, x.WellFormed) (wellFormed : r.WellFormed)
    (brought : Brings h rs r c input request s)
    (late : (receivedOn h c.server.history).flatten.length < (stream (rs ++ [r])).length)
    {after : Bytes} (room : r.text.length + after.length ≤ maxBufferSize) :
    ∃ input' request' s' stale, Brings h rs r c input' request' s' ∧ s'.masked h = s.masked h ∧
      request'.data = r.body ++ after ++ 0 :: stale := by
  obtain ⟨connection, waiting, bytes, after₀, length, here, split, all, stands, framed, same⟩ :=
    brought.waits valid wellFormed
  obtain ⟨parsed, -, -⟩ := stands.completes (h := h) wellFormed all
  have short : waiting.length < r.text.length := by
    rw [← split, List.length_append, stream, stream, List.flatMap_append,
      List.length_append] at late
    simpa using late
  obtain ⟨rest, part⟩ : waiting <+: r.text :=
    List.prefix_of_prefix_length_le ⟨bytes, all⟩ (List.prefix_append _ _) short.le
  have all' : waiting ++ (rest ++ after) = r.text ++ after := by rw [← List.append_assoc, part]
  obtain ⟨parsed', stale, framed'⟩ :=
    (stands.followed ⟨rest, part⟩ after).completes (h := h) wellFormed all'
  have more : rest ++ after ≠ [] := fun none => by
    rw [(List.append_eq_nil_iff.mp none).1, List.append_nil] at part
    exact absurd (congrArg List.length part) short.ne
  have fits : (rest ++ after).length ≤ maxBufferSize - connection.bufferSize := by
    have sizes := congrArg List.length all'
    simp only [List.length_append] at sizes
    rw [stands.size, List.length_append]
    omega
  obtain rfl := brought.connection
  have brings' := brings_bringing (brings_eq_some.mp brought.brings).1 here more fits framed'
  refine ⟨_, _, _, stale, ⟨brought.run, brings', rfl, ?_, ?_⟩, ?_, rfl⟩
  · refine ⟨after, ?_⟩
    simp [receivedOn, ← split, stream, all']
  · have turn := brought.turn
    rw [same] at turn
    simpa [handedOn] using turn
  · rw [same]
    cases input with
    | event oracle => exact masked_handed (parsed'.trans parsed.symm) (c.server.hear oracle) _
    | wait | timeout | shutdown =>
      exact masked_handed (parsed'.trans parsed.symm) (c.server.hear _) _

theorem iksTree_carried (size : request.dataSize = r.body.length) {after stale : Bytes}
    (data : request.data = r.body ++ after ++ 0 :: stale) :
    (iksTree request.data request.dataSize : Except Fault (Option Iks)) =
      .ok (Iksemel.tree (if r.body = [] then cstr after else r.body)) := by
  unfold iksTree
  rw [size, data]
  by_cases empty : r.body = []
  · rw [if_pos empty, if_pos (by simp [empty]), empty, List.nil_append, cstr_terminated]
  · rw [if_neg empty, if_neg (by simpa using empty), if_pos (by simp), List.append_assoc,
      List.take_left]

theorem Brings.decides {c' : Configuration Iks} {input' : Input Iks} {request' : HttpRequest}
    {s' : Server Iks} (valid : ∀ x ∈ rs, x.WellFormed) (wellFormed : r.WellFormed)
    (first : Brings h rs r c input request s) (second : Brings h rs r c' input' request' s')
    (same : s'.masked h = s.masked h) (own : r.type ≠ ascii "POST" ∨ r.body ≠ []) :
    decision request' s' = decision request s := by
  obtain ⟨header, size, after, stale, data⟩ := first.carries valid wellFormed
  obtain ⟨header', size', after', stale', data'⟩ := second.carries valid wellFormed
  obtain rfl := first.connection
  refine decision_congr second.connection (header'.trans header.symm) (fun post => ?_) same
  rw [header] at post
  have body := own.resolve_left (not_not.mpr post)
  rw [iksTree_carried size data, iksTree_carried size' data', if_neg body, if_neg body]

/-- What is relied on of the parser: an empty text is no document, and one that is not too long
names a session. -/
structure Telling (Iks : Type) [Iksemel Iks] (room : Nat) : Prop where
  empty : (Iksemel.tree [] : Option Iks) = none
  names : ∃ (text : Bytes) (message : Iks) (sid : CString), text.length ≤ room ∧ 0 ∉ text ∧
    Iksemel.tree text = some message ∧ Iksemel.findAttrib message "sid" = some sid ∧
    (scanInt64 sid.bytes).isSome ∧ (Iksemel.findAttrib message "rid").isSome

/-- A POST without a body is refused, or handled as the document behind it says. -/
theorem Brings.undecided (valid : ∀ x ∈ rs, x.WellFormed) (wellFormed : r.WellFormed)
    (brought : Brings h rs r c input request s)
    (late : (receivedOn h c.server.history).flatten.length < (stream (rs ++ [r])).length)
    (telling : Telling Iks (maxBufferSize - r.text.length)) (post : r.type = ascii "POST")
    (empty : r.body = [])
    (same : ∀ c' input' request' s', Brings h rs r c' input' request' s' → s'.masked h = s.masked h →
      decision request' s' = decision request s) : False := by
  obtain ⟨text, message, sid, short, clean, parses, sidAttrib, scans, ridAttrib⟩ := telling.names
  have fits := wellFormed.fits
  obtain ⟨input₀, request₀, s₀, stale₀, first, mask₀, data₀⟩ :=
    brought.other valid wellFormed late (show r.text.length + ([] : Bytes).length ≤ maxBufferSize by simp; omega)
  obtain ⟨input₁, request₁, s₁, stale₁, second, mask₁, data₁⟩ :=
    brought.other valid wellFormed late (show r.text.length + text.length ≤ maxBufferSize by omega)
  have equal := (same _ _ _ _ second mask₁).trans (same _ _ _ _ first mask₀).symm
  obtain ⟨header₀, size₀, -⟩ := first.carries valid wellFormed
  obtain ⟨header₁, size₁, -⟩ := second.carries valid wellFormed
  have tree₀ : (iksTree request₀.data request₀.dataSize : Except Fault (Option Iks)) =
    .ok none := by
    rw [iksTree_carried size₀ data₀, if_pos empty, show cstr [] = [] from rfl, telling.empty]
  have tree₁ : (iksTree request₁.data request₁.dataSize : Except Fault (Option Iks)) =
    .ok (some message) := by
    rw [iksTree_carried size₁ data₁, if_pos empty, cstr_eq_self clean, parses]
  have refused₀ : refusal s₀ request₀ = some .badFormat := by
    have post₀ : request₀.header.type = ascii "POST" := header₀ ▸ post
    simp only [refusal, postRefusal, post₀, if_true, tree₀]
  obtain ⟨connection₀, found₀⟩ := first.handedOver.connection
  obtain ⟨connection₁, found₁⟩ := second.handedOver.connection
  have refused₁ := refusal_of_decision (first.handedOver.upright first.run) (second.handedOver.upright second.run)
    found₀ found₁ equal refused₀
  have post₁ : request₁.header.type = ascii "POST" := header₁ ▸ post
  obtain ⟨value, scans⟩ := Option.isSome_iff_exists.mp scans
  obtain ⟨rid, ridAttrib⟩ := Option.isSome_iff_exists.mp ridAttrib
  simp only [refusal, postRefusal, post₁, if_true, tree₁, sidAttrib, scans, ridAttrib] at refused₁
  split at refused₁ <;> simp at refused₁

/-- Two runs that agree up to the end of a request, and in all else, handle it alike if and only if
it is no POST or has a body. Without a body, `iks_tree` is told to look for the end itself. -/
theorem own_bytes_iff (valid : ∀ x ∈ rs, x.WellFormed) (wellFormed : r.WellFormed)
    (brought : Brings h rs r c input request s)
    (late : (receivedOn h c.server.history).flatten.length < (stream (rs ++ [r])).length)
    (telling : Telling Iks (maxBufferSize - r.text.length)) :
    (∀ c' input' request' s', Brings h rs r c' input' request' s' → s'.masked h = s.masked h →
      decision request' s' = decision request s) ↔ r.type ≠ ascii "POST" ∨ r.body ≠ [] := by
  constructor
  · intro same
    by_contra bare
    rw [not_or, not_not, not_not] at bare
    exact brought.undecided valid wellFormed late telling bare.1 bare.2 same
  · exact fun own c' input' request' s' second same =>
      brought.decides valid wellFormed second same own

end Brings

namespace Sample

def posting (body : String) : RequestText where
  type := ascii "POST"
  path := ascii "/"
  version := ascii "HTTP/1.1"
  fields := [⟨ascii "Content-Length", 32 :: decimal body.length⟩]
  body := ascii body

theorem posting_wellFormed {body : String}
    (sized : declared (posting body).fields = (ascii body).length)
    (field : ∀ b ∈ 32 :: decimal body.length, b ≠ 13 ∧ b ≠ 10 ∧ b ≠ 0)
    (fits : (posting body).text.length < maxBufferSize) : (posting body).WellFormed where
  type := (by decide +kernel : Token (ascii "POST"))
  path := (by decide +kernel : Token (ascii "/"))
  version := (by decide +kernel : Token (ascii "HTTP/1.1"))
  fields := List.forall_mem_singleton.mpr ⟨(by decide +kernel : ascii "Content-Length" ≠ []),
    (by decide +kernel : ∀ b ∈ ascii "Content-Length", isSpace b = false ∧ b ≠ 58 ∧ b ≠ 0), field⟩
  some_fields := List.cons_ne_nil _ _
  few_fields := (by decide : 1 ≤ maxHttpFields)
  sized := sized
  fits := fits

theorem telling (room : Nat) (short : 7 ≤ room) : Telling Sample room where
  empty := by decide +kernel
  names := ⟨ascii "message", .message, ⟨ascii "0", by decide⟩, short,
    by decide +kernel, by decide +kernel, rfl, by decide +kernel, rfl⟩

def polled : List (Input Sample) := accept 4 1 ++ [.wait {} [(4, .epollIn)]]

def reads (body : String) : Input Sample :=
  .event { arrivals := [{ result := .data (posting body).text }] }

theorem polled_brings (body : String) (found : (replay (fun _ _ => True) boot polled).any fun c =>
      receivedOn 1 c.server.history = [] ∧ (c.brings (reads body)).any fun brought =>
        brought.1.connection = 1 ∧
          stream [posting body] <+: (receivedOn 1 brought.2.history).flatten ∧
          (handedOn 1 brought.2.history).length = 1) :
    ∃ (c : Configuration Sample) (request : HttpRequest) (s : Server Sample),
      Brings 1 [] (posting body) c (reads body) request s ∧ receivedOn 1 c.server.history = [] := by
  obtain ⟨c, run, nothing, brings⟩ := exists_reached found
  obtain ⟨⟨request, s⟩, brings, facts⟩ := (Option.any_eq_true _ _).mp brings
  obtain ⟨connection, coming, turn⟩ := of_decide_eq_true facts
  exact ⟨c, request, s, ⟨run, brings, connection, coming, turn⟩, nothing⟩

theorem message_wellFormed : (posting "message").WellFormed :=
  posting_wellFormed (by decide +kernel) (by decide +kernel) (by decide +kernel)

theorem empty_wellFormed : (posting "").WellFormed :=
  posting_wellFormed (by decide +kernel) (by decide +kernel) (by decide +kernel)

end Sample

theorem own_bytes_iff_message :
    ∃ (c : Configuration Sample) (request : HttpRequest) (s : Server Sample),
    Brings 1 [] (Sample.posting "message") c (Sample.reads "message") request s ∧
    ∀ c' input' request' s', Brings 1 [] (Sample.posting "message") c' input' request' s' →
      s'.masked 1 = s.masked 1 → decision request' s' = decision request s := by
  obtain ⟨c, request, s, brought, nothing⟩ := Sample.polled_brings "message" (by decide +kernel)
  have decides := (own_bytes_iff (by simp) Sample.message_wellFormed brought (by rw [nothing]; decide +kernel)
    (Sample.telling _ (by decide +kernel))).mpr (.inr (by decide +kernel))
  exact ⟨c, request, s, brought, decides⟩

/-- A POST without a body is refused when it arrives alone, and not when a document comes with
it. -/
theorem own_bytes_empty : ¬ ∀ (h : ConnectionId) (rs : List RequestText) (r : RequestText)
    (c c' : Configuration Sample) (input input' : Input Sample) (request request' : HttpRequest)
    (s s' : Server Sample), (∀ x ∈ rs, x.WellFormed) → r.WellFormed →
      Brings h rs r c input request s →
    Brings h rs r c' input' request' s' → s'.masked h = s.masked h →
      decision request' s' = decision request s :=
  fun claim => by
  obtain ⟨c, request, s, brought, nothing⟩ := Sample.polled_brings "" (by decide +kernel)
  exact brought.undecided (by simp) Sample.empty_wellFormed (by rw [nothing]; decide +kernel)
    (Sample.telling _ (by decide +kernel)) rfl rfl fun c' input' request' s' =>
      claim 1 [] _ c c' _ input' request request' s s' (by simp) Sample.empty_wellFormed brought

end Bosh
