import Bosh.Bind.Handling

/-! What an error response leaves as it was. -/
namespace Bosh
open Effect Text

section Error
variable {Iks : Type} [Iksemel Iks]

/-- The error that ends `jb_connect_client`. A socket that could not be connected has been
deleted by then. -/
def creationRefusal (s : Server Iks) (body : Iks) : Option BindErrorCode :=
  match Iksemel.findAttrib body "wait", Iksemel.findAttrib body "to", Iksemel.findAttrib body "rid" with
  | some _, some host, some _ =>
    if s.oracle.parser = false then some .connectionFailed
    else
      match sockOpen host.bytes s.jabberPort s.oracle.connect s.net with
      | .ok (none, _) => some .connectionFailed
      | _ => none
  | _, _, _ => some .badFormat

def postRefusal (s : Server Iks) (request : HttpRequest) : Option BindErrorCode :=
  match iksTree request.data request.dataSize with
  | .error _ => none
  | .ok none => some .badFormat
  | .ok (some message) =>
    match Iksemel.findAttrib message "sid" with
    | none => creationRefusal s message
    | some sid =>
      match scanInt64 sid.bytes, Iksemel.findAttrib message "rid" with
      | some sid, some _ => if (s.sids.find sid).isNone then some .sidNotFound else none
      | _, _ => some .badFormat

def refusal (s : Server Iks) (request : HttpRequest) : Option BindErrorCode :=
  if request.header.type = ascii "POST" then postRefusal s request
  else if request.header.type = ascii "GET" then none
  else some .badFormat

/-- One error response has been queued on the request's connection. The sessions and all other
connections are as they were, and so are their sockets. -/
structure Rejected (code : BindErrorCode) (request : HttpRequest) (s s' : Server Iks) : Prop where
  clients : s'.clients = s.clients
  jabberConnections : s'.jabberConnections = s.jabberConnections
  sids : s'.sids = s.sids
  clientCount : s'.clientCount = s.clientCount
  maxClientCount : s'.maxClientCount = s.maxClientCount
  connections : ∀ h, h ≠ request.connection → s'.connections h = s.connections h
  sockets : ∀ i, (s.net.sockets i).isSome →
    (∀ connection, s.connections request.connection = some connection → i ≠ connection.sock) →
    SameSocket i s.net.wire s'.net.wire
  answered : s'.history = .answer request.connection .request (errorResponse code) :: s.history
  response : ∃ connection, s.connections request.connection = some connection ∧
    Given connection.sock (httpResponse httpXmlContent (errorResponse code)) s.net.wire s'.net.wire

variable {s s' : Server Iks} {request : HttpRequest}

omit [Iksemel Iks] in
theorem jcReportError_rejects (upright : Upright s) {connection : HttpConnection}
    (found : s.connections request.connection = some connection) {net : Net} (tidy : net.Tidy none)
    (same : ∀ i, i ≠ s.net.nextSocket → SameSocket i s.net.wire net.wire) (code : BindErrorCode) :
    ∃ s', jcReportError request.connection code { s with net } = .ok ((), s') ∧
      Rejected code request s s' := by
  have old : ∀ i, (s.net.sockets i).isSome → SameSocket i s.net.wire net.wire := fun i there =>
    same i (upright.tidy.below i there).ne
  have there : (net.sockets connection.sock).isSome := by
    have kept : net.sockets connection.sock = s.net.sockets connection.sock :=
      (old _ (upright.socket_connection found)).sockets
    rw [kept]
    exact upright.socket_connection found
  have answers : Ensures (jcReportError request.connection code { s with net }) _ fun _ => False :=
    (hsAnswerRequest_exact (s := { s with net }) tidy
      (fun connection' found' => by rwa [Option.some.inj (found'.symm.trans found)]) .request
      (errorResponse code) httpXmlContent).mono (fun _ _ =>
        id) fun _ absent => by simp [found] at absent
  obtain ⟨_, s', ran, connection', net', found', gives, rfl⟩ := answers.returns
  obtain rfl := Option.some.inj (found.symm.trans found')
  refine ⟨_, ran, ⟨rfl, rfl, rfl, rfl, rfl, fun h other => Function.update_of_ne other _ _, ?_, rfl, ?_⟩⟩
  · intro i there' apart
    exact (old i there').trans (gives.only.same (apart connection found))
  · obtain ⟨sock, here⟩ := Option.isSome_iff_exists.mp (upright.socket_connection found)
    have waited := Given.nothing here (old _ (upright.socket_connection found))
    exact ⟨connection, found, waited.trans gives.given⟩

omit [Iksemel Iks] in
theorem report_rejects (upright : Upright s) {connection : HttpConnection}
    (found : s.connections request.connection = some connection) (code : BindErrorCode) :
    ∃ s', jcReportError request.connection code s = .ok ((), s') ∧ Rejected code request s s' :=
  jcReportError_rejects upright found upright.tidy (fun _ _ => ⟨rfl, rfl, rfl⟩) code

theorem sockOpen_none {n : Net} (host : Bytes) (port : Int) (answers : ConnectAnswers) :
    Ensures (sockOpen host port answers n) (fun sock n' => sock = none →
      ∀ i, i ≠ n.nextSocket → SameSocket i n.wire n'.wire) fun _ => True := by
  unfold sockOpen
  rw [run_bind_ok sockNew_run, ensures_bind]
  refine (sockConnect_spec host port answers).mono (fun connected n₁ outcome => ?_) fun _ _ => trivial
  cases connected with
  | true => exact fun none => by cases none
  | false =>
    obtain ⟨sock, same⟩ := outcome
    rw [if_neg (by simp), ensures_bind]
    refine (sockDelete_deletes _).mono (fun _ n₂ gone _ i other => ?_) fun _ _ => trivial
    have wire : n₂.wire = n.made.wire.put n.nextSocket none := by
      rw [gone.2, same, Wire.put_put]
    have sockets : n₂.wire.sockets i = n.wire.sockets i := by
      rw [wire, Wire.sockets_put_ne other]
      exact Function.update_of_ne other _ _
    exact ⟨sockets, by rw [wire]; rfl, by rw [wire]; rfl⟩

theorem jbConnectClient_rejects (upright : Upright s) {connection : HttpConnection}
    (found : s.connections request.connection = some connection) {body : Iks} {code : BindErrorCode}
    (refused : creationRefusal s body = some code) :
    ∃ s', jbConnectClient request.connection body s = .ok ((), s') ∧
      Rejected code request s s' := by
  have report := report_rejects upright found
  unfold creationRefusal at refused
  unfold jbConnectClient
  cases wait : Iksemel.findAttrib body "wait" with
  | none =>
    simp only [wait, Option.some.injEq] at refused
    exact refused ▸ report .badFormat
  | some waits =>
    cases target : Iksemel.findAttrib body "to" with
    | none =>
      simp only [wait, target, Option.some.injEq] at refused
      exact refused ▸ report .badFormat
    | some host =>
      cases rid : Iksemel.findAttrib body "rid" with
      | none =>
        simp only [wait, target, rid, Option.some.injEq] at refused
        exact refused ▸ report .badFormat
      | some rids =>
        simp only [wait, target, rid] at refused
        dsimp only
        rw [run_get]
        by_cases parser : s.oracle.parser = false
        · rw [if_pos parser, Option.some.injEq] at refused
          rw [if_pos parser]
          exact refused ▸ report .connectionFailed
        · rw [if_neg parser] at refused ⊢
          rw [sockOpen_bind]
          split at refused
          · rename_i net opened
            rw [run_bind_ok (onNet_run opened)]
            cases refused
            exact jcReportError_rejects upright found ((tidy_lasting.connect _ _ _ _ upright.tidy).of_ok opened)
              ((sockOpen_none _ _ _).of_ok opened rfl) .connectionFailed
          · cases refused

theorem jbHandleRequest_rejects (upright : Upright s) {connection : HttpConnection}
    (found : s.connections request.connection = some connection) {code : BindErrorCode}
    (refused : refusal s request = some code) :
    ∃ s', jbHandleRequest request s = .ok ((), s') ∧ Rejected code request s s' := by
  have report := report_rejects upright found
  unfold refusal at refused
  unfold jbHandleRequest
  by_cases post : request.header.type = ascii "POST"
  · rw [if_pos post] at refused ⊢
    unfold postRefusal at refused
    unfold jbHandleHttpPost
    cases parsed : (iksTree request.data request.dataSize : Except Fault (Option Iks)) with
    | error fault => simp [parsed] at refused
    | ok tree =>
      rw [run_bind_ok (run_checked rfl)]
      simp only [parsed] at refused
      cases tree with
      | none => exact Option.some.inj refused ▸ report .badFormat
      | some message =>
        dsimp only at refused ⊢
        cases sid : Iksemel.findAttrib message "sid" with
        | none =>
          simp only [sid] at refused
          exact jbConnectClient_rejects upright found refused
        | some text =>
          simp only [sid] at refused
          dsimp only
          cases scanned : scanInt64 text.bytes with
          | none =>
            simp only [scanned, Option.some.injEq] at refused
            exact refused ▸ report .badFormat
          | some value =>
            cases rid : Iksemel.findAttrib message "rid" with
            | none =>
              simp only [scanned, rid, Option.some.injEq] at refused
              exact refused ▸ report .badFormat
            | some rids =>
              simp only [scanned, rid] at refused
              dsimp only
              rw [run_get]
              cases stored : s.sids.find value with
              | none =>
                simp only [stored, Option.isNone_none, if_true, Option.some.injEq] at refused
                exact refused ▸ report .sidNotFound
              | some c => simp [stored] at refused
  · rw [if_neg post] at refused ⊢
    by_cases get : request.header.type = ascii "GET"
    · simp [get] at refused
    · rw [if_neg get] at refused ⊢
      exact Option.some.inj refused ▸ report .badFormat

def Record.Faultless : Record Iks → Prop
  | .answer _ .request body => ∀ code, body ≠ errorResponse code
  | _ => True

def Faultless (s s' : Server Iks) : Prop :=
  ∃ news, s'.history = news ++ s.history ∧ ∀ entry ∈ news, entry.Faultless

section Faultless
omit [Iksemel Iks]

theorem Faultless.refl (s : Server Iks) : Faultless s s := ⟨[], rfl, by simp⟩

theorem Faultless.trans {s₁ s₂ : Server Iks} (first : Faultless s s₁) (second : Faultless s₁ s₂) :
    Faultless s s₂ := by
  obtain ⟨news, history, fine⟩ := first
  obtain ⟨news', history', fine'⟩ := second
  exact ⟨news' ++ news,
    by rw [history', history, List.append_assoc], List.forall_mem_append.mpr ⟨fine', fine⟩⟩

theorem Faultless.one {entry : Record Iks} (history : s'.history = entry :: s.history)
    (fine : entry.Faultless) :
    Faultless s s' := ⟨[entry], history, by simpa using fine⟩

end Faultless

section Served
variable {c : ClientId} {client : JabberClient Iks} {h : ConnectionId} {rid : Option UInt64}
  {message : Iks}

omit [Iksemel Iks] in
theorem Freed.faultless {terminate : Bool} (freed : Freed c terminate s s') : Faultless s s' := by
  cases freed with
  | idle => exact .refl s
  | held dropped =>
    cases dropped
    exact .one rfl trivial

theorem SetsHttp.faultless (sets : SetsHttp c h rid s s') : Faultless s s' := by
  cases sets with
  | @intro s₁ s₂ client freed _ takes _ _ flushes =>
    have took : Faultless s₁ s₂ := by
      cases takes
      exact .one rfl trivial
    have held := freed.faultless.trans took
    cases flushes with
    | nothing => exact held
    | emptied _ emptied =>
      cases emptied
      exact held.trans (.one rfl trivial)

omit [Iksemel Iks] in
theorem Ended.faultless (ended : Ended c s s') : Faultless s s' := by
  have last : ∀ {s₁ : Server Iks}, Forgotten c s₁ s' → Faultless s₁ s' := fun gone => by
    cases gone
    exact .one rfl trivial
  cases ended with
  | idle _ _ gone => exact last gone
  | held dropped gone => exact (Freed.held dropped).faultless.trans (last gone)

theorem Serves.faultless (serves : Serves c h rid message s s') : Faultless s s' := by
  cases serves with
  | @intro s₁ client net sets _ _ _ _ ends =>
    have sent : Faultless s₁ { s₁ with net } := ⟨[], rfl, by simp⟩
    split at ends
    · exact sets.faultless.trans (sent.trans ends.faultless)
    · exact ends ▸ sets.faultless.trans sent

end Served

section Bodies

theorem errorResponse_take (code : BindErrorCode) :
    (errorResponse code).take 7 = ascii "<body t" := by
  cases code <;> decide +kernel

theorem sessionResponse_ne (sid : UInt64) (code : BindErrorCode) :
    sessionResponse sid ≠ errorResponse code := by
  intro same
  have start : (sessionResponse sid).take 7 = ascii "<body s" := by
    have long : 7 ≤ (ascii "<body sid='").length := by decide +kernel
    rw [sessionResponse, List.append_assoc, List.take_append_of_le_length long]
    decide +kernel
  rw [same, errorResponse_take] at start
  exact absurd start (by decide +kernel)

theorem statusHtml_ne (uptime : Bytes) (clients maximum : Int) (code : BindErrorCode) :
    statusHtml uptime clients maximum ≠ errorResponse code := by
  intro same
  have start : (statusHtml uptime clients maximum).take 7 = ascii "<html><" := by
    have long : 7 ≤ (ascii "<html><body>").length := by decide +kernel
    simp only [statusHtml, List.append_assoc]
    rw [List.take_append_of_le_length long]
    decide +kernel
  rw [same, errorResponse_take] at start
  exact absurd start (by decide +kernel)

theorem errorResponse_injective {code code' : BindErrorCode}
    (same : errorResponse code = errorResponse code') : code = code' := by
  revert same
  cases code <;> cases code' <;> decide +kernel

end Bodies

theorem jbConnectClient_faultless {connection : ConnectionId} {body : Iks}
    (accepted : creationRefusal s body = none) :
    Ensures (jbConnectClient connection body s) (fun _ s' => Faultless s s') fun _ => True := by
  unfold creationRefusal at accepted
  unfold jbConnectClient
  cases wait : Iksemel.findAttrib body "wait" with
  | none => simp [wait] at accepted
  | some waits =>
    cases target : Iksemel.findAttrib body "to" with
    | none => simp [wait, target] at accepted
    | some host =>
      cases rid : Iksemel.findAttrib body "rid" with
      | none => simp [wait, target, rid] at accepted
      | some rids =>
        simp only [wait, target, rid] at accepted
        dsimp only
        rw [run_get]
        by_cases parser : s.oracle.parser = false
        · simp [parser] at accepted
        · rw [if_neg parser] at accepted ⊢
          rw [sockOpen_bind]
          cases opened : sockOpen host.bytes s.jabberPort s.oracle.connect s.net with
          | error fault =>
            rw [run_bind_error (onNet_error opened)]
            trivial
          | ok result =>
            obtain ⟨sock | sock, net⟩ := result
            · simp [opened] at accepted
            · rw [run_bind_ok (onNet_run opened)]
              refine (jbOpenSession_announces connection host _ sock _).mono ?_ fun _ => id
              rintro _ s' ⟨sid, -, history⟩
              refine ⟨[_, _], history, ?_⟩
              simp [Record.Faultless, sessionResponse_ne]

theorem jbHandleRequest_faultless (upright : Upright s) (accepted : refusal s request = none) :
    Ensures (jbHandleRequest request s) (fun _ s' => Faultless s s') fun _ => True := by
  have serves : ∀ c message, named s request = some (c, message) →
      Ensures (jbHandleRequest request s) (fun _ s' => Faultless s s') fun _ => True :=
        fun c message who =>
    (jbHandleRequest_serves upright who).mono (fun _ _ serves => serves.faultless) fun _ => id
  unfold refusal at accepted
  by_cases post : request.header.type = ascii "POST"
  · rw [if_pos post] at accepted
    unfold postRefusal at accepted
    cases parsed : (iksTree request.data request.dataSize : Except Fault (Option Iks)) with
    | error fault =>
      unfold jbHandleRequest jbHandleHttpPost
      have failed : checked (iksTree request.data request.dataSize : Except Fault (Option Iks)) s =
        .error fault := by
        rw [parsed]
        rfl
      rw [if_pos post, run_bind_error failed]
      trivial
    | ok tree =>
      simp only [parsed] at accepted
      cases tree with
      | none => cases accepted
      | some message =>
        dsimp only at accepted
        cases sid : Iksemel.findAttrib message "sid" with
        | none =>
          simp only [sid] at accepted
          unfold jbHandleRequest jbHandleHttpPost
          rw [if_pos post, run_bind_ok (run_checked parsed)]
          simp only [sid]
          exact jbConnectClient_faultless accepted
        | some text =>
          simp only [sid] at accepted
          split at accepted
          · rename_i value rid scanned ridAttrib
            cases stored : s.sids.find value with
            | none => simp [stored] at accepted
            | some c => exact serves c message (by simp [named, posted, post, parsed, sid, scanned, ridAttrib, stored])
          · cases accepted
  · rw [if_neg post] at accepted
    by_cases page : request.header.type = ascii "GET"
    · unfold jbHandleRequest jbHandleHttpGet
      rw [if_neg post, if_pos page, ensures_bind]
      refine (getTime_spec s).mono ?_ fun _ _ => trivial
      rintro now s₁ ⟨-, ticks, rfl⟩
      rw [run_get]
      refine (hsAnswerRequest_spec _ _ _ _).mono ?_ fun _ _ => trivial
      rintro _ _ ⟨connection, net, -, -, rfl⟩
      exact .one rfl fun code => statusHtml_ne _ _ _ code
    · simp [page] at accepted

variable {r : Configuration Iks} {oracle : Oracle Iks}

/-- A request that is refused is answered with its error, and nothing else is touched. No other
request is answered with an error. -/
theorem refusals_isolated (run : Reachable r) (handed : HandedOver r oracle request s) :
    (∀ code, refusal s request = some code →
      ∃ s', jbHandleRequest request s = .ok ((), s') ∧ Rejected code request s s') ∧
    ∀ s', jbHandleRequest request s = .ok ((), s') → ∀ news, s'.history = news ++ s.history →
      ∀ h code, .answer h .request (errorResponse code) ∈ news → refusal s request = some code := by
  have upright := handed.upright run
  obtain ⟨connection, found⟩ := handed.connection
  refine ⟨fun code refused => jbHandleRequest_rejects upright found refused, ?_⟩
  intro s' done news history h code answered
  cases refused : refusal s request with
  | none =>
    obtain ⟨news', history', fine⟩ := (jbHandleRequest_faultless upright refused).of_ok done
    rw [List.append_cancel_right (history.symm.trans history')] at answered
    exact absurd rfl (fine _ answered code)
  | some code' =>
    obtain ⟨s'', ran, rejected⟩ := jbHandleRequest_rejects upright found refused
    obtain rfl : s'' = s' := congrArg Prod.snd (Except.ok.inj (ran.symm.trans done))
    have only : news = [.answer request.connection .request (errorResponse code')] :=
      List.append_cancel_right (history.symm.trans rejected.answered)
    rw [only, List.mem_singleton, Record.answer.injEq] at answered
    rw [errorResponse_injective answered.2.2]

end Error

theorem Sample.held_bare :
    (handOver 1 (post "bare") {} (reached (fun _ _ => True) held held_works)).any
    fun handed => refusal handed.2 handed.1 = some .badFormat ∧ (handed.2.clients 0).isSome := by
  decide +kernel

theorem refusals_isolated_bare :
    ∃ (r : Configuration Sample) (request : HttpRequest) (s s' : Server Sample),
    Reachable r ∧ HandedOver r {} request s ∧ (s.clients 0).isSome ∧
    jbHandleRequest request s = .ok ((), s') ∧ Rejected .badFormat request s s' := by
  obtain ⟨⟨request, s⟩, handed, facts⟩ := (Option.any_eq_true _ _).mp Sample.held_bare
  obtain ⟨refused, live⟩ := of_decide_eq_true facts
  obtain ⟨s', done, rejected⟩ :=
    (refusals_isolated Sample.reaches_reached (handedOver_of handed)).1 .badFormat refused
  exact ⟨_, request, s, s', Sample.reaches_reached, handedOver_of handed, live, done, rejected⟩

end Bosh
