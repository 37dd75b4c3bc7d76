import Bosh.Bind.Routing
import Bosh.Server.Effects

/-! What handling a request for a session leaves behind, to the last field. -/
namespace Bosh
open Effect Text

variable {Iks : Type} [Iksemel Iks]

/-- The state in which `hc_process` hands a request over: the bytes that have just come in for its
connection complete it. -/
inductive HandedOver (r : Configuration Iks) (oracle : Oracle Iks) :
    HttpRequest → Server Iks → Prop where
  | intro {h : ConnectionId} {connection : HttpConnection} {bytes : Bytes} {request : HttpRequest}
      {length : Nat} : r.server.connections h = some connection → bytes ≠ [] →
      bytes.length ≤ maxBufferSize - connection.bufferSize →
      (connection.receive bytes).frame h = .ok (.complete request length) →
      HandedOver r oracle request ((((r.server.hear oracle).setConnection h
        (some (connection.receive bytes))).record (.received h bytes)).record (.request h request))

def handOver (h : ConnectionId) (bytes : Bytes) (oracle : Oracle Iks) (r : Configuration Iks) :
    Option (HttpRequest × Server Iks) := do
  let connection ← r.server.connections h
  if bytes = [] ∨ maxBufferSize - connection.bufferSize < bytes.length then none
  else
    match (connection.receive bytes).frame h with
    | .ok (.complete request _) => some (request, (((r.server.hear oracle).setConnection h
        (some (connection.receive bytes))).record (.received h bytes)).record (.request h request))
    | _ => none

section HandedOver
variable {r : Configuration Iks} {oracle : Oracle Iks} {request : HttpRequest} {s : Server Iks}

theorem HandedOver.upright (handed : HandedOver r oracle request s) (run : Reachable r) :
    Upright s := by
  cases handed with
  | @intro h connection bytes _ length here more fits framed =>
    have upright := run.upright.hear oracle
    have found : (r.server.hear oracle).connections h = some connection := here
    have received : Micro (Assumed.of False False) ({ reading := some h }, r.server.hear oracle) _ :=
      .receive rfl found more fits rfl rfl
    have found' : (((r.server.hear oracle).setConnection h (some (connection.receive bytes))).record
        (.received h bytes)).connections h = some (connection.receive bytes) := Function.update_self ..
    have complete : Micro (Assumed.of False False) ({ reading := some h, arrived := some h }, _) _ :=
      .request rfl rfl found' framed rfl rfl rfl nofun
    exact ⟨complete.sound (received.sound upright.sound), upright.tidy⟩

omit [Iksemel Iks] in
theorem handOver_eq_some {h : ConnectionId} {bytes : Bytes} :
    handOver h bytes oracle r = some (request, s) ↔
    ∃ connection length, r.server.connections h = some connection ∧ bytes ≠ [] ∧
      bytes.length ≤ maxBufferSize - connection.bufferSize ∧
      (connection.receive bytes).frame h = .ok (.complete request length) ∧
      s = (((r.server.hear oracle).setConnection h
        (some (connection.receive bytes))).record (.received h bytes)).record (.request h request) := by
  constructor
  · intro computed
    obtain ⟨connection, here, computed⟩ := Option.bind_eq_some_iff.mp computed
    split at computed
    · cases computed
    · rename_i fits
      rw [not_or, not_lt] at fits
      split at computed
      · rename_i framed
        cases computed
        exact ⟨connection, _, here, fits.1, fits.2, framed, rfl⟩
      · cases computed
  · rintro ⟨connection, length, here, more, fits, framed, rfl⟩
    refine Option.bind_eq_some_iff.mpr ⟨connection, here, ?_⟩
    rw [if_neg (not_or.mpr ⟨more, not_lt.mpr fits⟩), framed]

omit [Iksemel Iks] in
theorem handedOver_of {h : ConnectionId} {bytes : Bytes}
    (computed : handOver h bytes oracle r = some (request, s)) : HandedOver r oracle request s := by
  obtain ⟨connection, length, here, more, fits, framed, rfl⟩ := handOver_eq_some.mp computed
  exact .intro here more fits framed

omit [Iksemel Iks] in
theorem HandedOver.connection (handed : HandedOver r oracle request s) :
    ∃ connection, s.connections request.connection = some connection := by
  obtain ⟨here, more, fits, framed⟩ := handed
  obtain rfl := frame_connection framed
  exact ⟨_, Function.update_self ..⟩

end HandedOver

section Brings
omit [Iksemel Iks]
variable {c : Configuration Iks} {input : Input Iks} {request : HttpRequest} {s : Server Iks}
  {h : ConnectionId}

def Configuration.brings (c : Configuration Iks) (input : Input Iks) :
    Option (HttpRequest × Server Iks) := do
  let request ← c.request input
  let connection ← c.server.connections request.connection
  handOver request.connection (received (maxBufferSize - connection.bufferSize) input.oracle.recv) input.oracle c

theorem handed_eq_some : handed h s = some request ↔
    ∃ connection length, s.connections h = some connection ∧
    received (maxBufferSize - connection.bufferSize) s.oracle.recv ≠ [] ∧
    (connection.receive (received (maxBufferSize - connection.bufferSize) s.oracle.recv)).frame h =
      .ok (.complete request length) := by
  unfold handed completed
  cases here : s.connections h with
  | none => simp
  | some connection =>
    simp only [Option.some.injEq, exists_and_left, ↓existsAndEq, true_and]
    split
    · rename_i empty
      simp [empty]
    · rename_i more
      generalize received (maxBufferSize - connection.bufferSize) s.oracle.recv = bytes at more ⊢
      cases framed : (connection.receive bytes).frame h with
      | error fault => simp
      | ok outcome => cases outcome <;> simp [more]

theorem requestOf_eq_some {events : Events} {i : SocketId}
    (completes : requestOf events i s = some request) (s' : Server Iks)
    (sockets : s'.net.sockets = s.net.sockets) :
    requestOf events i s' = handed request.connection s' := by
  unfold requestOf at completes ⊢
  rw [sockets]
  split at completes
  · cases completes
  · split at completes
    · cases completes
    · rename_i quiet
      split at completes
      · rename_i readable
        rw [if_neg quiet, if_pos readable]
        split at completes
        · obtain ⟨_, _, -, -, framed⟩ := handed_eq_some.mp completes
          rw [frame_connection framed]
        · cases completes
      · cases completes

theorem request_handed (completes : c.request input = some request) :
    handed request.connection (c.heard input) = some request := by
  obtain ⟨turn, -, completes⟩ := Option.bind_eq_some_iff.mp completes
  rwa [requestOf_eq_some completes _ rfl] at completes

theorem brings_eq_some : c.brings input = some (request, s) ↔
    c.request input = some request ∧
      ∃ connection, c.server.connections request.connection = some connection ∧
      handOver request.connection (received (maxBufferSize - connection.bufferSize) input.oracle.recv)
        input.oracle c = some (request, s) := by
  unfold Configuration.brings
  constructor
  · intro computed
    obtain ⟨request', completes, computed⟩ := Option.bind_eq_some_iff.mp computed
    obtain ⟨connection, here, computed⟩ := Option.bind_eq_some_iff.mp computed
    obtain ⟨connection₁, _, here₁, -, framed₁⟩ := handed_eq_some.mp (request_handed completes)
    obtain ⟨connection₂, _, here₂, -, -, framed₂, -⟩ := handOver_eq_some.mp computed
    obtain rfl := Option.some.inj (here.symm.trans here₁)
    obtain rfl := Option.some.inj (here.symm.trans here₂)
    cases framed₂.symm.trans framed₁
    exact ⟨completes, connection, here, computed⟩
  · rintro ⟨completes, connection, here, computed⟩
    refine Option.bind_eq_some_iff.mpr ⟨request, completes, ?_⟩
    exact Option.bind_eq_some_iff.mpr ⟨connection, here, computed⟩

theorem request_brings (completes : c.request input = some request) :
    ∃ s, c.brings input = some (request, s) ∧ s.sids = c.server.sids ∧
      s.clients = c.server.clients ∧
      s.nextClient = c.server.nextClient := by
  obtain ⟨connection, length, here, more, framed⟩ := handed_eq_some.mp (request_handed completes)
  have fits := received_length (maxBufferSize - connection.bufferSize) input.oracle.recv
  exact ⟨_, brings_eq_some.mpr ⟨completes, connection, here,
    handOver_eq_some.mpr ⟨connection, length, here, more, fits, framed, rfl⟩⟩, rfl, rfl, rfl⟩

end Brings

section Step
variable {c : Configuration Iks} {input : Input Iks} {request : HttpRequest} {s : Server Iks}
  {h : ConnectionId}

def hcReadRest (h : ConnectionId) (length : Nat) : ServerM Iks Unit := do
  modifyConnection h (HttpConnection.consume length)
  let connection ← getConnection h
  let sock ← onNet (getSocket connection.sock)
  if sock.status ≠ .connected then hcDelete h

theorem hcReceived_brings {connection : HttpConnection} {bytes : Bytes} {length : Nat}
    (here : s.connections h = some connection)
    (framed : (connection.receive bytes).frame h = .ok (.complete request length))
    (rest : ServerM Iks Unit) :
    (hcReceived h bytes >>= fun _ => rest) s =
      (jbHandleRequest request >>= fun _ => modifyConnection h (HttpConnection.consume length) >>= fun _ => rest)
        (((s.setConnection h (some (connection.receive bytes))).record (.received h bytes)).record
          (.request h request)) := by
  have headed : (connection.receive bytes).header.isSome := by
    cases missing : (connection.receive bytes).header with
    | some header => rfl
    | none => simp [HttpConnection.frame, missing] at framed
  have received : ((s.setConnection h (some (connection.receive bytes))).record (.received h bytes)).connections h =
      some (connection.receive bytes) := Function.update_self ..
  unfold hcReceived
  simp only [bind_assoc]
  rw [run_bind_ok (modifyConnection_run here _), run_modify,
    run_bind_ok (getConnection_run received), if_pos headed]
  unfold hcProcess
  simp only [bind_assoc]
  rw [run_bind_ok (getConnection_run received), run_bind_ok (run_checked framed)]
  dsimp only
  simp only [bind_assoc]
  rw [run_modify]

theorem smTarget_run {n : Net} {si : InfoId} {i : SocketId} (found : n.target si = some i) :
    smTarget si n = .ok (some (.socketCallback, some i), n) := by
  unfold Net.target at found
  split at found
  · rename_i info here
    split at found
    · rename_i called
      obtain ⟨⟨⟩, callback⟩ := Option.isSome_iff_exists.mp called
      have there : getInfo (some si) n = .ok ((si, info), n) := run_bind_ok (run_demand here)
      unfold smTarget
      rw [run_bind_ok there]
      dsimp only
      rw [callback, found]
      rfl
    · cases found
  · cases found

theorem hcRead_brings (upright : Upright s) {connection : HttpConnection} {bytes : Bytes}
    {length : Nat} (here : s.connections h = some connection) (more : bytes ≠ [])
    (arrived : received (maxBufferSize - connection.bufferSize) s.oracle.recv = bytes)
    (framed : (connection.receive bytes).frame h = .ok (.complete request length)) :
    hcRead h s = (jbHandleRequest request >>= fun _ => hcReadRest h length)
      (((s.setConnection h (some (connection.receive bytes))).record (.received h bytes)).record
        (.request h request)) := by
  obtain ⟨sock, there⟩ := Option.isSome_iff_exists.mp (upright.socket_connection here)
  have reads : sockRecv connection.sock (maxBufferSize - connection.bufferSize) s.oracle.recv s.net =
      .ok (bytes, s.net) := by
    unfold sockRecv
    rw [run_bind_ok (getSocket_run there)]
    cases result : s.oracle.recv with
    | again | fail =>
      rw [result] at arrived
      exact absurd arrived.symm more
    | data all =>
      rw [result] at arrived
      replace arrived : all.take (maxBufferSize - connection.bufferSize) = bytes := arrived
      dsimp only
      rw [arrived, if_neg more]
      rfl
  unfold hcRead
  rw [run_bind_ok (getConnection_run here), run_get, run_bind_ok (onNet_run reads), if_pos more]
  exact hcReceived_brings here framed _

theorem socketCallback_brings {events : Events} {i : SocketId}
    (completes : requestOf events i s = some request) :
    socketCallback events i s = hcRead request.connection s := by
  unfold requestOf at completes
  split at completes
  · cases completes
  · rename_i sock there
    split at completes
    · cases completes
    · rename_i quiet
      simp only [not_or, not_not] at quiet
      obtain ⟨fine, intact, unwritable, connected⟩ := quiet
      split at completes
      · rename_i readable
        split at completes
        · rename_i reader
          obtain ⟨_, _, -, -, framed⟩ := handed_eq_some.mp completes
          unfold socketCallback
          rw [run_bind_ok (onNet_run (getSocket_run there)), run_get]
          dsimp only
          rw [if_neg (not_or.mpr ⟨fine, intact⟩), if_neg unwritable, if_pos readable, connected,
            reader, frame_connection framed]
          rfl
        · cases completes
      · cases completes

/-- The step that brings a request hands it over in this state, and then goes on reading. -/
theorem step_brings (upright : Upright c.server) (brings : c.brings input = some (request, s)) :
    ∃ length control, step input c =
      ((jbHandleRequest request >>= fun _ => hcReadRest request.connection length) s).map
        fun result => { server := result.2, control } := by
  obtain ⟨requested, connection, here, computed⟩ := brings_eq_some.mp brings
  obtain ⟨connection', length, here', more, -, framed, rfl⟩ := handOver_eq_some.mp computed
  obtain rfl := Option.some.inj (here.symm.trans here')
  obtain ⟨⟨events, i⟩, who, completes⟩ := Option.bind_eq_some_iff.mp requested
  clear requested
  obtain ⟨server, control⟩ := c
  unfold Configuration.turn at who
  split at who
  · rename_i oracle si events' rest same
    obtain ⟨j, target, pair⟩ := Option.map_eq_some_iff.mp who
    cases pair
    replace same : control = _ := same
    subst same
    refine ⟨length, .dispatching rest, ?_⟩
    have called : smDispatch (si, events) (server.hear oracle) =
        socketCallback events i (server.hear oracle) := by
      unfold smDispatch
      rw [run_bind_ok (onNet_run (smTarget_run (n := (server.hear oracle).net) target))]
    have runs := called.trans
      ((socketCallback_brings completes).trans (hcRead_brings (upright.hear oracle) here more rfl framed))
    exact congrArg (Except.map fun result =>
      ({ server := result.2, control := .dispatching rest } : Configuration Iks)) runs
  · cases who

/-- What handling the request and then reading on come to, the step comes to. -/
theorem step_ensures {c' : Configuration Iks} (upright : Upright c.server)
    (brings : c.brings input = some (request, s)) {handled settled : Server Iks → Prop}
    (handles : Ensures (jbHandleRequest request s) (fun _ s' => handled s') fun _ => True)
    (reads : ∀ length, Leads handled settled (hcReadRest request.connection length))
    (done : step input c = .ok c') : settled c'.server := by
  obtain ⟨length, control, ran⟩ := step_brings upright brings
  have ends : Ensures ((jbHandleRequest request >>= fun _ => hcReadRest request.connection length) s)
      (fun _ s' => settled s') fun _ => True := by
    rw [ensures_bind]
    exact handles.mono (fun _ s' h => reads length s' h) fun _ => id
  rw [ran] at done
  cases outcome : (jbHandleRequest request >>= fun _ => hcReadRest request.connection length) s with
  | error fault =>
    rw [outcome] at done
    cases done
  | ok result =>
    rw [outcome] at done ends
    cases done
    exact ends

end Step

section Sessions
variable {s s' : Server Iks} {c : ClientId} {h : ConnectionId} {rid : Option UInt64}
  {client : JabberClient Iks}

omit [Iksemel Iks] in
inductive Freed (c : ClientId) (terminate : Bool) (s : Server Iks) : Server Iks → Prop where
  | idle {client : JabberClient Iks} : s.clients c = some client → client.connection = none →
      Freed c terminate s s
  | held {s' : Server Iks} : Dropped c terminate s s' → Freed c terminate s s'

omit [Iksemel Iks] in
theorem Freed.stays {terminate : Bool} (freed : Freed c terminate s s')
    (here : s.clients c = some client) :
    ∃ client', s'.clients c = some client' ∧ client'.connection = none ∧
      client'.sock = client.sock := by
  cases freed with
  | idle here' unheld =>
    obtain rfl := Option.some.inj (here.symm.trans here')
    exact ⟨client, here, unheld, rfl⟩
  | held dropped =>
    obtain ⟨client', _, _, _, _, _, here', -⟩ := dropped
    obtain rfl := Option.some.inj (here.symm.trans here')
    exact ⟨_, Function.update_self .., rfl, rfl⟩

omit [Iksemel Iks] in
theorem Freed.socket {terminate : Bool} (freed : Freed c terminate s s') (upright : Upright s)
    (here : s.clients c = some client) : SameSocket client.sock s.net.wire s'.net.wire := by
  cases freed with
  | idle => exact ⟨rfl, rfl, rfl⟩
  | held dropped => exact dropped.socket upright here

inductive TakesUp (c : ClientId) (h : ConnectionId) (rid : Option UInt64) (s : Server Iks) :
    Server Iks → Prop where
  | intro (client : JabberClient Iks) (connection : HttpConnection) (clock : Int) (oracle : Oracle Iks) :
      s.clients c = some client → client.connection = none → s.connections h = some connection →
      s.clock ≤ clock →
      TakesUp c h rid s { s with
        clients := Function.update s.clients c
          (some { client with connection := some h, timestamp := clock, rid })
        connections := Function.update s.connections h
          (some { connection with closeCallback := some (.jcClearHttp c) })
        clock
        oracle
        history := .hold c h :: s.history }

/-- What `jc_set_http` does: an older request is answered, the new one is held, and what is queued
answers it. -/
inductive SetsHttp (c : ClientId) (h : ConnectionId) (rid : Option UInt64) (s s' : Server Iks) :
    Prop where
  | intro {s₁ s₂ : Server Iks} {client : JabberClient Iks} : Freed c false s s₁ → Upright s₁ →
      TakesUp c h rid s₁ s₂ → Upright s₂ → s₂.clients c = some client → Flushes c client s₂ s' →
      SetsHttp c h rid s s'

theorem jcSetHttp_exact (upright : Upright s) (here : s.clients c = some client)
    (rid : Option UInt64) :
    Ensures (jcSetHttp c h rid s) (fun _ s' => SetsHttp c h rid s s' ∧ Upright s') fun _ => True := by
  have rest : ∀ s₁ : Server Iks, Freed c false s s₁ → Upright s₁ →
      Ensures ((do
        modifyClient c fun client => { client with connection := some h }
        modify (Server.record (.hold c h))
        let timestamp ← getTime
        modifyClient c fun client => { client with timestamp, rid }
        hcSetCloseCallback h (.jcClearHttp c)
        jcFlushMessages c : ServerM Iks Unit) s₁)
        (fun _ s' => SetsHttp c h rid s s' ∧ Upright s') fun _ => True := by
    intro s₁ freed upright₁
    obtain ⟨client₁, here₁, unheld, -⟩ := freed.stays here
    rw [run_bind_ok (modifyClient_run here₁ _), run_modify, ensures_bind]
    refine (getTime_spec _).mono ?_ fun _ _ => trivial
    rintro now s₂ ⟨later, ticks, rfl⟩
    replace later : s₁.clock ≤ now := later
    rw [run_bind_ok (modifyClient_run (Function.update_self ..) _), ensures_bind]
    unfold hcSetCloseCallback modifyConnection getConnection
    rw [ensures_bind, ensures_demand]
    refine ⟨fun connection found => ?_, fun _ => trivial⟩
    rw [ensures_modify]
    have takes : TakesUp c h rid s₁ _ :=
      .intro client₁ connection now { s₁.oracle with ticks } here₁ unheld found later
    have held : Micro (Assumed.of False False) ({ owed := some h, debt := some (c, []) },
        { s₁ with clock := now, oracle := { s₁.oracle with ticks } }) _ :=
      .hold now rid rfl rfl rfl here₁ unheld found
    have ticked : Sound { s₁ with clock := now, oracle := { s₁.oracle with ticks } } :=
      (Micro.tick (a := Assumed.of False False) (p := {}) later).sound upright₁.sound
    have upright₂ := Upright.mk (held.sound ticked) upright₁.tidy
    have flushes := jcFlushMessages_flushes upright₂ (Function.update_self ..)
    simp only [Server.setClient, Server.setConnection, Server.record, Function.update_idem]
    refine flushes.mono ?_ fun _ _ => trivial
    rintro _ s' ⟨flushed, upright'⟩
    exact ⟨.intro freed upright₁ takes upright₂ (Function.update_self ..) flushed, upright'⟩
  unfold jcSetHttp
  rw [run_bind_ok (getClient_run here)]
  cases held : client.connection with
  | none =>
    rw [if_neg (by simp)]
    exact rest s (.idle here held) upright
  | some h' =>
    rw [if_pos (by simp), ensures_bind]
    refine ((jcDropRequest_exact upright false here held).both
      (jcDropRequest_upright upright false here)).mono ?_ fun _ _ => trivial
    rintro _ s₁ ⟨dropped, upright₁⟩
    exact rest s₁ (.held dropped) upright₁

theorem SetsHttp.stays (sets : SetsHttp c h rid s s') (here : s.clients c = some client) :
    ∃ client', s'.clients c = some client' ∧ client'.sock = client.sock := by
  obtain ⟨freed, -, takes, -, here₂, flushes⟩ := sets
  obtain ⟨client₁, here₁, -, sock₁⟩ := freed.stays here
  obtain ⟨client₁', _, _, _, here₁', -⟩ := takes
  obtain rfl := Option.some.inj (here₁.symm.trans here₁')
  cases (Function.update_self ..).symm.trans here₂
  obtain ⟨client', here', sock', -⟩ := flushes.stays here₂
  exact ⟨client', here', sock'.trans sock₁⟩

theorem SetsHttp.socket (sets : SetsHttp c h rid s s') (upright : Upright s)
    (here : s.clients c = some client) : SameSocket client.sock s.net.wire s'.net.wire := by
  obtain ⟨freed, -, takes, upright₂, here₂, flushes⟩ := sets
  obtain ⟨client₁, here₁, -, sock₁⟩ := freed.stays here
  have first := freed.socket upright here
  obtain ⟨client₁', _, _, _, here₁', -⟩ := takes
  obtain rfl := Option.some.inj (here₁.symm.trans here₁')
  cases (Function.update_self ..).symm.trans here₂
  have second := flushes.socket upright₂ here₂
  rw [show client.sock = client₁.sock from sock₁.symm] at first ⊢
  exact first.trans second

/-- What `jb_handle_http_post` does for a session: the request is held, or answered at once, the
stanzas are sent, and the session ends if the request says so. -/
inductive Serves (c : ClientId) (h : ConnectionId) (rid : Option UInt64) (message : Iks)
    (s s' : Server Iks) :
    Prop where
  | intro {s₁ : Server Iks} {client : JabberClient Iks} {net : Net} : SetsHttp c h rid s s₁ →
    Upright s₁ →
      s₁.clients c = some client →
      sockSends client.sock none ((Iksemel.tags message).map fun stanza => (Iksemel.string stanza).bytes) s₁.net =
        .ok ((), net) →
      Upright { s₁ with net } →
      (if isTerminate message then Ended c { s₁ with net } s' else s' = { s₁ with net }) →
      Serves c h rid message s s'

theorem jbServe_exact (upright : Upright s) (here : s.clients c = some client) (rid : CString)
    (message : Iks) :
    Ensures (jbServe c h rid message s) (fun _ s' => Serves c h (scanInt64 rid.bytes) message s s')
      fun _ => True := by
  unfold jbServe
  rw [ensures_bind]
  refine (jcSetHttp_exact upright here _).mono ?_ fun _ _ => trivial
  rintro _ s₁ ⟨sets, upright₁⟩
  obtain ⟨client₁, here₁, -⟩ := sets.stays here
  have forward := upright₁.of_sim (p := { debt := some (c, Iksemel.tags message) })
    (jbForward_sim _ rfl rfl here₁ rfl) (tidy_lasting.durable.jbForward_keeps _ _)
  rw [run_bind_ok (getClient_run here₁), ensures_bind]
  rw [jbForward_sends] at forward ⊢
  cases sent : sockSends client₁.sock none ((Iksemel.tags message).map fun stanza =>
      (Iksemel.string stanza).bytes) s₁.net with
  | error fault =>
    rw [onNet_error sent]
    trivial
  | ok result =>
    rw [onNet_run sent] at forward ⊢
    have here₂ : ({ s₁ with net := result.2 } : Server Iks).clients c = some client₁ := here₁
    change Ensures ((if isTerminate message then jbCloseClient c else pure ()) _) _ _
    split
    · rename_i terminates
      refine (jbCloseClient_exact forward here₂).mono ?_ fun _ _ => trivial
      exact fun _ s' ended => .intro sets upright₁ here₁ sent forward (by rwa [if_pos terminates])
    · rename_i goes
      exact .intro sets upright₁ here₁ sent forward (by rw [if_neg goes])

def ridOf (message : Iks) : Option UInt64 :=
  (Iksemel.findAttrib message "rid").bind fun rid => scanInt64 rid.bytes

/-- A request names a session if it is a POST whose body has a sid in use, and a rid. -/
theorem named_eq_some {request : HttpRequest} {message : Iks}
    (who : named s request = some (c, message)) :
    request.header.type = ascii "POST" ∧
      iksTree request.data request.dataSize = .ok (some message) ∧
      ∃ sid rid, Iksemel.findAttrib message "sid" = some sid ∧
        Iksemel.findAttrib message "rid" = some rid ∧
        (scanInt64 sid.bytes).bind s.sids.find = some c := by
  obtain ⟨⟨sid, message'⟩, reads, finds⟩ := Option.bind_eq_some_iff.mp who
  obtain ⟨c', found, same⟩ := Option.bind_eq_some_iff.mp finds
  cases same
  unfold posted at reads
  split at reads
  · rename_i post
    split at reads
    · rename_i parsed
      obtain ⟨text, sidAttrib, reads⟩ := Option.bind_eq_some_iff.mp reads
      obtain ⟨value, scanned, reads⟩ := Option.bind_eq_some_iff.mp reads
      obtain ⟨rid, ridAttrib, same⟩ := Option.bind_eq_some_iff.mp reads
      cases same
      exact ⟨post, parsed, text, rid, sidAttrib, ridAttrib,
        Option.bind_eq_some_iff.mpr ⟨sid, scanned, found⟩⟩
    · cases reads
  · cases reads

theorem jbHandleRequest_serves {request : HttpRequest} {message : Iks} (upright : Upright s)
    (who : named s request = some (c, message)) :
    Ensures (jbHandleRequest request s)
      (fun _ s' => Serves c request.connection (ridOf message) message s s') fun _ => True := by
  obtain ⟨post, parsed, sid, rid, sidAttrib, ridAttrib, found⟩ := named_eq_some who
  obtain ⟨value, -, stored⟩ := Option.bind_eq_some_iff.mp found
  obtain ⟨client, here, -⟩ := upright.find_iff.mp stored
  have same : ridOf message = scanInt64 rid.bytes := by simp [ridOf, ridAttrib]
  unfold jbHandleRequest
  rw [if_pos post, jbHandleHttpPost_serves parsed sidAttrib ridAttrib found, same]
  exact jbServe_exact upright here rid message

end Sessions

end Bosh
