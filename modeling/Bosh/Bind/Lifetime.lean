import Bosh.Bind.Isolation
import Bosh.Server.Shutdown

/-! How long a session lasts: what ends it, over whole runs. -/
namespace Bosh
open Effect Text

variable {Iks : Type}

structure Present (c : ClientId) (there : Bool) (s : Server Iks) : Prop where
  here : (s.clients c).isSome = there
  known : c < s.nextClient

section Present
variable {c : ClientId} {there : Bool}

theorem present_indifferent {c' : ClientId} (other : c' ≠ c) :
    Indifferent (Present c there : Server Iks → Prop) c' where
  frame _ _ h _ later clients _ := ⟨clients c h.known (Ne.symm other) ▸ h.here, later ▸ h.known⟩
  record _ _ h _ := ⟨h.here, h.known⟩

theorem present_elsewhere : Indifferent (Present c there : Server Iks → Prop) (c + 1) :=
  present_indifferent (later_session c)

theorem modifyClient_present (c' : ClientId) (f : JabberClient Iks → JabberClient Iks) :
    Keeps (Present c there) (modifyClient c' f) := by
  intro s h
  unfold modifyClient getClient
  rw [ensures_bind, ensures_demand]
  refine ⟨fun client found => ⟨?_, h.known⟩, fun _ => trivial⟩
  rw [← h.here]
  by_cases mine : c = c'
  · simp [mine, found]
  · simp [mine]

theorem record_present (entry : Record Iks) :
    Keeps (Present c there) (modify (Server.record entry) : ServerM Iks Unit) :=
  .modify fun _ h => ⟨h.here, h.known⟩

theorem modifyConnection_present (h : ConnectionId) (f : HttpConnection → HttpConnection) :
    Keeps (Present c there) (modifyConnection h f : ServerM Iks Unit) :=
  .bind (getConnection_durable h) fun _ => .modify fun _ h => ⟨h.here, h.known⟩

theorem hsAnswerRequest_present (h : ConnectionId) (answerer : Answerer Iks)
    (msg contentType : Bytes) :
    Keeps (Present c there) (hsAnswerRequest h answerer msg contentType) := by
  refine .bind (getConnection_durable h) fun _ => .bind (present_elsewhere.onNet_keeps _) fun _ => ?_
  refine .bind (present_elsewhere.onNet_keeps _) fun _ => ?_
  exact .bind (modifyConnection_present h _) fun _ => record_present _

theorem jcDropRequest_present (c' : ClientId) (terminate : Bool) :
    Keeps (Present c there) (jcDropRequest c' terminate : ServerM Iks Unit) := by
  refine .bind (getClient_durable c') fun _ => ?_
  dsimp only
  split
  · exact .throw _
  · refine .bind (hsAnswerRequest_present _ _ _ _) fun _ => .bind (modifyClient_present c' _) fun _ => ?_
    exact .bind present_elsewhere.getTime_keeps fun _ => modifyClient_present c' _

theorem jcHandleStanza_present (c' : ClientId) (type : IksType) (stanza : Option Iks) :
    Keeps (Present c there) (jcHandleStanza c' type stanza) := by
  unfold jcHandleStanza
  split
  · exact .pure _
  · cases type with
    | normal => exact .bind (modifyClient_present c' _) fun _ => record_present _
    | error | stop => exact modifyClient_present c' _
    | start => exact .pure _

theorem hcDelete_present (h : ConnectionId) :
    Keeps (Present c there) (hcDelete h : ServerM Iks Unit) := by
  refine .bind (getConnection_durable h) fun connection => ?_
  extract_lets rest
  have later : ∀ u, Keeps (Present c there) (rest u) := fun _ =>
    present_elsewhere.hcDelete_rest h connection fun _ h => ⟨h.here, h.known⟩
  split
  · exact later ()
  · refine .bind (.bind (modifyClient_present _ _) fun _ => ?_) later
    exact .bind present_elsewhere.getTime_keeps fun _ => modifyClient_present _ _

variable [Iksemel Iks]

theorem jcFlushMessages_present (c' : ClientId) :
    Keeps (Present c there) (jcFlushMessages c' : ServerM Iks Unit) := by
  refine .bind (getClient_durable c') fun _ => ?_
  dsimp only
  split
  · exact .pure _
  · split
    · refine .bind (modifyClient_present c' _) fun _ => .bind (.checked _) fun _ => ?_
      refine .bind (hsAnswerRequest_present _ _ _ _) fun _ => .bind (modifyClient_present c' _) fun _ => ?_
      exact .bind present_elsewhere.getTime_keeps fun _ => modifyClient_present c' _
    · exact .pure _

theorem jcSetHttp_present (c' : ClientId) (h : ConnectionId) (rid : Option UInt64) :
    Keeps (Present c there) (jcSetHttp c' h rid : ServerM Iks Unit) := by
  refine .bind (getClient_durable c') fun _ => .maybe (jcDropRequest_present c' false) fun _ => ?_
  refine .bind (modifyClient_present c' _) fun _ => .bind (record_present _) fun _ => ?_
  refine .bind present_elsewhere.getTime_keeps fun _ => .bind (modifyClient_present c' _) fun _ => ?_
  exact .bind (modifyConnection_present h _) fun _ => jcFlushMessages_present c'

omit [Iksemel Iks] in
theorem jbCloseClient_present {c' : ClientId} (spared : c' ≠ c ∨ there = false) :
    Keeps (Present c there) (jbCloseClient c' : ServerM Iks Unit) := by
  by_cases mine : c' = c
  · subst mine
    intro s h
    obtain rfl : there = false := spared.resolve_left (absurd rfl)
    have missing : s.clients c' = none := by simpa using h.here
    have fails : getClient c' s = .error .useAfterFree := run_demand_none missing
    unfold jbCloseClient
    rw [run_bind_error fails]
    trivial
  · exact (present_indifferent mine).jbCloseClient_leads fun s h =>
      (present_indifferent mine).record s _ h nofun

theorem present_sheltered (c : ClientId) (there : Bool) :
    Sheltered (Present c there : Server Iks → Prop) (fun _ => True) (fun c' => c' ≠ c ∨ there = false)
      fun _ => True where
  net := present_elsewhere.onNet_keeps
  time := present_elsewhere.getTime_keeps
  flush _ _ := jcFlushMessages_present _
  stanza _ _ _ _ := jcHandleStanza_present _ _ _
  setHttp _ h rid _ := jcSetHttp_present _ h rid
  closeSession _ spared := jbCloseClient_present spared
  openSession h host _ sock := present_elsewhere.jbOpenSession_keeps h host sock
    fun s s' _ kept _ next clients _ _ => by
      refine ⟨?_, next ▸ Nat.lt_succ_of_lt kept.known⟩
      rw [clients, Function.update_of_ne kept.known.ne]
      exact kept.here
  create := present_elsewhere.hcCreate_keeps
  change _ _ _ := modifyConnection_present _ _
  received _ _ _ kept := ⟨kept.here, kept.known⟩
  request _ _ _ kept := ⟨kept.here, kept.known⟩
  answer _ _ _ := hsAnswerRequest_present _ _ _ _
  deleteConnection _ _ := hcDelete_present _

end Present

section Ends
variable [Iksemel Iks] {c : ClientId} {client : JabberClient Iks} {r r' : Configuration Iks}
  {input : Input Iks}

omit [Iksemel Iks] in
/-- An event on the session's own socket that ends it: an error, a connection that failed, or a
read in which the stream or the socket ends. -/
def Fatal (events : Events) (sock : Socket) (oracle : Oracle Iks) : Prop :=
  events.error ∨ events.hangup ∨
  (events.output ∧ sock.status = .connecting ∧ oracle.socketError ≠ 0) ∨
  (¬ events.output ∧ events.input ∧ sock.status = .connected ∧
    ((reading oracle.arrivals).failed ∨ (reading oracle.arrivals).closed ∨
      (reading oracle.arrivals).events.any marksDead))

/-- The inputs that end a session. -/
inductive Ends (c : ClientId) (client : JabberClient Iks) (r : Configuration Iks) :
    Input Iks → Prop where
  | socket {input : Input Iks} {events : Events} {sock : Socket} :
    r.turn input = some (events, client.sock) → r.server.net.sockets client.sock = some sock →
      Fatal events sock input.oracle → Ends c client r input
  | terminated {input : Input Iks} {request : HttpRequest} {message : Iks} :
    r.request input = some request → named r.server request = some (c, message) →
      isTerminate message → Ends c client r input
  | idle {oracle : Oracle Iks} : client.connection = none →
    r.server.sessionTimeout ≤ (r.server.hear oracle).now - client.timestamp →
      Ends c client r (.timeout oracle)
  | shutdown {oracle : Oracle Iks} : Ends c client r (.shutdown oracle)

omit [Iksemel Iks] in
theorem known_indifferent (c c' : ClientId) :
    Indifferent (fun s : Server Iks => c < s.nextClient) c' where
  frame _ _ h _ later _ _ := later ▸ h
  record _ _ h _ := h

omit [Iksemel Iks] in
theorem jbCloseClient_gone (c : ClientId) :
    Leads (fun s : Server Iks => c < s.nextClient) (Present c false) (jbCloseClient c) := by
  have known : Indifferent (fun s : Server Iks => c < s.nextClient) c := known_indifferent c c
  refine .bind (getClient_durable c) fun client => .maybe (known.jcDropRequest_keeps true) fun _ => ?_
  refine .bind (known.onNet_keeps _) fun _ => .read fun s _ => ?_
  split
  · exact .throw _
  · refine .bind (show Keeps (fun s : Server Iks => c < s.nextClient) _ from fun s h =>
      known.same h rfl rfl rfl rfl) fun _ => ?_
    exact .bind (.modify fun s h => ⟨by simp, h⟩) fun _ => record_present _

theorem socketCallback_own {s : Server Iks} (upright : Upright s) (known : c < s.nextClient)
    (here : s.clients c = some client) (alive : client.alive = true) {sock : Socket}
    (there : s.net.sockets client.sock = some sock) (events : Events) :
    Ensures (socketCallback events client.sock s)
      (fun _ s' => s'.clients c = none ↔ Fatal events sock s.oracle) fun _ => True := by
  obtain ⟨sock', there', calls, -⟩ := upright.sound.estate.owned _ _ (estate_session here)
  obtain rfl : sock = sock' := Option.some.inj (there.symm.trans there')
  have stays : ∀ {α : Type} {program : ServerM Iks α}, Keeps (Present c true) program →
      ¬ Fatal events sock s.oracle →
        Ensures (program s) (fun _ s' => s'.clients c = none ↔ Fatal events sock s.oracle)
          fun _ => True := by
    intro _ _ keeps harmless
    refine (keeps s ⟨by simp [here], known⟩).mono (fun _ s' h => iff_of_false ?_ harmless) fun _ => id
    exact Option.isSome_iff_ne_none.mp h.here
  have ends : ∀ {α : Type} {program : ServerM Iks α},
      Leads (fun s : Server Iks => c < s.nextClient) (Present c false) program →
      Fatal events sock s.oracle →
        Ensures (program s) (fun _ s' => s'.clients c = none ↔ Fatal events sock s.oracle)
          fun _ => True := by
    intro _ _ leads fatal
    refine (leads s known).mono (fun _ s' h => iff_of_true ?_ fatal) fun _ => id
    simpa using h.here
  have net : ∀ {α : Type} (program : NetM α), Keeps (Present c true : Server Iks → Prop) (onNet program) :=
    present_elsewhere.onNet_keeps
  have closes : ∀ program : NetM Unit, Leads (fun s : Server Iks => c < s.nextClient) (Present c false)
      (onNet program >>= fun _ => jbCloseClient c) := fun program =>
    .bind ((known_indifferent c c).onNet_keeps program) fun _ => jbCloseClient_gone c
  by_cases broken : events.error ∨ events.hangup
  · have fatal : Fatal events sock s.oracle := broken.elim .inl fun hangup => .inr (.inl hangup)
    have error : sock.errorCallback = some (.jcHandleError c) := congrArg (·.2.2) calls
    unfold socketCallback
    rw [run_bind_ok (onNet_run (getSocket_run there)), run_get]
    simp only [if_pos broken, error]
    exact ends (closes _) fatal
  have unbroken := not_or.mp broken
  by_cases output : events.output
  · rw [socketCallback_output broken output there,
      show sock.connectCallback = some (.jcAnswerCreation c) from congrArg (·.2.1) calls]
    by_cases refused : sock.status = .connecting ∧ s.oracle.socketError ≠ 0
    · have fatal : Fatal events sock s.oracle := .inr (.inr (.inl ⟨output, refused⟩))
      simp only [if_pos refused.1, Option.elim, runConnectCallback, jcAnswerCreation, if_pos refused.2]
      exact ends (closes _) fatal
    · have harmless : ¬ Fatal events sock s.oracle := by
        simp [Fatal, unbroken, output, refused]
      refine stays (.bind (net _) fun _ => ?_) harmless
      split
      · rename_i connecting
        have fine : ¬ s.oracle.socketError ≠ 0 := fun failed => refused ⟨connecting, failed⟩
        simp only [Option.elim, runConnectCallback, jcAnswerCreation, if_neg fine]
        exact .pure _
      · exact .pure _
  unfold socketCallback
  rw [run_bind_ok (onNet_run (getSocket_run there)), run_get]
  simp only [if_neg broken, if_neg output]
  by_cases readable : events.input
  case neg =>
    rw [if_neg readable]
    exact stays (.pure _) (by simp [Fatal, unbroken, output, readable])
  rw [if_pos readable]
  by_cases connected : sock.status = .connected
  · have data : sock.dataCallback = some (.jcReadJabber c) := congrArg (·.1) calls
    have fatal : Fatal events sock s.oracle ↔ (reading s.oracle.arrivals).failed ∨
        (reading s.oracle.arrivals).closed ∨ (reading s.oracle.arrivals).events.any marksDead := by
      simp only [Fatal, unbroken, output, readable, connected]
      simp
    simp only [connected, data, runDataCallback]
    cases done : jcReadJabber c s with
    | error fault => trivial
    | ok result =>
      have gone := (jcReadJabber_ends upright here alive there connected done).1
      obtain ⟨_, _, -, -, -, upright'⟩ := (jcReadJabber_exact upright here there connected).of_ok done
      exact (upright'.gone_iff.symm.trans gone).trans fatal.symm
  · have harmless : ¬ Fatal events sock s.oracle := by
      simp [Fatal, unbroken, output, connected]
    cases status : sock.status with
    | connected => exact absurd status connected
    | listening =>
      cases sock.acceptCallback with
      | none => exact stays (net _) harmless
      | some accept => exact stays (present_sheltered c true).hsAccept_keeps harmless
    | idle | connecting => exact stays (.pure _) harmless

theorem step_turn {events : Events} {i : SocketId} (turn : r.turn input = some (events, i)) :
    ∃ control, step input r = (socketCallback events i (r.heard input)).map fun result =>
      { server := result.2, control } := by
  obtain ⟨server, control⟩ := r
  unfold Configuration.turn at turn
  split at turn
  · rename_i oracle si events' rest same
    obtain ⟨j, target, pair⟩ := Option.map_eq_some_iff.mp turn
    cases pair
    replace same : control = _ := same
    subst same
    have called : smDispatch (si, events) (server.hear oracle) =
        socketCallback events i (server.hear oracle) := by
      unfold smDispatch
      rw [run_bind_ok (onNet_run (smTarget_run (n := (server.hear oracle).net) target))]
    exact ⟨.dispatching rest, congrArg (Except.map fun result : Unit × Server Iks =>
      ({ server := result.2, control := .dispatching rest } : Configuration Iks)) called⟩
  · cases turn

omit [Iksemel Iks] in
theorem own_requests {events : Events} {s : Server Iks} (upright : Upright s)
    (here : s.clients c = some client) : requestOf events client.sock s = none := by
  obtain ⟨sock, there, calls, -⟩ := upright.sound.estate.owned _ _ (estate_session here)
  have data : sock.dataCallback = some (.jcReadJabber c) := congrArg (·.1) calls
  have found : s.net.sockets client.sock = some sock := there
  simp [requestOf, found, data]

theorem step_gone {oracle : Oracle Iks} (run : Reachable r)
    (done : step (.shutdown oracle) r = .ok r') (c : ClientId) : r'.server.clients c = none := by
  have sound := (run.step trivial done).sound
  obtain ⟨s, control⟩ := r
  cases control with
  | polling =>
    have outcome : (jbDelete (s.hear oracle)).map (fun result =>
        ({ server := result.2, control := .finished } : Configuration Iks)) = .ok r' := done
    cases ran : jbDelete (s.hear oracle) with
    | error fault =>
      rw [ran] at outcome
      cases outcome
    | ok result =>
      rw [ran] at outcome
      cases outcome
      have listens := run.intact.listens (by simp)
      have empty := ((jbDelete_exact (run.orderly.hear oracle) listens).of_ok ran).1
      have unlisted : c ∉ Chain.values result.2.jabberConnections := by simp [empty, Chain.values]
      simpa using mt sound.mem_jabberConnections.mpr unlisted
  | _ => cases done

theorem jbHandleRequest_gone {s : Server Iks} {request : HttpRequest} {message : Iks}
    (known : c < s.nextClient) (who : named s request = some (c, message))
    (terminates : isTerminate message) :
    Ensures (jbHandleRequest request s) (fun _ s' => Present c false s') fun _ => True := by
  obtain ⟨post, parsed, sid, rid, sidAttrib, ridAttrib, found⟩ := named_eq_some who
  have keeps : Indifferent (fun s : Server Iks => c < s.nextClient) c := known_indifferent c c
  unfold jbHandleRequest
  rw [if_pos post, jbHandleHttpPost_serves parsed sidAttrib ridAttrib found]
  refine Leads.bind (keeps.jcSetHttp_leads _ _ (fun _ h => h) keeps)
    (fun _ => .bind (getClient_durable c) fun client => ?_) s known
  rw [jbForward_sends]
  refine .bind (keeps.onNet_keeps _) fun _ => ?_
  rw [if_pos terminates]
  exact jbCloseClient_gone c

omit [Iksemel Iks] in
theorem hcReadRest_present (h : ConnectionId) (length : Nat) (there : Bool) :
    Keeps (Present c there) (hcReadRest h length : ServerM Iks Unit) := by
  refine .bind (modifyConnection_present h _) fun _ => .bind (getConnection_durable h) fun _ => ?_
  refine .bind (getSocket_durable _) fun _ => ?_
  split
  · exact hcDelete_present h
  · exact .pure _

theorem step_checks {oracle : Oracle Iks} (run : Reachable r)
    (here : r.server.clients c = some client) (done : step (.timeout oracle) r = .ok r') :
    r'.server.clients c = none ↔ Ends c client r (.timeout oracle) := by
  have checked := checked_of (run.upright.hear oracle) (step_check done)
  have lasts (early : (r.server.hear oracle).now < client.deadline r.server.sessionTimeout) :
      r'.server.clients c ≠ none := by
    rw [checked.kept c client here early]
    simp
  cases held : client.connection with
  | none =>
    have deadline : client.deadline r.server.sessionTimeout =
        client.timestamp + r.server.sessionTimeout := by simp [JabberClient.deadline, held]
    by_cases due : r.server.sessionTimeout ≤ (r.server.hear oracle).now - client.timestamp
    · exact iff_of_true (checked.closed c client here held due).1 (.idle held due)
    · refine iff_of_false (lasts (by omega)) fun ends => ?_
      cases ends with
      | idle _ due' => exact due due'
      | socket turn => cases turn
      | terminated completes => cases completes
  | some h =>
    have deadline : client.deadline r.server.sessionTimeout = client.timestamp + client.wait := by
      simp [JabberClient.deadline, held]
    refine iff_of_false ?_ fun ends => ?_
    · by_cases due : client.wait ≤ (r.server.hear oracle).now - client.timestamp
      · obtain ⟨timestamp, -, there⟩ := checked.dropped c client h here held due
        rw [there]
        simp
      · exact lasts (by omega)
    · cases ends with
      | idle unheld => cases held.symm.trans unheld
      | socket turn => cases turn
      | terminated completes => cases completes

/-- A step ends a session exactly when its input is one of these. -/
theorem step_ends (run : Reachable r) (here : r.server.clients c = some client)
    (done : step input r = .ok r') : r'.server.clients c = none ↔ Ends c client r input := by
  have upright := run.upright
  have known : c < r.server.nextClient :=
    upright.sound.directory.below c (by simp [Server.directory, here])
  by_cases check : ∃ oracle, input = .timeout oracle
  · obtain ⟨oracle, rfl⟩ := check
    exact step_checks run here done
  by_cases goes : ∃ oracle, input = .shutdown oracle
  · obtain ⟨oracle, rfl⟩ := goes
    exact iff_of_true (step_gone run done c) .shutdown
  by_cases own : ∃ events, r.turn input = some (events, client.sock)
  · obtain ⟨events, turn⟩ := own
    obtain ⟨sock, there⟩ := Option.isSome_iff_exists.mp (upright.socket_session here)
    obtain ⟨control, ran⟩ := step_turn turn
    have outcome := socketCallback_own (upright.hear input.oracle) known here (run.alive here) there events
    change Ensures (socketCallback events client.sock (r.heard input)) _ _ at outcome
    rw [ran] at done
    cases result : socketCallback events client.sock (r.heard input) with
    | error fault =>
      rw [result] at done
      cases done
    | ok pair =>
      rw [result] at done
      cases done
      refine (outcome.of_ok result).trans ⟨fun fatal => .socket turn there fatal, fun ends => ?_⟩
      cases ends with
      | socket turn' there' fatal =>
        cases turn.symm.trans turn'
        cases there.symm.trans there'
        exact fatal
      | terminated completes =>
        obtain ⟨turn', whose, completes⟩ := Option.bind_eq_some_iff.mp completes
        cases turn.symm.trans whose
        cases (own_requests (upright.hear input.oracle) here).symm.trans completes
      | idle => exact absurd ⟨_, rfl⟩ check
      | shutdown => exact absurd ⟨_, rfl⟩ goes
  by_cases terminated : ∃ request message, r.request input = some request ∧
      named r.server request = some (c, message) ∧ isTerminate message
  · obtain ⟨request, message, completes, who, terminates⟩ := terminated
    refine iff_of_true ?_ (.terminated completes who terminates)
    obtain ⟨s, brings, sids, clients, next⟩ := request_brings completes
    have who' : named s request = some (c, message) := by
      rw [← who]
      simp only [named, sids]
    have gone := step_ensures upright brings (jbHandleRequest_gone (next ▸ known) who' terminates)
      (fun length => hcReadRest_present request.connection length false) done
    simpa using gone.here
  · have heard : ∀ oracle, Present c true (r.server.hear oracle) := fun _ => ⟨by simp [here], known⟩
    have kept := (present_sheltered c true).step_spares upright heard (not_exists.mp check)
      (not_exists.mp goes) ?_ (fun _ _ _ _ => trivial) ?_ done
    · refine iff_of_false (Option.isSome_iff_ne_none.mp kept.here) fun ends => ?_
      cases ends with
      | socket turn => exact own ⟨_, turn⟩
      | terminated completes who terminates => exact terminated ⟨_, _, completes, who, terminates⟩
      | idle => exact check ⟨_, rfl⟩
      | shutdown => exact goes ⟨_, rfl⟩
    · rintro ⟨events, i⟩ c' turn his
      refine ⟨trivial, .inl ?_⟩
      rintro rfl
      obtain rfl := Option.some.inj ((estate_session here).symm.trans his)
      exact own ⟨events, turn⟩
    · rintro request completes c' message who
      refine ⟨trivial, fun terminates => .inl ?_⟩
      rintro rfl
      exact terminated ⟨request, message, completes, who, terminates⟩

omit [Iksemel Iks] in
def Descends (c : ClientId) (s s' : Server Iks) : Prop :=
  c < s.nextClient → c < s'.nextClient ∧ ∀ client', s'.clients c = some client' →
    ∃ client, s.clients c = some client ∧ client'.sid = client.sid ∧ client'.sock = client.sock ∧
      client'.wait = client.wait

theorem Micro.descends {a : Assumed} {p p' : Phase Iks} {s s' : Server Iks}
    (step : Micro a (p, s) (p', s')) (c : ClientId) : Descends c s s' := by
  intro known
  have written : ∀ {k : ClientId} {client new : JabberClient Iks}, s.clients k = some client →
      new.sid = client.sid ∧ new.sock = client.sock ∧ new.wait = client.wait →
        ∀ client', Function.update s.clients k (some new) c = some client' →
          ∃ client, s.clients c = some client ∧ client'.sid = client.sid ∧
            client'.sock = client.sock ∧ client'.wait = client.wait := by
    intro k client new here same client' there
    by_cases mine : c = k
    · subst mine
      rw [Function.update_self, Option.some.injEq] at there
      exact ⟨client, here, there ▸ same⟩
    · rw [Function.update_of_ne mine] at there
      exact ⟨client', there, rfl, rfl, rfl⟩
  cases step with
  | openSession =>
    refine ⟨Nat.lt_succ_of_lt known, fun client' there => ⟨client', ?_, rfl, rfl, rfl⟩⟩
    dsimp only at there
    rwa [Function.update_of_ne known.ne] at there
  | stamp here => exact ⟨known, written here ⟨rfl, rfl, rfl⟩⟩
  | stanza _ here => exact ⟨known, written here ⟨rfl, rfl, rfl⟩⟩
  | kill _ here => exact ⟨known, written here ⟨rfl, rfl, rfl⟩⟩
  | deleteHeld _ _ _ here => exact ⟨known, written here ⟨rfl, rfl, rfl⟩⟩
  | drop here => exact ⟨known, written here ⟨rfl, rfl, rfl⟩⟩
  | flush here => exact ⟨known, written here ⟨rfl, rfl, rfl⟩⟩
  | hold _ _ _ _ _ here => exact ⟨known, written here ⟨rfl, rfl, rfl⟩⟩
  | forget =>
    exact ⟨known, fun client' there => ⟨client', (Table.of_update_none there).2, rfl, rfl, rfl⟩⟩
  | _ => exact ⟨known, fun client' there => ⟨client', there, rfl, rfl, rfl⟩⟩

omit [Iksemel Iks] in
theorem Descends.trans {s₁ s₂ s₃ : Server Iks} (first : Descends c s₁ s₂)
    (second : Descends c s₂ s₃) : Descends c s₁ s₃ := by
  intro known
  obtain ⟨known₂, before⟩ := first known
  obtain ⟨known₃, between⟩ := second known₂
  refine ⟨known₃, fun client₃ there₃ => ?_⟩
  obtain ⟨client₂, there₂, sid₂, sock₂, wait₂⟩ := between client₃ there₃
  obtain ⟨client₁, there₁, sid₁, sock₁, wait₁⟩ := before client₂ there₂
  exact ⟨client₁, there₁, sid₂.trans sid₁, sock₂.trans sock₁, wait₂.trans wait₁⟩

theorem step_descends (run : Reachable r) (done : step input r = .ok r') :
    Descends c r.server r'.server :=
  step_relates (fun _ known => ⟨known, fun client' there => ⟨client', there, rfl, rfl, rfl⟩⟩)
    (fun _ _ _ => Descends.trans)
    (fun _ _ known => ⟨known, fun client' there => ⟨client', there, rfl, rfl, rfl⟩⟩)
    (fun _ _ _ _ step => step.descends c) run.sound done

/-- One of the inputs finds the session there and ends it. -/
def EndsDuring (c : ClientId) : List (Input Iks) → Configuration Iks → Prop
  | [], _ => False
  | input :: inputs, r =>
    (∃ client, r.server.clients c = some client ∧ Ends c client r input) ∨
      ∃ r', step input r = .ok r' ∧ EndsDuring c inputs r'

theorem follow_ends {inputs : List (Input Iks)} (run : Reachable r)
    (known : c < r.server.nextClient) (done : follow (fun _ _ => True) inputs r = some r') :
    (r'.server.clients c = none ↔ r.server.clients c = none ∨ EndsDuring c inputs r) ∧
      Descends c r.server r'.server := by
  induction inputs generalizing r with
  | nil =>
    cases done
    refine ⟨by simp [EndsDuring], fun known => ⟨known, fun client' there => ?_⟩⟩
    exact ⟨client', there, rfl, rfl, rfl⟩
  | cons input inputs ih =>
    rw [follow, if_pos trivial] at done
    cases stepped : step input r with
    | error fault =>
      rw [stepped] at done
      cases done
    | ok r₁ =>
      rw [stepped] at done
      have descends := step_descends run stepped (c := c)
      obtain ⟨rest, descends'⟩ := ih (run.step trivial stepped) (descends known).1 done
      refine ⟨rest.trans ?_, descends.trans descends'⟩
      have later : EndsDuring c (input :: inputs) r ↔ (∃ client, r.server.clients c = some client ∧
          Ends c client r input) ∨ EndsDuring c inputs r₁ := by
        simp [EndsDuring, stepped]
      rw [later]
      cases here : r.server.clients c with
      | none =>
        have gone : r₁.server.clients c = none := by
          by_contra there
          obtain ⟨client₁, there⟩ := Option.ne_none_iff_exists'.mp there
          obtain ⟨client, there', -⟩ := (descends known).2 client₁ there
          cases here.symm.trans there'
        simp [gone]
      | some client => simp [step_ends run here stepped]

/-- A session is gone after a run exactly when an input of the run has ended it; until then it
keeps its sid, its socket and its wait. -/
theorem session_ends_iff {inputs : List (Input Iks)} (run : Reachable r)
    (here : r.server.clients c = some client)
    (done : follow (fun _ _ => True) inputs r = some r') :
    (r'.server.clients c = none ↔ EndsDuring c inputs r) ∧
      ∀ client', r'.server.clients c = some client' →
        client'.sid = client.sid ∧ client'.sock = client.sock ∧ client'.wait = client.wait := by
  have known : c < r.server.nextClient :=
    run.sound.directory.below c (by simp [Server.directory, here])
  obtain ⟨ends, descends⟩ := follow_ends run known done
  refine ⟨by simpa [here] using ends, fun client' there => ?_⟩
  obtain ⟨client₀, here₀, same⟩ := (descends known).2 client' there
  obtain rfl := Option.some.inj (here.symm.trans here₀)
  exact same

end Ends

namespace Sample

def parting : List (Input Sample) := held ++ [.wait {} [(4, .epollIn)]]

theorem parting_works : (replay (fun _ _ => True) boot parting).isSome := by decide +kernel

end Sample

theorem session_ends_iff_parting : ∃ r' : Configuration Sample,
    follow (fun _ _ => True)
      [.event { arrivals := [{ result := .data (Sample.post "terminate") }] }]
      (Sample.reached (fun _ _ => True) Sample.parting Sample.parting_works) = some r' ∧
    r'.server.clients 0 = none := by
  generalize reached :
    Sample.reached (fun _ _ => True) Sample.parting Sample.parting_works = r
  generalize asked :
    Input.event { arrivals := [{ result := .data (Sample.post "terminate") }] } = input
  have run : Reachable r := reached ▸ Sample.reaches_reached
  have works : (follow (fun _ _ => True) [input] r).isSome := by
    rw [← reached, ← asked]
    decide +kernel
  have there : (r.server.clients 0).isSome := by
    rw [← reached]
    decide +kernel
  have read : ((r.request input).bind fun request => named r.server request).any
      fun session => session.1 = 0 ∧ isTerminate session.2 := by
    rw [← reached, ← asked]
    decide +kernel
  obtain ⟨⟨c, sent⟩, read, found⟩ := (Option.any_eq_true _ _).mp read
  obtain ⟨request, complete, who⟩ := Option.bind_eq_some_iff.mp read
  obtain ⟨rfl, terminates⟩ := of_decide_eq_true found
  obtain ⟨r', done⟩ := Option.isSome_iff_exists.mp works
  obtain ⟨client, here⟩ := Option.isSome_iff_exists.mp there
  exact ⟨r', done, (session_ends_iff run here done).1.mpr
    (.inl ⟨client, here, .terminated complete who terminates⟩)⟩

end Bosh
