import Bosh.Bind.Ending
import Bosh.Bind.Holding

/-! What reaches a session: its own socket, the connection whose request it holds, the requests
that name it, and the clock. Nothing else changes its record, and less than this ends it. -/
namespace Bosh
open Effect Text

variable {Iks : Type} [Iksemel Iks]

/-- A condition that the functions which the callbacks are made of keep as long as they use only
sessions in `uses`, close only those in `closes` and delete only connections in `deletes`. -/
structure Sheltered (kept : Server Iks → Prop) (uses closes : ClientId → Prop)
    (deletes : ConnectionId → Prop) : Prop where
  net : ∀ {α : Type} (program : NetM α), Keeps kept (onNet program)
  time : Keeps kept getTime
  -- sessions
  flush : ∀ c, uses c → Keeps kept (jcFlushMessages c)
  stanza : ∀ c type stanza, uses c → Keeps kept (jcHandleStanza c type stanza)
  setHttp : ∀ c h rid, uses c → Keeps kept (jcSetHttp c h rid)
  closeSession : ∀ c, closes c → Keeps kept (jbCloseClient c)
  openSession : ∀ h host wait sock, Keeps kept (jbOpenSession h host wait sock)
  -- connections
  create : ∀ sock, Keeps kept (hcCreate sock)
  change : ∀ h f, (∀ connection, (f connection).closeCallback = connection.closeCallback) →
    Keeps kept (modifyConnection h f)
  received : ∀ s h bytes, kept s → kept (s.record (.received h bytes))
  request : ∀ s h request, kept s → kept (s.record (.request h request))
  answer : ∀ h msg contentType, Keeps kept (hsAnswerRequest h .request msg contentType)
  deleteConnection : ∀ h, deletes h → Keeps kept (hcDelete h)

def Permits (uses closes : ClientId → Prop) (s : Server Iks) (request : HttpRequest) : Prop :=
  ∀ c message, named s request = some (c, message) → uses c ∧ (isTerminate message → closes c)

namespace Sheltered
variable {kept : Server Iks → Prop} {uses closes : ClientId → Prop} {deletes : ConnectionId → Prop}
  (sheltered : Sheltered kept uses closes deletes)
include sheltered

theorem jcReadLoop_keeps {c : ClientId} (used : uses c) (arrivals : List (Arrival Iks)) :
    Keeps kept (jcReadLoop c arrivals) := by
  induction arrivals with
  | nil => exact .bind (getClient_durable c) fun _ => .bind (sheltered.net _) fun _ => .pure _
  | cons arrival arrivals ih =>
    refine .bind (getClient_durable c) fun client => .bind (sheltered.net _) fun bytes => ?_
    split
    · exact .pure _
    · refine .bind (.loop (fun _ => sheltered.stanza _ _ _ used) _) fun _ => ?_
      split
      · exact ih
      · exact .pure _

theorem jcReadJabber_keeps {c : ClientId} (used : uses c) (closed : closes c) :
    Keeps kept (jcReadJabber c : ServerM Iks Unit) := by
  refine .read fun s _ =>
    .bind (sheltered.jcReadLoop_keeps used _) fun ok => .bind (sheltered.flush c used) fun _ => ?_
  refine .bind (getClient_durable c) fun client => .bind (sheltered.net _) fun sock => ?_
  split
  · exact sheltered.closeSession c closed
  · exact .pure _

theorem jcReportError_keeps (connection : ConnectionId) (code : BindErrorCode) :
    Keeps kept (jcReportError connection code : ServerM Iks Unit) := sheltered.answer _ _ _

theorem jbConnectClient_keeps (connection : ConnectionId) (body : Iks) :
    Keeps kept (jbConnectClient connection body) := by
  have refused : ∀ code, Keeps kept (jcReportError connection code : ServerM Iks Unit) :=
    sheltered.jcReportError_keeps connection
  unfold jbConnectClient
  split
  · exact refused _
  · split
    · exact refused _
    · split
      · exact refused _
      · refine .read fun s _ => ?_
        split
        · exact refused _
        · refine .bind (sheltered.net _) fun sock => .bind (sheltered.net _) fun connected => ?_
          split
          · exact sheltered.openSession _ _ _ _
          · exact .bind (sheltered.net _) fun _ => refused _

theorem jbServe_keeps {c : ClientId} {message : Iks} (used : uses c)
    (closed : isTerminate message → closes c) (h : ConnectionId) (rid : CString) :
    Keeps kept (jbServe c h rid message) := by
  refine .bind (sheltered.setHttp _ _ _ used) fun _ => .bind (getClient_durable _) fun client => ?_
  rw [jbForward_sends]
  refine .bind (sheltered.net _) fun _ => ?_
  split
  · rename_i terminates
    exact sheltered.closeSession _ (closed terminates)
  · exact .pure _

theorem jbHandleRequest_spares {s : Server Iks} {request : HttpRequest} (h : kept s)
    (permits : Permits uses closes s request) :
    Ensures (jbHandleRequest request s) (fun _ s' => kept s') fun _ => True := by
  have refused : ∀ code, Keeps kept (jcReportError request.connection code : ServerM Iks Unit) :=
    sheltered.jcReportError_keeps request.connection
  unfold jbHandleRequest
  split
  case isFalse =>
    split
    · exact Keeps.bind sheltered.time (fun _ => .read fun _ _ => sheltered.answer _ _ _) s h
    · exact refused _ s h
  case isTrue post =>
    unfold jbHandleHttpPost
    rw [ensures_bind, ensures_checked]
    refine ⟨fun parsed tree => ?_, fun _ _ => trivial⟩
    cases parsed with
    | none => exact refused _ s h
    | some message =>
      dsimp only
      cases sidAttrib : Iksemel.findAttrib message "sid" with
      | none => exact sheltered.jbConnectClient_keeps _ _ s h
      | some text =>
        dsimp only
        cases scanned : scanInt64 text.bytes with
        | none => exact refused _ s h
        | some sid =>
          dsimp only
          cases ridAttrib : Iksemel.findAttrib message "rid" with
          | none => exact refused _ s h
          | some rid =>
            dsimp only
            rw [ensures_bind, ensures_get]
            cases found : s.sids.find sid with
            | none => exact refused _ s h
            | some c =>
              have who : named s request = some (c, message) := by
                simp [named, posted, post, tree, sidAttrib, scanned, ridAttrib, found]
              obtain ⟨used, closed⟩ := permits c message who
              exact sheltered.jbServe_keeps used closed request.connection rid s h

theorem hcReportError_keeps (h : ConnectionId) (msg : Bytes) :
    Keeps kept (hcReportError h msg : ServerM Iks Unit) :=
  .bind (getConnection_durable h) fun _ => .bind (sheltered.net _) fun _ => sheltered.net _

theorem hsAccept_keeps : Keeps kept (hsAccept : ServerM Iks Unit) := by
  refine .read fun s _ => .bind (sheltered.net _) fun client => ?_
  split
  · exact .pure _
  · exact sheltered.create _

theorem hcReceived_spares {s : Server Iks} {h : ConnectionId} {bytes : Bytes}
    {connection : HttpConnection} (held : kept s) (here : s.connections h = some connection)
    (permits : ∀ request length,
      (connection.receive bytes).frame h = .ok (.complete request length) →
        Permits uses closes s request) :
    Ensures (hcReceived h bytes s) (fun _ s' => kept s') fun _ => True := by
  have changed := sheltered.change h (HttpConnection.receive bytes) (fun _ => rfl) s held
  rw [modifyConnection_run here] at changed
  have there : ((s.setConnection h (some (connection.receive bytes))).record
      (.received h bytes)).connections h = some (connection.receive bytes) :=
    Function.update_self ..
  unfold hcReceived
  rw [run_bind_ok (modifyConnection_run here _), run_modify, run_bind_ok (getConnection_run there)]
  have told := sheltered.received _ h bytes changed
  split
  · unfold hcProcess
    rw [run_bind_ok (getConnection_run there), ensures_bind, ensures_checked]
    refine ⟨fun outcome framed => ?_, fun _ _ => trivial⟩
    cases outcome with
    | tooBig => exact sheltered.hcReportError_keeps h _ _ told
    | incomplete => exact told
    | complete request length =>
      dsimp only
      rw [ensures_bind, ensures_modify, ensures_bind]
      refine (sheltered.jbHandleRequest_spares (sheltered.request _ h request told) ?_).mono
        (fun _ s' kept => sheltered.change h _ consume_callback s' kept) fun _ => id
      exact permits request length framed
  · exact told

theorem hcRead_spares {s : Server Iks} {h : ConnectionId} (held : kept s) (deleted : deletes h)
    (permits : ∀ request, handed h s = some request → Permits uses closes s request) :
    Ensures (hcRead h s) (fun _ s' => kept s') fun _ => True := by
  have rest : Keeps kept (do
      let connection ← getConnection h
      let sock ← onNet (getSocket connection.sock)
      if sock.status ≠ .connected then hcDelete h : ServerM Iks Unit) := by
    refine .bind (getConnection_durable h) fun _ => .bind (sheltered.net _) fun _ => ?_
    split
    · exact sheltered.deleteConnection h deleted
    · exact .pure _
  unfold hcRead getConnection
  rw [ensures_bind, ensures_demand]
  refine ⟨fun connection here => ?_, fun _ => trivial⟩
  rw [ensures_bind, ensures_get, ensures_bind]
  unfold onNet
  rw [ensures_part]
  have keeps := sheltered.net
    (sockRecv connection.sock (maxBufferSize - connection.bufferSize) s.oracle.recv) s held
  unfold onNet at keeps
  rw [ensures_part] at keeps
  refine ((sockRecv_exact _ _ _ _).both keeps).mono ?_ fun _ _ => trivial
  rintro bytes net ⟨⟨arrived, -⟩, kept'⟩
  split
  · rename_i more
    rw [ensures_bind]
    refine (sheltered.hcReceived_spares kept' here fun request length framed => ?_).mono
      (fun _ s' => rest s') fun _ => id
    exact permits request
      (handed_eq_some.mpr ⟨connection, length, here, arrived ▸ more, arrived ▸ framed⟩)
  · exact rest _ kept'

theorem socketCallback_spares {s : Server Iks} {events : Events} {i : SocketId} (held : kept s)
    (owned : s.estate.Owned) (mine : ∀ c, s.estate.sock (.session c) = some i → uses c ∧ closes c)
    (line : ∀ h, s.estate.sock (.connection h) = some i → deletes h)
    (permits : ∀ request, requestOf events i s = some request → Permits uses closes s request) :
    Ensures (socketCallback events i s) (fun _ s' => kept s') fun _ => True := by
  cases here : s.net.sockets i with
  | none =>
    have missing : onNet (getSocket i) s = .error .useAfterFree :=
      onNet_error (run_demand_none here)
    unfold socketCallback
    rw [run_bind_error missing]
    trivial
  | some sock =>
    have connects : ∀ code, Keeps kept (sock.connectCallback.elim (pure ()) (runConnectCallback code) :
        ServerM Iks Unit) := by
      intro code
      obtain nobody | ⟨_ | c, calls, his⟩ := owned.owner i sock here
      · rw [show sock.connectCallback = none from congrArg (·.2.1) nobody]
        exact .pure _
      · rw [show sock.connectCallback = none from congrArg (·.2.1) calls]
        exact .pure _
      · rw [show sock.connectCallback = some (.jcAnswerCreation c) from congrArg (·.2.1) calls]
        change Keeps _ (if code ≠ 0 then jbCloseClient c else pure ())
        split
        · exact sheltered.closeSession c (mine c his).2
        · exact .pure _
    by_cases writable : ¬ (events.error ∨ events.hangup) ∧ events.output
    · rw [socketCallback_output writable.1 writable.2 here]
      refine Keeps.bind (sheltered.net _) (fun _ => ?_) s held
      split
      · exact connects _
      · exact .pure _
    · unfold socketCallback
      rw [run_bind_ok (onNet_run (getSocket_run here)), run_get]
      split
      · refine Keeps.bind (sheltered.net _) (fun _ => ?_) s held
        obtain nobody | ⟨h | c, calls, his⟩ := owned.owner i sock here
        · rw [show sock.errorCallback = none from congrArg (·.2.2) nobody]
          exact .pure _
        · rw [show sock.errorCallback = some (.hcHandleError h) from congrArg (·.2.2) calls]
          exact sheltered.deleteConnection h (line h his)
        · rw [show sock.errorCallback = some (.jcHandleError c) from congrArg (·.2.2) calls]
          exact sheltered.closeSession c (mine c his).2
      · rename_i fine
        rw [if_neg fun output => writable ⟨fine, output⟩]
        by_cases readable : events.input
        · rw [if_pos readable]
          cases status : sock.status with
          | listening =>
            cases sock.acceptCallback with
            | none => exact sheltered.net _ s held
            | some accept => exact sheltered.hsAccept_keeps s held
          | connected =>
            obtain nobody | ⟨h | c, calls, his⟩ := owned.owner i sock here
            · rw [show sock.dataCallback = none from congrArg (·.1) nobody]
              exact sheltered.net _ s held
            · have reader : sock.dataCallback = some (.hcRead h) := congrArg (·.1) calls
              rw [reader]
              refine sheltered.hcRead_spares held (line h his) fun request completes =>
                permits request ?_
              simp only [not_or] at fine
              simp [requestOf, here, fine, status, readable, reader, completes,
                not_and.mp writable (not_or.mpr fine)]
            · rw [show sock.dataCallback = some (.jcReadJabber c) from congrArg (·.1) calls]
              exact sheltered.jcReadJabber_keeps (mine c his).1 (mine c his).2 s held
          | idle | connecting => exact held
        · rw [if_neg readable]
          exact held

theorem jbWait_keeps (ready : List (Int × Events)) :
    Keeps kept (jbWait ready : ServerM Iks (List (InfoId × Events))) := by
  have closest : ∀ current cs least, Keeps kept (jbClosest current cs least : ServerM Iks Int) := by
    intro current cs
    induction cs with
    | nil => exact fun _ => .pure _
    | cons c cs ih => exact fun least => .bind (getClient_durable c) fun _ => .read fun _ _ => ih _
  refine .bind (.read fun s _ => .bind sheltered.time fun _ => closest _ _ _) fun _ => ?_
  exact .read fun s _ => .checked _

theorem step_spares {r r' : Configuration Iks} {input : Input Iks} (upright : Upright r.server)
    (heard : ∀ oracle, kept (r.server.hear oracle)) (checks : ∀ oracle, input ≠ .timeout oracle)
    (goes : ∀ oracle, input ≠ .shutdown oracle)
    (mine : ∀ turn c, r.turn input = some turn → r.server.estate.sock (.session c) = some turn.2 →
      uses c ∧ closes c)
    (line : ∀ turn h, r.turn input = some turn →
      r.server.estate.sock (.connection h) = some turn.2 → deletes h)
    (permits : ∀ request, r.request input = some request → Permits uses closes r.server request)
    (done : step input r = .ok r') : kept r'.server := by
  unfold step at done
  split at done
  · exact Durable.call_keeps (sheltered.jbWait_keeps _) (heard _) (fun _ => rfl) done
  · rename_i oracle event events same
    have called : Ensures (smDispatch event (r.server.hear oracle)) (fun _ s' => kept s')
        fun _ => True := by
      unfold smDispatch onNet
      rw [ensures_bind, ensures_part]
      refine (smTarget_spec event.1).mono ?_ fun _ _ => trivial
      rintro target net ⟨rfl, found⟩
      cases target with
      | none => exact heard oracle
      | some callback =>
        obtain ⟨⟨⟩, userData⟩ := callback
        cases userData with
        | none => trivial
        | some i =>
          have here : r.server.net.target event.1 = some i := found
          have turn : r.turn (.event oracle) = some (event.2, i) := by
            simp [Configuration.turn, same, here]
          refine sheltered.socketCallback_spares (heard oracle) (upright.hear oracle).sound.estate
            (fun c => mine _ c turn) (fun h => line _ h turn) fun request completes => ?_
          exact permits request (Option.bind_eq_some_iff.mpr ⟨_, turn, completes⟩)
    unfold call at done
    cases ran : smDispatch event (r.server.hear oracle) with
    | error fault =>
      rw [ran] at done
      cases done
    | ok result =>
      rw [ran] at done called
      cases done
      exact called
  · exact absurd rfl (checks _)
  · exact absurd rfl (goes _)
  · cases done

end Sheltered

section Isolation
variable {c : ClientId} {client : JabberClient Iks} {r r' : Configuration Iks} {input : Input Iks}

omit [Iksemel Iks] in
structure Untouched (c : ClientId) (client : JabberClient Iks) (s : Server Iks) : Prop where
  here : s.clients c = some client
  known : c < s.nextClient
  registered : ∀ h, s.registered h = some (.jcClearHttp c) → client.connection = some h

omit [Iksemel Iks] in
theorem untouched_indifferent {c' : ClientId} (other : c' ≠ c) :
    Indifferent (Untouched c client) c' where
  frame s s' h history later clients registered := by
    refine ⟨(clients c h.known (Ne.symm other)).trans h.here, later ▸ h.known, fun k calls => ?_⟩
    rcases registered k with still | none | his
    · exact h.registered k (still ▸ calls)
    · rw [none] at calls
      cases calls
    · rw [his, Option.some.injEq, CloseCallback.jcClearHttp.injEq] at calls
      exact absurd calls other
  record _ _ h _ := ⟨h.here, h.known, h.registered⟩

omit [Iksemel Iks] in
theorem untouched_elsewhere : Indifferent (Untouched c client) (c + 1) :=
  untouched_indifferent (later_session c)

omit [Iksemel Iks] in
theorem hcDelete_untouched {h : ConnectionId} (free : client.connection ≠ some h) :
    Keeps (Untouched c client) (hcDelete h) := by
  refine Leads.demand fun connection => ?_
  extract_lets rest
  rintro s ⟨kept, here⟩
  have later {c' : ClientId} (other : c' ≠ c) (u : Unit) : Keeps (Untouched c client) (rest u) :=
    (untouched_indifferent other).hcDelete_rest h connection fun s kept =>
      (untouched_indifferent other).record s _ kept nofun
  cases callback : connection.closeCallback with
  | none => exact later (later_session c) () s kept
  | some clears =>
    obtain ⟨c'⟩ := clears
    have other : c' ≠ c := by
      rintro rfl
      exact free (kept.registered h (by simp [Server.registered, here, callback]))
    exact Keeps.bind (untouched_indifferent other).jcClearHttp_keeps (later other) s kept

theorem untouched_sheltered (c : ClientId) (client : JabberClient Iks) :
    Sheltered (Untouched c client) (· ≠ c) (· ≠ c) fun h => client.connection ≠ some h where
  net := untouched_elsewhere.onNet_keeps
  time := untouched_elsewhere.getTime_keeps
  flush _ other := (untouched_indifferent other).jcFlushMessages_keeps
  stanza _ type stanza other := (untouched_indifferent other).jcHandleStanza_keeps type stanza
  setHttp _ h rid other := (untouched_indifferent other).jcSetHttp_leads h rid
    (fun s kept => (untouched_indifferent other).record s _ kept nofun) (untouched_indifferent other)
  closeSession _ other := (untouched_indifferent other).jbCloseClient_leads fun s kept =>
    (untouched_indifferent other).record s _ kept nofun
  openSession h host _ sock := untouched_elsewhere.jbOpenSession_keeps h host sock
    fun s s' _ kept _ next clients connections _ => by
      refine ⟨?_, next ▸ Nat.lt_succ_of_lt kept.known, fun k calls => kept.registered k ?_⟩
      · rw [clients, Function.update_of_ne kept.known.ne]
        exact kept.here
      · rwa [Server.registered, connections] at calls
  create := untouched_elsewhere.hcCreate_keeps
  change _ _ same := untouched_elsewhere.modifyConnection_keeps _ fun connection =>
    .inl (same connection)
  received s _ _ kept := untouched_elsewhere.record s _ kept nofun
  request s _ _ kept := untouched_elsewhere.record s _ kept nofun
  answer _ _ _ := untouched_elsewhere.hsAnswerRequest_keeps _ (fun _ same => by cases same) _ _
  deleteConnection _ free := hcDelete_untouched free

/-- An input that has to do with the session: an event on its socket or on the connection whose
request it holds, a request that names it, a check that finds its time has come, or the end. -/
inductive Concerns (c : ClientId) (client : JabberClient Iks) (r : Configuration Iks) :
    Input Iks → Prop where
  | socket {input : Input Iks} {events : Events} : r.turn input = some (events, client.sock) →
    Concerns c client r input
  | line {input : Input Iks} {events : Events} {h : ConnectionId} {connection : HttpConnection} :
    client.connection = some h → r.server.connections h = some connection →
      r.turn input = some (events, connection.sock) → Concerns c client r input
  | named {input : Input Iks} {request : HttpRequest} {message : Iks} :
    r.request input = some request → named r.server request = some (c, message) →
      Concerns c client r input
  | due {oracle : Oracle Iks} :
    client.deadline r.server.sessionTimeout ≤ (r.server.hear oracle).now →
      Concerns c client r (.timeout oracle)
  | shutdown {oracle : Oracle Iks} : Concerns c client r (.shutdown oracle)

theorem Reaches.untouched {admitted : Configuration Iks → Input Iks → Prop}
    (run : Reaches admitted r) (here : r.server.clients c = some client) :
    Untouched c client r.server := by
  obtain ⟨sound, registered⟩ := (registered_invariant (Assumed.of False False)).reaches
    (fun _ _ _ => .always) run
  refine ⟨here, sound.directory.below c (by simp [Server.directory, here]), fun h calls => ?_⟩
  have holding : r.server.holding c = some h := registered h c calls
  simpa [Server.holding, here] using holding

theorem step_isolated {admitted : Configuration Iks → Input Iks → Prop}
    (run : Reaches admitted r) (here : r.server.clients c = some client) (apart : ¬ Concerns c client r input)
    (done : Bosh.step input r = .ok r') : r'.server.clients c = some client := by
  have kept := run.untouched here
  have heard : ∀ oracle, Untouched c client (r.server.hear oracle) := fun _ =>
    ⟨kept.here, kept.known, kept.registered⟩
  by_cases check : ∃ oracle, input = .timeout oracle
  · obtain ⟨oracle, rfl⟩ := check
    have checked := checked_of (run.upright.hear oracle) (step_check done)
    exact checked.kept c client here (not_le.mp fun due => apart (.due due))
  · refine ((untouched_sheltered c client).step_spares run.upright heard (not_exists.mp check) ?_ ?_
      ?_ ?_ done).here
    · rintro oracle rfl
      exact apart .shutdown
    · rintro ⟨events, i⟩ c' turn his
      have other : c' ≠ c := by
        rintro rfl
        obtain rfl := Option.some.inj ((estate_session here).symm.trans his)
        exact apart (.socket turn)
      exact ⟨other, other⟩
    · rintro ⟨events, i⟩ h turn its held
      obtain ⟨connection, there, rfl⟩ := Option.map_eq_some_iff.mp its
      exact apart (.line held there turn)
    · rintro request completes c' message who
      have other : c' ≠ c := by
        rintro rfl
        exact apart (.named completes who)
      exact ⟨other, fun _ => other⟩

/-- A step with an input that does not concern the session, and no overlap of requests. -/
def Aside (c : ClientId) (client : JabberClient Iks) (r r' : Configuration Iks) : Prop :=
  ∃ input, NoOverlap r input ∧ ¬ Concerns c client r input ∧ step input r = .ok r'

/-- While no request arrives on a connection that holds one for another session, a session that
nothing reaches stays as it is, whatever else the server does. -/
theorem session_isolated (run : Reaches NoOverlap r) (here : r.server.clients c = some client)
    (aside : Relation.ReflTransGen (Aside c client) r r') : r'.server.clients c = some client := by
  have kept : Reaches NoOverlap r' ∧ r'.server.clients c = some client := by
    induction aside with
    | refl => exact ⟨run, here⟩
    | tail _ last ih =>
      obtain ⟨run₁, here₁⟩ := ih
      obtain ⟨input, allowed, apart, done⟩ := last
      exact ⟨run₁.step allowed done, step_isolated run₁ here₁ apart done⟩
  exact kept.2

end Isolation

theorem session_isolated_held : ∃ (client : JabberClient Sample) (r r' : Configuration Sample),
    step (.timeout {}) r = .ok r' ∧ client.connection = some 1 ∧
      r.server.clients 0 = some client ∧ r'.server.clients 0 = some client := by
  have found : (replay NoOverlap Sample.boot (Sample.held ++ [.wait {} []])).any fun r =>
      NoOverlap r (.timeout {}) ∧ (step (.timeout {}) r).toOption.isSome ∧
        (r.server.clients 0).any fun client => client.connection = some 1 ∧
          ¬ client.deadline r.server.sessionTimeout ≤ (r.server.hear {}).now := by decide +kernel
  obtain ⟨r, run, allowed, works, waits⟩ := Sample.exists_reached found
  obtain ⟨r', stepped⟩ := Option.isSome_iff_exists.mp works
  have done := ok_of_toOption stepped
  obtain ⟨client, here, waits⟩ := (Option.any_eq_true _ _).mp waits
  obtain ⟨held, early⟩ := of_decide_eq_true waits
  have apart : ¬ Concerns 0 client r (.timeout {}) := fun concerns => by
    cases concerns with
    | due late => exact early late
    | socket turn => cases turn
    | line _ _ turn => cases turn
    | named completes => cases completes
  exact ⟨client, r, r', done, held, here,
    session_isolated run here (.single ⟨_, allowed, apart, done⟩)⟩

end Bosh
