import Bosh.Socket.Outlet

/-! Whatever condition the functions that work on one session or one connection keep, every
callback keeps. -/
namespace Bosh
open Effect Text

/-- Buffers that are each announced to be followed by more, and then the last one, if any. -/
def sockSends (i : SocketId) (last : Option Bytes) : List Bytes → NetM Unit
  | [] => sockSend i last ((last.map List.length).getD 0) false
  | buffer :: buffers => do
    sockSend i (some buffer) buffer.length true
    sockSends i last buffers

def sockOpen (host : Bytes) (port : Int) (answers : ConnectAnswers) : NetM (Option SocketId) := do
  let sock ← sockNew
  if ← sockConnect sock host port answers then return some sock
  sockDelete sock
  return none

def sockIgnore (i : SocketId) : NetM Unit := do
  let sock ← getSocket i
  smDelEvents sock.si .epollIn

variable {Iks : Type}

theorem sockOpen_bind (host : Bytes) (port : Int) (answers : ConnectAnswers)
    (opened : SocketId → ServerM Iks Unit) (failed : ServerM Iks Unit) :
    (do
      let sock ← onNet sockNew
      let connected ← onNet (sockConnect sock host port answers)
      if connected then opened sock
      else
        onNet (sockDelete sock)
        failed) =
      onNet (sockOpen host port answers) >>= fun sock => sock.elim failed opened := by
  unfold sockOpen
  rw [onNet_bind, bind_assoc]
  congr 1
  funext sock
  rw [onNet_bind, bind_assoc]
  congr 1
  funext connected
  cases connected with
  | true => rfl
  | false =>
    rw [if_neg (by simp), if_neg (by simp), onNet_bind, bind_assoc]
    rfl

theorem jbForward_sends [Iksemel Iks] (i : SocketId) (stanzas : List Iks) :
    jbForward i stanzas = onNet (sockSends i none (stanzas.map fun stanza => (Iksemel.string stanza).bytes)) := by
  induction stanzas with
  | nil => rfl
  | cons stanza stanzas ih =>
    rw [List.map_cons, sockSends, onNet_bind, ← ih]
    rfl

theorem consume_callback {length : Nat} (connection : HttpConnection) :
    (connection.consume length).closeCallback = connection.closeCallback := by
  unfold HttpConnection.consume
  split <;> rfl

section Reading
variable {α : Type} {kept : Server Iks → Prop}

theorem getConnection_durable (h : ConnectionId) :
    Keeps kept (getConnection h : ServerM Iks HttpConnection) :=
  .demand _ _

theorem getClient_durable (c : ClientId) :
    Keeps kept (getClient c : ServerM Iks (JabberClient Iks)) :=
  .demand _ _

theorem onNet_durable {program : NetM α}
    (reads : ∀ n, Ensures (program n) (fun _ n' => n' = n) fun _ => True) :
    Keeps kept (onNet program : ServerM Iks α) := by
  intro s h
  unfold onNet
  rw [ensures_part]
  refine (reads s.net).mono ?_ fun _ => id
  rintro _ _ rfl
  exact h

theorem getSocket_durable (i : SocketId) : Keeps kept (onNet (getSocket i) : ServerM Iks Socket) :=
  onNet_durable fun n => by
    unfold getSocket
    rw [ensures_demand]
    exact ⟨fun _ _ => rfl, fun _ => trivial⟩

theorem smTarget_durable (si : InfoId) : Keeps kept (onNet (smTarget si) : ServerM Iks _) :=
  onNet_durable fun _ => (smTarget_spec si).mono (fun _ _ same => same.1) fun _ _ => trivial

end Reading

section Callbacks
variable [Iksemel Iks]

/-- A condition that the functions which the callbacks are made of keep. -/
structure Durable (kept : Server Iks → Prop) : Prop where
  -- calls on the network
  accept : ∀ i answer, Keeps kept (onNet (sockAccept i answer))
  connect : ∀ host port answers, Keeps kept (onNet (sockOpen host port answers))
  receive : ∀ i len answer, Keeps kept (onNet (sockRecv i len answer))
  send : ∀ i last buffers, Keeps kept (onNet (sockSends i last buffers))
  writable : ∀ i errorCode, Keeps kept (onNet (sockWritable i errorCode))
  ignore : ∀ i, Keeps kept (onNet (sockIgnore i))
  close : ∀ i, Keeps kept (onNet (sockClose i))
  delete : ∀ i, Keeps kept (onNet (sockDelete i))
  time : Keeps kept getTime
  -- sessions
  flush : ∀ c, Keeps kept (jcFlushMessages c)
  closeSession : ∀ c, Keeps kept (jbCloseClient c)
  stanza : ∀ c type stanza, Keeps kept (jcHandleStanza c type stanza)
  setHttp : ∀ c h rid, Keeps kept (jcSetHttp c h rid)
  openSession : ∀ h host wait sock, Keeps kept (jbOpenSession h host wait sock)
  -- connections
  create : ∀ sock, Keeps kept (hcCreate sock)
  change : ∀ h f, (∀ connection, (f connection).closeCallback = connection.closeCallback) →
    Keeps kept (modifyConnection h f)
  received : ∀ s h bytes, kept s → kept (s.record (.received h bytes))
  request : ∀ s h request, kept s → kept (s.record (.request h request))
  answer : ∀ h msg contentType, Keeps kept (hsAnswerRequest h .request msg contentType)
  deleteConnection : ∀ h, Keeps kept (hcDelete h)

namespace Durable
variable {kept : Server Iks → Prop} (durable : Durable kept)
include durable

theorem jcReadLoop_keeps (c : ClientId) (arrivals : List (Arrival Iks)) :
    Keeps kept (jcReadLoop c arrivals) := by
  induction arrivals with
  | nil =>
    exact .bind (getClient_durable c) fun _ => .bind (durable.receive _ _ _) fun _ => .pure _
  | cons arrival arrivals ih =>
    refine .bind (getClient_durable c) fun client => .bind (durable.receive _ _ _) fun bytes => ?_
    split
    · exact .pure _
    · refine .bind (.loop (fun _ => durable.stanza _ _ _) _) fun _ => ?_
      split
      · exact ih
      · exact .pure _

theorem jcReadJabber_keeps (c : ClientId) : Keeps kept (jcReadJabber c : ServerM Iks Unit) := by
  refine .read fun s _ =>
    .bind (durable.jcReadLoop_keeps c _) fun ok => .bind (durable.flush c) fun _ => ?_
  refine .bind (getClient_durable c) fun client => .bind (getSocket_durable _) fun sock => ?_
  split
  · exact durable.closeSession c
  · exact .pure _

theorem jcReportError_keeps (connection : ConnectionId) (code : BindErrorCode) :
    Keeps kept (jcReportError connection code : ServerM Iks Unit) := durable.answer _ _ _

theorem jbForward_keeps (i : SocketId) (stanzas : List Iks) :
    Keeps kept (jbForward i stanzas) := by
  rw [jbForward_sends]
  exact durable.send _ _ _

theorem jbConnectClient_keeps (connection : ConnectionId) (body : Iks) :
    Keeps kept (jbConnectClient connection body) := by
  have refused : ∀ code, Keeps kept (jcReportError connection code : ServerM Iks Unit) :=
    durable.jcReportError_keeps connection
  unfold jbConnectClient
  split
  · exact refused _
  · split
    · exact refused _
    · split
      · exact refused _
      · refine .read fun s _ => ?_
        split
        · exact refused _
        · rw [sockOpen_bind]
          refine .bind (durable.connect _ _ _) fun sock => ?_
          cases sock with
          | none => exact refused _
          | some sock => exact durable.openSession _ _ _ _

theorem jbHandleHttpPost_keeps (request : HttpRequest) :
    Keeps kept (jbHandleHttpPost request : ServerM Iks Unit) := by
  have refused : ∀ code, Keeps kept (jcReportError request.connection code : ServerM Iks Unit) :=
    durable.jcReportError_keeps request.connection
  refine .bind (.checked _) fun message => ?_
  split
  · exact refused _
  · split
    · exact durable.jbConnectClient_keeps _ _
    · split
      · exact refused _
      · split
        · exact refused _
        · refine .read fun s _ => ?_
          split
          · exact refused _
          · refine .bind (durable.setHttp _ _ _) fun _ =>
              .bind (getClient_durable _) fun client => ?_
            refine .bind (durable.jbForward_keeps _ _) fun _ => ?_
            split
            · exact durable.closeSession _
            · exact .pure _

theorem jbHandleHttpGet_keeps (request : HttpRequest) :
    Keeps kept (jbHandleHttpGet request : ServerM Iks Unit) :=
  .bind durable.time fun _ => .read fun _ _ => durable.answer _ _ _

theorem jbHandleRequest_keeps (request : HttpRequest) :
    Keeps kept (jbHandleRequest request : ServerM Iks Unit) := by
  unfold jbHandleRequest
  split
  · exact durable.jbHandleHttpPost_keeps request
  · split
    · exact durable.jbHandleHttpGet_keeps request
    · exact durable.jcReportError_keeps _ _

theorem hcReportError_keeps (h : ConnectionId) (msg : Bytes) :
    Keeps kept (hcReportError h msg : ServerM Iks Unit) := by
  refine .bind (getConnection_durable h) fun connection => ?_
  dsimp only
  rw [← onNet_bind]
  exact durable.send _ (some _) [_]

theorem hsAccept_keeps : Keeps kept (hsAccept : ServerM Iks Unit) := by
  refine .read fun s _ => .bind (durable.accept _ _) fun client => ?_
  split
  · exact .pure _
  · exact durable.create _

theorem hcProcess_keeps (h : ConnectionId) : Keeps kept (hcProcess h : ServerM Iks Unit) := by
  refine .bind (getConnection_durable h) fun connection => .bind (.checked _) fun framed => ?_
  split
  · exact durable.hcReportError_keeps _ _
  · exact .pure _
  · refine .bind (.modify fun s => durable.request s _ _) fun _ =>
      .bind (durable.jbHandleRequest_keeps _) fun _ => ?_
    exact durable.change _ _ consume_callback

theorem hcReceived_keeps (h : ConnectionId) (bytes : Bytes) :
    Keeps kept (hcReceived h bytes : ServerM Iks Unit) := by
  refine .bind (durable.change _ _ fun _ => rfl) fun _ =>
    .bind (.modify fun s => durable.received s _ _) fun _ => ?_
  refine .bind (getConnection_durable h) fun connection => ?_
  split
  · exact durable.hcProcess_keeps h
  · exact .pure _

theorem hcRead_keeps (h : ConnectionId) : Keeps kept (hcRead h : ServerM Iks Unit) := by
  refine .bind (getConnection_durable h) fun connection => .read fun s _ => ?_
  refine .bind (durable.receive _ _ _) fun bytes =>
    .maybe (durable.hcReceived_keeps h bytes) fun _ => ?_
  refine .bind (getConnection_durable h) fun connection =>
    .bind (getSocket_durable _) fun sock => ?_
  split
  · exact durable.deleteConnection h
  · exact .pure _

theorem runDataCallback_keeps (callback : DataCallback) :
    Keeps kept (runDataCallback callback : ServerM Iks Unit) := by
  cases callback with
  | hcRead h => exact durable.hcRead_keeps h
  | jcReadJabber c => exact durable.jcReadJabber_keeps c

theorem runConnectCallback_keeps (code : Int) (callback : ConnectCallback) :
    Keeps kept (runConnectCallback code callback : ServerM Iks Unit) := by
  obtain ⟨c⟩ := callback
  change Keeps _ (if code ≠ 0 then jbCloseClient c else pure ())
  split
  · exact durable.closeSession c
  · exact .pure _

theorem runErrorCallback_keeps (callback : ErrorCallback) :
    Keeps kept (runErrorCallback callback : ServerM Iks Unit) := by
  cases callback with
  | hcHandleError h => exact durable.deleteConnection h
  | jcHandleError c => exact durable.closeSession c

theorem socketCallback_keeps (events : Events) (i : SocketId) :
    Keeps kept (socketCallback events i : ServerM Iks Unit) := by
  intro s h
  cases here : s.net.sockets i with
  | none =>
    have missing : onNet (getSocket i) s = .error .useAfterFree :=
      onNet_error (run_demand_none here)
    unfold socketCallback
    rw [run_bind_error missing]
    trivial
  | some sock =>
    have unread : Ensures (onNet (smDelEvents sock.si .epollIn) s) (fun _ s' => kept s') fun _ => True := by
      have ignored : Ensures ((onNet (sockIgnore i) : ServerM Iks Unit) s) (fun _ s' => kept s') fun _ => True :=
        durable.ignore i s h
      unfold sockIgnore at ignored
      rwa [onNet_bind, run_bind_ok (onNet_run (getSocket_run here))] at ignored
    by_cases writable : ¬ (events.error ∨ events.hangup) ∧ events.output
    · rw [socketCallback_output writable.1 writable.2 here]
      refine Keeps.bind (durable.writable i _) (fun _ => ?_) s h
      split
      · cases sock.connectCallback with
        | none => exact .pure _
        | some callback => exact durable.runConnectCallback_keeps _ callback
      · exact .pure _
    · unfold socketCallback
      rw [run_bind_ok (onNet_run (getSocket_run here)), run_get]
      split
      · refine Keeps.bind (durable.close i) (fun _ => ?_) s h
        split
        · exact durable.runErrorCallback_keeps _
        · exact .pure _
      · rename_i fine
        rw [if_neg fun output => writable ⟨fine, output⟩]
        by_cases readable : events.input
        · rw [if_pos readable]
          cases sock.status with
          | listening =>
            cases sock.acceptCallback with
            | none => exact unread
            | some accept => exact durable.hsAccept_keeps s h
          | connected =>
            cases sock.dataCallback with
            | none => exact unread
            | some callback => exact durable.runDataCallback_keeps callback s h
          | idle | connecting => exact h
        · rw [if_neg readable]
          exact h

theorem smDispatch_keeps (event : InfoId × Events) :
    Keeps kept (smDispatch event : ServerM Iks Unit) := by
  refine .bind (smTarget_durable _) fun found => ?_
  split
  · exact .pure _
  · split
    · exact .throw _
    · exact durable.socketCallback_keeps _ _

theorem jbWait_keeps (ready : List (Int × Events)) :
    Keeps kept (jbWait ready : ServerM Iks (List (InfoId × Events))) := by
  have closest : ∀ current cs least, Keeps kept (jbClosest current cs least : ServerM Iks Int) := by
    intro current cs
    induction cs with
    | nil => exact fun _ => .pure _
    | cons c cs ih => exact fun least => .bind (getClient_durable c) fun _ => .read fun _ _ => ih _
  refine .bind (.read fun s _ => .bind durable.time fun _ => closest _ _ _) fun _ => ?_
  exact .read fun s _ => .checked _

theorem closeClients_keeps (fuel : Nat) : Keeps kept (closeClients fuel : ServerM Iks Unit) := by
  induction fuel with
  | zero => exact .throw _
  | succ fuel ih =>
    refine .read fun s _ => ?_
    split
    · exact .pure _
    · exact .bind (durable.closeSession _) fun _ => ih

theorem deleteConnections_keeps (fuel : Nat) :
    Keeps kept (deleteConnections fuel : ServerM Iks Unit) := by
  induction fuel with
  | zero => exact .throw _
  | succ fuel ih =>
    refine .read fun s _ => ?_
    split
    · exact .pure _
    · exact .bind (durable.deleteConnection _) fun _ => ih

theorem jbDelete_keeps : Keeps kept (jbDelete : ServerM Iks Unit) :=
  .read fun _ _ => .bind (durable.closeClients_keeps _) fun _ =>
    .read fun _ _ => .bind (durable.deleteConnections_keeps _) fun _ => durable.delete _

omit durable [Iksemel Iks] in
theorem call_keeps {α : Type} {program : ServerM Iks α} (keeps : Keeps kept program)
    {oracle : Oracle Iks} {c c' : Configuration Iks} (heard : kept (c.server.hear oracle))
    {next : α × Server Iks → Configuration Iks} (same : ∀ result, (next result).server = result.2)
    (done : (call program oracle c.server).map next = .ok c') : kept c'.server := by
  have ends := keeps (c.server.hear oracle) heard
  rcases ran : program (c.server.hear oracle) with fault | result
  · rw [call, ran] at done
    cases done
  · rw [call, ran] at done
    cases done
    rw [same]
    exact ends.of_ok ran

theorem step_keeps {c c' : Configuration Iks} {input : Input Iks}
    (heard : ∀ oracle, kept (c.server.hear oracle))
    (checks : ∀ oracle, input = .timeout oracle → Keeps kept (jbCheckTimeout : ServerM Iks Unit))
    (done : step input c = .ok c') : kept c'.server := by
  unfold step at done
  split at done
  · exact call_keeps (durable.jbWait_keeps _) (heard _) (fun _ => rfl) done
  · exact call_keeps (durable.smDispatch_keeps _) (heard _) (fun _ => rfl) done
  · exact call_keeps (checks _ rfl) (heard _) (fun _ => rfl) done
  · exact call_keeps durable.jbDelete_keeps (heard _) (fun _ => rfl) done
  · cases done

end Durable

end Callbacks

end Bosh
