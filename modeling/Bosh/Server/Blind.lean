import Bosh.Bind.Request
import Bosh.Library.Symmetry
import Bosh.Library.Table

/-! What the handling of a request does not look at: the memory of its connection, the bytes that
the environment has yet to give, and the history. -/
namespace Bosh
open Effect Text

/-- What a state does not show of a connection. -/
structure Hidden (Iks : Type) where
  connection : ConnectionId
  buffer : Bytes := []
  bufferSize : Nat := 0
  arrivals : List (Arrival Iks) := []
  history : List (Record Iks) := []

section Hidden
variable {Iks : Type}

namespace Hidden

def refill (x : Hidden Iks) (k : ConnectionId) (connection : HttpConnection) : HttpConnection :=
  if k = x.connection then { connection with buffer := x.buffer, bufferSize := x.bufferSize } else connection

def reveal (x : Hidden Iks) (s : Server Iks) : Server Iks :=
  { s with
    connections := fun k => (s.connections k).map (x.refill k)
    oracle := { s.oracle with arrivals := x.arrivals }
    history := s.history ++ x.history }

variable {x : Hidden Iks} {k : ConnectionId}

@[simp] theorem refill_sock (connection : HttpConnection) :
    (x.refill k connection).sock = connection.sock := by
  unfold refill
  split <;> rfl

theorem refill_callback (connection : HttpConnection) (closeCallback : Option CloseCallback) :
    { x.refill k connection with closeCallback } = x.refill k { connection with closeCallback } := by
  unfold refill
  split <;> rfl

end Hidden

/-- All that does not belong to the bytes of a connection. -/
def Server.masked (h : ConnectionId) (s : Server Iks) : Server Iks :=
  Hidden.reveal { connection := h } { s with history := [] }

def Server.hidden (h : ConnectionId) (s : Server Iks) : Hidden Iks where
  connection := h
  buffer := ((s.connections h).map HttpConnection.buffer).getD []
  bufferSize := ((s.connections h).map HttpConnection.bufferSize).getD 0
  arrivals := s.oracle.arrivals
  history := s.history

theorem reveal_masked (h : ConnectionId) (s : Server Iks) :
    (s.hidden h).reveal (s.masked h) = s := by
  have connections : (fun k => ((s.masked h).connections k).map ((s.hidden h).refill k)) = s.connections := by
    funext k
    simp only [Server.masked, Hidden.reveal]
    cases here : s.connections k with
    | none => rfl
    | some connection =>
      by_cases mine : k = h
      · subst mine
        simp [Hidden.refill, Server.hidden, here]
      · simp [Hidden.refill, Server.hidden, mine]
  unfold Hidden.reveal
  rw [connections]
  rfl

theorem masked_reveal {x : Hidden Iks} {h : ConnectionId} (own : x.connection = h)
    (s : Server Iks) : (x.reveal s).masked h = s.masked h := by
  subst own
  have connections : (fun k => ((x.reveal s).connections k).map
      (Hidden.refill ({ connection := x.connection } : Hidden Iks) k)) =
        (s.masked x.connection).connections := by
    funext k
    simp only [Server.masked, Hidden.reveal, Option.map_map]
    congr 1
    funext connection
    by_cases mine : k = x.connection
    · simp [Hidden.refill, mine]
    · simp [Hidden.refill, mine]
  unfold Server.masked Hidden.reveal at connections ⊢
  dsimp only at connections ⊢
  rw [connections]

end Hidden

section Access
variable {Iks α : Type} {x : Hidden Iks}

theorem onNet_blind (program : NetM α) : Blind x.reveal (onNet program : ServerM Iks α) :=
  .part (fun _ => by rfl) (fun _ _ => by rfl) program

theorem getClient_blind (c : ClientId) : Blind x.reveal (getClient c) := .demand (fun _ => by rfl) _

theorem modifyClient_blind (c : ClientId) (f : JabberClient Iks → JabberClient Iks) :
    Blind x.reveal (modifyClient c f) :=
  .bind (getClient_blind c) fun _ => .modify fun _ => by rfl

theorem record_blind (entry : Record Iks) :
    Blind x.reveal (modify (Server.record entry) : ServerM Iks Unit) := .modify fun _ => by rfl

theorem getConnection_blind (k : ConnectionId) {next : HttpConnection → ServerM Iks α}
    (same : ∀ connection, next (x.refill k connection) = next connection)
    (later : ∀ connection, Blind x.reveal (next connection)) :
    Blind x.reveal (getConnection k >>= next) :=
  .demand_bind (fun _ => by rfl) same later

theorem modifyConnection_blind (k : ConnectionId) {f : HttpConnection → HttpConnection}
    (commutes : ∀ connection, f (x.refill k connection) = x.refill k (f connection)) :
    Blind x.reveal (modifyConnection k f) := fun s => by
  unfold modifyConnection
  have seen : (x.reveal s).connections k = (s.connections k).map (x.refill k) := rfl
  cases here : s.connections k with
  | none =>
    rw [here] at seen
    rw [run_bind_error (getConnection_missing here), run_bind_error (getConnection_missing seen)]
    rfl
  | some connection =>
    have both : Function.update (x.reveal s).connections k (some (x.refill k (f connection))) =
        fun j => (Function.update s.connections k (some (f connection)) j).map (x.refill j) := by
      funext j
      by_cases mine : j = k
      · subst mine
        simp
      · simp [Hidden.reveal, mine]
    rw [here] at seen
    rw [run_bind_ok (getConnection_run here), run_bind_ok (getConnection_run seen), commutes]
    exact congrArg (fun connections => Except.ok ((), { x.reveal s with connections })) both

theorem getTime_blind : Blind x.reveal (getTime : ServerM Iks Int) := fun s => by
  rw [getTime_run, getTime_run]
  rfl

theorem lrand48_blind : Blind x.reveal (lrand48 : ServerM Iks Nat) := fun s => by
  unfold lrand48
  rw [run_get, run_get]
  have seen : (x.reveal s).oracle.random = s.oracle.random := rfl
  rw [seen]
  cases s.oracle.random with
  | nil => rfl
  | cons value random => rfl

theorem newNode_blind : Blind x.reveal (newNode : ServerM Iks Nat) := fun _ => rfl

theorem hcSetCloseCallback_blind (k : ConnectionId) (callback : CloseCallback) :
    Blind x.reveal (hcSetCloseCallback k callback) :=
  modifyConnection_blind k fun connection => Hidden.refill_callback connection _

theorem hsAnswerRequest_blind (k : ConnectionId) (answerer : Answerer Iks)
    (msg contentType : Bytes) : Blind x.reveal (hsAnswerRequest k answerer msg contentType) := by
  refine getConnection_blind k (fun connection => by rw [Hidden.refill_sock]) fun connection => ?_
  refine .bind (onNet_blind _) fun _ => .bind (onNet_blind _) fun _ => ?_
  exact .bind (modifyConnection_blind k fun _ => Hidden.refill_callback _ _) fun _ => record_blind _

theorem jcDropRequest_blind (c : ClientId) (terminate : Bool) :
    Blind x.reveal (jcDropRequest c terminate) := by
  refine .bind (getClient_blind c) fun client => ?_
  dsimp only
  split
  · exact .throw _
  · refine .bind (hsAnswerRequest_blind _ _ _ _) fun _ => .bind (modifyClient_blind c _) fun _ => ?_
    exact .bind getTime_blind fun _ => modifyClient_blind c _

theorem jbCloseClient_blind (c : ClientId) :
    Blind x.reveal (jbCloseClient c : ServerM Iks Unit) := by
  refine .bind (getClient_blind c) fun client => .maybe (jcDropRequest_blind c true) fun _ => ?_
  refine .bind (onNet_blind _) fun _ => .read (fun _ => by rfl) fun s => ?_
  split
  · exact .throw _
  · exact .bind (.modify fun _ => by rfl) fun _ => .bind (.modify fun _ => by rfl) fun _ => record_blind _

theorem jcReportError_blind (h : ConnectionId) (code : BindErrorCode) :
    Blind x.reveal (jcReportError h code : ServerM Iks Unit) := hsAnswerRequest_blind _ _ _ _

theorem genSid_blind : Blind x.reveal (genSid : ServerM Iks UInt64) :=
  .bind lrand48_blind fun _ => .bind lrand48_blind fun _ => .pure _

theorem pickSid_blind (attempts : Nat) :
    Blind x.reveal (pickSid attempts : ServerM Iks UInt64) := by
  induction attempts with
  | zero => exact .throw _
  | succ attempts ih =>
    refine .bind genSid_blind fun sid => .read (fun _ => by rfl) fun s => ?_
    split
    · exact ih
    · exact .pure _

theorem jbOpenSession_blind (h : ConnectionId) (host : CString) (wait : Int) (sock : SocketId) :
    Blind x.reveal (jbOpenSession h host wait sock : ServerM Iks Unit) := by
  refine .read (fun _ => by rfl) fun s => .bind (pickSid_blind _) fun sid => ?_
  refine .bind getTime_blind fun timestamp => .bind newNode_blind fun it => fun s => ?_
  rw [run_get, run_get]
  have seen : (x.reveal s).sids.insert sid (x.reveal s).nextClient =
    s.sids.insert sid s.nextClient := rfl
  dsimp only
  rw [seen]
  cases s.sids.insert sid s.nextClient with
  | none => rfl
  | some sids =>
    have rest : Blind x.reveal (do
        modify (Server.record (.newSession s.nextClient sid host.bytes sock))
        onNet (sockSend sock (some (jabberHeader host.bytes)) (jabberHeader host.bytes).length false)
        onNet (sockSetDataCallback sock (.jcReadJabber s.nextClient))
        onNet (sockSetConnectCallback sock (.jcAnswerCreation s.nextClient))
        onNet (sockSetErrorCallback sock (.jcHandleError s.nextClient))
        hsAnswerRequest h .request (sessionResponse sid) httpXmlContent : ServerM Iks Unit) := by
      refine .bind (record_blind _) fun _ =>
        .bind (onNet_blind _) fun _ => .bind (onNet_blind _) fun _ => ?_
      refine .bind (onNet_blind _) fun _ => .bind (onNet_blind _) fun _ => ?_
      exact hsAnswerRequest_blind _ _ _ _
    dsimp only
    rw [run_set, run_set]
    symm
    exact (rest _).symm

theorem jbHandleHttpGet_blind (request : HttpRequest) :
    Blind x.reveal (jbHandleHttpGet request : ServerM Iks Unit) :=
  .bind getTime_blind fun _ => .read (fun _ => by rfl) fun _ => hsAnswerRequest_blind _ _ _ _

end Access

section Requests
variable {Iks : Type} [Iksemel Iks] {x : Hidden Iks}

theorem jcFlushMessages_blind (c : ClientId) :
    Blind x.reveal (jcFlushMessages c : ServerM Iks Unit) := by
  refine .bind (getClient_blind c) fun client => ?_
  split
  · exact .pure _
  · split
    · refine .bind (modifyClient_blind c _) fun _ => .bind (.checked _) fun buffer => ?_
      refine .bind (hsAnswerRequest_blind _ _ _ _) fun _ =>
        .bind (modifyClient_blind c _) fun _ => ?_
      exact .bind getTime_blind fun _ => modifyClient_blind c _
    · exact .pure _

theorem jcSetHttp_blind (c : ClientId) (h : ConnectionId) (rid : Option UInt64) :
    Blind x.reveal (jcSetHttp c h rid : ServerM Iks Unit) := by
  refine .bind (getClient_blind c) fun client => .maybe (jcDropRequest_blind c false) fun _ => ?_
  refine .bind (modifyClient_blind c _) fun _ => .bind (record_blind _) fun _ => ?_
  refine .bind getTime_blind fun _ => .bind (modifyClient_blind c _) fun _ => ?_
  exact .bind (hcSetCloseCallback_blind _ _) fun _ => jcFlushMessages_blind c

theorem jbForward_blind (sock : SocketId) (stanzas : List Iks) :
    Blind x.reveal (jbForward sock stanzas) := by
  induction stanzas with
  | nil => exact onNet_blind _
  | cons stanza stanzas ih => exact .bind (onNet_blind _) fun _ => ih

theorem jbConnectClient_blind (h : ConnectionId) (body : Iks) :
    Blind x.reveal (jbConnectClient h body) := by
  unfold jbConnectClient
  split
  · exact jcReportError_blind _ _
  · dsimp only
    split
    · exact jcReportError_blind _ _
    · split
      · exact jcReportError_blind _ _
      · refine .read (fun _ => by rfl) fun s => ?_
        split
        · exact jcReportError_blind _ _
        · refine .bind (onNet_blind _) fun sock => .bind (onNet_blind _) fun connected => ?_
          split
          · exact jbOpenSession_blind _ _ _ _
          · exact .bind (onNet_blind _) fun _ => jcReportError_blind _ _

theorem jbHandleHttpPost_blind (request : HttpRequest) :
    Blind x.reveal (jbHandleHttpPost request : ServerM Iks Unit) := by
  refine .bind (.checked _) fun message => ?_
  split
  · exact jcReportError_blind _ _
  · split
    · exact jbConnectClient_blind _ _
    · split
      · exact jcReportError_blind _ _
      · split
        · exact jcReportError_blind _ _
        · refine .read (fun _ => by rfl) fun s => ?_
          split
          · exact jcReportError_blind _ _
          · refine .bind (jcSetHttp_blind _ _ _) fun _ => .bind (getClient_blind _) fun client => ?_
            refine .bind (jbForward_blind _ _) fun _ => ?_
            split
            · exact jbCloseClient_blind _
            · exact .pure _

/-- How a request is handled does not depend on what is in its connection's buffer, nor on what has
gone before or is still to come. -/
theorem jbHandleRequest_blind (request : HttpRequest) :
    Blind x.reveal (jbHandleRequest request : ServerM Iks Unit) := by
  unfold jbHandleRequest
  split
  · exact jbHandleHttpPost_blind request
  · split
    · exact jbHandleHttpGet_blind request
    · exact jcReportError_blind _ _

end Requests

end Bosh
