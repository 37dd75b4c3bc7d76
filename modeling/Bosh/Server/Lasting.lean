import Bosh.Server.Durable

/-! Whatever property of the network the calls on sockets keep, every run of the server keeps. -/
namespace Bosh
open Effect Text

def sockServe (port : Int) (answers : ListenAnswers) : NetM (SocketId × Bool) := do
  let sock ← sockNew
  let listening ← sockListen sock port answers
  return (sock, listening)

def Net.blank (openFds : Int → Bool) (sends : SocketId → List SendResult) : Net where
  sockets := fun _ => none
  nextSocket := 0
  infos := fun _ => none
  nextInfo := 0
  socketHash := .new _ _
  socketCount := 0
  openFds := openFds
  interest := fun _ => none
  sends := sends
  registrations := 0
  sent := fun _ => []

/-- The network is left in this condition by every call on a socket that a callback makes. -/
structure Persistent (kept : Net → Prop) : Prop where
  hear : ∀ n sends, kept n → kept { n with sends }
  accept : ∀ i answer, Keeps kept (sockAccept i answer)
  connect : ∀ host port answers, Keeps kept (sockOpen host port answers)
  receive : ∀ i len answer, Keeps kept (sockRecv i len answer)
  send : ∀ i last buffers, Keeps kept (sockSends i last buffers)
  writable : ∀ i errorCode, Keeps kept (sockWritable i errorCode)
  ignore : ∀ i, Keeps kept (sockIgnore i)
  close : ∀ i, Keeps kept (sockClose i)
  delete : ∀ i, Keeps kept (sockDelete i)
  dataCallback : ∀ i callback, Keeps kept (sockSetDataCallback i callback)
  connectCallback : ∀ i callback, Keeps kept (sockSetConnectCallback i callback)
  errorCallback : ∀ i callback, Keeps kept (sockSetErrorCallback i callback)

/-- The network is left in this condition by every call on a socket that returns. -/
structure Enduring (kept : Net → Prop) : Prop extends Persistent kept where
  serve : ∀ n port answers, kept n →
    Ensures (sockServe port answers n) (fun result n' => result.2 = true → kept n') fun _ => True
  acceptCallback : ∀ i callback, Keeps kept (sockSetAcceptCallback i callback)

/-- A network in which nothing has happened is in this condition too. -/
structure Lasting (kept : Net → Prop) : Prop extends Enduring kept where
  blank : ∀ openFds sends, kept (.blank openFds sends)

variable {Iks : Type}

def Server.Has (kept : Net → Prop) (s : Server Iks) : Prop := kept s.net

variable {kept : Net → Prop}

section Access
variable {α : Type}

theorem onNet_keeps {program : NetM α} (keeps : Keeps kept program) :
    Keeps (Server.Has kept) (onNet program : ServerM Iks α) := by
  intro s h
  unfold onNet
  rw [ensures_part]
  exact keeps s.net h

theorem modifyConnection_keeps (h : ConnectionId) (f : HttpConnection → HttpConnection) :
    Keeps (Server.Has kept) (modifyConnection h f : ServerM Iks Unit) :=
  .bind (getConnection_durable h) fun _ => .modify fun _ h => h

theorem modifyClient_keeps (c : ClientId) (f : JabberClient Iks → JabberClient Iks) :
    Keeps (Server.Has kept) (modifyClient c f) :=
  .bind (getClient_durable c) fun _ => .modify fun _ h => h

theorem record_keeps (entry : Record Iks) :
    Keeps (Server.Has kept) (modify (Server.record entry) : ServerM Iks Unit) :=
  .modify fun _ h => h

theorem getTime_keeps : Keeps (Server.Has kept) (getTime : ServerM Iks Int) := by
  unfold getTime
  apply Keeps.read
  intro s h
  split
  · exact .pure _
  · exact .bind (.set h) fun _ => .pure _

theorem lrand48_keeps : Keeps (Server.Has kept) (lrand48 : ServerM Iks Nat) := by
  unfold lrand48
  apply Keeps.read
  intro s h
  split
  · exact .throw _
  · exact .bind (.set h) fun _ => .pure _

theorem newNode_keeps : Keeps (Server.Has kept) (newNode : ServerM Iks Nat) :=
  .read fun _ h => .bind (.set h) fun _ => .pure _

end Access

section Calls
variable (persistent : Persistent kept)
include persistent

theorem message_keeps {i : SocketId} {header body : Bytes} {next : ServerM Iks Unit}
    (rest : Keeps (Server.Has kept) next) : Keeps (Server.Has kept) (do
      onNet (sockSend i (some header) header.length true)
      onNet (sockSend i (some body) body.length false)
      next) := by
  rw [← bind_assoc, ← onNet_bind]
  exact .bind (onNet_keeps (persistent.send i (some body) [header])) fun _ => rest

theorem hsAnswerRequest_keeps (h : ConnectionId) (answerer : Answerer Iks)
    (msg contentType : Bytes) :
    Keeps (Server.Has kept) (hsAnswerRequest h answerer msg contentType) := by
  refine .bind (getConnection_durable h) fun connection => message_keeps persistent ?_
  exact .bind (modifyConnection_keeps _ _) fun _ => record_keeps _

theorem jcDropRequest_keeps (c : ClientId) (terminate : Bool) :
    Keeps (Server.Has kept) (jcDropRequest c terminate : ServerM Iks Unit) := by
  refine .bind (getClient_durable c) fun client => ?_
  dsimp only
  split
  · exact .throw _
  · refine .bind (hsAnswerRequest_keeps persistent _ _ _ _) fun _ =>
      .bind (modifyClient_keeps _ _) fun _ => ?_
    exact .bind getTime_keeps fun _ => modifyClient_keeps _ _

theorem jcFlushMessages_keeps [Iksemel Iks] (c : ClientId) :
    Keeps (Server.Has kept) (jcFlushMessages c : ServerM Iks Unit) := by
  refine .bind (getClient_durable c) fun client => ?_
  dsimp only
  split
  · exact .pure _
  · split
    · refine .bind (modifyClient_keeps _ _) fun _ => .bind (.checked _) fun buffer => ?_
      refine .bind (hsAnswerRequest_keeps persistent _ _ _ _) fun _ =>
        .bind (modifyClient_keeps _ _) fun _ => ?_
      exact .bind getTime_keeps fun _ => modifyClient_keeps _ _
    · exact .pure _

theorem jbCloseClient_keeps (c : ClientId) :
    Keeps (Server.Has kept) (jbCloseClient c : ServerM Iks Unit) := by
  refine .bind (getClient_durable c) fun client =>
    .maybe (jcDropRequest_keeps persistent c true) fun _ => ?_
  refine .bind (onNet_keeps (persistent.delete _)) fun _ => .read fun s h => ?_
  split
  · exact .throw _
  · refine .bind (.modify fun _ h => h) fun _ => .bind (.modify fun _ h => h) fun _ => ?_
    exact record_keeps _

theorem jbTimedOut_keeps (init : Int) (cs : List ClientId) :
    Keeps (Server.Has kept) (jbTimedOut init cs : ServerM Iks (List ClientId)) := by
  induction cs with
  | nil => exact .pure _
  | cons c rest ih =>
    refine .bind (getClient_durable c) fun client => .read fun s _ => ?_
    dsimp only
    split
    · exact .bind (jcDropRequest_keeps persistent c false) fun _ => ih
    · split
      · exact .bind ih fun _ => .pure _
      · exact ih

theorem jbCheckTimeout_keeps : Keeps (Server.Has kept) (jbCheckTimeout : ServerM Iks Unit) :=
  .bind getTime_keeps fun _ => .read fun _ _ => .bind (jbTimedOut_keeps persistent _ _) fun _ =>
    .loop (jbCloseClient_keeps persistent) _

omit persistent in
theorem jcHandleStanza_keeps (c : ClientId) (type : IksType) (stanza : Option Iks) :
    Keeps (Server.Has kept) (jcHandleStanza c type stanza) := by
  unfold jcHandleStanza
  split
  · exact .pure _
  · cases type with
    | normal => exact .bind (modifyClient_keeps _ _) fun _ => record_keeps _
    | error | stop => exact modifyClient_keeps _ _
    | start => exact .pure _

omit persistent in
theorem jcClearHttp_keeps (c : ClientId) :
    Keeps (Server.Has kept) (jcClearHttp c : ServerM Iks Unit) :=
  .bind (modifyClient_keeps _ _) fun _ => .bind getTime_keeps fun _ => modifyClient_keeps _ _

theorem jcSetHttp_keeps [Iksemel Iks] (c : ClientId) (connection : ConnectionId)
    (rid : Option UInt64) :
    Keeps (Server.Has kept) (jcSetHttp c connection rid : ServerM Iks Unit) := by
  refine .bind (getClient_durable c) fun client =>
    .maybe (jcDropRequest_keeps persistent c false) fun _ => ?_
  refine .bind (modifyClient_keeps _ _) fun _ => .bind (record_keeps _) fun _ => ?_
  refine .bind getTime_keeps fun _ => .bind (modifyClient_keeps _ _) fun _ => ?_
  exact .bind (modifyConnection_keeps _ _) fun _ => jcFlushMessages_keeps persistent c

omit persistent in
theorem genSid_keeps : Keeps (Server.Has kept) (genSid : ServerM Iks UInt64) :=
  .bind lrand48_keeps fun _ => .bind lrand48_keeps fun _ => .pure _

omit persistent in
theorem pickSid_keeps (attempts : Nat) :
    Keeps (Server.Has kept) (pickSid attempts : ServerM Iks UInt64) := by
  induction attempts with
  | zero => exact .throw _
  | succ attempts ih =>
    refine .bind genSid_keeps fun sid => .read fun s _ => ?_
    split
    · exact ih
    · exact .pure _

theorem jbOpenSession_keeps (connection : ConnectionId) (host : CString) (wait : Int)
    (sock : SocketId) :
    Keeps (Server.Has kept) (jbOpenSession connection host wait sock : ServerM Iks Unit) := by
  refine .read fun s _ => .bind (pickSid_keeps _) fun sid => .bind getTime_keeps fun timestamp => ?_
  refine .bind newNode_keeps fun it => .read fun s₁ h => ?_
  dsimp only
  split
  · exact .throw _
  · refine .bind (.set h) fun _ => .bind (record_keeps _) fun _ => ?_
    refine .bind (onNet_keeps (persistent.send _ (some _) [])) fun _ => ?_
    refine .bind (onNet_keeps (persistent.dataCallback _ _)) fun _ => ?_
    refine .bind (onNet_keeps (persistent.connectCallback _ _)) fun _ => ?_
    refine .bind (onNet_keeps (persistent.errorCallback _ _)) fun _ => ?_
    exact hsAnswerRequest_keeps persistent _ _ _ _

theorem hcDelete_keeps (h : ConnectionId) :
    Keeps (Server.Has kept) (hcDelete h : ServerM Iks Unit) := by
  refine .bind (getConnection_durable h) fun connection => ?_
  extract_lets next
  have later : ∀ u, Keeps (Server.Has kept) (next u) := fun _ => by
    refine .bind (onNet_keeps (persistent.delete _)) fun _ => .read fun s h => ?_
    split
    · exact .throw _
    · refine .bind (.modify fun _ h => h) fun _ => .bind (.modify fun _ h => h) fun _ => ?_
      exact record_keeps _
  split
  · exact later ()
  · exact .bind (jcClearHttp_keeps _) later

theorem hcCreate_keeps (sock : SocketId) :
    Keeps (Server.Has kept) (hcCreate sock : ServerM Iks Unit) := by
  refine .read fun s h => ?_
  dsimp only
  split
  · exact .throw _
  · refine .bind newNode_keeps fun _ => .bind (.modify fun _ h => h) fun _ => ?_
    refine .bind (.modify fun _ h => h) fun _ => .bind (record_keeps _) fun _ => ?_
    refine .bind (onNet_keeps (persistent.dataCallback _ _)) fun _ => ?_
    exact onNet_keeps (persistent.errorCallback _ _)

/-- What the calls on sockets keep, the callbacks keep. -/
theorem Persistent.durable [Iksemel Iks] : Durable (Server.Has kept : Server Iks → Prop) where
  accept _ _ := onNet_keeps (persistent.accept _ _)
  connect _ _ _ := onNet_keeps (persistent.connect _ _ _)
  receive _ _ _ := onNet_keeps (persistent.receive _ _ _)
  send _ _ _ := onNet_keeps (persistent.send _ _ _)
  writable _ _ := onNet_keeps (persistent.writable _ _)
  ignore _ := onNet_keeps (persistent.ignore _)
  close _ := onNet_keeps (persistent.close _)
  delete _ := onNet_keeps (persistent.delete _)
  time := getTime_keeps
  flush := jcFlushMessages_keeps persistent
  closeSession := jbCloseClient_keeps persistent
  stanza := jcHandleStanza_keeps
  setHttp := jcSetHttp_keeps persistent
  openSession := jbOpenSession_keeps persistent
  create := hcCreate_keeps persistent
  change _ _ _ := modifyConnection_keeps _ _
  received _ _ _ h := h
  request _ _ _ h := h
  answer _ _ _ := hsAnswerRequest_keeps persistent _ _ _ _
  deleteConnection := hcDelete_keeps persistent

end Calls

section Main
variable [Iksemel Iks]

omit [Iksemel Iks] in
theorem started_keeps {program : ServerM Iks Bool} (keeps : Keeps (Server.Has kept) program)
    {s : Server Iks} (h : s.Has kept) :
    Ensures (program s) (fun started s' => started = true → s'.Has kept) fun _ => True :=
  (keeps s h).mono (fun _ _ h _ => h) fun _ => id

section Beginning
variable (enduring : Enduring kept)
include enduring

theorem hsNew_keeps (config : Iks) {s : Server Iks} (h : s.Has kept) :
    Ensures (hsNew config s) (fun started s' => started = true → s'.Has kept) fun _ => True := by
  have served := enduring.serve s.net (configInt config "port" httpPortDefault) s.oracle.listen h
  unfold sockServe at served
  unfold hsNew
  rw [run_bind_ok (onNet_run sockNew_run), run_get, ensures_bind, onNet, ensures_part]
  rw [run_bind_ok sockNew_run, ensures_bind] at served
  refine served.mono (fun listening n₁ listens => ?_) fun _ => id
  cases listening with
  | false => exact fun started => by cases started
  | true =>
    rw [if_pos rfl]
    apply started_keeps
    · refine .bind (.modify fun _ h => h) fun _ => ?_
      exact .bind (onNet_keeps (enduring.acceptCallback _ _)) fun _ => .pure _
    · exact listens rfl

theorem start_keeps {boot : Boot Iks} {c : Configuration Iks} (began : start boot = .ok (some c))
    (blank : kept (.blank boot.openFds boot.oracle.sends)) : c.server.Has kept := by
  obtain ⟨httpConfig, jabberPort, sessionTimeout, s, ran, rfl⟩ := start_began began
  have fresh : Server.Has kept { boot.blank with jabberPort, sessionTimeout } := blank
  have made : s.Has kept := (hsNew_keeps enduring httpConfig fresh).of_ok ran rfl
  exact made

end Beginning

theorem Reaches.keeps (lasting : Lasting kept) {admitted : Configuration Iks → Input Iks → Prop}
    {c : Configuration Iks} (run : Reaches admitted c) : kept c.server.net := by
  induction run with
  | start began => exact start_keeps lasting.toEnduring began (lasting.blank _ _)
  | step _ _ done ih =>
    exact lasting.durable.step_keeps (fun oracle => lasting.hear _ oracle.sends ih)
      (fun _ _ => jbCheckTimeout_keeps lasting.toPersistent) done

end Main

end Bosh
