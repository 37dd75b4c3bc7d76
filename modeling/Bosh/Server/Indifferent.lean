import Bosh.Server.Durable
import Bosh.Server.Links

/-! Conditions that do not depend on what one session does. -/
namespace Bosh
open Effect Text

variable {Iks : Type}

/-- The condition holds whatever happens to session `c`, to the clock and on the network. Of the
close callbacks it needs none, and of the answers that drop a request those of `c` do not count. -/
structure Indifferent (kept : Server Iks → Prop) (c : ClientId) : Prop where
  frame : ∀ s s', kept s → s'.history = s.history → s'.nextClient = s.nextClient →
    (∀ c' < s.nextClient, c' ≠ c → s'.clients c' = s.clients c') →
    (∀ h, s'.registered h = s.registered h ∨ s'.registered h = none ∨
      s'.registered h = some (.jcClearHttp c)) → kept s'
  record : ∀ s entry, kept s → (∀ h c' body, entry = .answer h (.dropRequest c') body → c' = c) →
    kept (s.record entry)

theorem later_session (c : ClientId) : c + 1 ≠ c := Nat.succ_ne_self c

namespace Indifferent
variable {kept : Server Iks → Prop} {c : ClientId} (indifferent : Indifferent kept c)
include indifferent

theorem same {s s' : Server Iks} (h : kept s) (history : s'.history = s.history)
    (next : s'.nextClient = s.nextClient) (clients : s'.clients = s.clients)
    (connections : s'.connections = s.connections) : kept s' :=
  indifferent.frame s s' h history next (fun _ _ _ => by rw [clients])
    fun k => .inl (by rw [Server.registered, Server.registered, connections])

theorem onNet_keeps {α : Type} (program : NetM α) : Keeps kept (onNet program : ServerM Iks α) := by
  intro s h
  refine (onNet_frame program s).mono ?_ fun _ => id
  rintro _ _ ⟨net, rfl⟩
  exact indifferent.same h rfl rfl rfl rfl

theorem modifyClient_keeps (f : JabberClient Iks → JabberClient Iks) :
    Keeps kept (modifyClient c f : ServerM Iks Unit) := by
  refine .bind (getClient_durable c) fun client => .modify fun s h => ?_
  exact indifferent.frame s _ h rfl rfl (fun _ _ other => Function.update_of_ne other ..)
    fun _ => .inl rfl

theorem modifyConnection_keeps (h : ConnectionId) {f : HttpConnection → HttpConnection}
    (callback : ∀ connection, (f connection).closeCallback = connection.closeCallback ∨
      (f connection).closeCallback = none ∨ (f connection).closeCallback = some (.jcClearHttp c)) :
    Keeps kept (modifyConnection h f : ServerM Iks Unit) := by
  intro s held
  unfold modifyConnection getConnection
  rw [ensures_bind, ensures_demand]
  refine ⟨fun connection here => ?_, fun _ => trivial⟩
  refine indifferent.frame s _ held rfl rfl (fun _ _ _ => rfl) fun k => ?_
  by_cases same : k = h
  · subst same
    simpa [Server.registered, here] using callback connection
  · exact .inl (by simp [Server.registered, same])

omit indifferent in
theorem registered_set {s : Server Iks} {h : ConnectionId} {connection : Option HttpConnection}
    (none_ : connection.bind HttpConnection.closeCallback = none) (k : ConnectionId) :
    (s.setConnection h connection).registered k = s.registered k ∨
      (s.setConnection h connection).registered k = none ∨
      (s.setConnection h connection).registered k = some (.jcClearHttp c) := by
  by_cases same : k = h
  · exact .inr (.inl (by simpa [Server.registered, same] using none_))
  · exact .inl (by simp [Server.registered, same])

theorem record_keeps {entry : Record Iks}
    (other : ∀ h c' body, entry ≠ .answer h (.dropRequest c') body) :
    Keeps kept (modify (Server.record entry) : ServerM Iks Unit) :=
  .modify fun s h => indifferent.record s entry h fun h c' body same => absurd same (other h c' body)

theorem getTime_keeps : Keeps kept (getTime : ServerM Iks Int) := by
  intro s h
  rw [getTime_run]
  exact indifferent.same h rfl rfl rfl rfl

theorem lrand48_keeps : Keeps kept (lrand48 : ServerM Iks Nat) := by
  unfold lrand48
  apply Keeps.read
  intro s h
  split
  · exact .throw _
  · exact .bind (.set (indifferent.same h rfl rfl rfl rfl)) fun _ => .pure _

theorem newNode_keeps : Keeps kept (newNode : ServerM Iks Nat) :=
  .read fun _ h => .bind (.set (indifferent.same h rfl rfl rfl rfl)) fun _ => .pure _

theorem hsAnswerRequest_keeps (h : ConnectionId) {answerer : Answerer Iks}
    (mine : ∀ c', answerer = .dropRequest c' → c' = c) (msg contentType : Bytes) :
    Keeps kept (hsAnswerRequest h answerer msg contentType : ServerM Iks Unit) := by
  refine .bind (getConnection_durable h) fun connection => ?_
  refine .bind (indifferent.onNet_keeps _) fun _ => .bind (indifferent.onNet_keeps _) fun _ => ?_
  refine .bind (indifferent.modifyConnection_keeps h fun _ => .inr (.inl rfl)) fun _ => .modify fun s held => ?_
  exact indifferent.record s _ held fun _ _ _ same => mine _ (Record.answer.inj same).2.1

theorem jcDropRequest_keeps (terminate : Bool) :
    Keeps kept (jcDropRequest c terminate : ServerM Iks Unit) := by
  refine .bind (getClient_durable c) fun client => ?_
  dsimp only
  split
  · exact .throw _
  · refine .bind (indifferent.hsAnswerRequest_keeps _ (fun _ same => by cases same; rfl) _ _) fun _ => ?_
    refine .bind (indifferent.modifyClient_keeps _) fun _ =>
      .bind indifferent.getTime_keeps fun _ => ?_
    exact indifferent.modifyClient_keeps _

theorem jcFlushMessages_keeps [Iksemel Iks] :
    Keeps kept (jcFlushMessages c : ServerM Iks Unit) := by
  refine .bind (getClient_durable c) fun client => ?_
  dsimp only
  split
  · exact .pure _
  · split
    · refine .bind (indifferent.modifyClient_keeps _) fun _ => .bind (.checked _) fun buffer => ?_
      refine .bind (indifferent.hsAnswerRequest_keeps _ (fun _ same => by cases same) _ _) fun _ => ?_
      refine .bind (indifferent.modifyClient_keeps _) fun _ =>
        .bind indifferent.getTime_keeps fun _ => ?_
      exact indifferent.modifyClient_keeps _
    · exact .pure _

theorem jcHandleStanza_keeps (type : IksType) (stanza : Option Iks) :
    Keeps kept (jcHandleStanza c type stanza) := by
  unfold jcHandleStanza
  split
  · exact .pure _
  · cases type with
    | normal => exact .bind (indifferent.modifyClient_keeps _) fun _ => indifferent.record_keeps nofun
    | error | stop => exact indifferent.modifyClient_keeps _
    | start => exact .pure _

theorem jcClearHttp_keeps : Keeps kept (jcClearHttp c : ServerM Iks Unit) :=
  .bind (indifferent.modifyClient_keeps _) fun _ =>
    .bind indifferent.getTime_keeps fun _ => indifferent.modifyClient_keeps _

/-- What `jb_close_client` does once no request is held: the condition may change with the last
entry of the history. -/
theorem jbCloseClient_leads {post : Server Iks → Prop}
    (closed : ∀ s, kept s → post (s.record (.closeSession c))) :
    Leads kept post (jbCloseClient c : ServerM Iks Unit) := by
  refine .bind (getClient_durable c) fun client =>
    .maybe (indifferent.jcDropRequest_keeps true) fun _ => ?_
  refine .bind (indifferent.onNet_keeps _) fun _ => .read fun s _ => ?_
  split
  · exact .throw _
  · refine .bind (show Keeps kept _ from fun s h => indifferent.same h rfl rfl rfl rfl) fun _ => ?_
    refine .bind (show Keeps kept _ from fun s h => ?_) fun _ => .modify closed
    exact indifferent.frame s _ h rfl rfl (fun _ _ other => Function.update_of_ne other ..)
      fun _ => .inl rfl

/-- `jc_set_http` makes its entry before the session has the new request. -/
theorem jcSetHttp_leads [Iksemel Iks] {post : Server Iks → Prop} (h : ConnectionId)
    (rid : Option UInt64) (held : ∀ s, kept s → post (s.record (.hold c h)))
    (later : Indifferent post c) : Leads kept post (jcSetHttp c h rid : ServerM Iks Unit) := by
  refine .bind (getClient_durable c) fun client =>
    .maybe (indifferent.jcDropRequest_keeps false) fun _ => ?_
  refine .bind (indifferent.modifyClient_keeps _) fun _ => .bind (.modify held) fun _ => ?_
  refine .bind later.getTime_keeps fun _ => .bind (later.modifyClient_keeps _) fun _ => ?_
  refine .bind (later.modifyConnection_keeps h fun _ => .inr (.inr rfl)) fun _ => ?_
  exact later.jcFlushMessages_keeps

theorem hcDelete_rest {post : Server Iks → Prop} (h : ConnectionId) (connection : HttpConnection)
    (deleted : ∀ s, kept s → post (s.record (.hcDelete h))) : Leads kept post (do
      onNet (sockDelete connection.sock)
      let s ← get
      match Chain.erase connection.it s.httpConnections with
      | none => throw .useAfterFree
      | some httpConnections =>
        modify fun s => { s with httpConnections }
        modify (Server.setConnection h none)
        modify (Server.record (.hcDelete h)) : ServerM Iks Unit) := by
  refine .bind (indifferent.onNet_keeps _) fun _ => .read fun s _ => ?_
  split
  · exact .throw _
  · refine .bind (show Keeps kept _ from fun s h => indifferent.same h rfl rfl rfl rfl) fun _ => ?_
    refine .bind (show Keeps kept _ from fun s held => ?_) fun _ => .modify deleted
    exact indifferent.frame s _ held rfl rfl (fun _ _ _ => rfl) (registered_set rfl)

theorem pickSid_keeps (attempts : Nat) : Keeps kept (pickSid attempts : ServerM Iks UInt64) := by
  induction attempts with
  | zero => exact .throw _
  | succ attempts ih =>
    refine .bind (.bind indifferent.lrand48_keeps fun _ => .bind indifferent.lrand48_keeps fun _ => .pure _)
      fun sid => .read fun s _ => ?_
    split
    · exact ih
    · exact .pure _

theorem jbOpenSession_keeps (h : ConnectionId) (host : CString) {wait : Int} (sock : SocketId)
    (opened : ∀ s s' client, kept s → s'.history = s.history → s'.nextClient = s.nextClient + 1 →
      s'.clients = Function.update s.clients s.nextClient (some client) →
        s'.connections = s.connections →
      client.wait = wait → kept s') :
    Keeps kept (jbOpenSession h host wait sock : ServerM Iks Unit) := by
  refine .read fun s _ => .bind (indifferent.pickSid_keeps _) fun sid => ?_
  refine .bind indifferent.getTime_keeps fun timestamp =>
    .bind indifferent.newNode_keeps fun it => ?_
  refine .read fun s held => ?_
  dsimp only
  split
  · exact .throw _
  · refine .bind (.set (opened s _ _ held rfl rfl rfl rfl rfl)) fun _ => ?_
    refine .bind (indifferent.record_keeps nofun) fun _ => ?_
    refine .bind (indifferent.onNet_keeps _) fun _ => .bind (indifferent.onNet_keeps _) fun _ => ?_
    refine .bind (indifferent.onNet_keeps _) fun _ => .bind (indifferent.onNet_keeps _) fun _ => ?_
    exact indifferent.hsAnswerRequest_keeps _ (fun _ same => by cases same) _ _

theorem hcCreate_keeps (sock : SocketId) : Keeps kept (hcCreate sock : ServerM Iks Unit) := by
  refine .read fun s _ => ?_
  dsimp only
  split
  · exact .throw _
  · refine .bind indifferent.newNode_keeps fun _ => .bind (.modify fun s held => ?_) fun _ => ?_
    · refine indifferent.frame s _ held rfl rfl (fun _ _ _ => rfl) fun k => ?_
      exact registered_set rfl k
    · refine .bind (.modify fun s held => indifferent.same held rfl rfl rfl rfl) fun _ => ?_
      refine .bind (indifferent.record_keeps nofun) fun _ => ?_
      exact .bind (indifferent.onNet_keeps _) fun _ => indifferent.onNet_keeps _

end Indifferent

end Bosh
