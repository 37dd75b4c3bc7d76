import Bosh.Server.Links
import Bosh.Server.Sockets

/-! What the functions that work on one session leave behind, to the last field. -/
namespace Bosh
open Effect Text

section Order
variable {Iks : Type}

/-- The lists, the sockets and the monitor are in order, as every run keeps them. -/
structure Upright (s : Server Iks) : Prop where
  sound : Sound s
  tidy : s.Tidy

theorem Reaches.upright [Iksemel Iks] {admitted : Configuration Iks → Input Iks → Prop}
    {c : Configuration Iks} (run : Reaches admitted c) : Upright c.server :=
  ⟨run.sound, run.tidy⟩

theorem Upright.hear {s : Server Iks} (upright : Upright s) (oracle : Oracle Iks) :
    Upright (s.hear oracle) :=
  ⟨upright.sound.hear oracle, Net.Tidy.sending upright.tidy oracle.sends s.net.sent⟩

variable {s : Server Iks} {h : ConnectionId} {c : ClientId}

theorem Upright.socket_connection (upright : Upright s) {connection : HttpConnection}
    (here : s.connections h = some connection) : (s.net.sockets connection.sock).isSome := by
  obtain ⟨sock, there, -⟩ := upright.sound.estate.owned _ _ (estate_connection here)
  exact Option.isSome_of_mem there

theorem Upright.socket_session (upright : Upright s) {client : JabberClient Iks}
    (here : s.clients c = some client) : (s.net.sockets client.sock).isSome := by
  obtain ⟨sock, there, -⟩ := upright.sound.estate.owned _ _ (estate_session here)
  exact Option.isSome_of_mem there

theorem Upright.apart (upright : Upright s) {o o' : Owner} {i : SocketId}
    (mine : s.estate.sock o = some i) (yours : s.estate.sock o' = some i) : o = o' :=
  upright.sound.estate.unique mine yours

theorem Upright.find_iff (upright : Upright s) {sid : UInt64} :
    s.sids.find sid = some c ↔ ∃ client, s.clients c = some client ∧ client.sid = sid := by
  have hashed := (HashTable.find_eq_some_iff upright.sound.directory.distinct).trans
    (upright.sound.directory.hashed sid c)
  refine hashed.trans ?_
  simp [Server.directory]

def Server.Gone (s : Server Iks) (c : ClientId) : Prop :=
  c ∉ Chain.values s.jabberConnections ∧ ∀ sid, s.sids.find sid ≠ some c

theorem Upright.gone_iff (upright : Upright s) : s.Gone c ↔ s.clients c = none := by
  constructor
  · rintro ⟨unlisted, -⟩
    rw [upright.sound.mem_jabberConnections] at unlisted
    simpa using unlisted
  · intro missing
    refine ⟨fun listed => ?_, fun sid found => ?_⟩
    · rw [upright.sound.mem_jabberConnections] at listed
      simp [missing] at listed
    · obtain ⟨client, here, -⟩ := upright.find_iff.mp found
      simp [missing] at here

theorem Upright.of_sim [Iksemel Iks] {α : Type} {p : Phase Iks} {program : ServerM Iks α}
    {post : α → Phase Iks → Server Iks → Prop} (upright : Upright s)
    (sim : Sim (Assumed.of False False) (p, s) (program s) post)
    (tidy : Keeps Server.Tidy program) :
    Ensures (program s) (fun _ s' => Upright s') fun _ => True := by
  have kept : ∀ q q' : Phase Iks × Server Iks, Micro (Assumed.of False False) q q' → Sound q.2 →
    Sound q'.2 :=
    fun _ _ step sound => Micro.sound step sound
  have sound := sim.invariant kept upright.sound
  apply (sound.both (tidy s upright.tidy)).mono
  · rintro _ s' ⟨⟨_, sound', -⟩, tidy'⟩
    exact ⟨sound', tidy'⟩
  · exact fun _ _ => trivial

/-- Every request that a session holds has come on a connection that is still there. -/
def Server.HoldsLive (s : Server Iks) : Prop :=
  ∀ c client h, s.clients c = some client → client.connection = some h → (s.connections h).isSome

theorem Server.HoldsLive.hear {s : Server Iks} (live : s.HoldsLive) (oracle : Oracle Iks) :
    (s.hear oracle).HoldsLive := live

theorem Reaches.holdsLive [Iksemel Iks] {r : Configuration Iks} (run : Reaches NoOverlap r) :
    r.server.HoldsLive := by
  intro c client h here held
  have holding : r.server.holding c = some h := by simp [Server.holding, here, held]
  exact run.sound.mem_httpConnections.mp (run.held_live holding)

end Order

section Answers
variable {Iks : Type} {s : Server Iks}

theorem sends_exact {n : Net} {i : SocketId} (tidy : n.Tidy none) (there : (n.sockets i).isSome)
    (head content : Bytes) :
    Ensures ((do
      sockSend i (some head) head.length true
      sockSend i (some content) content.length false : NetM Unit) n)
      (fun _ n' => Gives i (head ++ content) n.wire n'.wire) fun _ => False := by
  rw [ensures_bind]
  refine ((sockSend_gives _ _ true).both (sockSend_tidy tidy (only_none _) _ _ true)).mono ?_ ?_
  · rintro _ n₁ ⟨first, tidy₁, -⟩
    have there₁ : (n₁.sockets i).isSome := first.given.isSome
    refine ((sockSend_gives _ _ false).both (sockSend_tidy tidy₁ (only_self _) _ _ false)).mono ?_ ?_
    · rintro _ n₂ ⟨second, -⟩
      exact first.trans second
    · rintro fault ⟨-, missing⟩
      simp [missing] at there₁
  · rintro fault ⟨-, missing⟩
    simp [missing] at there

/-- Both parts of a response are handed to the connection's socket. -/
theorem hsAnswerRequest_exact {h : ConnectionId} (tidy : s.Tidy)
    (there : ∀ connection, s.connections h = some connection → (s.net.sockets connection.sock).isSome)
    (answerer : Answerer Iks) (msg contentType : Bytes) :
    Ensures (hsAnswerRequest h answerer msg contentType s)
      (fun _ s' => ∃ connection net, s.connections h = some connection ∧
        Gives connection.sock (httpResponse contentType msg) s.net.wire net.wire ∧
        s' = s.answered h connection net answerer msg)
      fun _ => s.connections h = none := by
  unfold hsAnswerRequest getConnection onNet modifyConnection getConnection
  simp only [ensures_bind, ensures_demand, ensures_part, ensures_modify]
  refine ⟨fun connection found => ?_, id⟩
  have sent := sends_exact tidy (there connection found) (makeHttpHead 200 msg.length contentType) msg
  rw [ensures_bind] at sent
  refine sent.mono (fun _ n₁ second => second.mono ?_ fun _ => False.elim) fun _ => False.elim
  rintro _ n₂ gives
  refine ⟨fun connection' found' => ?_, fun absent => ?_⟩
  · obtain rfl : connection = connection' := Option.some.inj (found.symm.trans found')
    exact ⟨connection, n₂, found, gives, rfl⟩
  · exact absurd absent (by simp [found])

variable {s' : Server Iks} {c : ClientId}

inductive Released (c : ClientId) (answerer : Answerer Iks) (body : Bytes)
    (after : JabberClient Iks → JabberClient Iks) (s : Server Iks) : Server Iks → Prop where
  | intro (client : JabberClient Iks) (h : ConnectionId) (connection : HttpConnection) (net : Net)
      (clock : Int) (oracle : Oracle Iks) :
      s.clients c = some client → client.connection = some h → s.connections h = some connection →
      Gives connection.sock (httpResponse httpXmlContent body) s.net.wire net.wire →
        s.clock ≤ clock →
      Released c answerer body after s { s.answered h connection net answerer body with
        clients := Function.update s.clients c (some { after client with timestamp := clock })
        clock
        oracle }

theorem Released.socket {answerer : Answerer Iks} {body : Bytes}
    {after : JabberClient Iks → JabberClient Iks} (released : Released c answerer body after s s')
    (upright : Upright s) {c' : ClientId} {client' : JabberClient Iks}
    (here : s.clients c' = some client') : SameSocket client'.sock s.net.wire s'.net.wire := by
  obtain ⟨_, h, connection, net, _, _, _, _, found, gives, -⟩ := released
  refine gives.only.same fun equal => ?_
  have owners := upright.apart (estate_session here) (equal ▸ estate_connection found)
  cases owners

inductive Forgotten (c : ClientId) (s : Server Iks) : Server Iks → Prop where
  | intro (client : JabberClient Iks) (rest : Chain.Cells ClientId) (net : Net) :
      s.clients c = some client → client.connection = none →
      Chain.erase client.it s.jabberConnections = some rest →
      Deletes client.sock s.net.wire net.wire →
      Forgotten c s { s with
        net
        jabberConnections := rest
        clientCount := s.clientCount - 1
        sids := s.sids.erase client.sid
        clients := Function.update s.clients c none
        history := .closeSession c :: s.history }

theorem Forgotten.clients_self (gone : Forgotten c s s') : s'.clients c = none := by
  cases gone
  exact Function.update_self ..

theorem Forgotten.socket (gone : Forgotten c s s') {client : JabberClient Iks}
    (here : s.clients c = some client) {i : SocketId} (other : i ≠ client.sock) :
    SameSocket i s.net.wire s'.net.wire := by
  obtain ⟨client', rest, net, here', -, -, -, wire⟩ := gone
  obtain rfl := Option.some.inj (here.symm.trans here')
  have sockets : net.wire.sockets i = s.net.wire.sockets i := by
    rw [wire]
    exact Wire.sockets_put_ne other _ _
  exact ⟨sockets, by rw [wire]; rfl, by rw [wire]; rfl⟩

def dropBody (terminate : Bool) : Bytes :=
  if terminate then terminateSessionResponse else emptyResponse

abbrev Dropped (c : ClientId) (terminate : Bool) (s s' : Server Iks) : Prop :=
  Released c (.dropRequest c) (dropBody terminate) (fun client => { client with connection := none }) s s'

theorem jcDropRequest_exact (upright : Upright s) (terminate : Bool) {client : JabberClient Iks}
    {h : ConnectionId} (here : s.clients c = some client) (held : client.connection = some h) :
    Ensures (jcDropRequest c terminate s) (fun _ s' => Dropped c terminate s s')
      fun _ => s.connections h = none := by
  unfold jcDropRequest
  rw [run_bind_ok (getClient_run here), held]
  dsimp only
  rw [ensures_bind]
  refine (hsAnswerRequest_exact upright.tidy (fun _ => upright.socket_connection) _ (dropBody terminate) _).mono
    ?_ fun _ => id
  rintro _ s₁ ⟨connection, net, found, gives, rfl⟩
  have here₁ : (s.answered h connection net (.dropRequest c) (dropBody terminate)).clients c =
      some client := here
  rw [run_bind_ok (modifyClient_run here₁ _), ensures_bind]
  refine (getTime_spec _).mono ?_ fun _ => False.elim
  rintro now s₂ ⟨later, ticks, rfl⟩
  rw [modifyClient_run (Function.update_self ..)]
  have done : Dropped c terminate s _ :=
    Released.intro client h connection net now { s.oracle with ticks } here held found gives later
  simpa [Server.setClient, Server.answered, Function.update_idem, Ensures] using done

/-- `jb_close_client` answers the request that the session holds, and then the session is gone. -/
inductive Ended (c : ClientId) (s : Server Iks) : Server Iks → Prop where
  | idle {client : JabberClient Iks} {s' : Server Iks} : s.clients c = some client →
      client.connection = none → Forgotten c s s' → Ended c s s'
  | held {s₁ s' : Server Iks} : Dropped c true s s₁ → Forgotten c s₁ s' → Ended c s s'

section Sessions
variable [Iksemel Iks]

theorem jcDropRequest_upright (upright : Upright s) (terminate : Bool) {client : JabberClient Iks}
    (here : s.clients c = some client) :
    Ensures (jcDropRequest c terminate s) (fun _ s' => Upright s') fun _ => True :=
  upright.of_sim (p := {}) (jcDropRequest_sim terminate here) (jcDropRequest_keeps tidy_lasting.toPersistent c terminate)

theorem jbCloseClient_upright (upright : Upright s) (c : ClientId) :
    Ensures (jbCloseClient c s) (fun _ s' => Upright s') fun _ => True :=
  upright.of_sim (p := {}) (jbCloseClient_sim rfl (.inl rfl)) (jbCloseClient_keeps tidy_lasting.toPersistent c)

omit [Iksemel Iks] in
theorem forget_exact (upright : Upright s) {client : JabberClient Iks}
    (here : s.clients c = some client) (unheld : client.connection = none) {sock it : Nat}
    {sid : UInt64} (same : client.sock = sock) (node : client.it = it) (number : client.sid = sid) :
    Ensures ((do
      onNet (sockDelete sock)
      let s ← get
      match Chain.erase it s.jabberConnections with
      | none => throw .useAfterFree
      | some jabberConnections =>
        modify fun s => { s with
          jabberConnections
          clientCount := s.clientCount - 1
          sids := s.sids.erase sid }
        modify (Server.setClient c none)
        modify (Server.record (.closeSession c)) : ServerM Iks Unit) s)
      (fun _ s' => Forgotten c s s') fun _ => False := by
  subst same node number
  have listed : (client.it, c) ∈ s.jabberConnections :=
    (upright.sound.directory.listed.mem_iff _ _).mpr (by simp [Server.directory, here])
  obtain ⟨rest, erased⟩ := Chain.erase_isSome listed
  unfold onNet
  rw [ensures_bind, ensures_part]
  refine ((sockDelete_deletes client.sock).both (sockDelete_tidy upright.tidy (only_none _))).mono ?_ ?_
  · rintro _ net ⟨gone, -⟩
    rw [ensures_bind, ensures_get]
    dsimp only
    rw [erased]
    exact Forgotten.intro client rest net here unheld erased gone
  · rintro fault ⟨-, missing⟩
    simpa [missing] using upright.socket_session here

theorem jbCloseClient_exact (upright : Upright s) {client : JabberClient Iks}
    (here : s.clients c = some client) :
    Ensures (jbCloseClient c s) (fun _ s' => Ended c s s')
      fun _ => ∃ h, client.connection = some h ∧ s.connections h = none := by
  unfold jbCloseClient
  rw [run_bind_ok (getClient_run here)]
  cases held : client.connection with
  | none =>
    rw [if_neg (by simp)]
    exact (forget_exact upright here held rfl rfl rfl).mono (fun _ _ gone => .idle here held gone)
      fun _ => False.elim
  | some h =>
    rw [if_pos (by simp), ensures_bind]
    refine ((jcDropRequest_exact upright true here held).both
      (jcDropRequest_upright upright true here)).mono ?_ fun fault absent => ⟨h, rfl, absent.1⟩
    rintro _ s₁ ⟨dropped, upright₁⟩
    have here₁ : ∃ clock, s₁.clients c = some { client with connection := none, timestamp := clock } := by
      obtain ⟨client', _, _, _, clock, _, here', -⟩ := dropped
      obtain rfl := Option.some.inj (here.symm.trans here')
      exact ⟨clock, Function.update_self ..⟩
    obtain ⟨clock, here₁⟩ := here₁
    exact (forget_exact upright₁ here₁ rfl rfl rfl rfl).mono (fun _ _ gone => .held dropped gone)
      fun _ => False.elim

abbrev Emptied (c : ClientId) (popped : List Iks) (s s' : Server Iks) : Prop :=
  Released c (.flushMessages c popped) (messageWrapper (serialised popped))
    (fun client => { client with connection := none, outputQueue := [] }) s s'

theorem jcFlushMessages_exact (upright : Upright s) {client : JabberClient Iks}
    (here : s.clients c = some client) :
    Ensures (jcFlushMessages c s)
      (fun _ s' => (client.connection = none ∨ client.outputQueue = []) ∧ s' = s ∨
        client.outputQueue ≠ [] ∧ Emptied c client.outputQueue s s')
      fun fault => fault ≠ .deletedConnection ∨
        ∃ h, client.connection = some h ∧ s.connections h = none := by
  unfold jcFlushMessages
  rw [run_bind_ok (getClient_run here)]
  cases held : client.connection with
  | none => exact .inl ⟨.inl rfl, rfl⟩
  | some h =>
    dsimp only
    split
    · rename_i waiting
      rw [run_bind_ok (modifyClient_run here _), ensures_bind, ensures_checked]
      refine ⟨fun buffer done => ?_, fun fault failed => .inl ?_⟩
      · obtain rfl := (flushBuffer_spec client.outputQueue).1 buffer done
        rw [ensures_bind]
        refine (hsAnswerRequest_exact (s := s.setClient c _) upright.tidy
          (fun _ => upright.socket_connection) _ _ _).mono ?_ fun _ absent => .inr ⟨h, rfl, absent⟩
        rintro _ s₁ ⟨connection, net, found, gives, rfl⟩
        rw [run_bind_ok (modifyClient_run (Function.update_self ..) _), ensures_bind]
        refine (getTime_spec _).mono ?_ fun _ => False.elim
        rintro now s₂ ⟨later, ticks, rfl⟩
        rw [modifyClient_run (Function.update_self ..)]
        have done : Emptied c client.outputQueue s _ :=
          Released.intro client h connection net now { s.oracle with ticks } here held found gives later
        refine .inr ⟨waiting, ?_⟩
        simpa [Server.setClient, Server.answered, Function.update_idem] using done
      · rcases (flushBuffer_spec client.outputQueue).2 fault failed with rfl | rfl <;> simp
    · rename_i empty
      exact .inl ⟨.inr (by simpa using empty), rfl⟩

theorem jcFlushMessages_upright (upright : Upright s) {client : JabberClient Iks}
    (here : s.clients c = some client) :
    Ensures (jcFlushMessages c s) (fun _ s' => Upright s') fun _ => True :=
  upright.of_sim (p := {}) (jcFlushMessages_sim here) (jcFlushMessages_keeps tidy_lasting.toPersistent c)

inductive Flushes (c : ClientId) (client : JabberClient Iks) (s : Server Iks) :
    Server Iks → Prop where
  | nothing : client.connection = none ∨ client.outputQueue = [] → Flushes c client s s
  | emptied {s' : Server Iks} : client.outputQueue ≠ [] → Emptied c client.outputQueue s s' →
      Flushes c client s s'

theorem jcFlushMessages_flushes (upright : Upright s) {client : JabberClient Iks}
    (here : s.clients c = some client) :
    Ensures (jcFlushMessages c s) (fun _ s' => Flushes c client s s' ∧ Upright s') fun _ => True := by
  refine ((jcFlushMessages_exact upright here).both (jcFlushMessages_upright upright here)).mono ?_
    fun _ _ => trivial
  rintro _ s' ⟨⟨none, rfl⟩ | ⟨waiting, emptied⟩, upright'⟩
  · exact ⟨.nothing none, upright'⟩
  · exact ⟨.emptied waiting emptied, upright'⟩

section Flushes
variable {client : JabberClient Iks}

theorem Flushes.socket (flushes : Flushes c client s s') (upright : Upright s) {c' : ClientId}
    {client' : JabberClient Iks} (here : s.clients c' = some client') :
    SameSocket client'.sock s.net.wire s'.net.wire := by
  cases flushes with
  | nothing => exact ⟨rfl, rfl, rfl⟩
  | emptied _ emptied => exact emptied.socket upright here

theorem Flushes.stays (flushes : Flushes c client s s') (here : s.clients c = some client) :
    ∃ client', s'.clients c = some client' ∧ client'.sock = client.sock ∧
      client'.alive = client.alive := by
  cases flushes with
  | nothing => exact ⟨client, here, rfl, rfl⟩
  | emptied _ emptied =>
    obtain ⟨client', _, _, _, _, _, here', -⟩ := emptied
    obtain rfl := Option.some.inj (here.symm.trans here')
    exact ⟨_, Function.update_self .., rfl, rfl⟩

end Flushes

end Sessions

end Answers

end Bosh
