import Bosh.Library.Refinement
import Bosh.Server.Steps

/-! Every function of the server runs through the state changes. A call that fails because
a connection was deleted does so where something still refers to that connection. -/
namespace Bosh
open Effect Text

variable {Iks : Type} [Iksemel Iks]

/-- Something refers to a connection that has been deleted. -/
def Dangling (q : Phase Iks × Server Iks) : Prop :=
  ∃ h, q.2.connections h = none ∧
    ((∃ c client, q.2.clients c = some client ∧ client.connection = some h) ∨
      q.1.owed = some h ∨ q.1.reading = some h ∨ h ∈ Chain.values q.2.httpConnections ∨
      ∃ i sock, q.2.net.sockets i = some sock ∧
        (sock.dataCallback = some (.hcRead h) ∨ sock.errorCallback = some (.hcHandleError h)))

abbrev Sim {α : Type} (a : Assumed) (q : Phase Iks × Server Iks)
    (run : Except Fault (α × Server Iks)) (post : α → Phase Iks → Server Iks → Prop) : Prop :=
  Follows (Micro a) (fun fault q => fault = .deletedConnection → Dangling q) q run post

section Rules
variable {α β : Type} {a : Assumed} {q : Phase Iks × Server Iks} {s : Server Iks}
  {post : α → Phase Iks → Server Iks → Prop}

theorem Sim.net {program : NetM β} {next : β → ServerM Iks α} {spec : β → Net → Prop}
    (first : Ensures (program s.net) spec Unrelated)
    (second : ∀ v net, spec v net → Sim a q (next v { s with net }) post) :
    Sim a q ((onNet program >>= next) s) post :=
  .onPart first second fun _ unrelated same => absurd same unrelated

theorem Sim.client {c : ClientId} {next : JabberClient Iks → ServerM Iks α}
    (h : ∀ client, s.clients c = some client → Sim a q (next client s) post) :
    Sim a q ((getClient c >>= next) s) post :=
  .demanded h fun _ same => nomatch same

theorem Sim.modifyClient {c : ClientId} {f : JabberClient Iks → JabberClient Iks}
    {next : Unit → ServerM Iks α}
    (h : ∀ client, s.clients c = some client →
      Sim a q (next () (s.setClient c (some (f client)))) post) :
    Sim a q ((Bosh.modifyClient c f >>= next) s) post := by
  unfold Bosh.modifyClient
  rw [bind_assoc]
  exact Sim.client h

theorem Sim.connection {h : ConnectionId} {next : HttpConnection → ServerM Iks α}
    (referred : s.connections h = none → Dangling q)
    (found : ∀ connection, s.connections h = some connection →
      Sim a q (next connection s) post) :
    Sim a q ((getConnection h >>= next) s) post :=
  .demanded found fun absent _ => referred absent

theorem Sim.fault {fault : Fault} (h : Unrelated fault) :
    Sim a q ((throw fault : ServerM Iks α) s) post :=
  Follows.fault fun same => absurd same h

omit [Iksemel Iks] in
theorem getTime_spec (s : Server Iks) :
    Ensures (getTime s) (fun now s' => s.clock ≤ now ∧ ∃ ticks,
      s' = { s with clock := now, oracle := { s.oracle with ticks } }) fun _ => False := by
  unfold getTime
  rw [ensures_bind, ensures_get]
  cases ticks : s.oracle.ticks with
  | nil => exact ⟨Int.le_refl _, [], by rw [← ticks]⟩
  | cons tick rest => exact ⟨by omega, rest, rfl⟩

theorem Sim.time {next : Int → ServerM Iks α}
    (h : ∀ now ticks, s.clock ≤ now →
      Sim a q (next now { s with clock := now, oracle := { s.oracle with ticks } }) post) :
    Sim a q ((getTime >>= next) s) post :=
  .ensured (getTime_spec s) (fun now _ ⟨later, ticks, same⟩ => same ▸ h now ticks later) nofun

theorem Sim.node {next : Nat → ServerM Iks α}
    (h : Sim a q (next s.nextNode { s with nextNode := s.nextNode + 1 }) post) :
    Sim a q ((newNode >>= next) s) post := h

end Rules

section Answers
variable {a : Assumed} {p : Phase Iks} {s : Server Iks}

omit [Iksemel Iks] in
theorem hsAnswerRequest_spec (h : ConnectionId) (answerer : Answerer Iks)
    (msg contentType : Bytes) :
    Ensures (hsAnswerRequest h answerer msg contentType s)
      (fun _ s' => ∃ connection net, s.connections h = some connection ∧
        Gives connection.sock (httpResponse contentType msg) s.net.wire net.wire ∧
        s' = s.answered h connection net answerer msg)
      fun fault => fault = .deletedConnection → s.connections h = none := by
  unfold hsAnswerRequest getConnection onNet modifyConnection getConnection
  simp only [ensures_bind, ensures_demand, ensures_part, ensures_modify]
  refine ⟨fun connection found => ?_, fun absent _ => absent⟩
  refine (sockSend_gives _ _ _).mono (fun _ n₁ first => ?_) fun _ unrelated same => absurd same unrelated
  refine (sockSend_gives _ _ _).mono (fun _ n₂ second => ?_) fun _ unrelated same => absurd same unrelated
  refine ⟨fun connection' found' => ?_, fun absent => ?_⟩
  · obtain rfl : connection = connection' := Option.some.inj (found.symm.trans found')
    exact ⟨connection, n₂, found, first.trans second, rfl⟩
  · exact absurd absent (by simp [found])

/-- Answering a request gives a step of its own in each of the three uses. -/
theorem Sim.answering {α : Type} {q : Phase Iks × Server Iks} {h : ConnectionId}
    {answerer : Answerer Iks} {msg contentType : Bytes} {next : Unit → ServerM Iks α}
    {post : α → Phase Iks → Server Iks → Prop}
    (referred : s.connections h = none → Dangling q)
    (found : ∀ connection bytes net, s.connections h = some connection →
      Gives connection.sock bytes s.net.wire net.wire →
      Sim a q (next () (s.answered h connection net answerer msg)) post) :
    Sim a q ((hsAnswerRequest h answerer msg contentType >>= next) s) post :=
  .ensured (hsAnswerRequest_spec h answerer msg contentType)
    (fun _ _ ⟨connection, net, here, gives, same⟩ => same ▸ found connection _ net here gives)
    fun _ absent same => referred (absent same)

theorem answer_sim {h : ConnectionId} {msg contentType : Bytes} (owed : p.owed = some h)
    (free : p.debt = none) :
    Sim a (p, s) (hsAnswerRequest h .request msg contentType s)
      fun _ p' _ => p' = { p with owed := none } := by
  refine Follows.last <| Sim.answering (fun absent => ⟨h, absent, .inr (.inl owed)⟩) ?_
  intro connection bytes net found gives
  exact Follows.step (.answer owed free found gives) (.pure rfl)

theorem jcDropRequest_sim {c : ClientId} {client : JabberClient Iks} (terminate : Bool)
    (here : s.clients c = some client) :
    Sim a (p, s) (jcDropRequest c terminate s) fun _ p' s' => p' = p ∧
      ∃ timestamp, s'.clients =
        Function.update s.clients c (some { client with connection := none, timestamp }) := by
  unfold jcDropRequest
  apply Sim.client
  intro client' here'
  obtain rfl : client = client' := Option.some.inj (here.symm.trans here')
  cases held : client.connection with
  | none => exact Sim.fault (by simp)
  | some h =>
    apply Sim.answering (fun absent => ⟨h, absent, .inl ⟨c, client, here, held⟩⟩)
    intro connection bytes net found gives
    apply Sim.modifyClient
    intro client₁ here₁
    obtain rfl : client = client₁ := Option.some.inj (here.symm.trans here₁)
    apply Follows.step (.drop here held found gives)
    apply Sim.time
    intro now ticks later
    apply Follows.step (.tick later)
    refine Follows.last <| Sim.modifyClient fun client₂ here₂ => ?_
    refine Follows.step (.stamp here₂) (.pure ⟨rfl, now, ?_⟩)
    simp only [Server.setClient, Function.update_self, Option.some.injEq] at here₂ ⊢
    rw [← here₂, Function.update_idem]
    simp only [Server.answered]

theorem jcFlushMessages_sim {c : ClientId} {client : JabberClient Iks}
    (here : s.clients c = some client) :
    Sim a (p, s) (jcFlushMessages c s) fun _ p' s' => p' = p ∧
      ∃ client', s'.clients c = some client' ∧
      (client'.connection = none ∨ client'.outputQueue = []) ∧ client'.sock = client.sock ∧
      client'.alive = client.alive := by
  unfold jcFlushMessages
  apply Sim.client
  intro client' here'
  obtain rfl : client = client' := Option.some.inj (here.symm.trans here')
  cases held : client.connection with
  | none => exact Follows.pure ⟨rfl, client, here, .inl held, rfl, rfl⟩
  | some h =>
    dsimp only
    split
    · rename_i waiting
      apply Sim.modifyClient
      intro client₁ here₁
      obtain rfl : client = client₁ := Option.some.inj (here.symm.trans here₁)
      refine Follows.computed (fun buffer done => ?_) fun fault failed same => ?_
      · obtain rfl := (flushBuffer_spec client.outputQueue).1 buffer done
        refine Sim.answering (fun absent => ⟨h, absent, .inl ⟨c, client, here, held⟩⟩) ?_
        intro connection bytes net found gives
        apply Sim.modifyClient
        intro client₂ here₂
        simp only [Server.answered, Server.setClient, Function.update_self,
          Option.some.injEq] at here₂
        subst here₂
        apply Follows.stepTo (.flush here held waiting found gives) (by simp [Server.answered])
        apply Sim.time
        intro now ticks later
        apply Follows.step (.tick later)
        refine Follows.last <| Sim.modifyClient fun client₃ here₃ => ?_
        refine Follows.step (.stamp here₃) (.pure ⟨rfl, _, Function.update_self .., ?_⟩)
        simp only [Server.setClient, Function.update_self, Option.some.injEq] at here₃
        subst here₃
        exact ⟨.inl rfl, rfl, rfl⟩
      · rcases (flushBuffer_spec client.outputQueue).2 fault failed with rfl | rfl <;> cases same
    · rename_i empty
      exact Follows.pure ⟨rfl, client, here, .inr (by simpa using empty), rfl, rfl⟩

end Answers

section Sessions
variable {a : Assumed} {p : Phase Iks} {s : Server Iks}

theorem jbCloseClient_sim {c : ClientId} (free : p.debt = none)
    (mine : p.busy = none ∨ ∃ dead, p.busy = some (c, dead)) :
    Sim a (p, s) (jbCloseClient c s) fun _ p' s' => p' = { p with busy := none } ∧
      s'.clients = Function.update s.clients c none ∧
      ∀ client, s.clients c = some client → s'.net.sockets client.sock = none := by
  unfold jbCloseClient
  apply Sim.client
  intro client here
  refine Follows.optional (fun p' s' => p' = p ∧ ∃ timestamp, s'.clients =
      Function.update s.clients c (some { client with connection := none, timestamp }))
    (fun _ => jcDropRequest_sim true here) (fun unheld => ⟨rfl, client.timestamp, ?_⟩) ?_
  · rw [← Option.not_isSome_iff_eq_none.mp unheld]
    exact (Function.update_eq_self_iff.mpr here.symm).symm
  rintro p' s' ⟨rfl, timestamp, clients⟩
  have here' : s'.clients c = some { client with connection := none, timestamp } := by
    rw [clients, Function.update_self]
  apply Sim.net (sockDelete_deletes client.sock)
  intro _ net deleted
  apply Follows.read
  dsimp only
  cases erased : Chain.erase client.it s'.jabberConnections with
  | none => exact Sim.fault (by simp)
  | some rest =>
    refine Follows.changed <| Follows.changed <| Follows.last <| Follows.changed ?_
    refine Follows.stepTo (.forget here' rfl free mine erased deleted) rfl (.pure ⟨rfl, ?_, ?_⟩)
    · dsimp only
      rw [clients, Function.update_idem]
    · intro client₁ here₁
      obtain rfl : client = client₁ := Option.some.inj (here.symm.trans here₁)
      rw [← Net.wire_sockets, deleted.2]
      exact Wire.sockets_put_self _ _ _

theorem jbTimedOut_sim (init : Int) (cs : List ClientId) :
    Sim a (p, s) (jbTimedOut init cs s) fun _ p' _ => p' = p := by
  induction cs generalizing s with
  | nil => exact Follows.pure rfl
  | cons c rest ih =>
    unfold jbTimedOut
    refine Sim.client fun client here => Follows.read <| Follows.branch (fun _ => ?_) fun _ =>
      Follows.branch (fun _ => ?_) fun _ => ih
    · apply Follows.bind (jcDropRequest_sim false here)
      rintro _ p' s' ⟨rfl, -⟩
      exact ih
    · apply Follows.bind ih
      rintro toClose p' s' rfl
      exact Follows.pure rfl

theorem jbCheckTimeout_sim (free : p.debt = none) (idle : p.busy = none) :
    Sim a (p, s) (jbCheckTimeout s) fun _ p' _ => p' = p := by
  unfold jbCheckTimeout
  refine Sim.time fun init ticks later => Follows.step (.tick later) (Follows.read ?_)
  apply Follows.bind (jbTimedOut_sim init _)
  rintro toClose p' s' rfl
  refine Follows.forM (fun p₁ _ => p₁ = p') (fun c p₁ s₁ same => ?_) toClose _ _ rfl
  subst same
  apply (jbCloseClient_sim free (.inl idle)).mono
  intro _ p₂ _ h
  rw [h.1, ← idle]

theorem jbClosestTimeout_sim : Sim a (p, s) (jbClosestTimeout s) fun _ p' _ => p' = p := by
  have loop : ∀ current cs closest (s : Server Iks),
      Sim a (p, s) (jbClosest current cs closest s) fun _ p' _ => p' = p := by
    intro current cs
    induction cs with
    | nil => exact fun _ _ => Follows.pure rfl
    | cons c rest ih =>
      intro closest s
      unfold jbClosest
      exact Sim.client fun client _ => Follows.read (ih _ _)
  unfold jbClosestTimeout
  exact Follows.read <| Sim.time fun current ticks later =>
    Follows.step (.tick later) (loop _ _ _ _)

theorem jcHandleStanza_sim {c : ClientId} {dead : Bool} (type : IksType) (stanza : Option Iks)
    (mine : p.busy = some (c, dead)) {client : JabberClient Iks}
    (here : s.clients c = some client) :
    Sim a (p, s) (jcHandleStanza c type stanza s) fun _ p' s' =>
      (∃ dead', p' = { p with busy := some (c, dead') }) ∧
      ∃ client', s'.clients c = some client' ∧ client'.sock = client.sock := by
  unfold jcHandleStanza
  have unchanged : (∃ dead', p = { p with busy := some (c, dead') }) := ⟨dead, by rw [← mine]⟩
  cases stanza with
  | none => exact Follows.pure ⟨unchanged, client, here, rfl⟩
  | some stanza =>
    have killed : Sim a (p, s) (modifyClient c (fun client => { client with alive := false }) s)
        fun _ p' s' => (∃ dead', p' = { p with busy := some (c, dead') }) ∧
          ∃ client', s'.clients c = some client' ∧ client'.sock = client.sock := by
      refine Follows.last <| Sim.modifyClient fun client₁ here₁ => ?_
      obtain rfl : client = client₁ := Option.some.inj (here.symm.trans here₁)
      exact Follows.step (.kill mine here) (.pure ⟨⟨true, rfl⟩, _, Function.update_self .., rfl⟩)
    cases type with
    | normal =>
      apply Sim.modifyClient
      intro client₁ here₁
      obtain rfl : client = client₁ := Option.some.inj (here.symm.trans here₁)
      refine Follows.last <| Follows.changed ?_
      exact Follows.step (.stanza mine here)
        (.pure ⟨unchanged, _, Function.update_self .., rfl⟩)
    | error => exact killed
    | stop => exact killed
    | start => exact Follows.pure ⟨unchanged, client, here, rfl⟩

def AtWork (c : ClientId) (sock : SocketId) (p p' : Phase Iks) (s : Server Iks) : Prop :=
  (∃ dead, p' = { p with busy := some (c, dead) }) ∧
    ∃ client, s.clients c = some client ∧ client.sock = sock

theorem Sim.recv {α : Type} {i : SocketId} {len : Nat} {answer : RecvResult}
    {next : Bytes → ServerM Iks α} {post : α → Phase Iks → Server Iks → Prop}
    (exposed : a.exposed i)
    (rest : ∀ net, net.wire = s.net.wire ∨
        received len answer = [] ∧ Shuts i s.net.wire net.wire →
      Sim a (p, { s with net }) (next (received len answer) { s with net }) post) :
    Sim a (p, s) ((onNet (sockRecv i len answer) >>= next) s) post := by
  apply Sim.net (sockRecv_spec i len answer)
  intro bytes net
  rintro ⟨rfl, same | ⟨empty, shut⟩⟩
  · exact Follows.step (.monitor (congrArg Net.wire same)) (rest net (.inl (congrArg Net.wire same)))
  · exact Follows.step (.move (.shut exposed shut)) (rest net (.inr ⟨empty, shut⟩))

theorem jcReadLoop_sim {c : ClientId} {sock : SocketId} (exposed : a.exposed sock)
    (arrivals : List (Arrival Iks)) {p' : Phase Iks} (work : AtWork c sock p p' s) :
    Sim a (p', s) (jcReadLoop c arrivals s) fun _ => AtWork c sock p := by
  induction arrivals generalizing p' s with
  | nil =>
    unfold jcReadLoop
    apply Sim.client
    intro client here
    obtain ⟨phase, client', here', rfl⟩ := work
    obtain rfl : client = client' := Option.some.inj (here.symm.trans here')
    exact Sim.recv exposed fun net _ => Follows.pure ⟨phase, client, here, rfl⟩
  | cons arrival rest ih =>
    unfold jcReadLoop
    apply Sim.client
    intro client here
    obtain ⟨phase, client', here', rfl⟩ := work
    obtain rfl : client = client' := Option.some.inj (here.symm.trans here')
    refine Sim.recv exposed fun net _ => Follows.branch
      (fun _ => Follows.pure ⟨phase, client, here, rfl⟩) fun _ => ?_
    refine Follows.bind (Follows.forM (AtWork c client.sock p) ?_ _ _ _
      ⟨phase, client, here, rfl⟩) ?_
    · rintro hook p₁ s₁ ⟨⟨dead, rfl⟩, client₁, here₁, same⟩
      apply (jcHandleStanza_sim hook.1 hook.2 rfl here₁).mono
      rintro _ p₂ s₂ ⟨⟨dead', rfl⟩, client₂, here₂, same'⟩
      exact ⟨⟨dead', rfl⟩, client₂, here₂, same'.trans same⟩
    · rintro _ p₁ s₁ work₁
      exact Follows.branch (fun _ => ih work₁) fun _ => Follows.pure work₁

theorem jcReadLoop_absent {c : ClientId} (absent : s.clients c = none)
    (arrivals : List (Arrival Iks)) :
    Sim a (p, s) (jcReadLoop c arrivals s) fun _ _ _ => False := by
  cases arrivals <;>
  · unfold jcReadLoop
    exact Sim.client fun client here => by simp [absent] at here

theorem jcReadJabber_sim {c : ClientId} (free : p.debt = none) (idle : p.busy = none)
    (exposed : ∀ client, s.clients c = some client → a.exposed client.sock) :
    Sim a (p, s) (jcReadJabber c s) fun _ p' s' => p' = p ∧
      ∀ client x, s.clients c = some client → s'.net.sockets client.sock = some x →
        x.status = .connected := by
  unfold jcReadJabber
  apply Follows.read
  cases here : s.clients c with
  | none =>
    exact Follows.bind (jcReadLoop_absent here _) fun _ _ _ never => never.elim
  | some client =>
    apply Follows.step (.wake c idle)
    refine Follows.bind (jcReadLoop_sim (exposed client here) s.oracle.arrivals
      ⟨⟨false, rfl⟩, client, here, rfl⟩) ?_
    rintro ok p₁ s₁ ⟨⟨dead, rfl⟩, client₁, here₁, same₁⟩
    apply Follows.bind (jcFlushMessages_sim here₁)
    rintro _ p₂ s₂ ⟨rfl, client₂, here₂, settled, same₂, alive₂⟩
    apply Sim.client
    intro client₃ here₃
    obtain rfl := Option.some.inj (here₂.symm.trans here₃)
    apply Sim.net (getSocket_spec _)
    rintro x net ⟨rfl, found⟩
    rw [same₂, same₁] at found
    refine Follows.branch (fun _ => ?_) fun stays => ?_
    · have closing := jbCloseClient_sim (a := a) (p := { p with busy := some (c, dead) }) (s := s₂)
        free (.inr ⟨dead, rfl⟩)
      apply closing.mono
      rintro _ p₃ s₃ ⟨rfl, -, deleted⟩
      refine ⟨by rw [← idle], fun client' y here' gone => ?_⟩
      obtain rfl := Option.some.inj here'
      rw [← same₁, ← same₂, deleted client₂ here₂] at gone
      cases gone
    · simp only [not_or, not_not, Bool.not_eq_false] at stays
      apply Follows.step (.settle rfl here₂ settled fun _ => stays.2.2)
      refine Follows.pure ⟨by rw [← idle], fun client' y here' found' => ?_⟩
      obtain rfl := Option.some.inj here'
      rw [← Option.some.inj (found.symm.trans found')]
      exact stays.1

omit [Iksemel Iks] in
theorem jcClearHttp_spec (c : ClientId) :
    Ensures (jcClearHttp c s) (fun _ s' => ∃ client clock oracle, s.clients c = some client ∧
      s.clock ≤ clock ∧ s' = { s with
        clients := Function.update s.clients c
          (some { client with connection := none, timestamp := clock })
        clock, oracle }) fun fault => fault = .useAfterFree ∧ s.clients c = none := by
  unfold jcClearHttp modifyClient getClient
  simp only [ensures_bind, ensures_demand, ensures_modify]
  refine ⟨fun client here => ?_, fun absent => ⟨trivial, absent⟩⟩
  refine (getTime_spec _).mono ?_ fun _ => False.elim
  rintro now _ ⟨later, ticks, rfl⟩
  refine ⟨fun client' here' => ?_, fun absent => ?_⟩
  · simp only [Server.setClient, Function.update_self, Option.some.injEq] at here'
    subst here'
    exact ⟨client, now, { s.oracle with ticks }, here, later, by simp⟩
  · simp at absent

theorem jcSetHttp_sim {c : ClientId} {h : ConnectionId} {tags : List Iks} (rid : Option UInt64)
    (owed : p.owed = some h) (target : p.debt = some (c, tags)) (idle : p.busy = none) :
    Sim a (p, s) (jcSetHttp c h rid s) fun _ p' s' => p' = { p with owed := none } ∧
      ∃ client client', s.clients c = some client ∧ s'.clients c = some client' ∧
        client'.sock = client.sock := by
  unfold jcSetHttp
  apply Sim.client
  intro client here
  refine Follows.optional (fun p' s' => p' = p ∧ ∃ timestamp,
      s'.clients c = some { client with connection := none, timestamp })
    (fun _ => (jcDropRequest_sim false here).mono fun _ _ _ ⟨same, timestamp, clients⟩ =>
      ⟨same, timestamp, by rw [clients, Function.update_self]⟩)
    (fun unheld => ⟨rfl, client.timestamp, ?_⟩) ?_
  · rw [here, Option.not_isSome_iff_eq_none.mp unheld |>.symm]
  rintro p' s₁ ⟨rfl, timestamp, here₁⟩
  refine Sim.modifyClient fun client₁ here₁' =>
    Follows.changed <| Sim.time fun now ticks later => ?_
  obtain rfl := Option.some.inj (here₁.symm.trans here₁')
  apply Sim.modifyClient
  intro client₂ here₂
  simp only [Server.setClient, Server.record, Function.update_self, Option.some.injEq] at here₂
  subst here₂
  unfold hcSetCloseCallback modifyConnection
  rw [bind_assoc]
  refine Sim.connection (fun absent => ⟨h, absent, .inr (.inl owed)⟩) fun connection found => ?_
  have ticked : Micro a (p', s₁) (p', { s₁ with
      clock := now, oracle := { s₁.oracle with ticks } }) := .tick later
  refine Follows.changed <| Follows.stepsTo
    (.head ticked (.single (.hold now rid owed target idle here₁ rfl found))) (by simp) ?_
  apply (jcFlushMessages_sim (Function.update_self ..)).after
  rintro _ p₂ s₂ ⟨rfl, client₂, here₂, settled, same, -⟩
  exact ⟨_, .single (.settle rfl here₂ settled nofun),
    by rw [← idle], client, client₂, here, here₂, same⟩

end Sessions

section Requests
variable {a : Assumed} {p : Phase Iks} {s : Server Iks}

theorem jbForward_sim {c : ClientId} {client : JabberClient Iks} {sock : SocketId} (tags : List Iks)
    (answered : p.owed = none) (target : p.debt = some (c, tags))
    (here : s.clients c = some client) (same : client.sock = sock) :
    Sim a (p, s) (jbForward sock tags s) fun _ p' s' => p' = { p with debt := none } ∧
      s'.clients = s.clients := by
  subst same
  induction tags generalizing p s with
  | nil =>
    refine Follows.last <| Sim.net (sockSend_flush_gives false) fun _ net gives => ?_
    refine Follows.step (.move (.flush gives)) <| Follows.step (.forwarded answered target) ?_
    exact Follows.pure ⟨rfl, rfl⟩
  | cons stanza tags ih =>
    unfold jbForward
    apply Sim.net (sockSend_gives _ _ _)
    intro _ net gives
    exact Follows.step (.forward answered target here gives) (ih answered rfl here)

omit [Iksemel Iks] in
theorem lrand48_spec (s : Server Iks) :
    Ensures (lrand48 s) (fun value s' => value < 2 ^ 31 ∧ ∃ oracle, s' = { s with oracle }) Unrelated := by
  unfold lrand48
  rw [ensures_bind, ensures_get]
  cases s.oracle.random with
  | nil => simp
  | cons value rest => exact ⟨Nat.mod_lt _ (by decide), _, rfl⟩

theorem drawn_or {low high : Nat} (small : low < 2 ^ 31) (large : high < 2 ^ 31) :
    Drawn (UInt64.ofNat low ||| (UInt64.ofNat high <<< 32)) := by
  have shift : (32 : UInt64).toNat % 64 = 32 := by decide
  have half : (UInt64.ofNat high <<< 32).toNat = high <<< 32 := by
    rw [UInt64.toNat_shiftLeft, UInt64.toNat_ofNat', shift,
      Nat.mod_eq_of_lt (by omega : high < 2 ^ 64), Nat.shiftLeft_eq, Nat.mod_eq_of_lt (by omega)]
  refine ⟨low, high, small, large, ?_⟩
  rw [UInt64.toNat_or, half, UInt64.toNat_ofNat', Nat.mod_eq_of_lt (by omega), Nat.or_comm,
    ← Nat.shiftLeft_add_eq_or_of_lt (by omega), Nat.shiftLeft_eq, Nat.add_comm]

omit [Iksemel Iks] in
theorem pickSid_spec (attempts : Nat) (s : Server Iks) :
    Ensures (pickSid attempts s) (fun sid s' => Drawn sid ∧ s.sids.hasKey sid = false ∧
      ∃ oracle, s' = { s with oracle }) Unrelated := by
  induction attempts generalizing s with
  | zero => exact unrelated_diverges
  | succ attempts ih =>
    unfold pickSid genSid
    simp only [ensures_bind, ensures_pure, ensures_get]
    refine (lrand48_spec s).mono ?_ fun _ => id
    rintro low _ ⟨small, oracle, rfl⟩
    refine (lrand48_spec _).mono ?_ fun _ => id
    rintro high _ ⟨large, oracle', rfl⟩
    split
    · refine (ih _).mono ?_ fun _ => id
      rintro sid _ ⟨drawn, unused, oracle'', rfl⟩
      exact ⟨drawn, unused, oracle'', rfl⟩
    · rename_i unused
      exact ⟨drawn_or small large, by simpa using unused, oracle', rfl⟩

def connectingSocket (fd : Int) (si : InfoId) : Socket :=
  { initialSocket with fd, si := some si, status := .connecting }

theorem jbOpenSession_sim {h : ConnectionId} {net : Net} {fd : Int} {si : InfoId} (host : CString)
    (wait : Int) (owed : p.owed = some h) (free : p.debt = none) (opened : fd ≠ -1)
    (connecting : net.wire = s.net.wire.push (connectingSocket fd si)) :
    Sim a (p, s) (jbOpenSession h host wait s.net.nextSocket { s with net })
      fun _ p' _ => p' = { p with owed := none } := by
  unfold jbOpenSession
  refine Follows.read <| Follows.ensured (pickSid_spec _ _) ?_ fun _ bad same => absurd same bad
  rintro sid _ ⟨drawn, unused, oracle, rfl⟩
  apply Sim.time
  intro timestamp ticks later
  refine Sim.node <| Follows.read ?_
  dsimp only
  cases inserted : s.sids.insert sid s.nextClient with
  | none => exact Sim.fault (by simp)
  | some sids =>
    refine Follows.replaced <| Follows.changed ?_
    have found : net.sockets s.net.nextSocket = some (connectingSocket fd si) := by
      rw [← Net.wire_sockets, connecting]
      exact Wire.sockets_push_self _ _
    apply Sim.net (sockSend_queued found (by simp [connectingSocket]) _ _)
    intro _ n₁ same₁
    apply Sim.net (sockSetDataCallback_wire _ _)
    rintro _ n₂ ⟨sock₂, found₂, same₂⟩
    apply Sim.net (modifySocket_wire _ _)
    rintro _ n₃ ⟨sock₃, found₃, same₃⟩
    apply Sim.net (modifySocket_wire _ _)
    rintro _ n₄ ⟨sock₄, found₄, same₄⟩
    have pushed : n₄.wire = s.net.wire.push
        (sessionSocket s.nextClient (jabberHeader host.bytes) fd si) := by
      have h₂ : n₁.wire.sockets s.net.nextSocket = some sock₂ := found₂
      rw [same₁, Wire.sockets_put_self, Option.some.injEq] at h₂
      rw [same₂, same₁, Wire.sockets_put_self, Option.some.injEq] at found₃
      rw [same₃, Wire.sockets_put_self, Option.some.injEq] at found₄
      subst h₂ found₃ found₄
      simp only [same₄, same₃, same₂, same₁, connecting, Wire.put_put]
      exact Wire.put_push _ _ _
    have ticked : Micro a (p, s) (p, { s with
        clock := timestamp, oracle := { oracle with ticks } }) := .tick later
    refine Follows.stepsTo (.head ticked
      (.single (.openSession timestamp wait drawn unused inserted opened pushed))) rfl ?_
    exact answer_sim owed free

theorem jbConnectClient_sim {h : ConnectionId} {body : Iks} (owed : p.owed = some h)
    (free : p.debt = none) :
    Sim a (p, s) (jbConnectClient h body s) fun _ p' _ => p' = { p with owed := none } := by
  have refused : ∀ code (s : Server Iks), Sim a (p, s) (jcReportError h code s)
      fun _ p' _ => p' = { p with owed := none } := fun code s => answer_sim owed free
  unfold jbConnectClient
  cases Iksemel.findAttrib body "wait" with
  | none => exact refused _ _
  | some wait =>
    dsimp only
    cases Iksemel.findAttrib body "to" with
    | none => exact refused _ _
    | some host =>
      dsimp only
      cases Iksemel.findAttrib body "rid" with
      | none => exact refused _ _
      | some _ =>
        refine Follows.read <| Follows.branch (fun _ => refused _ _) fun _ => ?_
        apply Sim.net sockNew_wire
        rintro _ n₁ ⟨rfl, made⟩
        apply Sim.net (sockConnect_spec _ _ _)
        intro connected n₂ h₂
        have found : n₁.sockets s.net.nextSocket = some initialSocket := by
          rw [← Net.wire_sockets, made]
          exact Wire.sockets_push_self _ _
        refine Follows.branch (fun done => ?_) fun failed => ?_
        · rw [if_pos done] at h₂
          obtain ⟨sock, fd, si, found', opened, same₂⟩ := h₂
          obtain rfl := Option.some.inj (found.symm.trans found')
          have connecting : n₂.wire = s.net.wire.push (connectingSocket fd si) := by
            rw [same₂, made]
            exact Wire.put_push _ _ _
          exact jbOpenSession_sim host _ owed free opened connecting
        · rw [if_neg failed] at h₂
          obtain ⟨sock, same₂⟩ := h₂
          apply Sim.net (sockDelete_deletes _)
          rintro _ n₃ ⟨-, same₃⟩
          have gone : n₃.wire = { s.net.wire.put s.net.wire.nextSocket none with
              nextSocket := s.net.wire.nextSocket + 1 } := by
            rw [same₃, same₂, made, Wire.put_put]
            simp [Wire.push, Wire.put]
          exact Follows.step (.move (gone ▸ .abandoned)) (refused _ _)

def EndsSession (request : HttpRequest) (s s' : Server Iks) : Prop :=
  ∀ c message client, named s request = some (c, message) → isTerminate message = true →
    s.clients c = some client → s'.net.sockets client.sock = none

theorem jbHandleHttpPost_sim {request : HttpRequest} (post : request.header.type = ascii "POST")
    (owed : p.owed = some request.connection) (idle : p.busy = none)
    (target : p.debt = (named s request).map fun target => (target.1, Iksemel.tags target.2)) :
    Sim a (p, s) (jbHandleHttpPost request s) fun _ p' s' =>
      p' = { p with owed := none, debt := none } ∧ EndsSession request s s' := by
  -- whatever does not name a session is answered on the spot
  have refused : named s request = none → ∀ code, Sim a (p, s)
      (jcReportError request.connection code s) fun _ p' s' =>
        p' = { p with owed := none, debt := none } ∧ EndsSession request s s' := by
    intro nobody code
    rw [nobody, Option.map_none] at target
    apply (answer_sim owed target).mono
    intro _ p' s' same
    exact ⟨by rw [same, ← target], fun c message client found => by simp [nobody] at found⟩
  unfold jbHandleHttpPost
  refine Follows.computed (fun parsed tree => ?_) fun fault failed same => ?_
  · cases parsed with
    | none => exact refused (by simp [named, posted, tree]) _
    | some message =>
      dsimp only
      cases sidAttrib : Iksemel.findAttrib message "sid" with
      | none =>
        have nobody : named s request = none := by simp [named, posted, tree, sidAttrib]
        rw [nobody, Option.map_none] at target
        apply (jbConnectClient_sim owed target).mono
        intro _ p' s' same
        exact ⟨by rw [same, ← target], fun c message client found => by simp [nobody] at found⟩
      | some sidText =>
        dsimp only
        cases scanned : scanInt64 sidText.bytes with
        | none => exact refused (by simp [named, posted, tree, sidAttrib, scanned]) _
        | some sid =>
          dsimp only
          cases ridAttrib : Iksemel.findAttrib message "rid" with
          | none => exact refused (by simp [named, posted, tree, sidAttrib, ridAttrib]) _
          | some rid =>
            have same : posted request = some (sid, message) := by
              simp [posted, post, tree, sidAttrib, scanned, ridAttrib]
            apply Follows.read
            cases found : s.sids.find sid with
            | none => exact refused (by simp [named, same, found]) _
            | some c =>
              have who : named s request = some (c, message) := by simp [named, same, found]
              rw [who] at target
              apply Follows.bind (jcSetHttp_sim _ owed target idle)
              rintro _ _ s₁ ⟨rfl, client, client₁, here, here₁, sock₁⟩
              apply Sim.client
              intro client₂ here₂
              obtain rfl := Option.some.inj (here₁.symm.trans here₂)
              refine Follows.bind (jbForward_sim _ rfl target here₁ rfl) ?_
              rintro _ _ s₂ ⟨rfl, clients⟩
              refine Follows.branch (fun ends => ?_) fun stays => ?_
              · have closing := jbCloseClient_sim (a := a) (p := { p with owed := none, debt := none })
                  (s := s₂) (c := c) rfl (.inl idle)
                apply closing.mono
                rintro _ _ s₃ ⟨rfl, -, deleted⟩
                refine ⟨by rw [← idle], fun c' message' client' who' ends' here' => ?_⟩
                obtain ⟨rfl, rfl⟩ := Prod.mk.inj (Option.some.inj (who.symm.trans who'))
                obtain rfl := Option.some.inj (here.symm.trans here')
                rw [← sock₁]
                exact deleted _ (clients ▸ here₁)
              · refine Follows.pure ⟨rfl, fun c' message' client' who' ends' => ?_⟩
                obtain ⟨rfl, rfl⟩ := Prod.mk.inj (Option.some.inj (who.symm.trans who'))
                exact absurd ends' stays
  · rw [iksTree_error failed] at same
    cases same

theorem jbHandleRequest_sim {request : HttpRequest} (owed : p.owed = some request.connection)
    (idle : p.busy = none)
    (target : p.debt = (named s request).map fun target => (target.1, Iksemel.tags target.2)) :
    Sim a (p, s) (jbHandleRequest request s) fun _ p' s' =>
      p' = { p with owed := none, debt := none } ∧ EndsSession request s s' := by
  unfold jbHandleRequest
  apply Follows.branch (fun post => jbHandleHttpPost_sim post owed idle target)
  intro other
  have nobody : named s request = none := by simp [named, posted, other]
  rw [nobody, Option.map_none] at target
  have answered : ∀ p' : Phase Iks, p' = { p with owed := none } → ∀ s',
      p' = { p with owed := none, debt := none } ∧ EndsSession request s s' := fun p' same s' =>
    ⟨by rw [same, ← target], fun c message client found => by simp [nobody] at found⟩
  refine Follows.branch (fun _ => ?_) fun _ => ?_
  · unfold jbHandleHttpGet
    refine Sim.time fun now ticks later => Follows.step (.tick later) <| Follows.read ?_
    exact (answer_sim owed target).mono fun _ p' s' same => answered p' same s'
  · exact (answer_sim owed target).mono fun _ p' s' same => answered p' same s'

end Requests

section Connections
variable {a : Assumed} {p : Phase Iks} {s : Server Iks}

theorem hcDelete_sim {h : ConnectionId} (referred : s.connections h = none → Dangling (p, s))
    (answered : p.owed = none) (seen : p.arrived = none) (done : p.unconsumed = none)
    (mine : p.reading = none ∨ p.reading = some h) :
    Sim a (p, s) (hcDelete h s) fun _ p' s' => p' = { p with reading := none } ∧
      s'.connections h = none ∧ s'.jabberConnections = s.jabberConnections ∧
      ∀ connection, s.connections h = some connection →
        s'.net.wire = s.net.wire.put connection.sock none := by
  unfold hcDelete
  apply Sim.connection referred
  intro connection found
  have only : ∀ {s' : Server Iks} {connection' : HttpConnection},
      Deletes connection.sock s.net.wire s'.net.wire → s.connections h = some connection' →
      s'.net.wire = s.net.wire.put connection'.sock none := by
    intro s' connection' deleted found'
    obtain rfl := Option.some.inj (found.symm.trans found')
    exact deleted.2
  cases callback : connection.closeCallback with
  | none =>
    refine Sim.net (sockDelete_deletes connection.sock) fun _ net deleted => Follows.read ?_
    dsimp only
    cases erased : Chain.erase connection.it s.httpConnections with
    | none => exact Sim.fault (by simp)
    | some rest =>
      refine Follows.changed <| Follows.changed <| Follows.last <| Follows.changed ?_
      apply Follows.stepTo (.delete found callback answered seen done mine erased deleted) rfl
      exact Follows.pure ⟨rfl, Function.update_self .., rfl, fun _ => only deleted⟩
  | some registered =>
    obtain ⟨c⟩ := registered
    refine Follows.ensured (jcClearHttp_spec c) ?_ fun _ bad same => nomatch bad.1.symm.trans same
    rintro _ _ ⟨client, clock, oracle, here, later, rfl⟩
    refine Sim.net (sockDelete_deletes connection.sock) fun _ net deleted => Follows.read ?_
    dsimp only
    cases erased : Chain.erase connection.it s.httpConnections with
    | none => exact Sim.fault (by simp)
    | some rest =>
      refine Follows.changed <| Follows.changed <| Follows.last <| Follows.changed ?_
      have ticked : Micro a (p, s) (p, { s with clock, oracle }) := .tick later
      refine Follows.stepsTo (.head ticked (.single
        (.deleteHeld clock found callback here answered seen done mine erased deleted))) rfl ?_
      exact Follows.pure ⟨rfl, Function.update_self .., rfl, fun _ => only deleted⟩

theorem hsAccept_sim
    (vacant : a.vacant → s.oracle.accept ≠ none → Vacant s s.oracle.address) :
    Sim a (p, s) (hsAccept s) fun _ p' _ => p' = p := by
  unfold hsAccept
  refine Follows.read <| Sim.net (sockAccept_spec _) fun client n₁ h₁ => ?_
  cases client with
  | none => exact Follows.step (.monitor h₁) (.pure rfl)
  | some client =>
    obtain ⟨answered, rfl, fd, si, opened, accepted⟩ := h₁
    unfold hcCreate
    refine Follows.read <| Follows.branch (fun _ => Sim.fault (by simp)) fun unused => ?_
    refine Sim.node <| Follows.changed <| Follows.changed <| Follows.changed ?_
    apply Sim.net (sockSetDataCallback_wire _ _)
    rintro _ n₂ ⟨sock₂, found₂, same₂⟩
    refine Follows.last <| Sim.net (modifySocket_wire _ _) ?_
    rintro _ n₃ ⟨sock₃, found₃, same₃⟩
    have h₂ : n₁.wire.sockets s.net.nextSocket = some sock₂ := found₂
    replace same₂ : n₂.wire = n₁.wire.put s.net.nextSocket
      (some { sock₂ with dataCallback := some (.hcRead s.oracle.address) }) := same₂
    have pushed : n₃.wire = s.net.wire.push (acceptedSocket s.oracle.address fd si) := by
      rw [accepted] at h₂
      obtain rfl := Option.some.inj ((Wire.sockets_push_self _ _).symm.trans h₂)
      rw [same₂, Wire.sockets_put_self, Option.some.injEq] at found₃
      subst found₃
      simp only [same₃, same₂, accepted, Wire.put_put]
      exact Wire.put_push _ _ _
    exact Follows.stepTo (.create (Option.not_isSome_iff_eq_none.mp unused)
      (fun assumed => vacant assumed answered) opened pushed) rfl (.pure rfl)

theorem hcReportError_sim {h : ConnectionId} (msg : Bytes)
    (referred : s.connections h = none → Dangling (p, s)) :
    Sim a (p, s) (hcReportError h msg s) fun _ p' _ => p' = p := by
  unfold hcReportError
  apply Sim.connection referred
  intro connection found
  apply Sim.net (sockSend_gives _ _ _)
  intro _ n₁ first
  refine Follows.last <| Sim.net (sockSend_gives _ _ _) fun _ n₂ second => ?_
  exact Follows.stepTo (.refuse found (first.trans second)) rfl (.pure rfl)

def completed (h : ConnectionId) (connection : HttpConnection) (bytes : Bytes) :
    Option HttpRequest :=
  match (connection.receive bytes).frame h with
  | .ok (.complete request _) => some request
  | _ => none

omit [Iksemel Iks] in
theorem frame_error {h : ConnectionId} {connection : HttpConnection} {fault : Fault}
    (failed : connection.frame h = .error fault) : fault = .nullPointer := by
  unfold HttpConnection.frame at failed
  split at failed
  · exact (Except.error.inj failed).symm
  · split at failed
    · exact (Except.error.inj failed).symm
    · dsimp only at failed
      split at failed
      · cases failed
      · split at failed <;> cases failed

omit [Iksemel Iks] in
theorem frame_connection {h : ConnectionId} {connection : HttpConnection} {request : HttpRequest}
    {length : Nat} (framed : connection.frame h = .ok (.complete request length)) :
    request.connection = h := by
  unfold HttpConnection.frame at framed
  split at framed
  · cases framed
  · split at framed
    · cases framed
    · dsimp only at framed
      split at framed
      · cases framed
      · split at framed
        · cases framed
          rfl
        · cases framed

theorem hcProcess_sim {h : ConnectionId} {connection : HttpConnection}
    (reading : p.reading = some h) (found : s.connections h = some connection)
    (arrived : p.arrived = some h) (answered : p.owed = none) (free : p.debt = none)
    (done : p.unconsumed = none) (idle : p.busy = none)
    (alone : a.alone → ∀ request length, connection.frame h = .ok (.complete request length) →
      Alone s request) :
    Sim a (p, s) (hcProcess h s) fun _ p' s' => p' = { p with arrived := none } ∧
      ∀ request length, connection.frame h = .ok (.complete request length) →
        EndsSession request s s' := by
  unfold hcProcess
  apply Sim.connection (fun absent => by simp [found] at absent)
  intro connection' found'
  obtain rfl := Option.some.inj (found.symm.trans found')
  refine Follows.computed (fun framed frame => ?_) fun fault failed same => ?_
  · cases framed with
    | tooBig =>
      have looked : Micro a (p, s) ({ p with arrived := none }, s) :=
        .examined arrived found fun request length => by simp [frame]
      refine Follows.step looked <| (hcReportError_sim _ fun absent => by simp [found] at absent).mono ?_
      exact fun _ p' s' same => ⟨same, fun request length other => by simp [frame] at other⟩
    | incomplete =>
      have looked : Micro a (p, s) ({ p with arrived := none }, s) :=
        .examined arrived found fun request length => by simp [frame]
      refine Follows.step looked (.pure ⟨rfl, fun request length other => ?_⟩)
      simp [frame] at other
    | complete request length =>
      refine Follows.changed <| Follows.step (.request reading arrived found frame answered free done
        fun assumed => alone assumed request length frame) ?_
      obtain rfl := frame_connection frame
      refine Follows.bind (jbHandleRequest_sim rfl idle rfl) ?_
      rintro _ _ s₁ ⟨rfl, ends⟩
      unfold modifyConnection
      refine Sim.connection (fun absent => ⟨_, absent, .inr (.inr (.inl reading))⟩)
        fun connection₁ found₁ => Follows.last <| Follows.changed ?_
      refine Follows.step (.consume rfl rfl found₁) (.pure ⟨?_, fun request' length' frame' => ?_⟩)
      · rw [← answered, ← free, ← done]
      · obtain ⟨rfl, -⟩ : request = request' ∧ length = length' := by simpa [frame] using frame'
        exact ends
  · rw [frame_error failed] at same
    cases same

theorem hcReceived_sim {h : ConnectionId} {connection : HttpConnection} {bytes : Bytes}
    (reading : p.reading = some h) (found : s.connections h = some connection)
    (some_ : bytes ≠ []) (fits : bytes.length ≤ maxBufferSize - connection.bufferSize)
    (seen : p.arrived = none) (answered : p.owed = none) (free : p.debt = none)
    (done : p.unconsumed = none) (idle : p.busy = none)
    (alone : a.alone → ∀ request, completed h connection bytes = some request → Alone s request) :
    Sim a (p, s) (hcReceived h bytes s) fun _ p' s' => p' = p ∧
      ∀ request, completed h connection bytes = some request → EndsSession request s s' := by
  have framed : ∀ request, completed h connection bytes = some request ↔
      ∃ length, (connection.receive bytes).frame h = .ok (.complete request length) := by
    intro request
    unfold completed
    split
    · rename_i request' length' frame
      simp [frame]
    · rename_i other
      exact ⟨nofun, fun ⟨length, frame⟩ => absurd frame (other _ _)⟩
  unfold hcReceived modifyConnection
  rw [bind_assoc]
  apply Sim.connection (fun absent => by simp [found] at absent)
  intro connection' found'
  obtain rfl := Option.some.inj (found.symm.trans found')
  refine Follows.changed <| Follows.changed <|
    Follows.step (.receive reading found some_ fits seen done) ?_
  apply Sim.connection (fun absent => by simp at absent)
  intro connection₁ found₁
  simp only [Server.setConnection, Server.record, Function.update_self, Option.some.injEq] at found₁
  subst found₁
  refine Follows.branch (fun _ => ?_) fun headless => ?_
  · refine (hcProcess_sim (p := { p with arrived := some h }) reading (Function.update_self ..) rfl
      answered free done idle ?_).mono ?_
    · exact fun assumed request length frame =>
        alone assumed request ((framed _).mpr ⟨length, frame⟩)
    · rintro _ p' s' ⟨rfl, ends⟩
      refine ⟨by rw [← seen], fun request complete => ?_⟩
      obtain ⟨length, frame⟩ := (framed request).mp complete
      exact ends request length frame
  · rw [Option.not_isSome_iff_eq_none] at headless
    have unframed : ∀ request length,
        (connection.receive bytes).frame h ≠ .ok (.complete request length) :=
          fun request length => by
      simp [HttpConnection.frame, headless]
    refine Follows.step (.examined rfl (Function.update_self ..) unframed) (.pure ⟨by rw [← seen], ?_⟩)
    intro request complete
    obtain ⟨length, frame⟩ := (framed request).mp complete
    exact absurd frame (unframed request length)

def handed (h : ConnectionId) (s : Server Iks) : Option HttpRequest :=
  match s.connections h with
  | none => none
  | some connection =>
    let bytes := received (maxBufferSize - connection.bufferSize) s.oracle.recv
    if bytes = [] then none else completed h connection bytes

theorem received_length (len : Nat) (answer : RecvResult) : (received len answer).length ≤ len := by
  cases answer with
  | data bytes => exact List.length_take_le len bytes
  | again | fail => exact Nat.zero_le len

theorem hcRead_sim {h : ConnectionId} (referred : s.connections h = none → Dangling (p, s))
    (reading : p.reading = none) (seen : p.arrived = none) (answered : p.owed = none)
    (free : p.debt = none) (done : p.unconsumed = none) (idle : p.busy = none)
    (exposed : ∀ connection, s.connections h = some connection → a.exposed connection.sock)
    (alone : a.alone → ∀ request, handed h s = some request → Alone s request) :
    Sim a (p, s) (hcRead h s) fun _ p' s' => p' = p ∧
      (∀ connection x, s'.connections h = some connection →
        s'.net.sockets connection.sock = some x → x.status = .connected) ∧
      ∀ request, handed h s = some request → EndsSession request s s' := by
  unfold hcRead
  refine Sim.connection referred fun connection found => Follows.read ?_
  refine Follows.step (.read found reading) ?_
  apply Sim.recv (exposed connection found)
  intro net _
  have known : handed h s = if received (maxBufferSize - connection.bufferSize) s.oracle.recv = []
      then none
      else completed h connection (received (maxBufferSize - connection.bufferSize) s.oracle.recv) := by
    simp [handed, found]
  refine Follows.optional (fun p' s' => p' = { p with reading := some h } ∧
    ∀ request, handed h s = some request →
      EndsSession request s s') (fun some_ => ?_) (fun empty => ?_) ?_
  · rw [known, if_neg some_] at alone ⊢
    exact hcReceived_sim rfl found some_ (received_length _ _) seen answered free done idle alone
  · rw [not_not] at empty
    rw [known, if_pos empty]
    exact ⟨rfl, nofun⟩
  rintro _ s₁ ⟨rfl, ends⟩
  apply Sim.connection (fun absent => ⟨h, absent, .inr (.inr (.inl rfl))⟩)
  intro connection₁ found₁
  apply Sim.net (getSocket_spec _)
  rintro x net ⟨rfl, there⟩
  refine Follows.branch (fun _ => ?_) fun stays => ?_
  · have deleting := hcDelete_sim (a := a) (p := { p with reading := some h }) (s := s₁) (h := h)
      (fun absent => ⟨h, absent, .inr (.inr (.inl rfl))⟩) answered seen done (.inr rfl)
    apply deleting.mono
    rintro _ _ s₂ ⟨rfl, deleted, -, only⟩
    refine ⟨by rw [← reading], fun _ _ found₂ => by simp [deleted] at found₂, ?_⟩
    intro request complete c message client who terminates here
    have gone := ends request complete c message client who terminates here
    have wire := congrArg Wire.sockets (only connection₁ found₁)
    by_cases same : client.sock = connection₁.sock
    · rw [← Net.wire_sockets, wire, same, Wire.sockets_put_self]
    · rw [← Net.wire_sockets, wire, Wire.sockets_put_ne same]
      exact gone
  · rw [not_not] at stays
    refine Follows.step (.finish rfl done) (.pure ⟨by rw [← reading], ?_, ends⟩)
    intro connection₂ y found₂ there₂
    obtain rfl := Option.some.inj (found₁.symm.trans found₂)
    rw [← Option.some.inj (there.symm.trans there₂)]
    exact stays

end Connections

end Bosh
