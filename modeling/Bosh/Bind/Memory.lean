import Bosh.Socket.Memory
import Bosh.Server.Orderly
import Bosh.Bind.Handling
import Bosh.Bind.Ending
import Bosh.Bind.Timeout

/-! No call for a session or a request reaches a session, a socket or a list node that has been
freed, and none deletes the server's own socket. -/
namespace Bosh
open Effect Text

section Answers
variable {Iks : Type} {s : Server Iks} {c : ClientId} {h : ConnectionId}

structure Answerable (s : Server Iks) : Prop where
  tidy : s.Tidy
  sockets : ∀ h connection, s.connections h = some connection → (s.net.sockets connection.sock).isSome

theorem Upright.answerable (upright : Upright s) : Answerable s where
  tidy := upright.tidy
  sockets _ _ := upright.socket_connection

theorem Answerable.keep {s' : Server Iks} (answerable : Answerable s) (net : s'.net = s.net)
    (connections : s'.connections = s.connections) : Answerable s' where
  tidy := by
    rw [Server.Tidy, net]
    exact answerable.tidy
  sockets h connection here := by
    rw [net]
    rw [connections] at here
    exact answerable.sockets h connection here

theorem Answerable.net (answerable : Answerable s) {net : Net} (tidy : net.Tidy none)
    (retains : s.net.Retains net) : Answerable { s with net } where
  tidy := tidy
  sockets h connection here := retains _ (answerable.sockets h connection here)

theorem Answerable.edit (answerable : Answerable s) {connection connection' : HttpConnection}
    (here : s.connections h = some connection) (same : connection'.sock = connection.sock) :
    Answerable (s.setConnection h (some connection')) where
  tidy := answerable.tidy
  sockets k other there := by
    rcases Table.of_update there with ⟨rfl, new⟩ | ⟨-, old⟩
    · cases new
      rw [same]
      exact answerable.sockets _ _ here
    · exact answerable.sockets k other old

structure Server.Retains (s s' : Server Iks) : Prop where
  clients : ∀ c, (s.clients c).isSome → (s'.clients c).isSome
  sockets : s.net.Retains s'.net
  serverSock : s'.serverSock = s.serverSock

theorem Server.Retains.refl (s : Server Iks) : s.Retains s := ⟨fun _ => id, .wire rfl, rfl⟩

theorem Server.Retains.trans {s₁ s₂ : Server Iks} (first : s.Retains s₁) (second : s₁.Retains s₂) :
    s.Retains s₂ where
  clients c live := second.clients c (first.clients c live)
  sockets := first.sockets.trans second.sockets
  serverSock := second.serverSock.trans first.serverSock

theorem Server.Retains.listens {s' : Server Iks} (retains : s.Retains s') (listens : s.Listens) :
    s'.Listens := by
  rw [Server.Listens, retains.serverSock]
  exact retains.sockets _ listens

theorem modifyClient_sparing (answerable : Answerable s) (live : (s.clients c).isSome)
    (f : JabberClient Iks → JabberClient Iks) :
    Ensures (modifyClient c f s) (fun _ s' => s.Retains s' ∧ Answerable s') Sparing := by
  obtain ⟨client, here⟩ := Option.isSome_iff_exists.mp live
  rw [modifyClient_run here]
  exact ⟨⟨fun d there => Table.isSome_update there, .wire rfl, rfl⟩, answerable.keep rfl rfl⟩

theorem getTime_sparing (answerable : Answerable s) :
    Ensures (getTime s) (fun _ s' => s.Retains s' ∧ Answerable s') Sparing := by
  rw [getTime_run]
  exact ⟨⟨fun _ => id, .wire rfl, rfl⟩, answerable.keep rfl rfl⟩

theorem hsAnswerRequest_sparing (answerable : Answerable s) (answerer : Answerer Iks)
    (msg contentType : Bytes) :
    Ensures (hsAnswerRequest h answerer msg contentType s)
      (fun _ s' => s.Retains s' ∧ Answerable s') Sparing := by
  cases found : s.connections h with
  | none =>
    unfold hsAnswerRequest
    rw [run_bind_error (getConnection_missing found)]
    exact nofun
  | some connection =>
    refine ((hsAnswerRequest_exact answerable.tidy (answerable.sockets h) answerer msg contentType).both
      (hsAnswerRequest_keeps tidy_lasting.toPersistent h answerer msg contentType s answerable.tidy)).mono ?_
      fun _ missing => by simp [found] at missing
    rintro _ _ ⟨⟨connection', net, found', gives, rfl⟩, tidy'⟩
    have edited : Answerable (({ s with net } : Server Iks).setConnection h
        (some { connection' with closeCallback := none })) :=
      (answerable.net tidy' (.gives gives)).edit found' rfl
    exact ⟨⟨fun _ => id, .gives gives, rfl⟩, edited.keep rfl rfl⟩

theorem release_sparing (answerable : Answerable s) (live : (s.clients c).isSome)
    (f : JabberClient Iks → JabberClient Iks) (g : Int → JabberClient Iks → JabberClient Iks) :
    Ensures ((do
      modifyClient c f
      let timestamp ← getTime
      modifyClient c (g timestamp) : ServerM Iks Unit) s)
      (fun _ s' => s.Retains s' ∧ Answerable s') Sparing := by
  rw [ensures_bind]
  refine (modifyClient_sparing answerable live f).mono ?_ fun _ => id
  rintro _ s₁ ⟨first, answerable₁⟩
  rw [ensures_bind]
  refine (getTime_sparing answerable₁).mono ?_ fun _ => id
  rintro now s₂ ⟨second, answerable₂⟩
  have both := first.trans second
  refine (modifyClient_sparing answerable₂ (both.clients c live) _).mono ?_ fun _ => id
  rintro _ s₃ ⟨third, answerable₃⟩
  exact ⟨both.trans third, answerable₃⟩

theorem jcDropRequest_sparing (answerable : Answerable s) (live : (s.clients c).isSome)
    (terminate : Bool) :
    Ensures (jcDropRequest c terminate s) (fun _ s' => s.Retains s' ∧ Answerable s') Sparing := by
  obtain ⟨client, here⟩ := Option.isSome_iff_exists.mp live
  unfold jcDropRequest
  rw [run_bind_ok (getClient_run here)]
  cases client.connection with
  | none => exact nofun
  | some h =>
    dsimp only
    rw [ensures_bind]
    refine (hsAnswerRequest_sparing answerable _ _ _).mono ?_ fun _ => id
    rintro _ s₁ ⟨first, answerable₁⟩
    refine (release_sparing answerable₁ (first.clients c live) _ _).mono ?_ fun _ => id
    rintro _ s₂ ⟨second, answerable₂⟩
    exact ⟨first.trans second, answerable₂⟩

theorem jcFlushMessages_sparing [Iksemel Iks] (answerable : Answerable s)
    (live : (s.clients c).isSome) :
    Ensures (jcFlushMessages c s) (fun _ s' => s.Retains s' ∧ Answerable s') Sparing := by
  obtain ⟨client, here⟩ := Option.isSome_iff_exists.mp live
  unfold jcFlushMessages
  rw [run_bind_ok (getClient_run here)]
  cases client.connection with
  | none => exact ⟨.refl s, answerable⟩
  | some h =>
    dsimp only
    split
    · rw [ensures_bind]
      refine (modifyClient_sparing answerable live _).mono ?_ fun _ => id
      rintro _ s₁ ⟨first, answerable₁⟩
      rw [ensures_bind, ensures_checked]
      refine ⟨fun buffer _ => ?_, fun fault failed => ?_⟩
      · rw [ensures_bind]
        refine (hsAnswerRequest_sparing answerable₁ _ _ _).mono ?_ fun _ => id
        rintro _ s₂ ⟨second, answerable₂⟩
        have both := first.trans second
        refine (release_sparing answerable₂ (both.clients c live) _ _).mono ?_ fun _ => id
        rintro _ s₃ ⟨third, answerable₃⟩
        exact ⟨both.trans third, answerable₃⟩
      · rcases (flushBuffer_spec client.outputQueue).2 fault failed with rfl | rfl <;> exact nofun
    · exact ⟨.refl s, answerable⟩

theorem Answerable.calls {program : NetM Unit} (answerable : Answerable s)
    (spares : Ensures (program s.net) (fun _ n' => n'.Tidy none ∧ s.net.Retains n') Sparing) :
    Ensures (onNet program s) (fun _ s' => s.Retains s' ∧ Answerable s') Sparing := by
  rw [onNet, ensures_part]
  refine spares.mono ?_ fun _ => id
  rintro _ n' ⟨tidy, retains⟩
  exact ⟨⟨fun _ => id, retains, rfl⟩, answerable.net tidy retains⟩

end Answers

section Sessions
variable {Iks : Type} {s s' : Server Iks} {c : ClientId} {h : ConnectionId}

theorem Forgotten.listens (gone : Forgotten c s s')
    (apart : ∀ client, s.clients c = some client → client.sock ≠ s.serverSock)
    (listens : s.Listens) : s'.Listens := by
  obtain ⟨client, rest, net, here, -, -, -, deleted⟩ := gone
  change (net.sockets s.serverSock).isSome
  rw [← Net.wire_sockets, deleted, Wire.sockets_put_ne (apart client here).symm]
  exact listens

theorem Ended.listens (ended : Ended c s s') (free : s.estate.Free s.serverSock)
    (listens : s.Listens) : s'.Listens := by
  have apart : ∀ client, s.clients c = some client → client.sock ≠ s.serverSock := fun client here mine =>
    free.unowned (.session c) (mine ▸ estate_session here)
  cases ended with
  | idle _ _ gone => exact gone.listens apart listens
  | held dropped gone =>
    obtain ⟨client, h, connection, net, clock, oracle, here, -, -, gives, -⟩ := dropped
    refine gone.listens (fun client' here' => ?_) (Net.Retains.gives gives _ listens)
    cases (Function.update_self ..).symm.trans here'
    exact apart client here

variable [Iksemel Iks]

theorem jbCloseClient_sparing (orderly : Orderly s) (listens : s.Listens)
    (live : (s.clients c).isSome) :
    Ensures (jbCloseClient c s) (fun _ s' => (∀ d, d ≠ c → (s.clients d).isSome →
      (s'.clients d).isSome) ∧ Orderly s' ∧ s'.Listens) Sparing := by
  obtain ⟨client, here⟩ := Option.isSome_iff_exists.mp live
  have upright := orderly.toUpright
  have sim : Sim (Assumed.of False False) ({}, s) (jbCloseClient c s) _ :=
    jbCloseClient_sim rfl (.inl rfl)
  cases ran : jbCloseClient c s with
  | ok result =>
    obtain ⟨_, -, -, gone, -⟩ := Ensures.of_ok sim ran
    refine ⟨fun d other there => ?_, ?_, ?_⟩
    · rwa [gone, Function.update_of_ne other]
    · exact (orderly.of_sim sim (tidy_lasting.durable.closeSession c)).of_ok ran
    · exact ((jbCloseClient_exact upright here).of_ok ran).listens orderly.free listens
  | error fault =>
    obtain ⟨h, held, missing⟩ := (jbCloseClient_exact upright here).of_error ran
    unfold jbCloseClient at ran
    rw [run_bind_ok (getClient_run here), if_pos (by simp [held])] at ran
    cases dropped : jcDropRequest c true s with
    | ok result =>
      obtain ⟨_, s₁⟩ := result
      obtain ⟨client', _, _, _, _, _, here', held', found, -⟩ :=
        (jcDropRequest_exact upright true here held).of_ok dropped
      cases here.symm.trans here'
      cases held.symm.trans held'
      cases missing.symm.trans found
    | error fault' =>
      rw [run_bind_error dropped] at ran
      cases ran
      exact (jcDropRequest_sparing upright.answerable live true).of_error dropped

theorem jbTimedOut_sparing (init : Int) {cs : List ClientId} (orderly : Orderly s)
    (live : ∀ c ∈ cs, (s.clients c).isSome) :
    Ensures (jbTimedOut init cs s) (fun toClose s' => s.Retains s' ∧ Orderly s' ∧
      toClose.Sublist cs) Sparing := by
  induction cs generalizing s with
  | nil => exact ⟨.refl s, orderly, .slnil⟩
  | cons c rest ih =>
    have live_rest : ∀ d ∈ rest, (s.clients d).isSome := fun d listed => live d (.tail _ listed)
    obtain ⟨client, here⟩ := Option.isSome_iff_exists.mp (live c (.head _))
    unfold jbTimedOut
    rw [run_bind_ok (getClient_run here), run_get]
    split
    · have drops : Ensures (jcDropRequest c false s) (fun _ s' => Orderly s') fun _ => True :=
        orderly.of_sim (p := {}) (jcDropRequest_sim false here)
          (jcDropRequest_keeps tidy_lasting.toPersistent c false)
      rw [ensures_bind]
      refine ((jcDropRequest_sparing orderly.answerable (live c (.head _)) false).both drops).mono ?_
        fun _ => And.left
      rintro _ s₁ ⟨⟨first, -⟩, orderly₁⟩
      refine (ih orderly₁ fun d listed => first.clients d (live_rest d listed)).mono ?_ fun _ => id
      rintro toClose s' ⟨second, orderly', part⟩
      exact ⟨first.trans second, orderly', part.cons _⟩
    · split
      · rw [ensures_bind]
        refine (ih orderly live_rest).mono ?_ fun _ => id
        rintro toClose s' ⟨retains, orderly', part⟩
        exact ⟨retains, orderly', part.cons_cons _⟩
      · refine (ih orderly live_rest).mono ?_ fun _ => id
        rintro toClose s' ⟨retains, orderly', part⟩
        exact ⟨retains, orderly', part.cons _⟩

theorem closes_sparing {cs : List ClientId} (distinct : cs.Nodup) (orderly : Orderly s)
    (listens : s.Listens) (live : ∀ c ∈ cs, (s.clients c).isSome) :
    Ensures (cs.forM jbCloseClient s) (fun _ s' => s'.Listens) Sparing := by
  induction cs generalizing s with
  | nil => exact listens
  | cons c rest ih =>
    obtain ⟨new, distinct⟩ := List.nodup_cons.mp distinct
    rw [List.forM_eq_forM, List.forM_cons, ensures_bind]
    refine (jbCloseClient_sparing orderly listens (live c (.head _))).mono ?_ fun _ => id
    rintro _ s₁ ⟨others, orderly₁, listens₁⟩
    refine ih distinct orderly₁ listens₁ fun d listed => others d ?_ (live d (.tail _ listed))
    rintro rfl
    exact new listed

omit [Iksemel Iks] in
theorem Orderly.ticked (orderly : Orderly s) : Orderly s.ticked where
  sound := ⟨orderly.sound.directory, orderly.sound.roster, orderly.sound.estate⟩
  tidy := orderly.tidy
  registered := orderly.registered
  free := ⟨orderly.free.made, orderly.free.unowned⟩

theorem jbCheckTimeout_sparing (orderly : Orderly s) (listens : s.Listens) :
    Ensures (jbCheckTimeout s) (fun _ s' => s'.Listens) Sparing := by
  unfold jbCheckTimeout
  rw [run_bind_ok (getTime_run s), run_get, ensures_bind]
  have ticked := orderly.ticked
  have live : ∀ c ∈ Chain.values s.ticked.jabberConnections, (s.ticked.clients c).isSome :=
    fun c listed => ticked.sound.mem_jabberConnections.mp listed
  refine (jbTimedOut_sparing s.now ticked live).mono ?_ fun _ => id
  rintro toClose s₁ ⟨retains, orderly₁, part⟩
  refine closes_sparing (part.nodup ticked.sound.directory.listed.nodup_values) orderly₁
    (retains.listens listens) ?_
  exact fun c listed => retains.clients c (live c (part.subset listed))

omit [Iksemel Iks] in
theorem jcReadLoop_sparing {client : JabberClient Iks} (tidy : s.Tidy)
    (here : s.clients c = some client) (there : (s.net.sockets client.sock).isSome)
    (arrivals : List (Arrival Iks)) :
    Ensures (jcReadLoop c arrivals s) (fun _ s' => s.Retains s') Sparing := by
  induction arrivals generalizing s client with
  | nil =>
    unfold jcReadLoop
    rw [run_bind_ok (getClient_run here), ensures_bind, onNet, ensures_part]
    refine (sockRecv_sparing tidy there _ _).mono ?_ fun _ => id
    rintro _ net ⟨-, -, retains⟩
    exact ⟨fun _ => id, retains, rfl⟩
  | cons arrival arrivals ih =>
    unfold jcReadLoop
    rw [run_bind_ok (getClient_run here), ensures_bind, onNet, ensures_part]
    refine (sockRecv_sparing tidy there _ _).mono ?_ fun _ => id
    rintro bytes net ⟨-, tidy₁, received⟩
    split
    · exact ⟨fun _ => id, received, rfl⟩
    · have here₁ : ({ s with net } : Server Iks).clients c = some client := here
      have hears : s.Retains (({ s with net } : Server Iks).heard c client arrival.hooks) :=
        ⟨fun d live => Table.isSome_update live, received, rfl⟩
      rw [run_bind_ok (hooks_run arrival.hooks here₁)]
      split
      · have heard : (({ s with net } : Server Iks).heard c client arrival.hooks).clients c =
            some (client.heard arrival.hooks) := Function.update_self ..
        have tidy₂ : (({ s with net } : Server Iks).heard c client arrival.hooks).Tidy := tidy₁
        exact (ih tidy₂ heard (received _ there)).mono (fun _ _ rest => hears.trans rest) fun _ => id
      · exact hears

theorem jcReadJabber_sparing (orderly : Orderly s) (listens : s.Listens)
    (live : (s.clients c).isSome) :
    Ensures (jcReadJabber c s) (fun _ s' => s'.Listens) Sparing := by
  obtain ⟨client, here⟩ := Option.isSome_iff_exists.mp live
  have work : AtWork c client.sock {} { busy := some (c, false) } s :=
    ⟨⟨false, rfl⟩, client, here, rfl⟩
  have loop : Ensures (jcReadLoop c s.oracle.arrivals s) (fun _ s' => Orderly s') fun _ => True :=
    orderly.of_sim (jcReadLoop_sim trivial _ work) (tidy_lasting.durable.jcReadLoop_keeps c _)
  have spares := jcReadLoop_sparing orderly.tidy here (orderly.socket_session here) s.oracle.arrivals
  unfold jcReadJabber
  rw [run_get, ensures_bind]
  refine (loop.both spares).mono ?_ fun _ => And.right
  rintro ok s₁ ⟨orderly₁, first⟩
  have live₁ := first.clients c live
  obtain ⟨client₁, here₁⟩ := Option.isSome_iff_exists.mp live₁
  have flushes : Ensures (jcFlushMessages c s₁) (fun _ s' => Orderly s') fun _ => True :=
    orderly₁.of_sim (p := {}) (jcFlushMessages_sim here₁) (tidy_lasting.durable.flush c)
  rw [ensures_bind]
  refine ((jcFlushMessages_sparing orderly₁.answerable live₁).both flushes).mono ?_ fun _ => And.left
  rintro _ s₂ ⟨⟨second, -⟩, orderly₂⟩
  have listens₂ := second.listens (first.listens listens)
  have live₂ := second.clients c live₁
  obtain ⟨client₂, here₂⟩ := Option.isSome_iff_exists.mp live₂
  obtain ⟨sock, there⟩ := Option.isSome_iff_exists.mp (orderly₂.socket_session here₂)
  rw [run_bind_ok (getClient_run here₂), run_bind_ok (onNet_run (getSocket_run there))]
  split
  · exact (jbCloseClient_sparing orderly₂ listens₂ live₂).mono (fun _ _ closed => closed.2.2)
      fun _ => id
  · exact listens₂

theorem jcSetHttp_sparing (answerable : Answerable s) (live : (s.clients c).isSome)
    (rid : Option UInt64) :
    Ensures (jcSetHttp c h rid s) (fun _ s' => s.Retains s' ∧ Answerable s') Sparing := by
  have rest : ∀ s₁ : Server Iks, s.Retains s₁ → Answerable s₁ → Ensures ((do
      modifyClient c fun client => { client with connection := some h }
      modify (Server.record (.hold c h))
      let timestamp ← getTime
      modifyClient c fun client => { client with timestamp, rid }
      hcSetCloseCallback h (.jcClearHttp c)
      jcFlushMessages c : ServerM Iks Unit) s₁) (fun _ s' => s.Retains s' ∧ Answerable s') Sparing := by
    intro s₁ to₁ answerable₁
    rw [ensures_bind]
    refine (modifyClient_sparing answerable₁ (to₁.clients c live) _).mono ?_ fun _ => id
    rintro _ s₂ ⟨step₂, answerable₂⟩
    have to₂ := to₁.trans step₂
    rw [run_modify, ensures_bind]
    have recorded : Answerable (s₂.record (.hold c h)) := answerable₂.keep rfl rfl
    refine (getTime_sparing recorded).mono ?_ fun _ => id
    rintro now s₃ ⟨step₃, answerable₃⟩
    have to₃ : s.Retains s₃ := to₂.trans ⟨step₃.clients, step₃.sockets, step₃.serverSock⟩
    rw [ensures_bind]
    refine (modifyClient_sparing answerable₃ (to₃.clients c live) _).mono ?_ fun _ => id
    rintro _ s₄ ⟨step₄, answerable₄⟩
    have to₄ := to₃.trans step₄
    unfold hcSetCloseCallback
    cases found : s₄.connections h with
    | none =>
      rw [ensures_bind, modifyConnection, run_bind_error (getConnection_missing found)]
      exact nofun
    | some connection =>
      rw [run_bind_ok (modifyConnection_run found _)]
      have answerable₅ : Answerable (s₄.setConnection h
          (some { connection with closeCallback := some (.jcClearHttp c) })) := answerable₄.edit found rfl
      refine (jcFlushMessages_sparing answerable₅ (to₄.clients c live)).mono ?_ fun _ => id
      rintro _ s₅ ⟨step₅, answerable₆⟩
      exact ⟨to₄.trans ⟨step₅.clients, step₅.sockets, step₅.serverSock⟩, answerable₆⟩
  obtain ⟨client, here⟩ := Option.isSome_iff_exists.mp live
  unfold jcSetHttp
  rw [run_bind_ok (getClient_run here)]
  split
  · rw [ensures_bind]
    refine (jcDropRequest_sparing answerable live false).mono ?_ fun _ => id
    rintro _ s₁ ⟨to₁, answerable₁⟩
    exact rest s₁ to₁ answerable₁
  · exact rest s (.refl s) answerable

theorem jbServe_sparing (orderly : Orderly s) (listens : s.Listens) (live : (s.clients c).isSome)
    (rid : CString) (message : Iks) :
    Ensures (jbServe c h rid message s) (fun _ s' => s'.Listens) Sparing := by
  have sets : Ensures (jcSetHttp c h (scanInt64 rid.bytes) s) (fun _ s' => Orderly s') fun _ => True :=
    orderly.of_sim (p := { owed := some h, debt := some (c, []) }) (jcSetHttp_sim _ rfl rfl rfl)
      (tidy_lasting.durable.setHttp _ _ _)
  unfold jbServe
  rw [ensures_bind]
  refine ((jcSetHttp_sparing orderly.answerable live _).both sets).mono ?_ fun _ => And.left
  rintro _ s₁ ⟨⟨first, -⟩, orderly₁⟩
  obtain ⟨client₁, here₁⟩ := Option.isSome_iff_exists.mp (first.clients c live)
  have forward := orderly₁.of_sim (p := { debt := some (c, Iksemel.tags message) })
    (jbForward_sim _ rfl rfl here₁ rfl) (tidy_lasting.durable.jbForward_keeps _ _)
  rw [run_bind_ok (getClient_run here₁), ensures_bind]
  have sends : Ensures (jbForward client₁.sock (Iksemel.tags message) s₁)
      (fun _ s₂ => s₁.Retains s₂) Sparing := by
    rw [jbForward_sends]
    exact (orderly₁.answerable.calls (sockSends_sparing orderly₁.tidy (only_none _)
      (orderly₁.socket_session here₁) _ _)).mono (fun _ _ => And.left) fun _ => id
  refine (forward.both sends).mono ?_ fun _ => And.right
  rintro _ s₂ ⟨orderly₂, second⟩
  have listens₂ := second.listens (first.listens listens)
  split
  · exact (jbCloseClient_sparing orderly₂ listens₂ (second.clients c (Option.isSome_of_mem here₁))).mono
      (fun _ _ closed => closed.2.2) fun _ => id
  · exact listens₂

omit [Iksemel Iks] in
theorem lrand48_sparing :
    Ensures (lrand48 s) (fun _ s' => ∃ oracle, s' = { s with oracle }) Sparing := by
  unfold lrand48
  rw [run_get]
  cases s.oracle.random with
  | nil => exact nofun
  | cons value random => exact ⟨_, rfl⟩

omit [Iksemel Iks] in
theorem pickSid_sparing (attempts : Nat) :
    Ensures (pickSid attempts s) (fun _ s' => ∃ oracle, s' = { s with oracle }) Sparing := by
  induction attempts generalizing s with
  | zero => exact nofun
  | succ attempts ih =>
    unfold pickSid genSid
    rw [bind_assoc, ensures_bind]
    refine lrand48_sparing.mono ?_ fun _ => id
    rintro low _ ⟨first, rfl⟩
    rw [bind_assoc, ensures_bind]
    refine lrand48_sparing.mono ?_ fun _ => id
    rintro high _ ⟨second, rfl⟩
    rw [pure_bind, run_get]
    split
    · exact ih
    · exact ⟨second, rfl⟩

omit [Iksemel Iks] in
theorem jbOpenSession_sparing {sock : SocketId} (answerable : Answerable s)
    (there : (s.net.sockets sock).isSome) (host : CString) (wait : Int) :
    Ensures (jbOpenSession h host wait sock s) (fun _ s' => s.Retains s') Sparing := by
  unfold jbOpenSession
  rw [run_get, ensures_bind]
  refine (pickSid_sparing _).mono ?_ fun _ => id
  rintro sid _ ⟨oracle, rfl⟩
  rw [run_bind_ok (getTime_run _)]
  unfold newNode
  simp only [ensures_bind, ensures_get, ensures_set, ensures_pure]
  dsimp only [Server.ticked]
  cases s.sids.insert sid s.nextClient with
  | none =>
    intro same
    cases same
  | some sids =>
    simp only [ensures_bind, ensures_set, ensures_modify]
    generalize stored : Server.record _ _ = s₀
    have answerable₀ : Answerable s₀ := stored ▸ answerable.keep rfl rfl
    have there₀ : (s₀.net.sockets sock).isSome := stored ▸ there
    have to₀ : s.Retains s₀ := stored ▸ ⟨fun _ => Table.isSome_update, .wire rfl, rfl⟩
    have sends := sockSend_sparing answerable₀.tidy (only_none _) there₀
      (some (jabberHeader host.bytes)) false
    refine (answerable₀.calls (sends.mono (fun _ _ sent => ⟨sent.2.1 rfl, sent.2.2⟩)
      fun _ => id)).mono ?_ fun _ => id
    rintro _ s₁ ⟨step₁, answerable₁⟩
    have there₁ := step₁.sockets _ there₀
    refine (answerable₁.calls (sockSetDataCallback_sparing answerable₁.tidy there₁ _)).mono ?_ fun _ => id
    rintro _ s₂ ⟨step₂, answerable₂⟩
    have there₂ := step₂.sockets _ there₁
    refine (answerable₂.calls (sockSetConnectCallback_sparing answerable₂.tidy there₂ _)).mono ?_
      fun _ => id
    rintro _ s₃ ⟨step₃, answerable₃⟩
    have there₃ := step₃.sockets _ there₂
    refine (answerable₃.calls (sockSetErrorCallback_sparing answerable₃.tidy there₃ _)).mono ?_
      fun _ => id
    rintro _ s₄ ⟨step₄, answerable₄⟩
    refine (hsAnswerRequest_sparing answerable₄ _ _ _).mono ?_ fun _ => id
    rintro _ s₅ ⟨step₅, -⟩
    exact to₀.trans (step₁.trans (step₂.trans (step₃.trans (step₄.trans step₅))))

omit [Iksemel Iks] in
theorem jcReportError_sparing (answerable : Answerable s) (code : BindErrorCode) :
    Ensures (jcReportError h code s) (fun _ s' => s.Retains s') Sparing :=
  (hsAnswerRequest_sparing answerable _ _ _).mono (fun _ _ => And.left) fun _ => id

theorem jbConnectClient_sparing (answerable : Answerable s) (body : Iks) :
    Ensures (jbConnectClient h body s) (fun _ s' => s.Retains s') Sparing := by
  unfold jbConnectClient
  cases Iksemel.findAttrib body "wait" with
  | none => exact jcReportError_sparing answerable _
  | some wait =>
    dsimp only
    cases Iksemel.findAttrib body "to" with
    | none => exact jcReportError_sparing answerable _
    | some host =>
      dsimp only
      cases Iksemel.findAttrib body "rid" with
      | none => exact jcReportError_sparing answerable _
      | some _ =>
        dsimp only
        rw [run_get]
        split
        · exact jcReportError_sparing answerable _
        · rw [sockOpen_bind, ensures_bind, onNet, ensures_part]
          refine (sockOpen_sparing answerable.tidy _ _ _).mono ?_ fun _ => id
          rintro sock net ⟨tidy, retains, there⟩
          have answerable' := answerable.net tidy retains
          have opens : s.Retains { s with net } := ⟨fun _ => id, retains, rfl⟩
          cases sock with
          | none =>
            exact (jcReportError_sparing answerable' _).mono (fun _ _ rest => opens.trans rest) fun _ => id
          | some sock =>
            exact (jbOpenSession_sparing answerable' (there sock rfl) _ _).mono
              (fun _ _ rest => opens.trans rest) fun _ => id

theorem jbHandleHttpPost_sparing {request : HttpRequest} (orderly : Orderly s) (listens : s.Listens) :
    Ensures (jbHandleHttpPost request s) (fun _ s' => s'.Listens) Sparing := by
  have refused : ∀ code, Ensures (jcReportError request.connection code s) (fun _ s' => s'.Listens)
      Sparing := fun code =>
    (jcReportError_sparing orderly.answerable code).mono
      (fun _ _ retains => retains.listens listens) fun _ => id
  unfold jbHandleHttpPost
  rw [ensures_bind, ensures_checked]
  refine ⟨fun tree parsed => ?_, fun fault failed => iksTree_error failed ▸ nofun⟩
  cases tree with
  | none => exact refused _
  | some message =>
    dsimp only
    cases Iksemel.findAttrib message "sid" with
    | none =>
      exact (jbConnectClient_sparing orderly.answerable message).mono
        (fun _ _ retains => retains.listens listens) fun _ => id
    | some sid =>
      dsimp only
      cases scanInt64 sid.bytes with
      | none => exact refused _
      | some sid =>
        dsimp only
        cases Iksemel.findAttrib message "rid" with
        | none => exact refused _
        | some rid =>
          dsimp only
          rw [run_get]
          cases found : s.sids.find sid with
          | none => exact refused _
          | some c =>
            obtain ⟨client, here, -⟩ := orderly.find_iff.mp found
            exact jbServe_sparing orderly listens (Option.isSome_of_mem here) rid message

theorem jbHandleRequest_sparing {request : HttpRequest} (orderly : Orderly s) (listens : s.Listens) :
    Ensures (jbHandleRequest request s) (fun _ s' => s'.Listens) Sparing := by
  unfold jbHandleRequest
  split
  · exact jbHandleHttpPost_sparing orderly listens
  · split
    · unfold jbHandleHttpGet
      rw [run_bind_ok (getTime_run s), run_get]
      exact (hsAnswerRequest_sparing orderly.ticked.answerable _ _ _).mono
        (fun _ _ retains => retains.1.listens listens) fun _ => id
    · exact (jcReportError_sparing orderly.answerable _).mono (fun _ _ retains => retains.listens listens)
        fun _ => id

end Sessions

end Bosh
