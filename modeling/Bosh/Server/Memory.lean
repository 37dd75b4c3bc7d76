import Bosh.Bind.Memory
import Bosh.Server.Elementary
import Bosh.Server.Links

/-! No step of a run reaches memory that has been freed: a session, a socket, a record of the
monitor or a list node. A connection that has been deleted is a matter of its own. -/
namespace Bosh
open Effect Text

variable {Iks : Type} {s : Server Iks} {h : ConnectionId} {c : ClientId}

theorem Orderly.net (orderly : Orderly s) {net : Net} (keeps : s.net.wire.Keeps net.wire)
    (tidy : net.Tidy none) : Orderly { s with net } where
  sound := ⟨orderly.sound.directory, orderly.sound.roster, orderly.sound.estate.keep keeps rfl⟩
  tidy := tidy
  registered := orderly.registered
  free := orderly.free.change (.keep keeps rfl)

theorem Wire.Keeps.put {w : Wire} {i : SocketId} {sock sock' : Socket}
    (here : w.sockets i = some sock) (restyled : sock.Restyled sock') :
    w.Keeps (w.put i (some sock')) :=
  .of_only (OnlySocket.put _ _ _) here (Wire.sockets_put_self ..) restyled

theorem Shuts.keeps {i : SocketId} {w w' : Wire} (shuts : Shuts i w w') : w.Keeps w' := by
  obtain ⟨sock, sock', here, rfl, calls, closed, -⟩ := shuts
  exact .put here ⟨calls, .inr (.inl closed.2)⟩

theorem hcReportError_sparing (orderly : Orderly s) (msg : Bytes) :
    Ensures (hcReportError h msg s) (fun _ s' => s.Retains s') Sparing := by
  unfold hcReportError
  cases found : s.connections h with
  | none =>
    rw [run_bind_error (getConnection_missing found)]
    exact nofun
  | some connection =>
    rw [run_bind_ok (getConnection_run found), ← onNet_bind]
    refine (orderly.answerable.calls (sockSends_sparing orderly.tidy (only_none _)
      (orderly.socket_connection found) (some _) [_])).mono (fun _ _ => And.left) fun _ => id

theorem hcDelete_rest_sparing (orderly : Orderly s) (listens : s.Listens)
    {connection : HttpConnection} (found : s.connections h = some connection) {s₁ : Server Iks}
    (net : s₁.net = s.net) (list : s₁.httpConnections = s.httpConnections)
    (own : s₁.serverSock = s.serverSock) :
    Ensures ((do
      onNet (sockDelete connection.sock)
      let s ← get
      match Chain.erase connection.it s.httpConnections with
      | none => throw .useAfterFree
      | some httpConnections =>
        modify fun s => { s with httpConnections }
        modify (Server.setConnection h none)
        modify (Server.record (.hcDelete h)) : ServerM Iks Unit) s₁)
      (fun _ s' => s'.Listens) Sparing := by
  have apart : connection.sock ≠ s.serverSock := fun mine =>
    orderly.free.unowned (.connection h) (mine ▸ estate_connection found)
  have listed : (connection.it, h) ∈ s.httpConnections :=
    (orderly.sound.roster.mem_iff _ _).mpr (by simp [found])
  obtain ⟨rest, erased⟩ := Chain.erase_isSome listed
  have spares : Ensures (sockDelete connection.sock s₁.net) (fun _ _ => True) Sparing := by
    rw [net]
    exact sockDelete_sparing orderly.tidy (orderly.socket_connection found)
  rw [ensures_bind, onNet, ensures_part]
  refine (spares.both (sockDelete_deletes _)).mono ?_ fun _ => And.left
  rintro _ net' ⟨-, -, deleted⟩
  rw [run_get]
  dsimp only
  rw [list, erased]
  change (net'.sockets s₁.serverSock).isSome
  rw [← Net.wire_sockets, deleted, own, Wire.sockets_put_ne apart.symm, Net.wire_sockets, net]
  exact listens

theorem hcDelete_sparing (orderly : Orderly s) (listens : s.Listens) :
    Ensures (hcDelete h s) (fun _ s' => s'.Listens) Sparing := by
  unfold hcDelete
  cases found : s.connections h with
  | none =>
    rw [run_bind_error (getConnection_missing found)]
    intro same
    cases same
  | some connection =>
    rw [run_bind_ok (getConnection_run found)]
    cases callback : connection.closeCallback with
    | none => exact hcDelete_rest_sparing orderly listens found rfl rfl rfl
    | some registered =>
      obtain ⟨c⟩ := registered
      have held : s.holding c = some h :=
        orderly.registered h c (by simp [links, Server.registered, found, callback])
      obtain ⟨client, here, -⟩ := Option.bind_eq_some_iff.mp held
      dsimp only
      rw [ensures_bind]
      refine (jcClearHttp_spec c).mono ?_ fun _ absent => by simp [here] at absent
      rintro _ s₁ ⟨_, _, _, -, -, rfl⟩
      exact hcDelete_rest_sparing orderly listens found rfl rfl rfl

theorem hcCreate_sparing {i : SocketId} (tidy : s.Tidy) (there : (s.net.sockets i).isSome)
    (listens : s.Listens) : Ensures (hcCreate i s) (fun _ s' => s'.Listens) Sparing := by
  unfold hcCreate newNode
  rw [run_get]
  split
  · exact nofun
  · rw [bind_assoc, run_get, bind_assoc, run_set, pure_bind, run_modify, run_modify, run_modify,
      ensures_bind, onNet, ensures_part]
    refine (sockSetDataCallback_sparing tidy there _).mono ?_ fun _ => id
    rintro _ n₁ ⟨tidy₁, first⟩
    rw [onNet, ensures_part]
    refine (sockSetErrorCallback_sparing tidy₁ (first i there) _).mono ?_ fun _ => id
    rintro _ n₂ ⟨-, second⟩
    exact second _ (first _ listens)

theorem hsAccept_sparing (tidy : s.Tidy) (listens : s.Listens) :
    Ensures (hsAccept s) (fun _ s' => s'.Listens) Sparing := by
  unfold hsAccept
  rw [run_get, ensures_bind, onNet, ensures_part]
  refine ((sockAccept_sparing listens _).both (tidy_lasting.accept _ _ s.net tidy)).mono ?_
    fun _ => And.left
  rintro client net ⟨⟨retains, new⟩, tidy'⟩
  cases client with
  | none => exact retains _ listens
  | some i => exact hcCreate_sparing (s := { s with net }) tidy' (new i rfl) (retains _ listens)

variable [Iksemel Iks]

theorem hcProcess_sparing (orderly : Orderly s) (listens : s.Listens) :
    Ensures (hcProcess h s) (fun _ s' => s'.Listens) Sparing := by
  unfold hcProcess
  cases found : s.connections h with
  | none =>
    rw [run_bind_error (getConnection_missing found)]
    exact nofun
  | some connection =>
    rw [run_bind_ok (getConnection_run found), ensures_bind, ensures_checked]
    refine ⟨fun framed frame => ?_, fun fault failed => frame_error failed ▸ nofun⟩
    cases framed with
    | tooBig =>
      exact (hcReportError_sparing orderly _).mono (fun _ _ retains => retains.listens listens)
        fun _ => id
    | incomplete => exact listens
    | complete request length =>
      dsimp only
      rw [run_modify, ensures_bind]
      have recorded : Orderly (s.record (.request h request)) :=
        orderly.micro (p := { reading := some h, arrived := some h })
          (.request rfl rfl found frame rfl rfl rfl nofun) orderly.tidy
      refine (jbHandleRequest_sparing recorded listens).mono ?_ fun _ => id
      rintro _ s₁ listens₁
      cases still : s₁.connections h with
      | none =>
        rw [modifyConnection, run_bind_error (getConnection_missing still)]
        exact nofun
      | some connection₁ =>
        rw [modifyConnection_run still]
        exact listens₁

theorem hcReceived_sparing {connection : HttpConnection} {bytes : Bytes} (orderly : Orderly s)
    (listens : s.Listens) (found : s.connections h = some connection) (more : bytes ≠ [])
    (fits : bytes.length ≤ maxBufferSize - connection.bufferSize) :
    Ensures (hcReceived h bytes s) (fun _ s' => s'.Listens) Sparing := by
  have stored : Orderly ((s.setConnection h (some (connection.receive bytes))).record
      (.received h bytes)) :=
    orderly.micro (p := { reading := some h }) (.receive rfl found more fits rfl rfl) orderly.tidy
  unfold hcReceived
  rw [run_bind_ok (modifyConnection_run found _), run_modify,
    run_bind_ok (getConnection_run (Function.update_self ..))]
  split
  · exact hcProcess_sparing stored listens
  · exact listens

theorem hcRead_sparing (orderly : Orderly s) (listens : s.Listens) :
    Ensures (hcRead h s) (fun _ s' => s'.Listens) Sparing := by
  have rest : ∀ s₁ : Server Iks, Orderly s₁ → s₁.Listens → Ensures ((do
      let connection ← getConnection h
      let sock ← onNet (getSocket connection.sock)
      if sock.status ≠ .connected then hcDelete h : ServerM Iks Unit) s₁)
      (fun _ s' => s'.Listens) Sparing := by
    intro s₁ orderly₁ listens₁
    cases found : s₁.connections h with
    | none =>
      rw [run_bind_error (getConnection_missing found)]
      intro same
      cases same
    | some connection =>
      obtain ⟨sock, there⟩ := Option.isSome_iff_exists.mp (orderly₁.socket_connection found)
      rw [run_bind_ok (getConnection_run found), run_bind_ok (onNet_run (getSocket_run there))]
      split
      · exact hcDelete_sparing orderly₁ listens₁
      · exact listens₁
  unfold hcRead
  cases found : s.connections h with
  | none =>
    rw [run_bind_error (getConnection_missing found)]
    intro same
    cases same
  | some connection =>
    rw [run_bind_ok (getConnection_run found), run_get, ensures_bind, onNet, ensures_part]
    refine ((sockRecv_sparing orderly.tidy (orderly.socket_connection found) _ _).both
      (sockRecv_spec _ _ _)).mono ?_ fun _ => And.left
    rintro bytes net ⟨⟨rfl, tidy, retains⟩, -, same⟩
    split
    · rename_i more
      obtain rfl : net = s.net := same.resolve_right fun ended => more ended.1
      have fits := received_length (maxBufferSize - connection.bufferSize) s.oracle.recv
      have handled := orderly.of_sim (p := { reading := some h })
        (hcReceived_sim rfl found more fits rfl rfl rfl rfl rfl False.elim)
        (tidy_lasting.durable.hcReceived_keeps h _)
      rw [ensures_bind]
      refine ((hcReceived_sparing orderly listens found more fits).both handled).mono ?_
        fun _ => And.left
      rintro _ s₁ ⟨listens₁, orderly₁⟩
      exact rest s₁ orderly₁ listens₁
    · refine rest _ (orderly.net ?_ tidy) (retains _ listens)
      rcases same with rfl | ⟨-, shuts⟩
      · exact .refl _
      · exact shuts.keeps

omit [Iksemel Iks] in
theorem Sound.session_called (sound : Sound s) {i : SocketId} {sock : Socket}
    (there : s.net.sockets i = some sock)
    (calls : sock.dataCallback = some (.jcReadJabber c) ∨
      sock.connectCallback = some (.jcAnswerCreation c) ∨
      sock.errorCallback = some (.jcHandleError c)) : (s.clients c).isSome := by
  have same : ∀ {o : Owner}, sock.callbacks = o.callbacks → sock.dataCallback = o.callbacks.1 ∧
      sock.connectCallback = o.callbacks.2.1 ∧ sock.errorCallback = o.callbacks.2.2 :=
    fun callbacks => ⟨congrArg (·.1) callbacks, congrArg (·.2.1) callbacks, congrArg (·.2.2) callbacks⟩
  rcases sound.estate.owner i sock there with nobody | ⟨o, callbacks, mine⟩
  · obtain ⟨data, rest⟩ := Prod.mk.inj nobody
    obtain ⟨connect, error⟩ := Prod.mk.inj rest
    simp [data, connect, error] at calls
  · obtain ⟨data, connect, error⟩ := same callbacks
    cases o with
    | connection h => simp [data, connect, error, Owner.callbacks] at calls
    | session d =>
      obtain rfl : d = c := by simpa [data, connect, error, Owner.callbacks] using calls
      exact Option.isSome_of_mem (Option.map_eq_some_iff.mp mine).choose_spec.1

theorem runErrorCallback_sparing (orderly : Orderly s) (listens : s.Listens)
    {callback : ErrorCallback} (live : ∀ c, callback = .jcHandleError c → (s.clients c).isSome) :
    Ensures (runErrorCallback callback s) (fun _ s' => s'.Listens) Sparing := by
  cases callback with
  | hcHandleError h => exact hcDelete_sparing orderly listens
  | jcHandleError c =>
    exact (jbCloseClient_sparing orderly listens (live c rfl)).mono (fun _ _ closed => closed.2.2)
      fun _ => id

theorem runConnectCallback_sparing (orderly : Orderly s) (listens : s.Listens) (code : Int)
    {callback : ConnectCallback} (live : ∀ c, callback = .jcAnswerCreation c → (s.clients c).isSome) :
    Ensures (runConnectCallback code callback s) (fun _ s' => s'.Listens) Sparing := by
  obtain ⟨c⟩ := callback
  change Ensures ((if code ≠ 0 then jbCloseClient c else pure ()) s) _ _
  split
  · exact (jbCloseClient_sparing orderly listens (live c rfl)).mono (fun _ _ closed => closed.2.2)
      fun _ => id
  · exact listens

section Socket
variable {events : Events} {i : SocketId} {sock : Socket}

theorem broken_sparing (orderly : Orderly s) (listens : s.Listens)
    (here : s.net.sockets i = some sock) (broken : events.error ∨ events.hangup) :
    Ensures (socketCallback events i s) (fun _ s' => s'.Listens) Sparing := by
  unfold socketCallback
  rw [run_bind_ok (onNet_run (getSocket_run here)), run_get, if_pos broken, ensures_bind, onNet,
    ensures_part]
  refine ((sockClose_sparing orderly.tidy (Option.isSome_of_mem here)).both (sockClose_shuts i)).mono ?_
    fun _ => And.left
  rintro _ net ⟨⟨tidy, retains⟩, shuts⟩
  have closed := orderly.net shuts.keeps tidy
  cases callback : sock.errorCallback with
  | none => exact retains _ listens
  | some called =>
    refine runErrorCallback_sparing closed (retains _ listens) fun c same => ?_
    exact orderly.sound.session_called here (.inr (.inr (callback.trans (congrArg some same))))

theorem writable_sparing (orderly : Orderly s) (listens : s.Listens)
    (here : s.net.sockets i = some sock) (fine : ¬ (events.error ∨ events.hangup))
    (writable : events.output) :
    Ensures (socketCallback events i s) (fun _ s' => s'.Listens) Sparing := by
  rw [socketCallback_output fine writable here]
  unfold sockWritable
  rw [onNet_bind, bind_assoc, run_bind_ok (onNet_run (getSocket_run here))]
  cases status : sock.status with
  | idle | listening => exact listens
  | connected =>
    rw [ensures_bind, onNet, ensures_part]
    exact (sockFlushData_sparing orderly.tidy here status).mono (fun _ _ retains => retains _ listens)
      fun _ => id
  | connecting =>
    have told : ∀ s₁ : Server Iks, Orderly s₁ → s₁.Listens → s₁.clients = s.clients →
        Ensures (sock.connectCallback.elim (pure ()) (runConnectCallback s.oracle.socketError) s₁)
          (fun _ s' => s'.Listens) Sparing := by
      intro s₁ orderly₁ listens₁ clients
      cases callback : sock.connectCallback with
      | none => exact listens₁
      | some called =>
        refine runConnectCallback_sparing orderly₁ listens₁ _ fun c same => ?_
        rw [clients]
        exact orderly.sound.session_called here (.inr (.inl (callback.trans (congrArg some same))))
    dsimp only
    split
    · have keeps : s.net.wire.Keeps (s.net.setSocket i (some { sock with status := .idle })).wire :=
        Wire.Keeps.put here ⟨rfl, .inr (.inl rfl)⟩
      rw [run_bind_ok (onNet_run (modifySocket_run here _)), if_pos rfl]
      exact told _ (orderly.net keeps (orderly.tidy.refuse here)) (Table.isSome_update listens) rfl
    · have keeps : s.net.wire.Keeps
          (s.net.setSocket i (some { sock with status := .connected })).wire :=
        Wire.Keeps.put here ⟨rfl, .inr (.inr ⟨rfl, status, rfl⟩)⟩
      rw [ensures_bind, onNet, ensures_part]
      refine (complete_sparing orderly.tidy here status).mono ?_ fun _ => id
      rintro _ net ⟨wire, tidy, retains⟩
      rw [if_pos rfl]
      exact told _ (orderly.net (wire ▸ keeps) tidy) (retains _ listens) rfl

theorem readable_sparing (orderly : Orderly s) (listens : s.Listens)
    (here : s.net.sockets i = some sock) (fine : ¬ (events.error ∨ events.hangup))
    (unwritable : ¬ events.output) (readable : events.input) :
    Ensures (socketCallback events i s) (fun _ s' => s'.Listens) Sparing := by
  have unread : Ensures (onNet (smDelEvents sock.si .epollIn) s) (fun _ s' => s'.Listens) Sparing := by
    have ignored := sockIgnore_sparing orderly.tidy (Option.isSome_of_mem here)
    unfold sockIgnore at ignored
    rw [run_bind_ok (getSocket_run here)] at ignored
    rw [onNet, ensures_part]
    exact ignored.mono (fun _ _ retains => retains _ listens) fun _ => id
  unfold socketCallback
  rw [run_bind_ok (onNet_run (getSocket_run here)), run_get, if_neg fine, if_neg unwritable,
    if_pos readable]
  cases sock.status with
  | idle | connecting => exact listens
  | listening =>
    cases sock.acceptCallback with
    | none => exact unread
    | some accept => exact hsAccept_sparing orderly.tidy listens
  | connected =>
    cases callback : sock.dataCallback with
    | none => exact unread
    | some called =>
      cases called with
      | hcRead h => exact hcRead_sparing orderly listens
      | jcReadJabber c =>
        exact jcReadJabber_sparing orderly listens (orderly.sound.session_called here (.inl callback))

theorem socketCallback_sparing (orderly : Orderly s) (listens : s.Listens)
    (here : s.net.sockets i = some sock) :
    Ensures (socketCallback events i s) (fun _ s' => s'.Listens) Sparing := by
  by_cases broken : events.error ∨ events.hangup
  · exact broken_sparing orderly listens here broken
  by_cases writable : events.output
  · exact writable_sparing orderly listens here broken writable
  by_cases readable : events.input
  · exact readable_sparing orderly listens here broken writable readable
  -- nothing has happened
  unfold socketCallback
  rw [run_bind_ok (onNet_run (getSocket_run here)), run_get, if_neg broken, if_neg writable,
    if_neg readable]
  exact listens

end Socket

theorem smDispatch_sparing (orderly : Orderly s) (listens : s.Listens) {event : InfoId × Events}
    (recorded : (s.net.infos event.1).isSome) :
    Ensures (smDispatch event s) (fun _ s' => s'.Listens) Sparing := by
  obtain ⟨info, record⟩ := Option.isSome_iff_exists.mp recorded
  have looks : smTarget event.1 s.net =
      .ok (info.callback.map fun callback => (callback, info.userData), s.net) := by
    unfold smTarget
    rw [run_bind_ok (getInfo_run record)]
    rfl
  unfold smDispatch
  rw [run_bind_ok (onNet_run looks)]
  cases called : info.callback with
  | none => exact listens
  | some callback =>
    rw [called] at looks
    obtain ⟨i, sock, target, here, -⟩ := orderly.tidy.target looks
    rw [Option.map_some, target]
    cases callback
    exact socketCallback_sparing orderly listens here

omit [Iksemel Iks] in
theorem jbWait_run (sound : Sound s) (ready : List (Int × Events)) :
    jbWait ready s = checked (epollWait ready s.net) s.ticked := by
  have live : ∀ c ∈ Chain.values s.jabberConnections, (s.ticked.clients c).isSome :=
    fun c listed => sound.mem_jabberConnections.mp listed
  obtain ⟨least, closest, -⟩ := jbClosest_least (s := s.ticked) s.now live s.sessionTimeout
  unfold jbWait jbClosestTimeout
  rw [bind_assoc, run_get, bind_assoc, run_bind_ok (getTime_run s), run_bind_ok closest]
  rfl

omit [Iksemel Iks] in
theorem jbWait_sparing (orderly : Orderly s) (listens : s.Listens) (ready : List (Int × Events)) :
    Ensures (jbWait ready s) (fun _ s' => s'.Listens) Sparing := by
  rw [jbWait_run orderly.sound, ensures_checked]
  exact ⟨fun _ _ => listens, fun fault failed => epollWait_error failed ▸ nofun⟩

theorem closeClients_sparing (fuel : Nat) (orderly : Orderly s) (listens : s.Listens) :
    Ensures (closeClients fuel s) (fun _ s' => Orderly s' ∧ s'.Listens) Sparing := by
  induction fuel generalizing s with
  | zero => exact nofun
  | succ fuel ih =>
    unfold closeClients
    rw [run_get]
    cases listed : s.jabberConnections with
    | nil => exact ⟨orderly, listens⟩
    | cons cell rest =>
      have live : (s.clients cell.2).isSome :=
        orderly.sound.mem_jabberConnections.mp (by simp [listed, Chain.values])
      rw [ensures_bind]
      refine (jbCloseClient_sparing orderly listens live).mono ?_ fun _ => id
      rintro _ s₁ ⟨-, orderly₁, listens₁⟩
      exact ih orderly₁ listens₁

theorem hcDelete_orderly (orderly : Orderly s) (live : (s.connections h).isSome) :
    Ensures (hcDelete h s) (fun _ s' => Orderly s' ∧ s'.serverSock = s.serverSock)
      fun _ => True := by
  have sim : Sim (Assumed.of False False) ({}, s) (hcDelete h s) _ :=
    hcDelete_sim (fun absent => by simp [absent] at live) rfl rfl rfl (.inl rfl)
  exact ((orderly.of_sim sim (tidy_lasting.durable.deleteConnection h)).both
    (serverSock_of_sim sim)).mono (fun _ _ => id) fun _ _ => trivial

theorem deleteConnections_sparing (fuel : Nat) (orderly : Orderly s) (listens : s.Listens) :
    Ensures (deleteConnections fuel s) (fun _ s' => Orderly s' ∧ s'.Listens ∧
      s'.serverSock = s.serverSock) Sparing := by
  induction fuel generalizing s with
  | zero => exact nofun
  | succ fuel ih =>
    unfold deleteConnections
    rw [run_get]
    cases listed : s.httpConnections with
    | nil => exact ⟨orderly, listens, rfl⟩
    | cons cell rest =>
      have live : (s.connections cell.2).isSome :=
        orderly.sound.mem_httpConnections.mp (by simp [listed, Chain.values])
      rw [ensures_bind]
      refine ((hcDelete_sparing orderly listens).both (hcDelete_orderly orderly live)).mono ?_
        fun _ => And.left
      rintro _ s₁ ⟨listens₁, orderly₁, same⟩
      refine (ih orderly₁ listens₁).mono ?_ fun _ => id
      rintro _ s' ⟨orderly', listens', same'⟩
      exact ⟨orderly', listens', same'.trans same⟩

theorem jbDelete_sparing (orderly : Orderly s) (listens : s.Listens) :
    Ensures (jbDelete s) (fun _ _ => True) Sparing := by
  unfold jbDelete hsDelete
  rw [run_get, ensures_bind]
  refine (closeClients_sparing _ orderly listens).mono ?_ fun _ => id
  rintro _ s₁ ⟨orderly₁, listens₁⟩
  rw [run_get, ensures_bind]
  refine (deleteConnections_sparing _ orderly₁ listens₁).mono ?_ fun _ => id
  rintro _ s₂ ⟨orderly₂, listens₂, same⟩
  rw [onNet, ensures_part, ← same]
  exact sockDelete_sparing orderly₂.tidy listens₂

section Runs
variable {r r' : Configuration Iks} {input : Input Iks}

/-- Nothing that the rest of a run reaches has been freed. -/
structure Intact (r : Configuration Iks) : Prop where
  orderly : Orderly r.server
  listens : r.control ≠ .finished → r.server.Listens
  /-- The records of the events that are still to be looked at. -/
  recorded : ∀ events, r.control = .dispatching events →
    ∀ event ∈ events, (r.server.net.infos event.1).isSome

omit [Iksemel Iks] in
theorem call_sparing {α : Type} {program : ServerM Iks α} {oracle : Oracle Iks} {s : Server Iks}
    {post : Server Iks → Prop} (next : α × Server Iks → Configuration Iks)
    (spares : Ensures (program (s.hear oracle)) (fun _ s' => post s') Sparing) :
    (call program oracle s).map next ≠ .error .useAfterFree ∧
      ∀ r', (call program oracle s).map next = .ok r' → ∃ result, r' = next result ∧ post result.2 := by
  unfold call
  cases ran : program (s.hear oracle) with
  | error fault =>
    refine ⟨fun freed => spares.of_error ran (Except.error.inj freed), ?_⟩
    rintro r' ended
    cases ended
  | ok result =>
    refine ⟨(nomatch ·), ?_⟩
    rintro r' ended
    cases ended
    exact ⟨result, rfl, spares.of_ok ran⟩

theorem Intact.step (intact : Intact r) (input : Input Iks) :
    Bosh.step input r ≠ .error .useAfterFree ∧
      ∀ r', Bosh.step input r = .ok r' → r'.control ≠ .finished → r'.server.Listens := by
  obtain ⟨s, control⟩ := r
  have heard : ∀ oracle, Orderly (s.hear oracle) := intact.orderly.hear
  have running : ∀ {α : Type} {program : ServerM Iks α} {oracle : Oracle Iks}
      (next : α × Server Iks → Configuration Iks), (∀ result, (next result).server = result.2) →
      Ensures (program (s.hear oracle)) (fun _ s' => s'.Listens) Sparing →
      (call program oracle s).map next ≠ .error .useAfterFree ∧ ∀ r',
        (call program oracle s).map next = .ok r' → r'.control ≠ .finished → r'.server.Listens := by
    intro α program oracle next same spares
    obtain ⟨spared, ends⟩ := call_sparing next spares
    refine ⟨spared, fun r' done _ => ?_⟩
    obtain ⟨result, rfl, listens⟩ := ends r' done
    rwa [same]
  unfold Bosh.step
  split
  · rename_i oracle ready polling
    obtain rfl : control = _ := polling
    exact running _ (fun _ => rfl) (jbWait_sparing (heard oracle) (intact.listens (by simp)) ready)
  · rename_i oracle event events dispatching
    obtain rfl : control = _ := dispatching
    exact running _ (fun _ => rfl) (smDispatch_sparing (heard oracle) (intact.listens (by simp))
      (intact.recorded _ rfl event (.head _)))
  · rename_i oracle dispatched
    obtain rfl : control = _ := dispatched
    exact running _ (fun _ => rfl) (jbCheckTimeout_sparing (heard oracle) (intact.listens (by simp)))
  · rename_i oracle polling
    obtain rfl : control = _ := polling
    obtain ⟨spared, ends⟩ := call_sparing (fun result => ⟨result.2, .finished⟩)
      (jbDelete_sparing (heard oracle) (intact.listens (by simp)))
    refine ⟨spared, fun r' done left => ?_⟩
    obtain ⟨result, rfl, -⟩ := ends r' done
    exact absurd rfl left
  · exact ⟨fun failed => (nomatch failed), fun r' done => (nomatch done)⟩

theorem step_infos (done : Bosh.step input r = .ok r') {si : InfoId}
    (there : (r.server.net.infos si).isSome) : (r'.server.net.infos si).isSome := by
  have persistent := (recorded_elementary si).persistent
  exact persistent.durable.step_keeps (fun _ => there) (fun _ _ => jbCheckTimeout_keeps persistent) done

/-- The kernel reports events for records only. -/
theorem step_recorded (intact : Intact r) (done : Bosh.step input r = .ok r') :
    ∀ events, r'.control = .dispatching events →
      ∀ event ∈ events, (r'.server.net.infos event.1).isSome := by
  intro events pending event listed
  refine step_infos done ?_
  obtain ⟨s, control⟩ := r
  unfold Bosh.step at done
  split at done
  · rename_i oracle ready polling
    unfold call at done
    rw [jbWait_run (intact.orderly.hear oracle).sound] at done
    unfold checked at done
    cases reported : epollWait ready (s.hear oracle).net with
    | error fault =>
      rw [reported] at done
      cases done
    | ok reports =>
      rw [reported] at done
      cases done
      cases pending
      obtain ⟨fd, mask, watched⟩ := epollWait_watched reported event listed
      have monitored := intact.orderly.tidy.monitored
      obtain ⟨info, record, -⟩ := (monitored.hashed _ _).mp (monitored.watched fd _ watched)
      exact Option.isSome_of_mem record
  · rename_i oracle first rest dispatching
    obtain rfl : control = _ := dispatching
    cases ran : call (smDispatch first) oracle s with
    | error fault =>
      rw [ran] at done
      cases done
    | ok result =>
      rw [ran] at done
      cases done
      cases pending
      exact intact.recorded _ rfl event (.tail _ listed)
  · rename_i oracle dispatched
    cases ran : call jbCheckTimeout oracle s with
    | error fault =>
      rw [ran] at done
      cases done
    | ok result =>
      rw [ran] at done
      cases done
      cases pending
  · rename_i oracle polling
    cases ran : call jbDelete oracle s with
    | error fault =>
      rw [ran] at done
      cases done
    | ok result =>
      rw [ran] at done
      cases done
      cases pending
  · cases done

theorem start_polling {boot : Boot Iks} (began : start boot = .ok (some r)) : r.control = .polling := by
  unfold start at began
  split at began
  · cases began
  · cases began
  · cases began
    rfl

theorem Reaches.intact {admitted : Configuration Iks → Input Iks → Prop}
    (run : Reaches admitted r) : Intact r := by
  induction run with
  | start began =>
    have run : Reaches admitted _ := .start began
    refine ⟨run.orderly, fun _ => start_listens began, ?_⟩
    intro events pending
    rw [start_polling began] at pending
    cases pending
  | @step r r' input before allowed done ih =>
    exact ⟨(before.step allowed done).orderly, (ih.step input).2 r' done, step_recorded ih done⟩

/-- While no request arrives on a connection that holds one for another session, no step reaches a
session, a connection, a socket, a record of the monitor or a list node that has been freed; and
the server's own socket is there until the server shuts down. -/
theorem memory_safe (run : Reaches NoOverlap r) :
    (∀ input, NoOverlap r input → Bosh.step input r ≠ .error .useAfterFree ∧
      Bosh.step input r ≠ .error .deletedConnection) ∧
      (r.control ≠ .finished → (r.server.net.sockets r.server.serverSock).isSome) :=
  ⟨fun input allowed => ⟨(run.intact.step input).1, run.step_undeleted allowed⟩, run.intact.listens⟩

theorem memory_safe_closed : ∃ r : Configuration Sample, r.server.holding 0 = some 1 ∧
    Bosh.step (.event { arrivals := [{ result := .data [] }] }) r ≠ .error .useAfterFree ∧
    Bosh.step (.event { arrivals := [{ result := .data [] }] }) r ≠ .error .deletedConnection := by
  have found : (replay NoOverlap Sample.boot (Sample.held ++ [.wait {} [(4, .epollIn)]])).any
      fun r => r.server.holding 0 = some 1 ∧
        NoOverlap r (.event { arrivals := [{ result := .data [] }] }) := by decide +kernel
  obtain ⟨r, run, held, allowed⟩ := Sample.exists_reached found
  exact ⟨r, held, (memory_safe run).1 _ allowed⟩

end Runs

end Bosh
