import Bosh.Server.Simulation

/-! The callbacks of the main loop, and the inputs of a run. -/
namespace Bosh
open Effect Text

variable {Iks : Type} [Iksemel Iks]

def requestOf (events : Events) (i : SocketId) (s : Server Iks) : Option HttpRequest :=
  match s.net.sockets i with
  | none => none
  | some sock =>
    if events.error ∨ events.hangup ∨ events.output ∨ sock.status ≠ .connected then none
    else if events.input then
      match sock.dataCallback with
      | some (.hcRead h) => handed h s
      | _ => none
    else none

def Accepts (events : Events) (i : SocketId) (s : Server Iks) : Prop :=
  ¬ (events.error ∨ events.hangup ∨ events.output) ∧ events.input ∧
    (∃ sock ∈ s.net.sockets i, sock.status = .listening ∧ sock.acceptCallback = some .hsAccept) ∧
    s.oracle.accept ≠ none

instance (events : Events) (i : SocketId) (s : Server Iks) : Decidable (Accepts events i s) :=
  inferInstanceAs (Decidable (_ ∧ _ ∧ _ ∧ _))

/-- The callback looks at the status of its socket before it returns, or at its error. -/
def Notices (events : Events) (sock : Socket) : Prop :=
  (events.error ∨ events.hangup) ∨ (events.output ∧ sock.status = .connecting) ∨
    (¬ events.output ∧ events.input ∧ sock.status = .connected)

inductive Noticed (sock : Socket) (i : SocketId) (s s' : Server Iks) : Prop where
  | readConnection {h : ConnectionId} : sock.dataCallback = some (.hcRead h) →
      (∀ connection x, s'.connections h = some connection →
        s'.net.sockets connection.sock = some x → x.status = .connected) → Noticed sock i s s'
  | readSession {c : ClientId} : sock.dataCallback = some (.jcReadJabber c) →
      (∀ client x, s.clients c = some client → s'.net.sockets client.sock = some x →
        x.status = .connected) → Noticed sock i s s'
  | deleted {h : ConnectionId} : sock.errorCallback = some (.hcHandleError h) →
      s'.connections h = none → Noticed sock i s s'
  | failed {c : ClientId} : sock.errorCallback = some (.jcHandleError c) →
      s'.clients c = none → Noticed sock i s s'
  | refused {c : ClientId} : sock.connectCallback = some (.jcAnswerCreation c) →
      s'.clients c = none → Noticed sock i s s'
  | complete : (∀ x, s'.net.sockets i = some x → x.status = .connected) → Noticed sock i s s'
  | unowned : sock.errorCallback = none ∨ sock.dataCallback = none ∨
      (sock.status = .connecting ∧ sock.connectCallback = none) → Noticed sock i s s'

section Callbacks
variable {a : Assumed} {s : Server Iks}

theorem runErrorCallback_sim {callback : ErrorCallback} {i : SocketId} {sock : Socket}
    (registered : s.net.sockets i = some sock) (calls : sock.errorCallback = some callback) :
    Sim a ({}, s) (runErrorCallback callback s) fun _ p' s' => p' = {} ∧
      (∀ h, callback = .hcHandleError h → s'.connections h = none) ∧
      ∀ c, callback = .jcHandleError c → s'.clients c = none := by
  cases callback with
  | hcHandleError h =>
    refine (hcDelete_sim (fun absent => ?_) rfl rfl rfl (.inl rfl)).mono ?_
    · exact ⟨h, absent, .inr (.inr (.inr (.inr ⟨i, sock, registered, .inr calls⟩)))⟩
    · rintro _ p' s' ⟨rfl, gone, -⟩
      exact ⟨rfl, fun h' same => by cases same; exact gone, nofun⟩
  | jcHandleError c =>
    apply (jbCloseClient_sim rfl (.inl rfl)).mono
    rintro _ p' s' ⟨rfl, clients, -⟩
    exact ⟨rfl, nofun, fun c' same => by cases same; rw [clients, Function.update_self]⟩

theorem runConnectCallback_sim {callback : ConnectCallback} (code : Int) :
    Sim a ({}, s) (runConnectCallback code callback s) fun _ p' s' => p' = {} ∧
      (code ≠ 0 → ∀ c, callback = .jcAnswerCreation c → s'.clients c = none) ∧
      (code = 0 → s' = s) := by
  obtain ⟨c⟩ := callback
  refine Follows.branch (fun failed => ?_) fun fine => ?_
  · apply (jbCloseClient_sim rfl (.inl rfl)).mono
    rintro _ p' s' ⟨rfl, clients, -⟩
    refine ⟨rfl, fun _ c' same => ?_, fun zero => absurd zero failed⟩
    cases same
    rw [clients, Function.update_self]
  · exact Follows.pure ⟨rfl, fun failed => absurd failed fine, fun _ => rfl⟩

/-- What the callback for an event on a socket has seen to when it returns. -/
structure Attended (events : Events) (i : SocketId) (sock : Socket) (s : Server Iks)
    (p' : Phase Iks) (s' : Server Iks) : Prop where
  phase : p' = {}
  noticed : Notices events sock → Noticed sock i s s'
  ended : ∀ request, requestOf events i s = some request → EndsSession request s s'

variable {events : Events} {i : SocketId} {sock : Socket}

theorem broken_sim (found : s.net.sockets i = some sock) (broken : events.error ∨ events.hangup)
    (exposed : a.exposed i) :
    Sim a ({}, s) (socketCallback events i s) fun _ p' s' => Attended events i sock s p' s' := by
  have nothing : requestOf events i s = none := by
    simp [requestOf, found, ← or_assoc, broken]
  unfold socketCallback
  apply Sim.net (getSocket_spec _)
  rintro sock₀ net ⟨rfl, found₀⟩
  obtain rfl := Option.some.inj (found.symm.trans found₀)
  refine Follows.read <| Follows.branch (fun _ => ?_) fun intact => absurd broken intact
  apply Sim.net (sockClose_shuts i)
  intro _ n₁ shut
  apply Follows.step (.move (.shut exposed shut))
  obtain ⟨sock₁, sock', found₁, same, calls, -⟩ := shut
  obtain rfl := Option.some.inj (found.symm.trans found₁)
  have after : n₁.sockets i = some sock' := by
    rw [← Net.wire_sockets, same]
    exact Wire.sockets_put_self _ _ _
  have errorCalls : sock'.errorCallback = sock.errorCallback := congrArg (·.2.2) calls
  cases callback : sock.errorCallback with
  | none => exact Follows.pure ⟨rfl, fun _ => .unowned (.inl callback), by simp [nothing]⟩
  | some callback' =>
    apply (runErrorCallback_sim after (errorCalls.trans callback)).mono
    rintro _ p' s' ⟨rfl, connection, client⟩
    refine ⟨rfl, fun _ => ?_, by simp [nothing]⟩
    cases callback' with
    | hcHandleError h => exact .deleted callback (connection h rfl)
    | jcHandleError c => exact .failed callback (client c rfl)

theorem complete_sim (sock : Socket) (nothing : requestOf events i s = none)
    (fine : s.oracle.socketError = 0) (net : Net) (rest : ServerM Iks Unit)
    (called : rest = pure () ∨ ∃ callback, rest = runConnectCallback s.oracle.socketError callback)
    (same : net.wire = s.net.wire.put i (some { sock with status := .connected })) :
    Sim a ({}, { s with net }) (rest { s with net }) fun _ p' s' =>
      Attended events i sock s p' s' := by
  have complete : Noticed sock i s { s with net } := .complete fun x there => by
    have there : net.wire.sockets i = some x := there
    rw [same, Wire.sockets_put_self, Option.some.injEq] at there
    rw [← there]
  rcases called with rfl | ⟨callback, rfl⟩
  · exact Follows.pure ⟨rfl, fun _ => complete, by simp [nothing]⟩
  · apply (runConnectCallback_sim _).mono
    rintro _ p' s' ⟨rfl, -, same'⟩
    rw [same' fine]
    exact ⟨rfl, fun _ => complete, by simp [nothing]⟩

theorem connecting_sim (found : s.net.sockets i = some sock) (status : sock.status = .connecting)
    (intact : ¬ (events.error ∨ events.hangup)) (writable : events.output) (exposed : a.exposed i) :
    Sim a ({}, s) (socketCallback events i s) fun _ p' s' => Attended events i sock s p' s' := by
  have nothing : requestOf events i s = none := by
    simp [requestOf, found, writable]
  unfold socketCallback
  apply Sim.net (getSocket_spec _)
  rintro sock₀ net ⟨rfl, found₀⟩
  obtain rfl := Option.some.inj (found.symm.trans found₀)
  refine Follows.read <| Follows.branch (fun broken => absurd broken intact) fun _ =>
    Follows.branch (fun _ => ?_) fun unwritable => absurd writable unwritable
  rw [status]
  refine Follows.branch (fun failed => ?_) fun fine => ?_
  · apply Sim.net (modifySocket_wire _ _)
    rintro _ n₁ ⟨sock₁, found₁, same⟩
    obtain rfl := Option.some.inj (found.symm.trans found₁)
    apply Follows.step (.move (same ▸ .refused exposed found status))
    cases callback : sock.connectCallback with
    | none =>
      exact Follows.pure ⟨rfl, fun _ => .unowned (.inr (.inr ⟨status, callback⟩)),
        by simp [nothing]⟩
    | some callback' =>
      apply (runConnectCallback_sim _).mono
      rintro _ p' s' ⟨rfl, client, -⟩
      refine ⟨rfl, fun _ => ?_, by simp [nothing]⟩
      obtain ⟨c⟩ := callback'
      exact .refused callback (client failed c rfl)
  · have complete := complete_sim (a := a) sock nothing (not_not.mp fine)
    apply Sim.net (modifySocket_wire _ _)
    rintro _ n₁ ⟨sock₁, found₁, same⟩
    obtain rfl := Option.some.inj (found.symm.trans found₁)
    apply Follows.step (.move (same ▸ .connected found status))
    -- read events are asked for where there is a data callback, and then the owner is told
    cases sock.connectCallback with
    | none =>
      refine Follows.branch (fun _ => ?_) fun _ => complete n₁ _ (.inl rfl) same
      apply Sim.net (smAddEvents_wire _ _)
      intro _ n₂ same₂
      exact Follows.step (.monitor same₂) (complete n₂ _ (.inl rfl) (same₂.trans same))
    | some callback =>
      refine Follows.branch (fun _ => ?_) fun _ => complete n₁ _ (.inr ⟨callback, rfl⟩) same
      apply Sim.net (smAddEvents_wire _ _)
      intro _ n₂ same₂
      exact Follows.step (.monitor same₂) (complete n₂ _ (.inr ⟨callback, rfl⟩) (same₂.trans same))

theorem writable_sim (found : s.net.sockets i = some sock) (status : sock.status ≠ .connecting)
    (intact : ¬ (events.error ∨ events.hangup)) (writable : events.output) :
    Sim a ({}, s) (socketCallback events i s) fun _ p' s' => Attended events i sock s p' s' := by
  have attended : ∀ s', Attended events i sock s {} s' := fun s' => by
    refine ⟨rfl, fun notices => ?_, ?_⟩
    · simp [Notices, status, intact, writable] at notices
    · simp [requestOf, found, writable]
  unfold socketCallback
  apply Sim.net (getSocket_spec _)
  rintro sock₀ net ⟨rfl, found₀⟩
  obtain rfl := Option.some.inj (found.symm.trans found₀)
  refine Follows.read <| Follows.branch (fun broken => absurd broken intact) fun _ =>
    Follows.branch (fun _ => ?_) fun unwritable => absurd writable unwritable
  cases live : sock.status with
  | connecting => exact absurd live status
  | connected =>
    refine Follows.last <| Sim.net (sockFlushData_gives fun sock₁ found₁ => ?_) fun _ n₁ gives => ?_
    · rw [← Option.some.inj (found.symm.trans found₁)]
      exact live
    · exact Follows.step (.move (.flush gives)) (.pure (attended _))
  | idle => exact Follows.pure (attended _)
  | listening => exact Follows.pure (attended _)

theorem attended_unread (found : s.net.sockets i = some sock)
    (intact : ¬ (events.error ∨ events.hangup)) (unwritable : ¬ events.output)
    (unread : sock.status ≠ .connected ∨ sock.dataCallback = none) (s' : Server Iks) :
    Attended events i sock s {} s' := by
  refine ⟨rfl, fun notices => ?_, fun request handed => ?_⟩
  · rcases unread with other | nobody
    · simp [Notices, intact, unwritable, other] at notices
    · exact .unowned (.inr (.inl nobody))
  · rcases unread with other | nobody
    · simp [requestOf, found, other] at handed
    · simp [requestOf, found, nobody] at handed

theorem readable_sim (found : s.net.sockets i = some sock)
    (intact : ¬ (events.error ∨ events.hangup)) (unwritable : ¬ events.output)
    (readable : events.input) (exposed : Notices events sock → a.exposed i)
    (read : ∀ h connection, sock.dataCallback = some (.hcRead h) →
      s.connections h = some connection → connection.sock = i)
    (owned : ∀ c client, sock.dataCallback = some (.jcReadJabber c) →
      s.clients c = some client → client.sock = i)
    (vacant : a.vacant → Accepts events i s → Vacant s s.oracle.address)
    (alone : a.alone → ∀ request, requestOf events i s = some request → Alone s request) :
    Sim a ({}, s) (socketCallback events i s) fun _ p' s' => Attended events i sock s p' s' := by
  have quiet : ¬ (events.error ∨ events.hangup ∨ events.output) := by
    rw [← or_assoc, not_or]
    exact ⟨intact, unwritable⟩
  have unread := attended_unread found intact unwritable
  unfold socketCallback
  apply Sim.net (getSocket_spec _)
  rintro sock₀ net ⟨rfl, found₀⟩
  obtain rfl := Option.some.inj (found.symm.trans found₀)
  refine Follows.read <| Follows.branch (fun broken => absurd broken intact) fun _ =>
    Follows.branch (fun writable => absurd writable unwritable) fun _ =>
      Follows.branch (fun _ => ?_) fun unreadable => absurd readable unreadable
  cases status : sock.status with
  | listening =>
    have other : sock.status ≠ .connected := by simp [status]
    cases callback : sock.acceptCallback with
    | none =>
      refine Follows.last <| Sim.net (smDelEvents_wire _ _) fun _ net same => ?_
      exact Follows.step (.monitor same) (.pure (unread (.inl other) _))
    | some accept =>
      cases accept
      refine (hsAccept_sim fun assumed answered => vacant assumed ?_).mono ?_
      · exact ⟨quiet, readable, ⟨sock, found, status, callback⟩, answered⟩
      · rintro _ p' s' rfl
        exact unread (.inl other) s'
  | connected =>
    cases callback : sock.dataCallback with
    | none =>
      refine Follows.last <| Sim.net (smDelEvents_wire _ _) fun _ net same => ?_
      exact Follows.step (.monitor same) (.pure (unread (.inr callback) _))
    | some data =>
      have notices : Notices events sock := .inr (.inr ⟨unwritable, readable, status⟩)
      cases data with
      | hcRead h =>
        have known : requestOf events i s = handed h s := by
          simp [requestOf, found, quiet, status, readable, callback]
        rw [known] at alone
        refine (hcRead_sim (fun absent => ?_) rfl rfl rfl rfl rfl rfl ?_ alone).mono ?_
        · exact ⟨h, absent, .inr (.inr (.inr (.inr ⟨i, sock, found, .inl callback⟩)))⟩
        · intro connection here
          rw [read h connection callback here]
          exact exposed notices
        · rintro _ p' s' ⟨rfl, checked, ends⟩
          exact ⟨rfl, fun _ => .readConnection callback checked, known ▸ ends⟩
      | jcReadJabber c =>
        refine (jcReadJabber_sim rfl rfl fun client here => ?_).mono ?_
        · rw [owned c client callback here]
          exact exposed notices
        · rintro _ p' s' ⟨rfl, checked⟩
          refine ⟨rfl, fun _ => .readSession callback checked, fun request handed => ?_⟩
          simp [requestOf, found, callback] at handed
  | idle => exact Follows.pure (unread (.inl (by simp [status])) _)
  | connecting => exact Follows.pure (unread (.inl (by simp [status])) _)

theorem socketCallback_sim
    (exposed : ∀ sock, s.net.sockets i = some sock → Notices events sock → a.exposed i)
    (read : ∀ h connection sock, s.net.sockets i = some sock → sock.dataCallback = some (.hcRead h) →
      s.connections h = some connection → connection.sock = i)
    (owned : ∀ c client sock, s.net.sockets i = some sock → sock.dataCallback = some (.jcReadJabber c) →
      s.clients c = some client → client.sock = i)
    (vacant : a.vacant → Accepts events i s → Vacant s s.oracle.address)
    (alone : a.alone → ∀ request, requestOf events i s = some request → Alone s request) :
    Sim a ({}, s) (socketCallback events i s) fun _ p' s' => p' = {} ∧
      (∀ sock, s.net.sockets i = some sock → Notices events sock → Noticed sock i s s') ∧
      ∀ request, requestOf events i s = some request → EndsSession request s s' := by
  rcases Option.eq_none_or_eq_some (s.net.sockets i) with absent | ⟨sock, found⟩
  · unfold socketCallback
    apply Sim.net (getSocket_spec _)
    rintro sock net ⟨-, found⟩
    simp [absent] at found
  suffices attended : Sim a ({}, s) (socketCallback events i s) fun _ p' s' =>
      Attended events i sock s p' s' by
    apply attended.mono
    rintro _ p' s' ⟨same, noticed, ended⟩
    refine ⟨same, fun sock' found' notices => ?_, ended⟩
    obtain rfl := Option.some.inj (found.symm.trans found')
    exact noticed notices
  by_cases broken : events.error ∨ events.hangup
  · exact broken_sim found broken (exposed sock found (.inl broken))
  by_cases writable : events.output
  · by_cases status : sock.status = .connecting
    · exact connecting_sim found status broken writable (exposed sock found (.inr (.inl ⟨writable, status⟩)))
    · exact writable_sim found status broken writable
  by_cases readable : events.input
  · exact readable_sim found broken writable readable (exposed sock found)
      (fun h connection => read h connection sock found) (fun c client => owned c client sock found)
      vacant alone
  -- nothing has happened
  unfold socketCallback
  apply Sim.net (getSocket_spec _)
  rintro sock₀ net ⟨rfl, found₀⟩
  refine Follows.read <| Follows.branch (fun here => absurd here broken) fun _ =>
    Follows.branch (fun here => absurd here writable) fun _ =>
      Follows.branch (fun here => absurd here readable) fun _ => ?_
  refine Follows.pure ⟨rfl, fun notices => ?_, fun request handed => ?_⟩
  · simp [Notices, broken, writable, readable] at notices
  · simp [requestOf, found, readable] at handed

end Callbacks

section Shutdown
variable {a : Assumed} {s : Server Iks}

theorem closeClients_sim (fuel : Nat) :
    Sim a ({}, s) (closeClients fuel s) fun _ p' s' => p' = {} ∧ s'.jabberConnections = [] := by
  induction fuel generalizing s with
  | zero => exact Sim.fault (by simp)
  | succ fuel ih =>
    unfold closeClients
    apply Follows.read
    cases listed : s.jabberConnections with
    | nil => exact Follows.pure ⟨rfl, listed⟩
    | cons cell rest =>
      apply Follows.bind (jbCloseClient_sim rfl (.inl rfl))
      rintro _ p' s' ⟨rfl, -, -⟩
      exact ih

theorem deleteConnections_sim (fuel : Nat) (closed : s.jabberConnections = []) :
    Sim a ({}, s) (deleteConnections fuel s) fun _ p' s' => p' = {} ∧
      s'.jabberConnections = [] ∧ s'.httpConnections = [] := by
  induction fuel generalizing s with
  | zero => exact Sim.fault (by simp)
  | succ fuel ih =>
    unfold deleteConnections
    apply Follows.read
    cases listed : s.httpConnections with
    | nil => exact Follows.pure ⟨rfl, closed, listed⟩
    | cons cell rest =>
      refine Follows.bind (hcDelete_sim (fun absent => ?_) rfl rfl rfl (.inl rfl)) ?_
      · exact ⟨cell.2, absent, .inr (.inr (.inr (.inl (by simp [Chain.values, listed]))))⟩
      · rintro _ p' s' ⟨rfl, -, same, -⟩
        exact ih (same.trans closed)

theorem jbDelete_sim : Sim a ({}, s) (jbDelete s) fun _ p' _ => p' = {} := by
  unfold jbDelete hsDelete
  refine Follows.read <| Follows.bind (closeClients_sim _) ?_
  rintro _ p₁ s₁ ⟨rfl, closed⟩
  refine Follows.read <| Follows.bind (deleteConnections_sim _ closed) ?_
  rintro _ p₂ s₂ ⟨rfl, closed', deleted⟩
  refine Follows.last <| Sim.net (sockDelete_deletes _) fun _ net gone => ?_
  exact Follows.step (.discard closed' deleted gone) (.pure rfl)

end Shutdown

end Bosh
