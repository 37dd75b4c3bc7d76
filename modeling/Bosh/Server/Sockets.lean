import Bosh.Server.Lasting
import Bosh.Server.Pools

/-! The registry of sockets, over runs of the server: every callback leaves it in order. -/
namespace Bosh
open Effect Text

def Server.Tidy {Iks : Type} (s : Server Iks) : Prop := s.net.Tidy none

section Statuses
variable {n : Net} {i : SocketId} {sock : Socket}

/-- A connecting socket has been registered for write events, whatever it has queued. -/
theorem Net.Tidy.connect (h : n.Tidy none) (here : n.sockets i = some sock)
    (pending : sock.status = .connecting) :
    (n.setSocket i (some { sock with status := .connected })).Tidy none := by
  refine h.put here rfl ?_ fun _ _ => id
  cases h.sockets i sock here with
  | closed _ _ idle =>
    rw [pending] at idle
    cases idle
  | opened opened registers connecting =>
    exact .opened opened { registers with } (fun again => by cases again) fun _ _ _ => connecting pending

theorem Net.Tidy.refuse (h : n.Tidy none) (here : n.sockets i = some sock) :
    (n.setSocket i (some { sock with status := .idle })).Tidy none := by
  have edited : (n.setSocket i (some { sock with status := .idle })).Tidy (some i) :=
    h.edit (only_none i) here rfl rfl (.inr (.inl rfl))
  exact edited.rest (Function.update_self ..) (by simp)

theorem smDelEvents_read (h : n.Tidy none) (here : n.sockets i = some sock) :
    Ensures (smDelEvents sock.si .epollIn n) (fun _ n' => n'.Tidy none) fun _ => True := by
  by_cases opened : sock.fd ≠ -1
  · exact (smDelEvents_tidy h here opened (only_none i) (.inr ⟨rfl, rfl⟩)).mono (fun _ _ => id)
      fun _ _ => trivial
  · cases h.sockets i sock here with
    | closed _ nothing =>
      rw [nothing]
      trivial
    | opened really => exact absurd really opened

end Statuses

theorem sockSends_tidy {busy : Option SocketId} {n : Net} {i : SocketId} (h : n.Tidy busy)
    (only : Only i busy) (last : Option Bytes) (buffers : List Bytes) :
    Ensures (sockSends i last buffers n) (fun _ n' => n'.Tidy none) fun _ => True := by
  induction buffers generalizing n busy with
  | nil => exact (sockSend_tidy h only _ _ false).mono (fun _ _ sent => sent.2 rfl) fun _ _ => trivial
  | cons buffer buffers ih =>
    rw [sockSends, ensures_bind]
    refine (sockSend_tidy h only _ _ true).mono (fun _ n₁ queued => ?_) fun _ _ => trivial
    exact ih queued.1 (only_self i)

theorem sockClose_keeps (i : SocketId) : Keeps (Net.Tidy none) (sockClose i) := fun _ h =>
  (sockClose_tidy h (only_none i)).mono (fun _ _ closed => closed.1) fun _ _ => trivial

theorem sockDelete_keeps (i : SocketId) : Keeps (Net.Tidy none) (sockDelete i) := fun _ h =>
  (sockDelete_tidy h (only_none i)).mono (fun _ _ => id) fun _ _ => trivial

theorem sockOpen_keeps (host : Bytes) (port : Int) (answers : ConnectAnswers) :
    Keeps (Net.Tidy none) (sockOpen host port answers) := by
  intro n tidy
  unfold sockOpen
  rw [run_bind_ok sockNew_run, ensures_bind]
  have connects := sockConnect_tidy tidy.made (Net.made_new n) host port answers
  refine connects.mono (fun connected n₁ outcome => ?_) fun _ => id
  cases connected with
  | true => exact outcome.resolve_right (by simp)
  | false =>
    rw [if_neg (by simp)]
    rcases outcome with tidy₁ | ⟨-, sock, there, stale, unwatched⟩
    · exact (sockDelete_keeps _).bind (fun _ => .pure _) _ tidy₁
    · rw [run_bind_error (sockDelete_crash there stale unwatched)]
      trivial

theorem sockServe_tidy {n : Net} (port : Int) (answers : ListenAnswers) (tidy : n.Tidy none) :
    Ensures (sockServe port answers n) (fun result n' => result.2 = true → n'.Tidy none) fun _ => True := by
  unfold sockServe
  rw [run_bind_ok sockNew_run, ensures_bind]
  exact (sockListen_tidy tidy.made (Net.made_new n) _ _).mono (fun _ _ listens => listens) fun _ => id

theorem sockIgnore_keeps (i : SocketId) : Keeps (Net.Tidy none) (sockIgnore i) := by
  intro n h
  unfold sockIgnore
  rw [ensures_bind]
  refine (getSocket_spec i).mono ?_ fun _ _ => trivial
  rintro sock n ⟨rfl, here⟩
  exact smDelEvents_read h here

theorem sockWritable_keeps (i : SocketId) (errorCode : Int) :
    Keeps (Net.Tidy none) (sockWritable i errorCode) := by
  intro n h
  unfold sockWritable
  rw [ensures_bind]
  refine (getSocket_spec i).mono ?_ fun _ _ => trivial
  rintro sock n ⟨rfl, here⟩
  cases status : sock.status with
  | idle | listening => exact h
  | connected => exact (sockFlushData_tidy h (only_none i) here status).mono (fun _ _ => id) fun _ _ => trivial
  | connecting =>
    dsimp only
    split
    · rw [modifySocket_run here]
      exact h.refuse here
    · have connected := h.connect here status
      have here₁ : (n.setSocket i (some { sock with status := .connected })).sockets i =
          some { sock with status := .connected } := Function.update_self ..
      rw [run_bind_ok (modifySocket_run here _)]
      split
      · exact (smAddEvents_tidy connected here₁ (connected.live here₁ rfl) (only_none i) (.inr rfl)).mono
          (fun _ _ => id) fun _ _ => trivial
      · exact connected

theorem Net.blank_tidy (openFds : Int → Bool) (sends : SocketId → List SendResult) :
    (Net.blank openFds sends).Tidy none where
  monitored := Poll.Fresh.monitored ⟨rfl, rfl, rfl⟩
  below _ there := by simp [Net.blank] at there
  unwatched _ _ := rfl
  sockets _ _ there := by simp [Net.blank] at there
  records _ _ there := by simp [Net.blank] at there
  counted := rfl

theorem tidy_lasting : Lasting (Net.Tidy none) where
  blank := Net.blank_tidy
  hear _ sends h := h.sending sends _
  serve _ port answers h := sockServe_tidy port answers h
  accept _ answer _ h := sockAccept_tidy h answer
  connect := sockOpen_keeps
  receive _ len answer _ h := sockRecv_tidy h len answer
  send i last buffers _ h := sockSends_tidy h (only_none i) last buffers
  writable := sockWritable_keeps
  ignore := sockIgnore_keeps
  close := sockClose_keeps
  delete := sockDelete_keeps
  dataCallback _ callback _ h := sockSetDataCallback_tidy h callback
  acceptCallback _ callback _ h := sockSetAcceptCallback_tidy h callback
  connectCallback _ _ _ h := modifySocket_tidy h fun _ => ⟨rfl, rfl, rfl, rfl⟩
  errorCallback _ _ _ h := modifySocket_tidy h fun _ => ⟨rfl, rfl, rfl, rfl⟩

section Main
variable {Iks : Type} [Iksemel Iks]

theorem Reaches.tidy {admitted : Configuration Iks → Input Iks → Prop} {c : Configuration Iks}
    (run : Reaches admitted c) : c.server.Tidy := run.keeps tidy_lasting

/-- The monitor and the sockets agree on which socket has which descriptor. -/
structure Net.Registry (n : Net) : Prop where
  keys : (n.socketHash.pairs.map Prod.fst).Nodup
  entries : ∀ fd si, (fd, si) ∈ n.socketHash.pairs → ∃ info, n.infos si = some info ∧
    info.socketFd = fd
  opened : ∀ i sock, n.sockets i = some sock → sock.fd ≠ -1 → ∃ si info, sock.si = some si ∧
    n.socketHash.find sock.fd = some si ∧ n.infos si = some info ∧
    info.callback = some .socketCallback ∧ info.userData = some i
  closed : ∀ i sock, n.sockets i = some sock → sock.fd = -1 → sock.si = none
  distinct : ∀ i j sock other, n.sockets i = some sock → n.sockets j = some other → i ≠ j →
    sock.fd ≠ -1 → sock.fd ≠ other.fd
  records : ∀ si info, n.infos si = some info → info.callback ≠ none →
    ∃ i sock, n.sockets i = some sock ∧ sock.fd ≠ -1 ∧ sock.si = some si
  counted : n.socketCount = n.active

theorem Net.Tidy.registry {n : Net} {busy : Option SocketId} (h : n.Tidy busy) : n.Registry where
  keys := h.monitored.distinct
  entries fd si listed :=
    (h.monitored.hashed fd si).mp ((HashTable.find_eq_some_iff h.monitored.distinct).mpr listed)
  opened i sock there real := by
    obtain ⟨si, info, registers⟩ := h.registers there real
    refine ⟨si, info, registers.held, ?_, registers.record, registers.callback, registers.userData⟩
    exact (h.monitored.hashed _ _).mpr ⟨info, registers.record, registers.descriptor⟩
  closed i sock there shut := by
    cases h.sockets i sock there with
    | closed _ nothing => exact nothing
    | opened real => exact absurd shut real
  distinct i j sock other here there apart real same := by
    obtain ⟨si, info, registers⟩ := h.registers here real
    exact (h.apart registers there apart.symm).2 (same ▸ real) same.symm
  records si info there used := by
    obtain ⟨i, sock, here, held⟩ := h.records si info there used
    exact ⟨i, sock, here, (h.of_si here held).1, held⟩
  counted := h.counted

theorem Net.Tidy.target {n n' : Net} {busy : Option SocketId} (h : n.Tidy busy) {si : InfoId}
    {callback : MonitorCallback} {userData : Option SocketId}
    (found : smTarget si n = .ok (some (callback, userData), n')) :
    ∃ i sock, userData = some i ∧ n.sockets i = some sock ∧ sock.si = some si := by
  obtain ⟨-, info, record, target⟩ := (smTarget_record si).of_ok found
  obtain ⟨callback', calls, same⟩ := Option.map_eq_some_iff.mp target.symm
  obtain ⟨i, sock, here, held⟩ := h.records si info record (by simp [calls])
  obtain ⟨-, info', registers⟩ := h.of_si here held
  obtain rfl := Option.some.inj (record.symm.trans registers.record)
  exact ⟨i, sock, (congrArg Prod.snd same).symm.trans registers.userData, here, held⟩

/-- Between callbacks the registry is in order, and the next event of a batch is for a socket
that has not been deleted. -/
theorem socket_registry {c : Configuration Iks} (run : Reachable c) :
    c.server.net.Registry ∧
    ∀ event events, c.control = .dispatching (event :: events) → ∀ callback userData n',
      smTarget event.1 c.server.net = .ok (some (callback, userData), n') →
        ∃ i sock, userData = some i ∧ c.server.net.sockets i = some sock ∧ sock.si = some event.1 :=
  ⟨run.tidy.registry, fun _ _ _ _ _ _ found => run.tidy.target found⟩

theorem socket_registry_held :
    (Sample.reached (fun _ _ => True) Sample.held Sample.held_works).server.net.Registry :=
  (socket_registry Sample.reaches_reached).1

/-- While no request arrives on a connection that holds one for another session, what is queued on
a socket waits for a write event that the kernel is asked for. -/
theorem writes_armed {c : Configuration Iks} (run : Reaches NoOverlap c) {i : SocketId} {sock : Socket}
    (here : c.server.net.sockets i = some sock)
    (live : sock.status = .connecting ∨ sock.status = .connected)
    (waiting : sock.outputQueue ≠ []) :
    ∃ si info, sock.si = some si ∧ c.server.net.infos si = some info ∧ info.events.output = true ∧
      c.server.net.interest sock.fd = some (info.events, si) := by
  cases run.tidy.sockets i sock here with
  | closed _ _ idle =>
    rw [idle] at live
    simp at live
  | opened real registers connecting connected =>
    refine ⟨_, _, registers.held, registers.record, ?_, registers.watched⟩
    rcases live with pending | live
    · exact connecting pending
    · exact connected live waiting (by simp)

/-- The stream header waits for the Jabber server's connection to be complete. -/
theorem writes_armed_held :
    ∃ sock si, ∃ info : SocketInfo, (Sample.reached NoOverlap Sample.held Sample.held_apart).server.net.sockets 2 =
      some sock ∧ sock.status = .connecting ∧ sock.si = some si ∧ info.events.output = true ∧
      (Sample.reached NoOverlap Sample.held Sample.held_apart).server.net.interest sock.fd =
        some (info.events, si) := by
  have known : ((Sample.reached NoOverlap Sample.held Sample.held_apart).server.net.sockets 2).map
      (fun sock => (sock.status, sock.outputQueue.isEmpty)) = some (.connecting, false) := by
    decide +kernel
  obtain ⟨sock, here, shape⟩ := Option.map_eq_some_iff.mp known
  have pending : sock.status = .connecting := congrArg Prod.fst shape
  have waiting : sock.outputQueue ≠ [] := by simpa using congrArg Prod.snd shape
  have run : Reaches NoOverlap (Sample.reached NoOverlap Sample.held Sample.held_apart) :=
    Sample.reaches_reached
  obtain ⟨si, info, held, -, armed, watched⟩ := writes_armed run here (.inl pending) waiting
  exact ⟨sock, si, info, here, pending, held, armed, watched⟩

/-- Session 1 has ended, and its list is that of a new connection's Socket: both parts of the
answer to session 0 wait there, and nothing waits for the descriptor. -/
theorem writes_armed_stale : ∃ p : Process Sample, p.Executes (fun _ _ => True) ∧
    (p.server.net.sockets 6).map (fun sock => (sock.status, sock.outputQueue.length,
      (p.server.net.interest sock.fd).map fun entry => entry.1.output)) =
        some (.connected, 2, some false) :=
  Sample.exists_executed (Sample.orphaned ++ Sample.receive 6 [] {} ++ Sample.joined ++
    Sample.iteration 4 .epollOut {} ++ Sample.receive 4 [] {} ++ Sample.accept 4 2 ++
    Sample.check 9000 fun _ => []) (by decide +kernel)

end Main

end Bosh
