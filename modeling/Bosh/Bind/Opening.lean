import Bosh.Server.Run

/-! What `sock_connect` and `sock_listen` leave behind when they fail. -/
namespace Bosh
open Effect Text

/-- In what `sock_close` goes by, the socket is as `sock_new` made it. -/
def Net.LeftAsNew (i : SocketId) (n : Net) : Prop :=
  ∃ sock, n.sockets i = some sock ∧ sock.fd = initialSocket.fd ∧ sock.si = initialSocket.si ∧
    sock.status = initialSocket.status

/-- `socket` never gives a descriptor that is open already. -/
def Unused (answer : Option Nat) (n : Net) : Prop := ∀ fd, answer = some fd → n.openFds fd = false

/-- The socket can be deleted, and this frees it and does nothing else. -/
def Net.DeletesCleanly (i : SocketId) (n n' : Net) : Prop :=
  sockDelete i n' = .ok ((), n.setSocket i none)

section Socket
variable {n : Net} {i : SocketId}

theorem setSocket_self {sock : Socket} (there : n.sockets i = some sock) :
    n.setSocket i (some sock) = n := by
  rw [Net.setSocket, Function.update_eq_self_iff.mpr there.symm]

theorem sockDelete_run {sock : Socket} (there : n.sockets i = some sock) (fresh : sock.fd = -1) :
    sockDelete i n = .ok ((), n.setSocket i none) := by
  have closed : sockClose i n =
      .ok ((), n.setSocket i (some { sock with outputQueue := [], status := .idle })) := by
    unfold sockClose
    rw [run_bind_ok (getSocket_run there), if_neg (by simp [fresh])]
    exact modifySocket_run there _
  unfold sockDelete
  rw [run_bind_ok closed]
  apply congrArg (fun n' => Except.ok ((), n'))
  simp

theorem newFd_run {fd : Nat} (free : n.openFds fd = false) :
    newFd (some fd) n = .ok ((fd : Int), { n with openFds := Function.update n.openFds fd true }) := by
  have branch : ∀ program : NetM Int, (if n.openFds fd then throw .impossible else program) n =
      program n := fun program => by rw [if_neg (by simp [free])]
  exact branch _

theorem sockConnect_unopened (new : n.sockets i = some initialSocket) {host : Bytes} {port : Int}
    {answers : ConnectAnswers} (unopened : ¬ (answers.resolves host ∧ answers.socket.isSome)) :
    sockConnect i host port answers n = .ok (false, n) := by
  unfold sockConnect
  by_cases resolves : answers.resolves host
  · have nothing : answers.socket = none := by simpa [resolves] using unopened
    rw [if_neg (by simp [resolves]), nothing]
    have nothing : newFd none n = .ok (-1, n) := rfl
    have same : modifySocket i (fun sock => { sock with fd := -1 }) n = .ok ((), n) :=
      (modifySocket_run new _).trans (congrArg (fun n' => Except.ok ((), n')) (setSocket_self new))
    rw [run_bind_ok nothing, run_bind_ok same, if_pos rfl]
    rfl
  · rw [if_pos (by simp [resolves])]
    rfl

/-- The descriptor is closed again, and the socket keeps its number. -/
theorem sockConnect_refused (new : n.sockets i = some initialSocket) {host : Bytes} {port : Int}
    {answers : ConnectAnswers} (unused : Unused answers.socket n) (resolves : answers.resolves host)
    (opened : answers.socket.isSome) (refused : answers.connects host port = false) :
    ∃ n' sock, sockConnect i host port answers n = .ok (false, n') ∧ n'.sockets i = some sock ∧
      sock.fd ≠ -1 ∧ sock.si = none := by
  obtain ⟨fd, answer⟩ := Option.isSome_iff_exists.mp opened
  have made := newFd_run (unused fd answer)
  have set := modifySocket_run (n := { n with openFds := Function.update n.openFds fd true }) new
    fun sock => { sock with fd }
  have opened : (fd : Int) ≠ -1 := by simp
  have ran : sockConnect i host port answers n = .ok (false, (Net.setSocket i
      (some { initialSocket with fd }) { n with openFds := Function.update n.openFds fd true }).close fd) := by
    unfold sockConnect
    rw [if_neg (by simp [resolves]), answer, run_bind_ok made, run_bind_ok set, if_neg opened,
      if_pos (by simp [refused])]
    rfl
  exact ⟨_, _, ran, Function.update_self .., opened, rfl⟩

theorem sockConnect_connected {host : Bytes} {port : Int} {answers : ConnectAnswers}
    (resolves : answers.resolves host) (opened : answers.socket.isSome)
    (connects : answers.connects host port) :
    Ensures (sockConnect i host port answers n) (fun connected _ => connected = true)
      fun _ => True := by
  unfold sockConnect
  rw [if_neg (by simp [resolves]), ensures_bind]
  refine (newFd_wire _).mono ?_ fun _ _ => trivial
  rintro fd n₁ ⟨-, made⟩
  have valid : fd ≠ -1 := fun missing => by simp [made.mpr missing] at opened
  rw [ensures_bind]
  refine (modifySocket_wire _ _).mono (fun _ n₂ _ => ?_) fun _ _ => trivial
  rw [if_neg valid, if_neg (by simp [connects]), ensures_bind]
  refine (smAddSocket_wire _ _ _ _).mono (fun si n₃ _ => ?_) fun _ _ => trivial
  rw [ensures_bind]
  refine (modifySocket_wire _ _).mono (fun _ n₄ _ => ?_) fun _ _ => trivial
  rw [ensures_bind]
  exact (modifySocket_wire _ _).mono (fun _ _ _ => rfl) fun _ _ => trivial

/-- `sock_connect` fails as its caller expects unless `socket` has succeeded before it. -/
theorem sockConnect_left_iff (new : n.sockets i = some initialSocket) (host : Bytes) (port : Int)
    {answers : ConnectAnswers} (unused : Unused answers.socket n) :
    (∀ n', sockConnect i host port answers n = .ok (false, n') →
        n'.LeftAsNew i ∧ n.DeletesCleanly i n') ↔
      ¬ (answers.resolves host ∧ answers.socket.isSome ∧ answers.connects host port = false) := by
  constructor
  · rintro clean ⟨resolves, opened, refused⟩
    obtain ⟨n', sock, ran, there, stale, -⟩ :=
      sockConnect_refused new unused resolves opened refused
    obtain ⟨⟨sock', there', fresh, -⟩, -⟩ := clean n' ran
    obtain rfl := Option.some.inj (there.symm.trans there')
    exact stale fresh
  · intro fine n' ran
    by_cases unopened : answers.resolves host ∧ answers.socket.isSome
    · have connects : answers.connects host port := by simpa [unopened] using fine
      have connected := (sockConnect_connected unopened.1 unopened.2 connects).of_ok ran
      cases connected
    · rw [sockConnect_unopened new unopened] at ran
      cases ran
      exact ⟨⟨initialSocket, new, rfl, rfl, rfl⟩, sockDelete_run new rfl⟩

theorem sockListen_unopened (new : n.sockets i = some initialSocket) {port : Int}
    {answers : ListenAnswers} (unopened : answers.socket = none) :
    sockListen i port answers n = .ok (false, n) := by
  have nothing : newFd none n = .ok (-1, n) := rfl
  have same : modifySocket i (fun sock => { sock with fd := -1 }) n = .ok ((), n) :=
    (modifySocket_run new _).trans (congrArg (fun n' => Except.ok ((), n')) (setSocket_self new))
  unfold sockListen
  rw [unopened, run_bind_ok nothing, run_bind_ok same, if_pos rfl]
  rfl

theorem sockListen_refused (new : n.sockets i = some initialSocket) {port : Int}
    {answers : ListenAnswers} (unused : Unused answers.socket n) (opened : answers.socket.isSome)
    (refused : answers.binds port = false ∨ answers.listens = false) :
    ∃ n' sock, sockListen i port answers n = .ok (false, n') ∧ n'.sockets i = some sock ∧
      sock.fd ≠ -1 ∧ sock.si = none := by
  obtain ⟨fd, answer⟩ := Option.isSome_iff_exists.mp opened
  have made := newFd_run (unused fd answer)
  have set := modifySocket_run (n := { n with openFds := Function.update n.openFds fd true }) new
    fun sock => { sock with fd }
  have opened : (fd : Int) ≠ -1 := by simp
  have ran : sockListen i port answers n = .ok (false, (Net.setSocket i
      (some { initialSocket with fd }) { n with openFds := Function.update n.openFds fd true }).close fd) := by
    unfold sockListen
    rw [answer, run_bind_ok made, run_bind_ok set, if_neg opened]
    by_cases bound : answers.binds port
    · have unheard : answers.listens = false := by simpa [bound] using refused
      rw [if_neg (by simp [bound]), if_pos (by simp [unheard])]
      rfl
    · rw [if_pos bound]
      rfl
  exact ⟨_, _, ran, Function.update_self .., opened, rfl⟩

theorem sockListen_listening {port : Int} {answers : ListenAnswers} (opened : answers.socket.isSome)
    (binds : answers.binds port) (listens : answers.listens) :
    Ensures (sockListen i port answers n) (fun listening _ => listening = true) fun _ => True := by
  unfold sockListen
  rw [ensures_bind]
  refine (newFd_wire _).mono ?_ fun _ _ => trivial
  rintro fd n₁ ⟨-, made⟩
  have valid : fd ≠ -1 := fun missing => by simp [made.mpr missing] at opened
  rw [ensures_bind]
  refine (modifySocket_wire _ _).mono (fun _ n₂ _ => ?_) fun _ _ => trivial
  rw [if_neg valid, if_neg (by simp [binds]), if_neg (by simp [listens]), ensures_bind]
  refine (modifySocket_wire _ _).mono (fun _ n₃ _ => ?_) fun _ _ => trivial
  rw [ensures_bind]
  refine (getSocket_spec _).mono (fun sock n₄ _ => ?_) fun _ _ => trivial
  rw [ensures_bind]
  refine (smAddSocket_wire _ _ _ _).mono (fun si n₅ _ => ?_) fun _ _ => trivial
  rw [ensures_bind]
  exact (modifySocket_wire _ _).mono (fun _ _ _ => rfl) fun _ _ => trivial

theorem sockListen_left_iff (new : n.sockets i = some initialSocket) (port : Int)
    {answers : ListenAnswers} (unused : Unused answers.socket n) :
    (∀ n', sockListen i port answers n = .ok (false, n') →
        n'.LeftAsNew i ∧ n.DeletesCleanly i n') ↔
      ¬ (answers.socket.isSome ∧ (answers.binds port = false ∨ answers.listens = false)) := by
  constructor
  · rintro clean ⟨opened, refused⟩
    obtain ⟨n', sock, ran, there, stale, -⟩ := sockListen_refused new unused opened refused
    obtain ⟨⟨sock', there', fresh, -⟩, -⟩ := clean n' ran
    obtain rfl := Option.some.inj (there.symm.trans there')
    exact stale fresh
  · intro fine n' ran
    cases answer : answers.socket with
    | none =>
      rw [sockListen_unopened new answer] at ran
      cases ran
      exact ⟨⟨initialSocket, new, rfl, rfl, rfl⟩, sockDelete_run new rfl⟩
    | some fd =>
      rw [answer] at fine
      simp only [Option.isSome_some, true_and, not_or, Bool.not_eq_false] at fine
      have listening := (sockListen_listening (by simp [answer]) fine.1 fine.2).of_ok ran
      cases listening

end Socket

section Session
variable {Iks : Type} [Iksemel Iks] {s : Server Iks} {h : ConnectionId} {body : Iks}

def Net.spent (n : Net) : Net :=
  { n with
    sockets := Function.update n.sockets n.nextSocket none
    nextSocket := n.nextSocket + 1 }

/-- What a body must have for `jb_connect_client` to get as far as `sock_connect`, and the
host it names. -/
structure Creates (body : Iks) (host : CString) : Prop where
  wait : (Iksemel.findAttrib body "wait").isSome
  host : Iksemel.findAttrib body "to" = some host
  rid : (Iksemel.findAttrib body "rid").isSome

variable {host : CString}

theorem jbConnectClient_run (creates : Creates body host) (parser : s.oracle.parser = true)
    {n : Net} (failed : sockConnect s.net.nextSocket host.bytes s.jabberPort s.oracle.connect s.net.made =
      .ok (false, n)) :
    jbConnectClient h body s = (do
      onNet (sockDelete s.net.nextSocket)
      jcReportError h .connectionFailed : ServerM Iks Unit) { s with net := n } := by
  obtain ⟨wait, found⟩ := Option.isSome_iff_exists.mp creates.wait
  obtain ⟨rid, given⟩ := Option.isSome_iff_exists.mp creates.rid
  have read : (get : ServerM Iks (Server Iks)) s = .ok (s, s) := rfl
  have connected : onNet (sockConnect s.net.nextSocket host.bytes s.jabberPort s.oracle.connect)
      { s with net := s.net.made } = .ok (false, { s with net := n }) := onNet_run failed
  unfold jbConnectClient
  simp only [found, creates.host, given]
  rw [run_bind_ok read, if_neg (by simp [parser]), run_bind_ok (onNet_run sockNew_run),
    run_bind_ok connected]
  rfl

/-- A creation that opens no descriptor reports the error and leaves all else as it was. -/
theorem jbConnectClient_unopened (creates : Creates body host) (parser : s.oracle.parser = true)
    (unopened : ¬ (s.oracle.connect.resolves host.bytes ∧ s.oracle.connect.socket.isSome)) :
    jbConnectClient h body s = jcReportError h .connectionFailed { s with net := s.net.spent } := by
  have new : s.net.made.sockets s.net.nextSocket = some initialSocket := Function.update_self ..
  have deleted : onNet (sockDelete s.net.nextSocket) { s with net := s.net.made } =
      .ok ((), { s with net := s.net.spent }) := by
    apply (onNet_run (sockDelete_run new rfl)).trans
    simp [Net.made, Net.spent]
  rw [jbConnectClient_run creates parser (sockConnect_unopened new unopened), run_bind_ok deleted]

/-- One whose descriptor could be made but not connected ends in a null pointer. -/
theorem jbConnectClient_refused (creates : Creates body host) (parser : s.oracle.parser = true)
    (unused : Unused s.oracle.connect.socket s.net)
    (resolves : s.oracle.connect.resolves host.bytes) (opened : s.oracle.connect.socket.isSome)
    (refused : s.oracle.connect.connects host.bytes s.jabberPort = false) :
    jbConnectClient h body s = .error .nullPointer := by
  have new : s.net.made.sockets s.net.nextSocket = some initialSocket := Function.update_self ..
  obtain ⟨n, sock, failed, there, stale, unwatched⟩ :=
    sockConnect_refused (n := s.net.made) new unused resolves opened refused
  rw [jbConnectClient_run creates parser failed]
  exact run_bind_error (onNet_error (sockDelete_crash there stale unwatched))

/-- An open that fails leaves a socket that its caller can delete if and only if `socket` has
not succeeded before the failure. The creation of a session then ends with one response and
the monitor as it was. -/
theorem failed_open_iff {n : Net} {i : SocketId} (new : n.sockets i = some initialSocket)
    (port : Int) :
    (∀ host answers, Unused answers.socket n →
      ((∀ n', sockConnect i host port answers n = .ok (false, n') →
          n'.LeftAsNew i ∧ n.DeletesCleanly i n') ↔
        ¬ (answers.resolves host ∧ answers.socket.isSome ∧ answers.connects host port = false))) ∧
    (∀ answers, Unused answers.socket n →
      ((∀ n', sockListen i port answers n = .ok (false, n') →
          n'.LeftAsNew i ∧ n.DeletesCleanly i n') ↔
        ¬ (answers.socket.isSome ∧ (answers.binds port = false ∨ answers.listens = false)))) ∧
    ∀ (s : Server Iks) h body host n', Creates body host → s.oracle.parser = true →
      Unused s.oracle.connect.socket s.net →
      sockConnect s.net.nextSocket host.bytes s.jabberPort s.oracle.connect s.net.made =
        .ok (false, n') →
      jcReportError h .connectionFailed { s with net := s.net.spent } ≠ .error .nullPointer →
      ((jbConnectClient h body s = jcReportError h .connectionFailed { s with net := s.net.spent } ∧
          ∀ s', jbConnectClient h body s = .ok ((), s') →
            s'.history = .answer h .request (errorResponse .connectionFailed) :: s.history) ↔
        ¬ (s.oracle.connect.resolves host.bytes ∧ s.oracle.connect.socket.isSome ∧
          s.oracle.connect.connects host.bytes s.jabberPort = false)) := by
  refine ⟨fun host answers => sockConnect_left_iff new host port,
    fun answers => sockListen_left_iff new port, ?_⟩
  intro s h body host n' creates parser unused failed answerable
  constructor
  · rintro ⟨clean, -⟩ ⟨resolves, opened, refused⟩
    rw [jbConnectClient_refused creates parser unused resolves opened refused] at clean
    exact answerable clean.symm
  · intro fine
    have unopened : ¬ (s.oracle.connect.resolves host.bytes ∧ s.oracle.connect.socket.isSome) := by
      rintro ⟨resolves, opened⟩
      have connects : s.oracle.connect.connects host.bytes s.jabberPort := by
        simpa [resolves, opened] using fine
      have connected := (sockConnect_connected resolves opened connects).of_ok failed
      cases connected
    have clean := jbConnectClient_unopened (h := h) creates parser unopened
    refine ⟨clean, fun s' ran => ?_⟩
    rw [clean] at ran
    obtain ⟨connection, net, -, -, rfl⟩ := (hsAnswerRequest_spec _ _ _ _).of_ok ran
    rfl

end Session

theorem failed_open_unresolved :
    Sample.boot.blank.net.made.LeftAsNew 0 ∧
      Sample.boot.blank.net.made.DeletesCleanly 0 Sample.boot.blank.net.made := by
  have failed : sockConnect 0 (ascii "h") 5222 { resolves := fun _ => false }
      Sample.boot.blank.net.made = .ok (false, Sample.boot.blank.net.made) := rfl
  have left := (@failed_open_iff Sample _ Sample.boot.blank.net.made 0 rfl 5222).1 (ascii "h")
    { resolves := fun _ => false } (by simp [Unused])
  exact left.mpr (by simp) _ failed

/-- The host refuses the connection: the socket keeps the number of the closed descriptor. -/
theorem failed_open_refused :
    ¬ ∀ (n : Net) (i : SocketId) host port answers n', n.sockets i = some initialSocket →
      Unused answers.socket n → sockConnect i host port answers n = .ok (false, n') →
        n'.LeftAsNew i ∧ n.DeletesCleanly i n' := fun claim => by
  let answers : ConnectAnswers := { socket := some 7, connects := fun _ _ => false }
  have unused : Unused answers.socket Sample.boot.blank.net.made := fun _ _ => rfl
  have refused : ∃ n' sock, sockConnect 0 (ascii "h") 5222 answers Sample.boot.blank.net.made =
      .ok (false, n') ∧ n'.sockets 0 = some sock ∧ sock.fd ≠ -1 ∧ sock.si = none :=
    sockConnect_refused rfl unused rfl rfl rfl
  obtain ⟨n', sock, failed, there, stale, -⟩ := refused
  obtain ⟨⟨sock', there', fresh, -⟩, -⟩ := claim _ _ _ _ _ n' rfl unused failed
  obtain rfl := Option.some.inj (there.symm.trans there')
  exact stale fresh

end Bosh
