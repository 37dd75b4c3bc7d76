import Bosh.Library.Ledger
import Bosh.Server.Elementary
import Bosh.Server.Sockets

/-! Descriptors: which socket has which, and which the kernel has open. -/
namespace Bosh
open Effect Text

def Socket.descriptor (sock : Socket) : Option Int := if sock.fd = -1 then none else some sock.fd

theorem Socket.descriptor_shut {sock : Socket} (shut : sock.fd = -1) : sock.descriptor = none :=
  if_pos shut

theorem Socket.descriptor_open {sock : Socket} (opened : sock.fd ≠ -1) :
    sock.descriptor = some sock.fd := if_neg opened

def Net.ledger (n : Net) : Ledger.State SocketId Int where
  held i := (n.sockets i).bind Socket.descriptor
  taken := n.openFds

section Calls
variable {n n' : Net} {busy : Option SocketId} {i : SocketId} {sock sock' : Socket}

theorem ledger_put (here : n.sockets i = some sock) (same : sock'.descriptor = sock.descriptor) :
    (n.setSocket i (some sock')).ledger = n.ledger := by
  have held : (some sock').bind Socket.descriptor = (n.sockets i).bind Socket.descriptor := by
    simpa [here] using same
  simp only [Net.ledger, Net.setSocket, Table.bind_update_same held]

theorem ledger_edit (here : n.sockets i = some sock) (fd : sock'.fd = sock.fd) :
    (n.setSocket i (some sock')).ledger = n.ledger :=
  ledger_put here (by simp [Socket.descriptor, fd])

theorem smAddEvents_ledger (l : Ledger.State SocketId Int) (si : Option InfoId) (events : Events) :
    Keeps (fun n => n.ledger = l) (smAddEvents si events) := by
  refine .bind (getInfo_keeps _) fun record => ?_
  dsimp only
  split
  · exact .pure _
  · refine .bind (.modify fun n same => same) fun _ => .modify fun n same => ?_
    unfold Net.epollMod
    split <;> exact same

theorem smDelEvents_ledger (l : Ledger.State SocketId Int) (si : Option InfoId) (events : Events) :
    Keeps (fun n => n.ledger = l) (smDelEvents si events) := by
  refine .bind (getInfo_keeps _) fun record => ?_
  refine .bind (.modify fun n same => same) fun _ => .modify fun n same => ?_
  unfold Net.epollMod
  split <;> exact same

theorem smAddSocket_ledger (l : Ledger.State SocketId Int) (fd : Int) (i : SocketId) (events : Events) :
    Keeps (fun n => n.ledger = l) (smAddSocket fd .socketCallback i events) := by
  refine .read fun n same => ?_
  extract_lets next
  have later : ∀ si, Keeps (fun n => n.ledger = l) (next si) := fun si => by
    refine .bind (.modify fun n same => same) fun _ => .bind (.modify fun n same => same) fun _ =>
      .bind (.modify fun n same => ?_) fun _ => .pure _
    unfold Net.epollAdd
    split <;> exact same
  split
  · exact .bind (.pure _) later
  · split
    · exact .bind (.throw _) later
    · exact .bind (.set same) fun _ => .bind (.pure _) later

/-- Descriptors are taken and given back. -/
def Net.Trades (n n' : Net) : Prop := Ledger.Steps n.ledger n'.ledger

namespace Net.Trades

theorem of_eq (same : n'.ledger = n.ledger) : n.Trades n' := by
  rw [Net.Trades, same]

theorem single (step : Ledger.Step n.ledger n'.ledger) : n.Trades n' := Relation.ReflTransGen.single step

theorem trans {n'' : Net} (first : n.Trades n') (second : n'.Trades n'') : n.Trades n'' :=
  Relation.ReflTransGen.trans first second

theorem keeps {α : Type} {program : NetM α} (trades : n.Trades n')
    (keeps : Keeps (fun n'' => n''.ledger = n'.ledger) program) :
    Ensures (program n') (fun _ n'' => n.Trades n'') fun _ => True :=
  (keeps n' rfl).mono (fun _ _ same => trades.trans (.of_eq same)) fun _ => id

end Net.Trades

theorem sockClose_trades (tidy : n.Tidy busy) (i : SocketId) :
    Ensures (sockClose i n) (fun _ n' => n.Trades n') fun _ => True := by
  cases here : n.sockets i with
  | none =>
    unfold sockClose
    rw [getSocket_missing here]
    trivial
  | some sock =>
    by_cases shut : sock.fd = -1
    · rw [sockClose_run_shut here shut]
      exact .of_eq (ledger_edit here rfl)
    · obtain ⟨si, info, registers⟩ := tidy.registers here shut
      rw [sockClose_run here shut registers]
      have held : n.ledger.held i = some sock.fd := by
        simp [Net.ledger, here, Socket.descriptor_open shut]
      have ledger : (n.unregister i sock si info).ledger =
          ⟨Function.update n.ledger.held i none, Function.update n.ledger.taken sock.fd false⟩ := by
        simp [Net.ledger, Net.unregister, Table.bind_update, Socket.shut, Socket.descriptor_shut]
      exact Net.Trades.single (ledger ▸ .give held)

theorem sockDelete_trades (tidy : n.Tidy none) (i : SocketId) :
    Ensures (sockDelete i n) (fun _ n' => n.Trades n') fun _ => True := by
  unfold sockDelete
  rw [ensures_bind]
  refine ((sockClose_trades tidy i).both (sockClose_tidy tidy (only_none i))).mono ?_ fun _ => And.left
  rintro _ n₁ ⟨trades, -, sock, here, shut⟩
  have gone : (n₁.setSocket i none).ledger = n₁.ledger := by
    have held : none.bind Socket.descriptor = (n₁.sockets i).bind Socket.descriptor := by
      simp [here, Socket.descriptor_shut shut]
    simp only [Net.ledger, Net.setSocket, Table.bind_update_same held]
  exact trades.trans (.of_eq gone)

theorem sockFlushData_trades (tidy : n.Tidy busy) (only : Only i busy)
    (here : n.sockets i = some sock) :
    Ensures (sockFlushData i n) (fun _ n' => n.Trades n') fun _ => True := by
  unfold sockFlushData
  rw [run_bind_ok (getSocket_run here), run_get]
  rcases flushQueue sock.outputQueue (n.sends i) with ⟨queue, left, bytes, how⟩
  dsimp only
  rw [ensures_bind, ensures_set]
  have tidy₁ := tidy.sending (Function.update n.sends i left)
    (Function.update n.sent i (n.sent i ++ bytes))
  generalize sent : ({ n with
    sends := Function.update n.sends i left
    sent := Function.update n.sent i (n.sent i ++ bytes) } : Net) = n₁ at tidy₁ ⊢
  have here₁ : n₁.sockets i = some sock := sent ▸ here
  have same₁ : n₁.ledger = n.ledger := sent ▸ rfl
  have tidy₂ : (n₁.setSocket i (some { sock with outputQueue := queue })).Tidy (some i) :=
    tidy₁.edit only here₁ rfl rfl (.inl rfl)
  have same₂ : (n₁.setSocket i (some { sock with outputQueue := queue })).ledger = n.ledger := by
    rw [← same₁]
    exact ledger_edit here₁ rfl
  rw [run_bind_ok (modifySocket_run here₁ _)]
  split
  · exact (sockClose_trades tidy₂ i).mono (fun _ _ trades => .trans (.of_eq same₂) trades) fun _ => id
  · split
    · exact (smDelEvents_ledger _ _ _ _ same₂).mono (fun _ _ same => .of_eq same) fun _ => id
    · exact (smAddEvents_ledger _ _ _ _ same₂).mono (fun _ _ same => .of_eq same) fun _ => id

theorem sockSend_trades (tidy : n.Tidy busy) (only : Only i busy) (buffer : Option Bytes) (len : Nat)
    (more : Bool) : Ensures (sockSend i buffer len more n) (fun _ n' => n.Trades n') fun _ => True := by
  have flushes : ∀ n₁ : Net, n₁.Tidy (some i) → n₁.ledger = n.ledger → (n₁.sockets i).isSome →
      Ensures ((do
        let sock ← getSocket i
        if sock.status = .connected ∧ more = false then sockFlushData i : NetM Unit) n₁)
        (fun _ n' => n.Trades n') fun _ => True := by
    intro n₁ tidy₁ same there
    obtain ⟨sock, here⟩ := Option.isSome_iff_exists.mp there
    rw [run_bind_ok (getSocket_run here)]
    split
    · exact (sockFlushData_trades tidy₁ (only_self i) here).mono
        (fun _ _ trades => .trans (.of_eq same) trades) fun _ => id
    · exact .of_eq same
  cases here : n.sockets i with
  | none =>
    unfold sockSend
    cases buffer with
    | none =>
      dsimp only
      rw [getSocket_missing here]
      trivial
    | some buffer =>
      dsimp only
      rw [run_bind_error (modifySocket_missing here _)]
      trivial
  | some sock =>
    unfold sockSend
    cases buffer with
    | none => exact flushes n (tidy.engage only) rfl (by simp [here])
    | some buffer =>
      dsimp only
      rw [run_bind_ok (modifySocket_run here _)]
      refine flushes _ (tidy.edit only here rfl rfl (.inl rfl)) (ledger_edit here rfl) ?_
      exact Option.isSome_of_mem (Function.update_self ..)

theorem sockSends_trades (tidy : n.Tidy busy) (only : Only i busy) (last : Option Bytes)
    (buffers : List Bytes) :
    Ensures (sockSends i last buffers n) (fun _ n' => n.Trades n') fun _ => True := by
  induction buffers generalizing n busy with
  | nil => exact sockSend_trades tidy only _ _ false
  | cons buffer buffers ih =>
    rw [sockSends, ensures_bind]
    refine ((sockSend_tidy tidy only _ _ true).mono (fun _ _ => id) fun _ _ => trivial).both
      (sockSend_trades tidy only _ _ true) |>.mono ?_ fun _ => And.left
    rintro _ n₁ ⟨⟨queued, -⟩, trades⟩
    exact (ih queued (only_self i)).mono (fun _ _ rest => trades.trans rest) fun _ => id

theorem sockRecv_trades (tidy : n.Tidy none) (i : SocketId) (len : Nat) (answer : RecvResult) :
    Ensures (sockRecv i len answer n) (fun _ n' => n.Trades n') fun _ => True := by
  unfold sockRecv getSocket
  rw [ensures_bind, ensures_demand]
  refine ⟨fun sock here => ?_, fun _ => trivial⟩
  cases answer with
  | again => exact .of_eq rfl
  | fail =>
    rw [ensures_bind]
    exact sockClose_trades tidy i
  | data bytes =>
    dsimp only
    split
    · rw [ensures_bind]
      exact sockClose_trades tidy i
    · exact .of_eq rfl

theorem modifySocket_ledger (l : Ledger.State SocketId Int) (i : SocketId) {f : Socket → Socket}
    (fd : ∀ sock, (f sock).fd = sock.fd) : Keeps (fun n => n.ledger = l) (modifySocket i f) := by
  intro n same
  cases here : n.sockets i with
  | none =>
    rw [modifySocket_missing here]
    trivial
  | some sock =>
    rw [modifySocket_run here]
    exact (ledger_edit here (fd sock)).trans same

theorem ledger_made (n : Net) (fresh : n.sockets n.nextSocket = none) : n.made.ledger = n.ledger := by
  have held : (some initialSocket).bind Socket.descriptor =
      (n.sockets n.nextSocket).bind Socket.descriptor := by
    simp [fresh, Socket.descriptor, initialSocket]
  simp only [Net.ledger, Net.made, Table.bind_update_same held]

theorem Net.Tidy.fresh (tidy : n.Tidy busy) : n.sockets n.nextSocket = none := by
  by_contra there
  exact lt_irrefl _ (tidy.below _ (Option.isSome_iff_ne_none.mpr there))

theorem newFd_trades (answer : Option Nat) :
    Ensures (newFd answer n) (fun fd n' => fd = -1 ∧ n' = n ∨
      fd ≠ -1 ∧ n'.sockets = n.sockets ∧ n'.nextSocket = n.nextSocket ∧
        ∀ (n'' : Net) (i : SocketId) (sock : Socket), n.ledger.held i = none → sock.fd = fd →
          n''.sockets = Function.update n.sockets i (some sock) → n''.openFds = n'.openFds →
          n.Trades n'') fun _ => True := by
  unfold newFd
  cases answer with
  | none => exact .inl ⟨rfl, rfl⟩
  | some fd =>
    rw [ensures_bind, ensures_get]
    split
    · trivial
    · rename_i taken
      have free : n.ledger.taken (fd : Int) = false := by
        change n.openFds fd = false
        simpa using taken
      refine .inr ⟨by omega, rfl, rfl, fun n'' i sock idle same sockets openFds => ?_⟩
      have real : sock.fd ≠ -1 := by omega
      have ledger : n''.ledger = ⟨Function.update n.ledger.held i (some (fd : Int)),
          Function.update n.ledger.taken (fd : Int) true⟩ := by
        simp [Net.ledger, sockets, openFds, Table.bind_update, Socket.descriptor_open real, same]
      exact Net.Trades.single (ledger ▸ .take idle free)

theorem sockAccept_trades (tidy : n.Tidy none) (i : SocketId) (answer : Option Nat) :
    Ensures (sockAccept i answer n) (fun _ n' => n.Trades n') fun _ => True := by
  unfold sockAccept getSocket
  rw [ensures_bind, ensures_demand]
  refine ⟨fun sock here => ?_, fun _ => trivial⟩
  rw [ensures_bind]
  refine (newFd_trades answer).mono ?_ fun _ => id
  rintro fd n₁ (⟨rfl, rfl⟩ | ⟨real, sockets, next, gains⟩)
  · exact .of_eq rfl
  · rw [if_neg real, run_bind_ok sockNew_run, run_bind_ok (modifySocket_run (Net.made_new n₁) _)]
    let client : Socket := { initialSocket with fd, status := .connected }
    have gained : n.Trades (n₁.made.setSocket n₁.nextSocket (some client)) := by
      refine gains _ n.nextSocket client (by simp [Net.ledger, tidy.fresh]) rfl ?_ rfl
      simp [Net.made, sockets, next]
    refine gained.keeps (.bind (smAddSocket_ledger _ _ _ _) fun si => ?_)
    exact .bind (modifySocket_ledger _ _ fun _ => rfl) fun _ => .pure _

/-- A connection attempt that fails late leaves a socket that cannot be deleted. -/
theorem sockConnect_trades {i : SocketId} (new : n.sockets i = some initialSocket) (host : Bytes)
    (port : Int) (answers : ConnectAnswers) :
    Ensures (sockConnect i host port answers n) (fun connected n' => n.Trades n' ∨
      connected = false ∧ ∃ sock, n'.sockets i = some sock ∧ sock.fd ≠ -1 ∧ sock.si = none)
      fun _ => True := by
  have idle : n.ledger.held i = none := by simp [Net.ledger, new, Socket.descriptor, initialSocket]
  unfold sockConnect
  split
  · exact .inl (.of_eq rfl)
  · rw [ensures_bind]
    refine (newFd_trades _).mono ?_ fun _ => id
    rintro fd n₁ (⟨rfl, rfl⟩ | ⟨real, sockets, -, gains⟩)
    · rw [run_bind_ok (modifySocket_run new _), if_pos rfl]
      exact .inl (.of_eq (ledger_edit new rfl))
    · have new₁ : n₁.sockets i = some initialSocket := sockets ▸ new
      have gained : n.Trades (n₁.setSocket i (some { initialSocket with fd })) :=
        gains _ i { initialSocket with fd } idle rfl (by simp [sockets]) rfl
      rw [run_bind_ok (modifySocket_run new₁ _), if_neg real]
      split
      · exact .inr ⟨rfl, _, Function.update_self .., real, rfl⟩
      · refine (gained.keeps (.bind (smAddSocket_ledger _ _ _ _) fun si => ?_)).mono
          (fun _ _ => .inl) fun _ => id
        exact .bind (modifySocket_ledger _ _ fun _ => rfl) fun _ =>
          .bind (modifySocket_ledger _ _ fun _ => rfl) fun _ => .pure _

theorem sockOpen_trades (tidy : n.Tidy none) (host : Bytes) (port : Int) (answers : ConnectAnswers) :
    Ensures (sockOpen host port answers n) (fun _ n' => n.Trades n') fun _ => True := by
  have made : n.Trades n.made := .of_eq (ledger_made n tidy.fresh)
  have new := Net.made_new n
  unfold sockOpen
  rw [run_bind_ok sockNew_run, ensures_bind]
  refine ((sockConnect_trades new host port answers).both
    (sockConnect_tidy tidy.made new host port answers)).mono ?_ fun _ => And.left
  rintro connected n₁ ⟨trades, outcome⟩
  cases connected with
  | true => exact made.trans (trades.resolve_right (by simp))
  | false =>
    have crash : ∀ {sock : Socket}, n₁.sockets n.nextSocket = some sock → sock.fd ≠ -1 →
        sock.si = none → sockDelete n.nextSocket n₁ = .error .nullPointer := sockDelete_crash
    rw [if_neg (by simp)]
    rcases trades with trades | ⟨-, sock, there, stale, unwatched⟩
    · rcases outcome with tidy₁ | ⟨-, sock, there, stale, unwatched⟩
      · rw [ensures_bind]
        exact (sockDelete_trades tidy₁ _).mono (fun _ _ rest => made.trans (trades.trans rest)) fun _ => id
      · rw [run_bind_error (crash there stale unwatched)]
        trivial
    · rw [run_bind_error (crash there stale unwatched)]
      trivial

theorem sockListen_trades (new : n.sockets i = some initialSocket) (port : Int)
    (answers : ListenAnswers) :
    Ensures (sockListen i port answers n) (fun listening n' => listening = true → n.Trades n')
      fun _ => True := by
  have idle : n.ledger.held i = none := by simp [Net.ledger, new, Socket.descriptor, initialSocket]
  unfold sockListen
  rw [ensures_bind]
  refine (newFd_trades _).mono ?_ fun _ => id
  rintro fd n₁ (⟨rfl, rfl⟩ | ⟨real, sockets, -, gains⟩)
  · rw [run_bind_ok (modifySocket_run new _), if_pos rfl]
    exact fun listening => by cases listening
  · have new₁ : n₁.sockets i = some initialSocket := sockets ▸ new
    have gained : n.Trades (n₁.setSocket i (some { initialSocket with fd })) :=
      gains _ i { initialSocket with fd } idle rfl (by simp [sockets]) rfl
    rw [run_bind_ok (modifySocket_run new₁ _), if_neg real]
    split
    · exact fun listening => by cases listening
    · split
      · exact fun listening => by cases listening
      · refine (gained.keeps ?_).mono (fun _ _ trades _ => trades) fun _ => id
        refine .bind (modifySocket_ledger _ _ fun _ => rfl) fun _ => .bind (.demand _ _) fun sock => ?_
        refine .bind (smAddSocket_ledger _ _ _ _) fun si => ?_
        exact .bind (modifySocket_ledger _ _ fun _ => rfl) fun _ => .pure _

theorem sockServe_trades (tidy : n.Tidy none) (port : Int) (answers : ListenAnswers) :
    Ensures (sockServe port answers n) (fun result n' => result.2 = true → n.Trades n') fun _ => True := by
  have made : n.Trades n.made := .of_eq (ledger_made n tidy.fresh)
  unfold sockServe
  rw [run_bind_ok sockNew_run, ensures_bind]
  refine (sockListen_trades (Net.made_new n) port answers).mono ?_ fun _ => id
  exact fun _ _ trades listening => made.trans (trades listening)

theorem sockWritable_trades (tidy : n.Tidy none) (i : SocketId) (errorCode : Int) :
    Ensures (sockWritable i errorCode n) (fun _ n' => n.Trades n') fun _ => True := by
  have keeps : ∀ {program : NetM Unit}, Keeps (fun n' => n'.ledger = n.ledger) program →
      Ensures (program n) (fun _ n' => n.Trades n') fun _ => True := fun keeps =>
    (keeps n rfl).mono (fun _ _ same => .of_eq same) fun _ => id
  unfold sockWritable getSocket
  rw [ensures_bind, ensures_demand]
  refine ⟨fun sock here => ?_, fun _ => trivial⟩
  cases sock.status with
  | idle | listening => exact .of_eq rfl
  | connected => exact sockFlushData_trades tidy (only_none i) here
  | connecting =>
    dsimp only
    split
    · exact keeps (modifySocket_ledger _ _ fun _ => rfl)
    · refine keeps (.bind (modifySocket_ledger _ _ fun _ => rfl) fun _ => ?_)
      split
      · exact smAddEvents_ledger _ _ _
      · exact .pure _

theorem sockIgnore_ledger (l : Ledger.State SocketId Int) (i : SocketId) :
    Keeps (fun n => n.ledger = l) (sockIgnore i) :=
  .bind (.demand _ _) fun _ => smDelEvents_ledger _ _ _

theorem sockSetDataCallback_ledger (l : Ledger.State SocketId Int) (i : SocketId)
    (callback : DataCallback) : Keeps (fun n => n.ledger = l) (sockSetDataCallback i callback) := by
  refine .bind (modifySocket_ledger _ _ fun _ => rfl) fun _ => .bind (.demand _ _) fun sock => ?_
  split
  · exact smAddEvents_ledger _ _ _
  · exact .pure _

theorem sockSetAcceptCallback_ledger (l : Ledger.State SocketId Int) (i : SocketId)
    (callback : AcceptCallback) : Keeps (fun n => n.ledger = l) (sockSetAcceptCallback i callback) := by
  refine .bind (modifySocket_ledger _ _ fun _ => rfl) fun _ => .bind (.demand _ _) fun sock => ?_
  split
  · exact smAddEvents_ledger _ _ _
  · exact .pure _

end Calls

end Bosh
