import Bosh.Server.Lasting
import Bosh.Socket.Drain

/-! The items in the output queues, over runs of the server: each is as long as its buffer. -/
namespace Bosh
open Effect Text

def Net.Sized (n : Net) : Prop :=
  ∀ i sock, n.sockets i = some sock → ∀ item ∈ sock.outputQueue, item.Sized

section Calls
variable {n n' : Net} {i : SocketId}

theorem Net.Sized.wire (sized : n.Sized) (same : n'.wire = n.wire) : n'.Sized := by
  intro j sock there
  rw [← Net.wire_sockets, same] at there
  exact sized j sock there

theorem Net.Sized.put (sized : n.Sized) {sock : Option Socket}
    (queued : ∀ sock' ∈ sock, ∀ item ∈ sock'.outputQueue, item.Sized)
    (same : n'.wire.sockets = Function.update n.sockets i sock) : n'.Sized := by
  intro j sock' there
  rw [← Net.wire_sockets, same] at there
  by_cases mine : j = i
  · rw [mine, Function.update_self] at there
    exact queued sock' there
  · rw [Function.update_of_ne mine] at there
    exact sized j sock' there

theorem Net.Sized.edit (sized : n.Sized) {sock sock' : Socket} (here : n.sockets i = some sock)
    (queue : sock'.outputQueue = sock.outputQueue) (same : n'.wire = n.wire.put i (some sock')) :
    n'.Sized := by
  refine sized.put (fun sock'' mine => ?_) (congrArg Wire.sockets same)
  cases mine
  rw [queue]
  exact sized i sock here

theorem Net.Sized.empty (sized : n.Sized) {sock : Socket} (none : sock.outputQueue = [])
    (same : n'.wire.sockets = Function.update n.sockets i (some sock)) : n'.Sized := by
  refine sized.put (fun sock' mine => ?_) same
  cases mine
  simp [none]

theorem Net.Sized.drop (sized : n.Sized) (same : n'.wire = n.wire.put i none) : n'.Sized :=
  sized.put (fun _ none => by cases none) (congrArg Wire.sockets same)

theorem sockClose_sized (i : SocketId) : Keeps Net.Sized (sockClose i) := by
  intro n sized
  refine (sockClose_shuts i).mono ?_ fun _ _ => trivial
  rintro _ n' ⟨_, sock', -, same, -, -, none⟩
  exact sized.empty none (congrArg Wire.sockets same)

theorem sockDelete_sized (i : SocketId) : Keeps Net.Sized (sockDelete i) := fun _ sized =>
  (sockDelete_deletes i).mono (fun _ _ gone => sized.drop gone.2) fun _ _ => trivial

theorem Net.Sized.outlet (sized : n.Sized) (only : OnlySocket i n.wire n'.wire) {o : Outlet}
    (shown : n'.wire.outlet i = some o) (queued : ∀ item ∈ o.queue, item.Sized) : n'.Sized := by
  intro j sock there
  by_cases mine : j = i
  · subst mine
    rw [outlet_of (w := n'.wire) there, Option.some.injEq] at shown
    rwa [← shown] at queued
  · exact sized j sock ((only.sockets j mine).symm.trans there)

theorem sockSend_sized (i : SocketId) (buffer : Option Bytes) (more : Bool) :
    Keeps Net.Sized (sockSend i buffer ((buffer.map List.length).getD 0) more) := by
  intro n sized
  have gives : Ensures (sockSend i buffer ((buffer.map List.length).getD 0) more n)
      (fun _ n' => ∃ bytes, Gives i bytes n.wire n'.wire) Unrelated := by
    cases buffer with
    | none => exact (sockSend_flush_gives more).mono (fun _ _ gives => ⟨[], gives⟩) fun _ => id
    | some buffer => exact (sockSend_gives i buffer more).mono (fun _ _ gives => ⟨buffer, gives⟩) fun _ => id
  cases here : n.sockets i with
  | none =>
    refine gives.mono ?_ fun _ _ => trivial
    rintro _ n' ⟨_, gives⟩
    obtain ⟨sock, -, there, -⟩ := gives.outcome
    cases here.symm.trans there
  | some sock =>
    have queued := Outlet.step_sized (o := ⟨sock.outputQueue, n.wire.sends i, n.wire.sent i, sock.fd, sock.status⟩)
      (sized i sock here) (.send buffer more)
    refine ((sockSend_outlet buffer more (outlet_of (w := n.wire) here)).both gives).mono ?_ fun _ _ => trivial
    rintro _ n' ⟨shown, _, gives⟩
    exact sized.outlet gives.only shown queued

theorem sockSends_sized (i : SocketId) (last : Option Bytes) (buffers : List Bytes) :
    Keeps Net.Sized (sockSends i last buffers) := by
  induction buffers with
  | nil => exact sockSend_sized i last false
  | cons buffer buffers ih => exact .bind (sockSend_sized i (some buffer) true) fun _ => ih

theorem modifySocket_sized (i : SocketId) {f : Socket → Socket}
    (queue : ∀ sock, (f sock).outputQueue = sock.outputQueue) :
    Keeps Net.Sized (modifySocket i f) := by
  intro n sized
  refine (modifySocket_wire i f).mono ?_ fun _ _ => trivial
  rintro _ n' ⟨sock, here, same⟩
  exact sized.edit here (queue sock) same

theorem smAddEvents_sized (si : Option InfoId) (events : Events) :
    Keeps Net.Sized (smAddEvents si events) :=
  fun _ sized => (smAddEvents_wire si events).mono (fun _ _ same => sized.wire same) fun _ _ => trivial

theorem sockWritable_sized (i : SocketId) (errorCode : Int) :
    Keeps Net.Sized (sockWritable i errorCode) := by
  intro n sized
  unfold sockWritable
  rw [ensures_bind]
  refine (getSocket_spec i).mono ?_ fun _ _ => trivial
  rintro sock n ⟨rfl, here⟩
  cases status : sock.status with
  | idle | listening => exact sized
  | connecting =>
    have put : ∀ status, Keeps Net.Sized (modifySocket i fun sock => { sock with status }) :=
      fun _ =>
      modifySocket_sized i fun _ => rfl
    dsimp only
    split
    · exact put _ n sized
    · refine Keeps.bind (put _) (fun _ => ?_) n sized
      split
      · exact smAddEvents_sized _ _
      · exact .pure _
  | connected =>
    have live : ∀ sock', n.sockets i = some sock' → sock'.status = .connected :=
      fun sock' there => by
      rwa [← Option.some.inj (here.symm.trans there)]
    have queued := Outlet.step_sized (o := ⟨sock.outputQueue, n.sends i, n.sent i, sock.fd, sock.status⟩)
      (sized i sock here) (.send none false)
    rw [Outlet.step_flushed status rfl] at queued
    refine ((sockFlushData_outlet here).both (sockFlushData_gives live)).mono ?_ fun _ _ => trivial
    rintro _ n' ⟨shown, gives⟩
    refine sized.outlet gives.only shown ?_
    simpa [Outlet.queued, SocketOp.items] using queued

theorem sockOpen_sized (host : Bytes) (port : Int) (answers : ConnectAnswers) :
    Keeps Net.Sized (sockOpen host port answers) := by
  intro n sized
  have made : n.made.Sized := sized.empty (rfl : initialSocket.outputQueue = []) rfl
  unfold sockOpen
  rw [run_bind_ok sockNew_run, ensures_bind]
  refine (sockConnect_spec host port answers).mono (fun connected n₁ outcome => ?_) fun _ _ => trivial
  cases connected with
  | true =>
    obtain ⟨sock, fd, si, here, -, same⟩ := outcome
    exact made.edit here (by rfl) same
  | false =>
    obtain ⟨sock, same⟩ := outcome
    rw [if_neg (by simp), ensures_bind]
    refine (sockDelete_deletes _).mono (fun _ n₂ gone => ?_) fun _ _ => trivial
    refine made.drop (i := n.nextSocket) ?_
    rw [gone.2, same, Wire.put_put]

theorem sockServe_sized (n : Net) (port : Int) (answers : ListenAnswers) (sized : n.Sized) :
    Ensures (sockServe port answers n) (fun result n' => result.2 = true → n'.Sized) fun _ => True := by
  have made : n.made.Sized := sized.empty (rfl : initialSocket.outputQueue = []) rfl
  unfold sockServe
  rw [run_bind_ok sockNew_run, ensures_bind]
  refine (sockListen_spec port answers).mono (fun listening n' listens began => ?_) fun _ _ => trivial
  obtain ⟨sock, fd, si, here, -, same⟩ := listens began
  exact made.edit here (by rfl) same

theorem sockAccept_sized (i : SocketId) (answer : Option Nat) :
    Keeps Net.Sized (sockAccept i answer) := by
  intro n sized
  refine (sockAccept_spec answer).mono (fun client n' accepted => ?_) fun _ _ => trivial
  cases client with
  | none => exact sized.wire accepted
  | some client =>
    obtain ⟨-, -, fd, si, -, same⟩ := accepted
    refine sized.empty (i := n.nextSocket) ?_ (congrArg Wire.sockets same)
    rfl

theorem sockRecv_sized (i : SocketId) (len : Nat) (answer : RecvResult) :
    Keeps Net.Sized (sockRecv i len answer) := by
  intro n sized
  refine (sockRecv_spec i len answer).mono ?_ fun _ _ => trivial
  rintro bytes n' ⟨-, rfl | ⟨-, _, sock', -, same, -, -, none⟩⟩
  · exact sized
  · exact sized.empty none (congrArg Wire.sockets same)

theorem sockIgnore_sized (i : SocketId) : Keeps Net.Sized (sockIgnore i) :=
  .bind (.demand _ _) fun _ _ sized =>
    (smDelEvents_wire _ _).mono (fun _ _ same => sized.wire same) fun _ _ => trivial

theorem setCallback_sized (i : SocketId) {f : Socket → Socket} (ready : SocketStatus)
    (queue : ∀ sock, (f sock).outputQueue = sock.outputQueue) : Keeps Net.Sized (do
      modifySocket i f
      let sock ← getSocket i
      if sock.status = ready then smAddEvents sock.si .epollIn) := by
  refine .bind (modifySocket_sized i queue) fun _ => .bind (.demand _ _) fun sock => ?_
  split
  · exact smAddEvents_sized _ _
  · exact .pure _

end Calls

theorem sized_lasting : Lasting Net.Sized where
  blank _ _ _ _ there := by cases there
  hear _ _ sized := sized
  serve := sockServe_sized
  accept := sockAccept_sized
  connect := sockOpen_sized
  receive := sockRecv_sized
  send := sockSends_sized
  writable := sockWritable_sized
  ignore := sockIgnore_sized
  close := sockClose_sized
  delete := sockDelete_sized
  dataCallback i _ := setCallback_sized i .connected fun _ => rfl
  acceptCallback i _ := setCallback_sized i .listening fun _ => rfl
  connectCallback i _ := modifySocket_sized i fun _ => rfl
  errorCallback i _ := modifySocket_sized i fun _ => rfl

end Bosh
