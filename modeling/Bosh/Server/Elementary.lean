import Bosh.Server.Lasting

/-! Whatever property of the network the elementary changes keep, the calls on sockets keep. -/
namespace Bosh
open Effect Text

/-- The network is left in this condition by the changes that the functions of `socket.c` are
made of. -/
structure Elementary (kept : Net → Prop) : Prop where
  newFd : ∀ answer, Keeps kept (newFd answer)
  close : ∀ n fd, kept n → kept (n.close fd)
  addSocket : ∀ fd i events, Keeps kept (smAddSocket fd .socketCallback i events)
  addEvents : ∀ si events, Keeps kept (smAddEvents si events)
  delEvents : ∀ si events, Keeps kept (smDelEvents si events)
  delSocket : ∀ si, Keeps kept (smDelSocket si)
  made : ∀ n, kept n → kept n.made
  edit : ∀ i f, Keeps kept (modifySocket i f)
  forget : ∀ n i, kept n → kept (n.setSocket i none)
  sending : ∀ n sends sent, kept n → kept { n with sends, sent }

namespace Elementary
variable {kept : Net → Prop} (elementary : Elementary kept)
include elementary

theorem sockClose_keeps (i : SocketId) : Keeps kept (sockClose i) := by
  have idle : Keeps kept
      (modifySocket i fun sock => { sock with outputQueue := [], status := .idle }) :=
    elementary.edit _ _
  refine .bind (.demand _ _) fun sock => ?_
  split
  · refine .bind (elementary.delSocket _) fun _ =>
      .bind (.modify fun n => elementary.close n sock.fd) fun _ => ?_
    exact .bind (elementary.edit _ _) fun _ => idle
  · exact idle

theorem sockFlushData_keeps (i : SocketId) : Keeps kept (sockFlushData i) := by
  refine .bind (.demand _ _) fun sock => .read fun n h => ?_
  obtain ⟨queue, left, bytes, how⟩ := flushQueue sock.outputQueue (n.sends i)
  refine .bind (.set (elementary.sending n _ _ h)) fun _ =>
    .bind (elementary.edit _ _) fun _ => ?_
  split
  · exact elementary.sockClose_keeps i
  · split
    · exact elementary.delEvents _ _
    · exact elementary.addEvents _ _

theorem sockSend_keeps (i : SocketId) (buffer : Option Bytes) (len : Nat) (more : Bool) :
    Keeps kept (sockSend i buffer len more) := by
  have flushes : Keeps kept (do
      let sock ← getSocket i
      if sock.status = .connected ∧ more = false then sockFlushData i) := by
    refine .bind (.demand _ _) fun sock => ?_
    split
    · exact elementary.sockFlushData_keeps i
    · exact .pure _
  cases buffer with
  | none => exact flushes
  | some buffer => exact .bind (elementary.edit _ _) fun _ => flushes

theorem sockRecv_keeps (i : SocketId) (len : Nat) (answer : RecvResult) :
    Keeps kept (sockRecv i len answer) := by
  refine .bind (.demand _ _) fun _ => ?_
  cases answer with
  | again => exact .pure _
  | fail => exact .bind (elementary.sockClose_keeps i) fun _ => .pure _
  | data bytes => exact .maybe (elementary.sockClose_keeps i) fun _ => .pure _

theorem sockDelete_keeps (i : SocketId) : Keeps kept (sockDelete i) :=
  .bind (elementary.sockClose_keeps i) fun _ => .modify fun n => elementary.forget n i

theorem sockConnect_keeps (i : SocketId) (host : Bytes) (port : Int) (answers : ConnectAnswers) :
    Keeps kept (sockConnect i host port answers) := by
  unfold sockConnect
  split
  · exact .pure _
  · refine .bind (elementary.newFd _) fun fd => .bind (elementary.edit _ _) fun _ => ?_
    split
    · exact .pure _
    · split
      · exact .bind (.modify fun n => elementary.close n fd) fun _ => .pure _
      · refine .bind (elementary.addSocket _ _ _) fun si =>
          .bind (elementary.edit _ _) fun _ => ?_
        exact .bind (elementary.edit _ _) fun _ => .pure _

theorem sockNew_keeps : Keeps kept sockNew := fun n h => elementary.made n h

theorem persistent : Persistent kept where
  hear n sends := elementary.sending n sends n.sent
  accept i answer := by
    refine .bind (.demand _ _) fun _ => .bind (elementary.newFd _) fun fd => ?_
    split
    · exact .pure _
    · refine .bind elementary.sockNew_keeps fun client =>
        .bind (elementary.edit _ _) fun _ => ?_
      exact .bind (elementary.addSocket _ _ _) fun si =>
        .bind (elementary.edit _ _) fun _ => .pure _
  connect host port answers := by
    refine .bind elementary.sockNew_keeps fun sock =>
      .bind (elementary.sockConnect_keeps sock host port answers) fun connected => ?_
    split
    · exact .pure _
    · exact .bind (elementary.sockDelete_keeps sock) fun _ => .pure _
  receive := elementary.sockRecv_keeps
  send i last buffers := by
    induction buffers with
    | nil => exact elementary.sockSend_keeps _ _ _ _
    | cons buffer buffers ih => exact .bind (elementary.sockSend_keeps _ _ _ _) fun _ => ih
  writable i errorCode := by
    refine .bind (.demand _ _) fun sock => ?_
    cases sock.status with
    | idle | listening => exact .pure _
    | connected => exact elementary.sockFlushData_keeps i
    | connecting =>
      dsimp only
      split
      · exact elementary.edit _ _
      · refine .bind (elementary.edit _ _) fun _ => ?_
        split
        · exact elementary.addEvents _ _
        · exact .pure _
  ignore i := .bind (.demand _ _) fun _ => elementary.delEvents _ _
  close := elementary.sockClose_keeps
  delete := elementary.sockDelete_keeps
  dataCallback i callback := by
    refine .bind (elementary.edit _ _) fun _ => .bind (.demand _ _) fun sock => ?_
    split
    · exact elementary.addEvents _ _
    · exact .pure _
  connectCallback i callback := elementary.edit _ _
  errorCallback i callback := elementary.edit _ _

end Elementary

section Elements
variable {kept : Net → Prop}

theorem getInfo_keeps (si : Option InfoId) : Keeps kept (getInfo si) := by
  cases si with
  | none => exact .throw _
  | some si => exact .bind (.demand _ _) fun _ => .pure _

theorem epollAdd_infos (fd : Int) (events : Events) (si : InfoId) (n : Net) :
    (n.epollAdd fd events si).infos = n.infos := by
  unfold Net.epollAdd
  split <;> rfl

theorem epollMod_infos (fd : Int) (events : Events) (si : InfoId) (n : Net) :
    (n.epollMod fd events si).infos = n.infos := by
  unfold Net.epollMod
  split <;> rfl

theorem recorded_elementary (si : InfoId) : Elementary fun n => (n.infos si).isSome where
  newFd answer := by
    unfold newFd
    split
    · exact .pure _
    · refine .read fun n here => ?_
      split
      · exact .bind (.throw _) fun _ => .bind (.set here) fun _ => .pure _
      · exact .bind (.set here) fun _ => .pure _
  close _ _ here := here
  addSocket fd i events := by
    refine .read fun n here => ?_
    extract_lets next
    have later : ∀ si', Keeps (fun n => (n.infos si).isSome = true) (next si') := fun si' => by
      refine .bind (.modify fun n here => Table.isSome_update here) fun _ =>
        .bind (.modify fun n here => here) fun _ => .bind (.modify fun n here => ?_) fun _ => .pure _
      rwa [epollAdd_infos]
    split
    · exact .bind (.pure _) later
    · split
      · exact .bind (.throw _) later
      · exact .bind (.set here) fun _ => .bind (.pure _) later
  addEvents si' events := by
    refine .bind (getInfo_keeps _) fun record => ?_
    dsimp only
    split
    · exact .pure _
    · refine .bind (.modify fun n here => Table.isSome_update here) fun _ =>
        .modify fun n here => ?_
      rwa [epollMod_infos]
  delEvents si' events := by
    refine .bind (getInfo_keeps _) fun record =>
      .bind (.modify fun n here => Table.isSome_update here) fun _ => .modify fun n here => ?_
    rwa [epollMod_infos]
  delSocket si' :=
    .bind (getInfo_keeps _) fun record => .bind (.modify fun n here => here) fun _ =>
      .bind (.modify fun n here => Table.isSome_update here) fun _ => .modify fun n here => here
  made _ here := here
  edit i f := .bind (.demand _ _) fun _ => .modify fun _ here => here
  forget _ _ here := here
  sending _ _ _ here := here

end Elements

end Bosh
