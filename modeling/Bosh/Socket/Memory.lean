import Bosh.Server.Sockets

/-! No call on a socket that is there reaches memory that has been freed. -/
namespace Bosh
open Effect Text

def Sparing (fault : Fault) : Prop := fault ≠ .useAfterFree

def Net.Retains (n n' : Net) : Prop := ∀ j, (n.sockets j).isSome → (n'.sockets j).isSome

namespace Net.Retains
variable {n n' n'' : Net} {i : SocketId}

theorem trans (first : n.Retains n') (second : n'.Retains n'') : n.Retains n'' :=
  fun j there => second j (first j there)

theorem wire (same : n'.wire = n.wire) : n.Retains n' := fun j there => by
  rwa [← Net.wire_sockets, same]

theorem put {sock : Socket} (same : n'.wire = n.wire.put i (some sock)) : n.Retains n' :=
  fun j there => by
  rw [← Net.wire_sockets, same]
  exact Table.isSome_update there

theorem gives {bytes : Bytes} (gives : Gives i bytes n.wire n'.wire) : n.Retains n' :=
  fun j there => by
  by_cases same : j = i
  · subst same
    exact gives.given.isSome
  · rw [← Net.wire_sockets, gives.only.sockets j same]
    exact there

end Net.Retains

section Calls
variable {n : Net} {busy : Option SocketId} {i : SocketId}

theorem sockSend_sparing (tidy : n.Tidy busy) (only : Only i busy) (there : (n.sockets i).isSome)
    (buffer : Option Bytes) (more : Bool) :
    Ensures (sockSend i buffer ((buffer.map List.length).getD 0) more n) (fun _ n' =>
      n'.Tidy (some i) ∧ (more = false → n'.Tidy none) ∧ n.Retains n') Sparing := by
  have gives : Ensures (sockSend i buffer ((buffer.map List.length).getD 0) more n)
      (fun _ n' => n.Retains n') Unrelated := by
    cases buffer with
    | none => exact (sockSend_flush_gives more).mono (fun _ _ => .gives) fun _ => id
    | some buffer => exact (sockSend_gives i buffer more).mono (fun _ _ => .gives) fun _ => id
  refine ((sockSend_tidy tidy only buffer _ more).both gives).mono ?_ ?_
  · rintro _ n' ⟨⟨queued, flushed⟩, retains⟩
    exact ⟨queued, flushed, retains⟩
  · rintro fault ⟨absent, -⟩
    simp [absent] at there

theorem sockSends_sparing (tidy : n.Tidy busy) (only : Only i busy) (there : (n.sockets i).isSome)
    (last : Option Bytes) (buffers : List Bytes) :
    Ensures (sockSends i last buffers n) (fun _ n' => n'.Tidy none ∧ n.Retains n') Sparing := by
  induction buffers generalizing n busy with
  | nil =>
    exact (sockSend_sparing tidy only there last false).mono (fun _ _ sent => ⟨sent.2.1 rfl, sent.2.2⟩)
      fun _ => id
  | cons buffer buffers ih =>
    rw [sockSends, ensures_bind]
    refine (sockSend_sparing tidy only there (some buffer) true).mono ?_ fun _ => id
    rintro _ n₁ ⟨queued, -, first⟩
    refine (ih queued (only_self i) (first i there)).mono ?_ fun _ => id
    rintro _ n' ⟨tidy', second⟩
    exact ⟨tidy', first.trans second⟩

theorem sockClose_sparing (tidy : n.Tidy none) (there : (n.sockets i).isSome) :
    Ensures (sockClose i n) (fun _ n' => n'.Tidy none ∧ n.Retains n') Sparing := by
  refine ((sockClose_tidy tidy (only_none i)).both (sockClose_shuts i)).mono ?_ ?_
  · rintro _ n' ⟨⟨tidy', -⟩, _, _, -, same, -⟩
    exact ⟨tidy', .put same⟩
  · rintro fault ⟨absent, -⟩
    simp [absent] at there

theorem sockDelete_sparing (tidy : n.Tidy none) (there : (n.sockets i).isSome) :
    Ensures (sockDelete i n) (fun _ _ => True) Sparing :=
  (sockDelete_tidy tidy (only_none i)).mono (fun _ _ _ => trivial) fun _ absent => by
    simp [absent] at there

theorem sockRecv_sparing (tidy : n.Tidy none) (there : (n.sockets i).isSome) (len : Nat)
    (answer : RecvResult) :
    Ensures (sockRecv i len answer n) (fun bytes n' => bytes = received len answer ∧ n'.Tidy none ∧
      n.Retains n') Sparing := by
  obtain ⟨sock, here⟩ := Option.isSome_iff_exists.mp there
  have closing : Ensures (sockClose i n) (fun _ n' => n'.Tidy none ∧ n.Retains n') Sparing :=
    sockClose_sparing tidy there
  unfold sockRecv
  rw [run_bind_ok (getSocket_run here)]
  cases answer with
  | again => exact ⟨rfl, tidy, .wire rfl⟩
  | fail =>
    rw [ensures_bind]
    exact closing.mono (fun _ _ closed => ⟨rfl, closed⟩) fun _ => id
  | data bytes =>
    dsimp only
    split
    · rw [ensures_bind]
      exact closing.mono (fun _ _ closed => ⟨rfl, closed⟩) fun _ => id
    · exact ⟨rfl, tidy, .wire rfl⟩

theorem modifySocket_sparing (there : (n.sockets i).isSome) (f : Socket → Socket) :
    Ensures (modifySocket i f n) (fun _ n' => n.Retains n') Sparing := by
  obtain ⟨sock, here⟩ := Option.isSome_iff_exists.mp there
  rw [modifySocket_run here]
  exact .put rfl

theorem edit_sparing (tidy : n.Tidy none) (there : (n.sockets i).isSome) {f : Socket → Socket}
    (same : ∀ sock : Socket, (f sock).fd = sock.fd ∧ (f sock).si = sock.si ∧
      (f sock).status = sock.status ∧ (f sock).outputQueue = sock.outputQueue) :
    Ensures (modifySocket i f n) (fun _ n' => n'.Tidy none ∧ n.Retains n') Sparing := by
  obtain ⟨sock, here⟩ := Option.isSome_iff_exists.mp there
  obtain ⟨fd, held, status, queue⟩ := same sock
  rw [modifySocket_run here]
  exact ⟨tidy.calls here fd held status queue, .put rfl⟩

theorem newFd_sparing (answer : Option Nat) :
    Ensures (newFd answer n) (fun _ n' => n.Retains n') Sparing := by
  unfold newFd
  cases answer with
  | none => exact .wire rfl
  | some fd =>
    rw [ensures_bind, ensures_get]
    split
    · exact nofun
    · exact .wire rfl

theorem smAddSocket_sparing (fd : Int) (j : SocketId) (events : Events) :
    Ensures (smAddSocket fd .socketCallback j events n) (fun _ n' => n.Retains n') Sparing := by
  have spares : Ensures (smAddSocket fd .socketCallback j events n) (fun _ _ => True) Sparing := by
    unfold smAddSocket
    rw [ensures_bind, ensures_get]
    cases n.socketHash.find fd with
    | some si => trivial
    | none =>
      cases n.socketHash.insert fd n.nextInfo with
      | none => exact nofun
      | some socketHash => trivial
  exact ((smAddSocket_wire fd .socketCallback j events).both spares).mono
    (fun _ _ same => .wire same.1) fun _ => And.right

theorem setCallback_sparing (tidy : n.Tidy none) (there : (n.sockets i).isSome) {f : Socket → Socket}
    (ready : SocketStatus) (quiet : ready ≠ .idle)
    (same : ∀ sock : Socket, (f sock).fd = sock.fd ∧ (f sock).si = sock.si ∧
      (f sock).status = sock.status ∧ (f sock).outputQueue = sock.outputQueue) :
    Ensures ((do
      modifySocket i f
      let sock ← getSocket i
      if sock.status = ready then smAddEvents sock.si .epollIn) n)
      (fun _ n' => n'.Tidy none ∧ n.Retains n') Sparing := by
  obtain ⟨sock, here⟩ := Option.isSome_iff_exists.mp there
  obtain ⟨fd, held, status, queue⟩ := same sock
  have tidy₁ := tidy.calls here fd held status queue
  have here₁ : (n.setSocket i (some (f sock))).sockets i = some (f sock) := Function.update_self ..
  have put : n.Retains (n.setSocket i (some (f sock))) := .put rfl
  rw [run_bind_ok (modifySocket_run here f), run_bind_ok (getSocket_run here₁)]
  split
  · rename_i now
    have opened : (f sock).fd ≠ -1 := by
      cases tidy₁.sockets i _ here₁ with
      | closed _ _ idle => exact absurd (now.symm.trans idle) quiet
      | opened opened => exact opened
    refine ((smAddEvents_tidy tidy₁ here₁ opened (only_none i) (.inr rfl)).both
      (smAddEvents_wire _ _)).mono ?_ fun _ never => never.1.elim
    rintro _ n' ⟨tidy', wire⟩
    exact ⟨tidy', put.trans (.wire wire)⟩
  · exact ⟨tidy₁, put⟩

theorem sockSetDataCallback_sparing (tidy : n.Tidy none) (there : (n.sockets i).isSome)
    (callback : DataCallback) :
    Ensures (sockSetDataCallback i callback n) (fun _ n' => n'.Tidy none ∧ n.Retains n') Sparing :=
  setCallback_sparing tidy there .connected (by simp) fun _ => ⟨rfl, rfl, rfl, rfl⟩

theorem sockSetConnectCallback_sparing (tidy : n.Tidy none) (there : (n.sockets i).isSome)
    (callback : ConnectCallback) :
    Ensures (sockSetConnectCallback i callback n) (fun _ n' => n'.Tidy none ∧ n.Retains n') Sparing :=
  edit_sparing tidy there fun _ => ⟨rfl, rfl, rfl, rfl⟩

theorem sockSetErrorCallback_sparing (tidy : n.Tidy none) (there : (n.sockets i).isSome)
    (callback : ErrorCallback) :
    Ensures (sockSetErrorCallback i callback n) (fun _ n' => n'.Tidy none ∧ n.Retains n') Sparing :=
  edit_sparing tidy there fun _ => ⟨rfl, rfl, rfl, rfl⟩

theorem sockConnect_sparing (there : (n.sockets i).isSome) (host : Bytes) (port : Int)
    (answers : ConnectAnswers) :
    Ensures (sockConnect i host port answers n) (fun _ n' => n.Retains n') Sparing := by
  unfold sockConnect
  split
  · exact .wire rfl
  · rw [ensures_bind]
    refine (newFd_sparing _).mono (fun fd n₁ to₁ => ?_) fun _ => id
    rw [ensures_bind]
    refine (modifySocket_sparing (to₁ i there) _).mono (fun _ n₂ step₂ => ?_) fun _ => id
    have to₂ := to₁.trans step₂
    split
    · exact to₂
    · split
      · exact to₂
      · rw [ensures_bind]
        refine (smAddSocket_sparing fd i _).mono (fun si n₃ step₃ => ?_) fun _ => id
        have to₃ := to₂.trans step₃
        rw [ensures_bind]
        refine (modifySocket_sparing (to₃ i there) _).mono (fun _ n₄ step₄ => ?_) fun _ => id
        have to₄ := to₃.trans step₄
        rw [ensures_bind]
        exact (modifySocket_sparing (to₄ i there) _).mono (fun _ _ step₅ => to₄.trans step₅)
          fun _ => id

theorem sockOpen_sparing (tidy : n.Tidy none) (host : Bytes) (port : Int) (answers : ConnectAnswers) :
    Ensures (sockOpen host port answers n) (fun sock n' => n'.Tidy none ∧ n.Retains n' ∧
      ∀ i, sock = some i → (n'.sockets i).isSome) Sparing := by
  have fresh : ∀ j, (n.sockets j).isSome → j ≠ n.nextSocket := fun j there =>
    (tidy.below j there).ne
  have new := Net.made_new n
  have made : n.Retains n.made := fun j there => Table.isSome_update there
  have spares : Ensures (sockOpen host port answers n) (fun sock n' => n.Retains n' ∧
      ∀ i, sock = some i → (n'.sockets i).isSome) Sparing := by
    unfold sockOpen
    rw [run_bind_ok sockNew_run, ensures_bind]
    refine ((sockConnect_sparing (Option.isSome_of_mem new) host port answers).both
      (sockConnect_tidy tidy.made new host port answers)).mono ?_ fun _ spared => spared.1
    rintro connected n₁ ⟨retains, outcome⟩
    have there₁ := retains _ (Option.isSome_of_mem new)
    cases connected with
    | true =>
      refine ⟨made.trans retains, ?_⟩
      rintro i same
      cases same
      exact there₁
    | false =>
      rw [if_neg (by simp), ensures_bind]
      rcases outcome with tidy₁ | ⟨-, sock, there, stale, unwatched⟩
      · refine ((sockDelete_sparing tidy₁ there₁).both (sockDelete_deletes _)).mono ?_ fun _ => And.left
        rintro _ n₂ ⟨-, -, same⟩
        refine ⟨fun j there => ?_, nofun⟩
        rw [← Net.wire_sockets, same, Wire.sockets_put_ne (fresh j there)]
        exact (made.trans retains) j there
      · rw [sockDelete_crash there stale unwatched]
        exact nofun
  exact (spares.both (sockOpen_keeps host port answers n tidy)).mono
    (fun _ _ h => ⟨h.2, h.1⟩) fun _ => And.left

theorem sockAccept_sparing (there : (n.sockets i).isSome) (answer : Option Nat) :
    Ensures (sockAccept i answer n) (fun client n' => n.Retains n' ∧
      ∀ j, client = some j → (n'.sockets j).isSome) Sparing := by
  obtain ⟨sock, here⟩ := Option.isSome_iff_exists.mp there
  unfold sockAccept
  rw [run_bind_ok (getSocket_run here), ensures_bind]
  refine (newFd_sparing _).mono (fun fd n₁ to₁ => ?_) fun _ => id
  split
  · exact ⟨to₁, nofun⟩
  · have made : n₁.Retains n₁.made := fun j there => Table.isSome_update there
    have new := Option.isSome_of_mem (Net.made_new n₁)
    rw [run_bind_ok sockNew_run, ensures_bind]
    refine (modifySocket_sparing new _).mono (fun _ n₂ step₂ => ?_) fun _ => id
    rw [ensures_bind]
    refine (smAddSocket_sparing fd _ _).mono (fun si n₃ step₃ => ?_) fun _ => id
    have to₃ := step₂.trans step₃
    rw [ensures_bind]
    refine (modifySocket_sparing (to₃ _ new) _).mono (fun _ n₄ step₄ => ?_) fun _ => id
    refine ⟨to₁.trans (made.trans (to₃.trans step₄)), ?_⟩
    rintro j same
    cases same
    exact (to₃.trans step₄) _ new

theorem sockIgnore_sparing (tidy : n.Tidy none) (there : (n.sockets i).isSome) :
    Ensures (sockIgnore i n) (fun _ n' => n.Retains n') Sparing := by
  obtain ⟨sock, here⟩ := Option.isSome_iff_exists.mp there
  unfold sockIgnore
  rw [run_bind_ok (getSocket_run here)]
  cases tidy.sockets i sock here with
  | closed _ nothing =>
    rw [nothing]
    exact nofun
  | opened opened =>
    exact ((smDelEvents_tidy tidy here opened (only_none i) (.inr ⟨rfl, rfl⟩)).both
      (smDelEvents_wire _ _)).mono (fun _ _ done => .wire done.2) fun _ never => never.1.elim

theorem complete_sparing {sock : Socket} (tidy : n.Tidy none) (here : n.sockets i = some sock)
    (pending : sock.status = .connecting) :
    Ensures ((do
      modifySocket i fun sock => { sock with status := .connected }
      if sock.dataCallback.isSome then smAddEvents sock.si .epollIn : NetM Unit) n) (fun _ n' =>
      n'.wire = (n.setSocket i (some { sock with status := .connected })).wire ∧ n'.Tidy none ∧
        n.Retains n') Sparing := by
  have opened : sock.fd ≠ -1 := by
    cases tidy.sockets i sock here with
    | closed _ _ idle => exact nomatch pending.symm.trans idle
    | opened opened => exact opened
  have there : (n.setSocket i (some { sock with status := .connected })).sockets i =
      some { sock with status := .connected } := Function.update_self ..
  have put : n.Retains (n.setSocket i (some { sock with status := .connected })) := .put rfl
  have tidy₁ := tidy.connect here pending
  rw [run_bind_ok (modifySocket_run here _)]
  split
  · refine ((smAddEvents_tidy tidy₁ there opened (only_none i) (.inr rfl)).both
      (smAddEvents_wire _ _)).mono ?_ fun _ never => never.1.elim
    rintro _ n' ⟨tidy', wire⟩
    exact ⟨wire, tidy', put.trans (.wire wire)⟩
  · exact ⟨rfl, tidy₁, put⟩

theorem sockFlushData_sparing {sock : Socket} (tidy : n.Tidy none) (here : n.sockets i = some sock)
    (live : sock.status = .connected) :
    Ensures (sockFlushData i n) (fun _ n' => n.Retains n') Sparing := by
  refine ((sockFlushData_tidy tidy (only_none i) here live).both (sockFlushData_gives ?_)).mono
    (fun _ _ done => .gives done.2) fun _ never => never.1.elim
  intro sock' here'
  cases here.symm.trans here'
  exact live

end Calls

end Bosh
