import Bosh.Socket.Socket

/-! What the functions of `socket.c` do to the sockets and to the bytes on their way,
with the monitor's bookkeeping left out of sight. -/
namespace Bosh
open Effect Text

/-- The part of the network state that the owners of sockets depend on. -/
structure Wire where
  sockets : SocketId → Option Socket
  nextSocket : SocketId
  sends : SocketId → List SendResult
  sent : SocketId → Bytes

def Net.wire (n : Net) : Wire := ⟨n.sockets, n.nextSocket, n.sends, n.sent⟩

def Wire.put (i : SocketId) (sock : Option Socket) (w : Wire) : Wire :=
  { w with sockets := Function.update w.sockets i sock }

def Wire.push (sock : Socket) (w : Wire) : Wire :=
  { w.put w.nextSocket (some sock) with nextSocket := w.nextSocket + 1 }

@[simp] theorem Net.wire_sockets (n : Net) : n.wire.sockets = n.sockets := rfl
@[simp] theorem Net.wire_nextSocket (n : Net) : n.wire.nextSocket = n.nextSocket := rfl
@[simp] theorem Net.wire_sends (n : Net) : n.wire.sends = n.sends := rfl
@[simp] theorem Net.wire_sent (n : Net) : n.wire.sent = n.sent := rfl

@[simp] theorem Wire.put_put (i : SocketId) (a b : Option Socket) (w : Wire) :
    (w.put i a).put i b = w.put i b := by
  simp [Wire.put]

@[simp] theorem Wire.put_self (i : SocketId) (w : Wire) : w.put i (w.sockets i) = w := by
  simp [Wire.put]

@[simp] theorem Wire.sockets_put_self (i : SocketId) (a : Option Socket) (w : Wire) :
    (w.put i a).sockets i = a := by
  simp [Wire.put]

theorem Wire.sockets_put_ne {i j : SocketId} (h : j ≠ i) (a : Option Socket) (w : Wire) :
    (w.put i a).sockets j = w.sockets j := by
  simp [Wire.put, h]

@[simp] theorem Wire.nextSocket_put (i : SocketId) (a : Option Socket) (w : Wire) :
    (w.put i a).nextSocket = w.nextSocket := rfl

@[simp] theorem Wire.sends_put (i : SocketId) (a : Option Socket) (w : Wire) :
    (w.put i a).sends = w.sends := rfl

@[simp] theorem Wire.sent_put (i : SocketId) (a : Option Socket) (w : Wire) :
    (w.put i a).sent = w.sent := rfl

@[simp] theorem Wire.sockets_push_self (sock : Socket) (w : Wire) :
    (w.push sock).sockets w.nextSocket = some sock := by
  simp [Wire.push]

theorem Wire.sockets_push_ne {i : SocketId} {w : Wire} (h : i ≠ w.nextSocket) (sock : Socket) :
    (w.push sock).sockets i = w.sockets i := by
  simp [Wire.push, Wire.put, h]

@[simp] theorem Wire.nextSocket_push (sock : Socket) (w : Wire) :
    (w.push sock).nextSocket = w.nextSocket + 1 := rfl

@[simp] theorem Wire.sends_push (sock : Socket) (w : Wire) : (w.push sock).sends = w.sends := rfl

@[simp] theorem Wire.sent_push (sock : Socket) (w : Wire) : (w.push sock).sent = w.sent := rfl

@[simp] theorem Wire.put_push (old new : Socket) (w : Wire) :
    (w.push old).put w.nextSocket (some new) = w.push new := by
  simp [Wire.push, Wire.put]

@[simp] theorem Net.wire_setSocket (i : SocketId) (sock : Option Socket) (n : Net) :
    (n.setSocket i sock).wire = n.wire.put i sock := rfl

@[simp] theorem Net.wire_setInfo (si : InfoId) (info : SocketInfo) (n : Net) :
    (n.setInfo si info).wire = n.wire := rfl

@[simp] theorem Net.wire_epollAdd (fd : Int) (events : Events) (si : InfoId) (n : Net) :
    (n.epollAdd fd events si).wire = n.wire := by
  unfold Net.epollAdd
  split <;> rfl

@[simp] theorem Net.wire_epollMod (fd : Int) (events : Events) (si : InfoId) (n : Net) :
    (n.epollMod fd events si).wire = n.wire := by
  unfold Net.epollMod
  split <;> rfl

@[simp] theorem Net.wire_epollDel (fd : Int) (n : Net) : (n.epollDel fd).wire = n.wire := rfl

@[simp] theorem Net.wire_close (fd : Int) (n : Net) : (n.close fd).wire = n.wire := rfl

def Unrelated (fault : Fault) : Prop := fault ≠ .deletedConnection

@[simp] theorem unrelated_nullPointer : Unrelated .nullPointer := by simp [Unrelated]
@[simp] theorem unrelated_useAfterFree : Unrelated .useAfterFree := by simp [Unrelated]
@[simp] theorem unrelated_outOfBounds : Unrelated .outOfBounds := by simp [Unrelated]
@[simp] theorem unrelated_diverges : Unrelated .diverges := by simp [Unrelated]
@[simp] theorem unrelated_impossible : Unrelated .impossible := by simp [Unrelated]

section Monitor
variable {n : Net}

theorem ensures_getInfo {si : Option InfoId} {post : InfoId × SocketInfo → Net → Prop}
    (h : ∀ i info, si = some i → n.infos i = some info → post (i, info) n) :
    Ensures (getInfo si n) post Unrelated := by
  cases si with
  | none => simp [getInfo]
  | some i =>
    simp only [getInfo, ensures_bind, ensures_demand, ensures_pure, unrelated_useAfterFree,
      implies_true, and_true]
    exact fun info found => h i info rfl found

theorem smAddEvents_wire (si : Option InfoId) (events : Events) :
    Ensures (smAddEvents si events n) (fun _ n' => n'.wire = n.wire) Unrelated := by
  unfold smAddEvents
  rw [ensures_bind]
  apply ensures_getInfo
  intro i info _ _
  dsimp only
  split
  · rfl
  · simp only [ensures_bind, ensures_modify, Net.wire_epollMod]
    rfl

theorem smDelEvents_wire (si : Option InfoId) (events : Events) :
    Ensures (smDelEvents si events n) (fun _ n' => n'.wire = n.wire) Unrelated := by
  unfold smDelEvents
  rw [ensures_bind]
  apply ensures_getInfo
  intro i info _ _
  simp only [ensures_bind, ensures_modify, Net.wire_epollMod]
  rfl

theorem smDelSocket_wire (si : Option InfoId) :
    Ensures (smDelSocket si n) (fun _ n' => n'.wire = n.wire) Unrelated := by
  unfold smDelSocket
  rw [ensures_bind]
  apply ensures_getInfo
  intro i info _ _
  simp only [ensures_bind, ensures_modify]
  rfl

theorem smAddSocket_wire (fd : Int) (callback : MonitorCallback) (i : SocketId) (events : Events) :
    Ensures (smAddSocket fd callback i events n) (fun _ n' => n'.wire = n.wire) Unrelated := by
  unfold smAddSocket
  rw [ensures_bind, ensures_get]
  cases n.socketHash.find fd with
  | some si =>
    simp only [ensures_bind, ensures_modify, ensures_pure, Net.wire_epollAdd]
    rfl
  | none =>
    cases n.socketHash.insert fd n.nextInfo with
    | none => simp
    | some socketHash =>
      simp only [ensures_bind, ensures_set, ensures_modify, ensures_pure, Net.wire_epollAdd]
      rfl

def Net.target (n : Net) (si : InfoId) : Option SocketId :=
  match n.infos si with
  | some info => if info.callback.isSome then info.userData else none
  | none => none

/-- An event is handed to the callback of its record, with what this is registered for. -/
theorem smTarget_record (si : InfoId) :
    Ensures (smTarget si n) (fun target n' => n' = n ∧ ∃ info, n.infos si = some info ∧
      target = info.callback.map fun callback => (callback, info.userData)) Unrelated := by
  unfold smTarget
  rw [ensures_bind]
  apply ensures_getInfo
  intro i info same found
  cases same
  exact ⟨rfl, info, found, rfl⟩

theorem smTarget_spec (si : InfoId) :
    Ensures (smTarget si n) (fun target n' => n' = n ∧ n.target si = target.bind Prod.snd)
      Unrelated := by
  refine (smTarget_record si).mono ?_ fun _ => id
  rintro target n' ⟨rfl, info, found, rfl⟩
  cases callback : info.callback <;> simp [Net.target, found, callback]

theorem newFd_wire (answer : Option Nat) :
    Ensures (newFd answer n) (fun fd n' => n'.wire = n.wire ∧ (answer = none ↔ fd = -1))
      Unrelated := by
  unfold newFd
  cases answer with
  | none => simp
  | some fd =>
    rw [ensures_bind, ensures_get]
    split
    · simp
    · simp only [ensures_bind, ensures_pure, ensures_set]
      exact ⟨rfl, by simp, fun h => by omega⟩

end Monitor

structure OnlySocket (i : SocketId) (w w' : Wire) : Prop where
  sockets : ∀ j, j ≠ i → w'.sockets j = w.sockets j
  sends : ∀ j, j ≠ i → w'.sends j = w.sends j
  sent : ∀ j, j ≠ i → w'.sent j = w.sent j
  nextSocket : w'.nextSocket = w.nextSocket

def Socket.callbacks (sock : Socket) :
    Option DataCallback × Option ConnectCallback × Option ErrorCallback :=
  (sock.dataCallback, sock.connectCallback, sock.errorCallback)

def QueueItem.unsent (item : QueueItem) : Bytes :=
  (item.buffer.drop item.offset).take (item.len - item.offset)

def unsent (queue : List QueueItem) : Bytes := queue.flatMap QueueItem.unsent

@[simp] theorem unsent_nil : unsent [] = [] := rfl

@[simp] theorem unsent_cons (item : QueueItem) (queue : List QueueItem) :
    unsent (item :: queue) = item.unsent ++ unsent queue := by
  simp [unsent]

@[simp] theorem unsent_append (front back : List QueueItem) :
    unsent (front ++ back) = unsent front ++ unsent back := by
  simp [unsent]

@[simp] theorem unsent_itemNew (bytes : Bytes) : (itemNew bytes bytes.length 0).unsent = bytes := by
  simp [QueueItem.unsent, itemNew]

/-- What a socket looks like after `sock_close`, but for what is queued on it later. -/
def Socket.Closed (sock : Socket) : Prop := sock.fd = -1 ∧ sock.status = .idle

/-- What handing `bytes` to a socket, or flushing it, comes to: they wait behind what waited
already and some of this has gone, or a failed `send` has closed the socket. -/
structure Gives (i : SocketId) (bytes : Bytes) (w w' : Wire) : Prop where
  only : OnlySocket i w w'
  fewer : w'.sends i <:+ w.sends i
  outcome : ∃ sock sock', w.sockets i = some sock ∧ w'.sockets i = some sock' ∧
    sock'.callbacks = sock.callbacks ∧
    (sock'.fd = sock.fd ∧ sock'.status = sock.status ∧
        (sock.status ≠ .connected → w'.sent i = w.sent i) ∧
        w'.sent i ++ unsent sock'.outputQueue = w.sent i ++ unsent sock.outputQueue ++ bytes ∨
      sock.status = .connected ∧ sock'.Closed ∧ .fail ∈ w.sends i ∧
        ∃ lost, w'.sent i ++ lost = w.sent i ++ unsent sock.outputQueue ++ bytes)

structure Given (i : SocketId) (bytes : Bytes) (w w' : Wire) : Prop where
  fewer : w'.sends i <:+ w.sends i
  outcome : ∃ sock sock', w.sockets i = some sock ∧ w'.sockets i = some sock' ∧
    sock'.callbacks = sock.callbacks ∧
    (sock'.fd = sock.fd ∧ sock'.status = sock.status ∧
        (sock.status ≠ .connected → w'.sent i = w.sent i) ∧
        w'.sent i ++ unsent sock'.outputQueue = w.sent i ++ unsent sock.outputQueue ++ bytes ∨
      sock.status = .connected ∧ sock'.Closed ∧ .fail ∈ w.sends i ∧
        ∃ lost, w'.sent i ++ lost = w.sent i ++ unsent sock.outputQueue ++ bytes)

structure SameSocket (i : SocketId) (w w' : Wire) : Prop where
  sockets : w'.sockets i = w.sockets i
  sends : w'.sends i = w.sends i
  sent : w'.sent i = w.sent i

def Shuts (i : SocketId) (w w' : Wire) : Prop :=
  ∃ sock sock', w.sockets i = some sock ∧ w' = w.put i (some sock') ∧
    sock'.callbacks = sock.callbacks ∧ sock'.Closed ∧ sock'.outputQueue = []

def Deletes (i : SocketId) (w w' : Wire) : Prop :=
  (w.sockets i).isSome ∧ w' = w.put i none

theorem OnlySocket.refl (i : SocketId) (w : Wire) : OnlySocket i w w :=
  ⟨fun _ _ => rfl, fun _ _ => rfl, fun _ _ => rfl, rfl⟩

theorem OnlySocket.trans {i : SocketId} {w w' w'' : Wire} (first : OnlySocket i w w')
    (second : OnlySocket i w' w'') : OnlySocket i w w'' where
  sockets j h := (second.sockets j h).trans (first.sockets j h)
  sends j h := (second.sends j h).trans (first.sends j h)
  sent j h := (second.sent j h).trans (first.sent j h)
  nextSocket := second.nextSocket.trans first.nextSocket

theorem OnlySocket.put (i : SocketId) (sock : Option Socket) (w : Wire) :
    OnlySocket i w (w.put i sock) where
  sockets _ h := Wire.sockets_put_ne h _ _
  sends _ _ := rfl
  sent _ _ := rfl
  nextSocket := rfl

theorem Given.isSome {i : SocketId} {bytes : Bytes} {w w' : Wire} (given : Given i bytes w w') :
    (w'.sockets i).isSome := by
  obtain ⟨_, sock, -, there, -⟩ := given.outcome
  exact Option.isSome_of_mem there

theorem Given.trans {i : SocketId} {first second : Bytes} {w w' w'' : Wire}
    (one : Given i first w w') (two : Given i second w' w'') : Given i (first ++ second) w w'' := by
  obtain ⟨sock, sock', before, between, calls, one'⟩ := one.outcome
  obtain ⟨sock'', sock₂, between', after, calls', two'⟩ := two.outcome
  obtain rfl : sock' = sock'' := Option.some.inj (between.symm.trans between')
  refine ⟨two.fewer.trans one.fewer, sock, sock₂, before, after, calls'.trans calls, ?_⟩
  rcases one' with ⟨fd, status, still, bytes⟩ | ⟨live, closed, failed, lost, bytes⟩
  · rcases two' with ⟨fd', status', still', bytes'⟩ | ⟨live', closed', failed', lost, bytes'⟩
    · refine .inl ⟨fd'.trans fd, status'.trans status, fun h => ?_, ?_⟩
      · rw [still' (by rwa [status]), still h]
      · rw [bytes', bytes, List.append_assoc]
    · refine .inr ⟨status ▸ live', closed', one.fewer.subset failed', lost, ?_⟩
      rw [bytes', bytes, List.append_assoc]
  · refine .inr ⟨live, ?_⟩
    rcases two' with ⟨fd', status', still', bytes'⟩ | ⟨live', -⟩
    · refine ⟨⟨fd'.trans closed.1, status'.trans closed.2⟩, failed, lost ++ second, ?_⟩
      rw [still' (by simp [closed.2]), ← List.append_assoc, bytes, List.append_assoc]
    · rw [closed.2] at live'
      cases live'

theorem Given.nothing {i : SocketId} {sock : Socket} {w w' : Wire} (here : w.sockets i = some sock)
    (same : SameSocket i w w') : Given i [] w w' := by
  refine ⟨same.sends ▸ List.suffix_rfl, sock, sock, here, same.sockets.trans here, rfl, .inl ?_⟩
  rw [same.sent]
  simp

theorem Given.then {i : SocketId} {bytes : Bytes} {w w' w'' : Wire} (given : Given i bytes w w')
    (same : SameSocket i w' w'') : Given i bytes w w'' := by
  obtain ⟨_, sock, -, there, -⟩ := given.outcome
  simpa using given.trans (.nothing there same)

theorem Gives.given {i : SocketId} {bytes : Bytes} {w w' : Wire} (gives : Gives i bytes w w') :
    Given i bytes w w' := ⟨gives.fewer, gives.outcome⟩

theorem Gives.trans {i : SocketId} {first second : Bytes} {w w' w'' : Wire}
    (one : Gives i first w w') (two : Gives i second w' w'') : Gives i (first ++ second) w w'' :=
  have both := one.given.trans two.given
  ⟨one.only.trans two.only, both.fewer, both.outcome⟩

theorem OnlySocket.same {i j : SocketId} {w w' : Wire} (only : OnlySocket i w w') (other : j ≠ i) :
    SameSocket j w w' := ⟨only.sockets j other, only.sends j other, only.sent j other⟩

theorem SameSocket.trans {i : SocketId} {w w' w'' : Wire} (first : SameSocket i w w')
    (second : SameSocket i w' w'') : SameSocket i w w'' where
  sockets := second.sockets.trans first.sockets
  sends := second.sends.trans first.sends
  sent := second.sent.trans first.sent

private theorem unsent_split {item : QueueItem} {taken : Nat}
    (h : taken ≤ item.len - item.offset) :
    (item.buffer.drop item.offset).take taken ++
      QueueItem.unsent { item with offset := item.offset + taken } = item.unsent := by
  unfold QueueItem.unsent
  have : item.len - item.offset = taken + (item.len - (item.offset + taken)) := by omega
  rw [this, List.take_add, List.drop_drop]

theorem flushItem_spec (item : QueueItem) (results : List SendResult) :
    ∀ last left bytes how, flushItem item results = (last, left, bytes, how) →
      bytes ++ last.unsent = item.unsent ∧ left <:+ results ∧
        (how = .whole → last.unsent = []) ∧ (how = .failed → .fail ∈ results) := by
  induction results generalizing item with
  | nil =>
    rintro last left bytes how run
    unfold flushItem at run
    split at run
    · cases run
      exact ⟨rfl, List.suffix_rfl, by simp, by simp⟩
    · cases run
      exact ⟨rfl, List.suffix_rfl, fun _ => by simp [QueueItem.unsent]; omega, by simp⟩
  | cons result results ih =>
    rintro last left bytes how run
    unfold flushItem at run
    split at run
    · split at run
      · cases run
        exact ⟨rfl, List.suffix_cons _ _, by simp, by simp⟩
      · rename_i unsentLeft _ n
        simp only [Prod.mk.injEq] at run
        obtain ⟨rfl, rfl, rfl, rfl⟩ := run
        obtain ⟨all, fewer, whole, failed⟩ := ih _ _ _ _ _ rfl
        refine ⟨?_, fewer.trans (List.suffix_cons _ _), whole, fun h => .tail _ (failed h)⟩
        rw [List.append_assoc, all]
        exact unsent_split (by omega)
      · cases run
        exact ⟨rfl, List.suffix_cons _ _, by simp, by simp⟩
      · cases run
        exact ⟨rfl, List.suffix_cons _ _, by simp, by simp⟩
    · cases run
      exact ⟨rfl, List.suffix_rfl, fun _ => by simp [QueueItem.unsent]; omega, by simp⟩

theorem flushQueue_spec (queue : List QueueItem) (results : List SendResult) :
    ∀ rest left bytes how, flushQueue queue results = (rest, left, bytes, how) →
      bytes ++ unsent rest = unsent queue ∧ left <:+ results ∧
        (how = .failed → .fail ∈ results) := by
  induction queue generalizing results with
  | nil =>
    rintro rest left bytes how run
    cases run
    exact ⟨rfl, List.suffix_rfl, by simp⟩
  | cons item queue ih =>
    rintro rest left bytes how run
    unfold flushQueue at run
    split at run
    · rename_i first
      obtain ⟨all, fewer, whole, failed⟩ := flushItem_spec _ _ _ _ _ _ first
      simp only [Prod.mk.injEq] at run
      obtain ⟨rfl, rfl, rfl, rfl⟩ := run
      obtain ⟨all', fewer', failed'⟩ := ih _ _ _ _ _ rfl
      refine ⟨?_, fewer'.trans fewer, fun h => fewer.subset (failed' h)⟩
      rw [whole rfl, List.append_nil] at all
      rw [List.append_assoc, all', all, unsent_cons]
    · rename_i first
      obtain ⟨all, fewer, whole, failed⟩ := flushItem_spec _ _ _ _ _ _ first
      cases run
      exact ⟨by simp [← all], fewer, failed⟩

section Functions
variable {n : Net}

theorem ensures_getSocket {i : SocketId} {post : Socket → Net → Prop}
    (h : ∀ sock, n.sockets i = some sock → post sock n) :
    Ensures (getSocket i n) post Unrelated := by
  simp only [getSocket, ensures_demand, unrelated_useAfterFree, implies_true, and_true]
  exact h

theorem getSocket_run {i : SocketId} {sock : Socket} (here : n.sockets i = some sock) :
    getSocket i n = .ok (sock, n) := run_demand here

theorem modifySocket_run {i : SocketId} {sock : Socket} (here : n.sockets i = some sock)
    (f : Socket → Socket) : modifySocket i f n = .ok ((), n.setSocket i (some (f sock))) :=
  run_bind_ok (getSocket_run here)

theorem getSocket_spec (i : SocketId) :
    Ensures (getSocket i n) (fun sock n' => n' = n ∧ n.sockets i = some sock) Unrelated :=
  ensures_getSocket fun _ found => ⟨rfl, found⟩

theorem modifySocket_wire (i : SocketId) (f : Socket → Socket) :
    Ensures (modifySocket i f n) (fun _ n' => ∃ sock, n.wire.sockets i = some sock ∧
      n'.wire = n.wire.put i (some (f sock))) Unrelated := by
  unfold modifySocket
  rw [ensures_bind]
  exact ensures_getSocket fun sock found => ⟨sock, found, rfl⟩

theorem ensures_after {α β : Type} {program : NetM α} {next : α → NetM β} {w : Wire}
    {post : β → Net → Prop} (first : Ensures (program n) (fun _ n' => n'.wire = w) Unrelated)
    (second : ∀ value n', n'.wire = w → Ensures (next value n') post Unrelated) :
    Ensures ((program >>= next) n) post Unrelated := by
  rw [ensures_bind]
  exact first.mono (fun value n' same => second value n' same) fun _ => id

def Net.made (n : Net) : Net :=
  { n with
    sockets := Function.update n.sockets n.nextSocket (some initialSocket)
    nextSocket := n.nextSocket + 1 }

theorem sockNew_run : sockNew n = .ok (n.nextSocket, n.made) := rfl

theorem sockNew_wire :
    Ensures (sockNew n) (fun i n' => i = n.nextSocket ∧ n'.wire = n.wire.push initialSocket)
      Unrelated := by
  unfold sockNew
  simp only [ensures_bind, ensures_get, ensures_set, ensures_pure, true_and]
  rfl

theorem sockClose_shuts (i : SocketId) :
    Ensures (sockClose i n) (fun _ n' => Shuts i n.wire n'.wire) Unrelated := by
  unfold sockClose
  rw [ensures_bind]
  apply ensures_getSocket
  intro sock found
  split
  · apply ensures_after (smDelSocket_wire sock.si)
    intro _ n₁ same₁
    rw [ensures_bind, ensures_modify, ensures_bind]
    refine (modifySocket_wire _ _).mono ?_ fun _ => id
    rintro _ n₂ ⟨sock₁, found₁, same₂⟩
    refine (modifySocket_wire _ _).mono ?_ fun _ => id
    rintro _ n₃ ⟨sock₂, found₂, same₃⟩
    rw [Net.wire_close, same₁] at found₁ same₂
    obtain rfl : sock = sock₁ := Option.some.inj (found.symm.trans found₁)
    rw [same₂, Wire.sockets_put_self, Option.some.injEq] at found₂
    subst found₂
    rw [same₃, same₂, Wire.put_put]
    exact ⟨sock, _, found₁, rfl, rfl, ⟨rfl, rfl⟩, rfl⟩
  · rename_i unopened
    refine (modifySocket_wire _ _).mono ?_ fun _ => id
    rintro _ n₁ ⟨sock₁, found₁, same₁⟩
    obtain rfl : sock = sock₁ := Option.some.inj (found.symm.trans found₁)
    rw [same₁]
    exact ⟨sock, _, found₁, rfl, rfl, ⟨by simpa using unopened, rfl⟩, rfl⟩

theorem sockDelete_deletes (i : SocketId) :
    Ensures (sockDelete i n) (fun _ n' => Deletes i n.wire n'.wire) Unrelated := by
  unfold sockDelete
  rw [ensures_bind]
  refine (sockClose_shuts i).mono ?_ fun _ => id
  rintro _ n' ⟨sock, sock', before, same, -⟩
  refine ⟨by simp [before], ?_⟩
  change n'.wire.put i none = _
  rw [same, Wire.put_put]

/-- Where a descriptor has no record, `sm_del_socket` gets a null pointer. -/
theorem sockDelete_crash {i : SocketId} {sock : Socket} (there : n.sockets i = some sock)
    (stale : sock.fd ≠ -1) (unwatched : sock.si = none) : sockDelete i n = .error .nullPointer := by
  have crashed : smDelSocket sock.si n = .error .nullPointer := by
    rw [unwatched]
    rfl
  have closed : sockClose i n = .error .nullPointer := by
    unfold sockClose
    rw [run_bind_ok (getSocket_run there), if_pos stale]
    exact run_bind_error crashed
  exact run_bind_error closed

theorem sockFlushData_gives {i : SocketId}
    (live : ∀ sock, n.sockets i = some sock → sock.status = .connected) :
    Ensures (sockFlushData i n) (fun _ n' => Gives i [] n.wire n'.wire) Unrelated := by
  unfold sockFlushData
  rw [ensures_bind]
  apply ensures_getSocket
  intro sock found
  rw [ensures_bind, ensures_get]
  rcases ran : flushQueue sock.outputQueue (n.sends i) with ⟨queue, left, bytes, how⟩
  obtain ⟨all, fewer, failed⟩ := flushQueue_spec _ _ _ _ _ _ ran
  dsimp only
  rw [ensures_bind, ensures_set, ensures_bind]
  refine (modifySocket_wire _ _).mono ?_ fun _ => id
  rintro _ n₁ ⟨sock₁, found₁, same₁⟩
  obtain rfl : sock = sock₁ := Option.some.inj (found.symm.trans found₁)
  have only : OnlySocket i n.wire n₁.wire := by
    rw [same₁]
    refine ⟨fun j h => Wire.sockets_put_ne h _ _, fun j h => ?_, fun j h => ?_, rfl⟩
    · simp [h]
    · simp [h]
  have sends : n₁.wire.sends i = left := by simp [same₁]
  have sent : n₁.wire.sent i = n.sent i ++ bytes := by simp [same₁]
  have after : n₁.wire.sockets i = some { sock with outputQueue := queue } := by simp [same₁]
  have open_ : ∀ n' : Net, n'.wire = n₁.wire → Gives i [] n.wire n'.wire := fun n' same => by
    rw [same]
    refine ⟨only, sends ▸ fewer, sock, _, found, after, rfl, .inl ⟨rfl, rfl, ?_, ?_⟩⟩
    · exact fun h => absurd (live sock found) h
    · rw [sent, List.append_assoc, all]
      simp
  split
  · rename_i broken
    refine (sockClose_shuts i).mono ?_ fun _ => id
    rintro _ n₂ ⟨sock₂, sock₃, before, same₂, calls, closed, -⟩
    rw [after, Option.some.injEq] at before
    subst before
    rw [same₂]
    refine ⟨only.trans (.put _ _ _), sends ▸ fewer, sock, sock₃, found,
      Wire.sockets_put_self _ _ _, calls, .inr ⟨live sock found, closed, failed broken,
        unsent queue, ?_⟩⟩
    rw [Wire.sent_put, sent, List.append_assoc, all]
    simp
  · split
    · exact (smDelEvents_wire _ _).mono (fun _ => open_) fun _ => id
    · exact (smAddEvents_wire _ _).mono (fun _ => open_) fun _ => id

private theorem gives_queued {i : SocketId} {w : Wire} {sock : Socket} (bytes : Bytes)
    (before : w.sockets i = some sock) :
    Gives i bytes w (w.put i (some { sock with
      outputQueue := sock.outputQueue ++ [itemNew bytes bytes.length 0] })) := by
  refine ⟨.put _ _ _, List.suffix_rfl, sock, _, before, Wire.sockets_put_self _ _ _, rfl,
    .inl ⟨rfl, rfl, fun _ => rfl, ?_⟩⟩
  simp

/-- Before its connection is complete a socket only queues. -/
theorem sockSend_queued {i : SocketId} {sock : Socket} (found : n.sockets i = some sock)
    (early : sock.status ≠ .connected) (bytes : Bytes) (more : Bool) :
    Ensures (sockSend i (some bytes) bytes.length more n) (fun _ n' =>
      n'.wire = n.wire.put i (some { sock with
        outputQueue := sock.outputQueue ++ [itemNew bytes bytes.length 0] })) Unrelated := by
  unfold sockSend
  rw [ensures_bind]
  refine (modifySocket_wire _ _).mono ?_ fun _ => id
  rintro _ n₁ ⟨sock₁, found₁, same₁⟩
  obtain rfl : sock = sock₁ := Option.some.inj (found.symm.trans found₁)
  rw [ensures_bind]
  apply ensures_getSocket
  intro sock₂ found₂
  have : n₁.wire.sockets i = some sock₂ := found₂
  rw [same₁, Wire.sockets_put_self, Option.some.injEq] at this
  subst this
  rw [if_neg fun h => early h.1]
  exact same₁

theorem sockSend_gives (i : SocketId) (bytes : Bytes) (more : Bool) :
    Ensures (sockSend i (some bytes) bytes.length more n)
      (fun _ n' => Gives i bytes n.wire n'.wire) Unrelated := by
  unfold sockSend
  rw [ensures_bind]
  refine (modifySocket_wire _ _).mono ?_ fun _ => id
  rintro _ n₁ ⟨sock, found, same₁⟩
  have queued : Gives i bytes n.wire n₁.wire := same₁ ▸ gives_queued bytes found
  rw [ensures_bind]
  apply ensures_getSocket
  intro sock₁ found₁
  split
  · rename_i ready
    refine (sockFlushData_gives fun sock₂ found₂ => ?_).mono (fun _ n₂ flushed => ?_) fun _ => id
    · rw [← Option.some.inj (found₁.symm.trans found₂)]
      exact ready.1
    · simpa using queued.trans flushed
  · exact queued

theorem sockSend_flush_gives {i : SocketId} (more : Bool) :
    Ensures (sockSend i none 0 more n) (fun _ n' => Gives i [] n.wire n'.wire) Unrelated := by
  unfold sockSend
  simp only
  rw [ensures_bind]
  apply ensures_getSocket
  intro sock found
  split
  · rename_i ready
    apply sockFlushData_gives
    intro sock₂ found₂
    rw [← Option.some.inj (found.symm.trans found₂)]
    exact ready.1
  · exact ⟨.refl _ _, List.suffix_rfl, sock, sock, found, found, rfl,
      .inl ⟨rfl, rfl, fun _ => rfl, by simp⟩⟩

def received (len : Nat) : RecvResult → Bytes
  | .data bytes => bytes.take len
  | .again | .fail => []

theorem sockRecv_spec (i : SocketId) (len : Nat) (answer : RecvResult) :
    Ensures (sockRecv i len answer n) (fun bytes n' => bytes = received len answer ∧
      (n' = n ∨ bytes = [] ∧ Shuts i n.wire n'.wire)) Unrelated := by
  unfold sockRecv
  rw [ensures_bind]
  apply ensures_getSocket
  intro sock found
  cases answer with
  | again => exact ⟨rfl, .inl rfl⟩
  | fail =>
    dsimp only
    rw [ensures_bind]
    exact (sockClose_shuts i).mono (fun _ n' shut => ⟨rfl, .inr ⟨rfl, shut⟩⟩) fun _ => id
  | data bytes =>
    dsimp only
    split
    · rename_i ended
      rw [ensures_bind]
      exact (sockClose_shuts i).mono (fun _ n' shut => ⟨rfl, .inr ⟨ended, shut⟩⟩) fun _ => id
    · exact ⟨rfl, .inl rfl⟩

theorem sockConnect_spec {i : SocketId} (host : Bytes) (port : Int) (answers : ConnectAnswers) :
    Ensures (sockConnect i host port answers n) (fun connected n' =>
      if connected then ∃ sock fd si, n.sockets i = some sock ∧ fd ≠ -1 ∧
        n'.wire = n.wire.put i (some { sock with fd, si := some si, status := .connecting })
      else ∃ sock, n'.wire = n.wire.put i sock) Unrelated := by
  unfold sockConnect
  split
  · exact ⟨n.wire.sockets i, (Wire.put_self i n.wire).symm⟩
  · rw [ensures_bind]
    refine (newFd_wire _).mono ?_ fun _ => id
    rintro fd n₁ ⟨same₁, -⟩
    rw [ensures_bind]
    refine (modifySocket_wire _ _).mono ?_ fun _ => id
    rintro _ n₂ ⟨sock, found, same₂⟩
    rw [same₁] at found same₂
    have failed : ∃ sock, n₂.wire = n.wire.put i sock := ⟨_, same₂⟩
    split
    · exact failed
    · rename_i opened
      split
      · exact failed
      · apply ensures_after (smAddSocket_wire _ _ _ _)
        intro si n₃ same₃
        rw [ensures_bind]
        refine (modifySocket_wire _ _).mono ?_ fun _ => id
        rintro _ n₄ ⟨sock₄, found₄, same₄⟩
        rw [ensures_bind]
        refine (modifySocket_wire _ _).mono ?_ fun _ => id
        rintro _ n₅ ⟨sock₅, found₅, same₅⟩
        rw [same₃, same₂, Wire.sockets_put_self, Option.some.injEq] at found₄
        subst found₄
        rw [same₄, Wire.sockets_put_self, Option.some.injEq] at found₅
        subst found₅
        rw [ensures_pure, if_pos rfl]
        refine ⟨sock, fd, si, found, opened, ?_⟩
        simp only [same₅, same₄, same₃, same₂, Wire.put_put]

theorem sockAccept_spec {i : SocketId} (answer : Option Nat) :
    Ensures (sockAccept i answer n) (fun client n' =>
      match client with
      | none => n'.wire = n.wire
      | some client => answer ≠ none ∧ client = n.nextSocket ∧ ∃ fd si, fd ≠ -1 ∧
          n'.wire = n.wire.push { initialSocket with
            fd, si := some si, status := .connected }) Unrelated := by
  unfold sockAccept
  rw [ensures_bind]
  apply ensures_getSocket
  intro _ _
  rw [ensures_bind]
  refine (newFd_wire _).mono ?_ fun _ => id
  rintro fd n₁ ⟨same₁, answered⟩
  split
  · exact same₁
  · rename_i opened
    rw [ensures_bind]
    refine sockNew_wire.mono ?_ fun _ => id
    rintro client n₂ ⟨fresh, same₂⟩
    rw [ensures_bind]
    refine (modifySocket_wire _ _).mono ?_ fun _ => id
    rintro _ n₃ ⟨sock₃, found₃, same₃⟩
    apply ensures_after (smAddSocket_wire _ _ _ _)
    intro si n₄ same₄
    rw [ensures_bind]
    refine (modifySocket_wire _ _).mono ?_ fun _ => id
    rintro _ n₅ ⟨sock₅, found₅, same₅⟩
    obtain rfl : client = n.wire.nextSocket := fresh.trans (congrArg Wire.nextSocket same₁)
    rw [same₁] at same₂
    rw [same₂, Wire.sockets_push_self, Option.some.injEq] at found₃
    rw [same₄, same₃, Wire.sockets_put_self, Option.some.injEq] at found₅
    subst found₃ found₅
    refine ⟨mt answered.mp opened, rfl, fd, si, opened, ?_⟩
    rw [same₅, same₄, same₃, same₂, Wire.put_put, Wire.put_push]

theorem sockSetDataCallback_wire (i : SocketId) (callback : DataCallback) :
    Ensures (sockSetDataCallback i callback n) (fun _ n' => ∃ sock, n.sockets i = some sock ∧
      n'.wire = n.wire.put i (some { sock with dataCallback := some callback })) Unrelated := by
  unfold sockSetDataCallback
  rw [ensures_bind]
  refine (modifySocket_wire _ _).mono ?_ fun _ => id
  rintro _ n₁ ⟨sock, found, same₁⟩
  rw [ensures_bind]
  apply ensures_getSocket
  intro sock₁ _
  split
  · refine (smAddEvents_wire _ _).mono (fun _ n₂ same₂ => ?_) fun _ => id
    exact ⟨sock, found, same₂.trans same₁⟩
  · exact ⟨sock, found, same₁⟩

theorem sockListen_spec {i : SocketId} (port : Int) (answers : ListenAnswers) :
    Ensures (sockListen i port answers n) (fun listening n' => listening = true →
      ∃ sock fd si, n.sockets i = some sock ∧ fd ≠ -1 ∧
        n'.wire = n.wire.put i (some { sock with fd, si := some si, status := .listening }))
      Unrelated := by
  unfold sockListen
  rw [ensures_bind]
  refine (newFd_wire _).mono ?_ fun _ => id
  rintro fd n₁ ⟨same₁, -⟩
  rw [ensures_bind]
  refine (modifySocket_wire _ _).mono ?_ fun _ => id
  rintro _ n₂ ⟨sock, found, same₂⟩
  rw [same₁] at found same₂
  split
  · exact nofun
  · rename_i opened
    split
    · exact nofun
    · split
      · exact nofun
      · rw [ensures_bind]
        refine (modifySocket_wire _ _).mono ?_ fun _ => id
        rintro _ n₃ ⟨sock₃, found₃, same₃⟩
        rw [ensures_bind]
        apply ensures_getSocket
        intro _ _
        apply ensures_after (smAddSocket_wire _ _ _ _)
        intro si n₄ same₄
        rw [ensures_bind]
        refine (modifySocket_wire _ _).mono ?_ fun _ => id
        rintro _ n₅ ⟨sock₅, found₅, same₅⟩
        rw [same₂, Wire.sockets_put_self, Option.some.injEq] at found₃
        subst found₃
        rw [same₄, same₃, Wire.sockets_put_self, Option.some.injEq] at found₅
        subst found₅
        refine fun _ => ⟨sock, fd, si, found, opened, ?_⟩
        rw [same₅, same₄, same₃, same₂, Wire.put_put, Wire.put_put]

theorem sockSetAcceptCallback_wire (i : SocketId) (callback : AcceptCallback) :
    Ensures (sockSetAcceptCallback i callback n) (fun _ n' => ∃ sock, n.sockets i = some sock ∧
      n'.wire = n.wire.put i (some { sock with acceptCallback := some callback })) Unrelated := by
  unfold sockSetAcceptCallback
  rw [ensures_bind]
  refine (modifySocket_wire _ _).mono ?_ fun _ => id
  rintro _ n₁ ⟨sock, found, same₁⟩
  rw [ensures_bind]
  apply ensures_getSocket
  intro sock₁ _
  split
  · refine (smAddEvents_wire _ _).mono (fun _ n₂ same₂ => ?_) fun _ => id
    exact ⟨sock, found, same₂.trans same₁⟩
  · exact ⟨sock, found, same₁⟩

end Functions

end Bosh
