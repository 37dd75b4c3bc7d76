import Bosh.Server.Run
import Bosh.Socket.Registry

/-! The output queue of one socket, over any calls of `sock_send` and any `EPOLLOUT` events. -/
namespace Bosh
open Effect Text

def sockWritable (i : SocketId) (errorCode : Int) : NetM Unit := do
  let sock ← getSocket i
  match sock.status with
  | .connecting =>
    if errorCode ≠ 0 then modifySocket i fun sock => { sock with status := .idle }
    else
      modifySocket i fun sock => { sock with status := .connected }
      if sock.dataCallback.isSome then smAddEvents sock.si .epollIn
  | .connected => sockFlushData i
  | .idle | .listening => pure ()

/-- The callback for an `EPOLLOUT` event does this, and tells of a connection's completion. -/
theorem socketCallback_output {Iks : Type} [Iksemel Iks] {events : Events} {i : SocketId}
    {s : Server Iks} {sock : Socket} (fine : ¬ (events.error ∨ events.hangup))
    (output : events.output) (here : s.net.sockets i = some sock) :
    socketCallback events i s = (do
      onNet (sockWritable i s.oracle.socketError)
      if sock.status = .connecting then
        sock.connectCallback.elim (pure ()) (runConnectCallback s.oracle.socketError) :
          ServerM Iks Unit) s := by
  have read : onNet (getSocket i) s = .ok (sock, s) := onNet_run (getSocket_run here)
  unfold socketCallback sockWritable
  rw [onNet_bind, bind_assoc, run_bind_ok read, run_bind_ok read, run_get, if_neg fine,
    if_pos output]
  cases status : sock.status with
  | idle | listening => rfl
  | connected => simp
  | connecting =>
    dsimp only
    rw [if_pos rfl]
    by_cases failed : s.oracle.socketError ≠ 0
    · rw [if_pos failed, if_pos failed]
      cases sock.connectCallback <;> rfl
    · rw [if_neg failed, if_neg failed, onNet_bind, bind_assoc]
      cases sock.dataCallback <;> cases sock.connectCallback <;> rfl

inductive SocketOp where
  | send (buffer : Option Bytes) (more : Bool)
  | writable (errorCode : Int)
  deriving DecidableEq

namespace SocketOp

def run (i : SocketId) : SocketOp → NetM Unit
  | send buffer more => sockSend i buffer ((buffer.map List.length).getD 0) more
  | writable errorCode => sockWritable i errorCode

def given : SocketOp → Bytes
  | send buffer _ => buffer.getD []
  | writable _ => []

def items : SocketOp → List QueueItem
  | send (some buffer) _ => [itemNew buffer buffer.length 0]
  | send none _ | writable _ => []

def flushes : SocketOp → Bool
  | send _ more => !more
  | writable _ => true

theorem unsent_items (op : SocketOp) : unsent op.items = op.given := by
  rcases op with ⟨_ | buffer, more⟩ | errorCode <;> simp [items, given]

end SocketOp

/-- What is left of a socket for its output. -/
structure Outlet where
  queue : List QueueItem
  sends : List SendResult
  sent : Bytes
  fd : Int
  status : SocketStatus
  deriving DecidableEq

def Wire.outlet (i : SocketId) (w : Wire) : Option Outlet :=
  (w.sockets i).map fun sock => ⟨sock.outputQueue, w.sends i, w.sent i, sock.fd, sock.status⟩

namespace Outlet

def flush (o : Outlet) : Outlet :=
  match flushQueue o.queue o.sends with
  | (_, left, bytes, .failed) => ⟨[], left, o.sent ++ bytes, -1, .idle⟩
  | (queue, left, bytes, _) => { o with queue, sends := left, sent := o.sent ++ bytes }

def queued (op : SocketOp) (o : Outlet) : Outlet := { o with queue := o.queue ++ op.items }

def step (op : SocketOp) (o : Outlet) : Outlet :=
  if o.status = .connected ∧ op.flushes = true then (o.queued op).flush
  else
    match op with
    | .writable errorCode =>
      if o.status = .connecting then
        { o with status := if errorCode ≠ 0 then .idle else .connected }
      else o
    | .send _ _ => o.queued op

def Valid (o : Outlet) : Prop := ∀ item ∈ o.queue, item.offset ≤ item.len

def Breaks (op : SocketOp) (o : Outlet) : Prop :=
  o.status = .connected ∧ op.flushes = true ∧
    (flushQueue (o.queued op).queue o.sends).2.2.2 = .failed

instance (op : SocketOp) (o : Outlet) : Decidable (o.Breaks op) :=
  inferInstanceAs (Decidable (_ ∧ _))

def Intact : List SocketOp → Outlet → Prop
  | [], _ => True
  | op :: ops, o => ¬ o.Breaks op ∧ (o.step op).Intact ops

variable {o : Outlet} {op : SocketOp}

theorem flush_eq {queue : List QueueItem} {left : List SendResult} {bytes : Bytes} {how : Flushed}
    (ran : flushQueue o.queue o.sends = (queue, left, bytes, how)) :
    o.flush = if how = .failed then ⟨[], left, o.sent ++ bytes, -1, .idle⟩
      else { o with queue, sends := left, sent := o.sent ++ bytes } := by
  unfold flush
  rw [ran]
  cases how <;> rfl

theorem step_flushed (live : o.status = .connected) (flushes : op.flushes = true) :
    o.step op = (o.queued op).flush := if_pos ⟨live, flushes⟩

theorem step_waiting (quiet : ¬ (o.status = .connected ∧ op.flushes = true)) :
    (o.step op).queue = o.queue ++ op.items ∧ (o.step op).sends = o.sends ∧
      (o.step op).sent = o.sent ∧ (o.step op).fd = o.fd := by
  unfold step
  rw [if_neg quiet]
  cases op with
  | send buffer more => exact ⟨rfl, rfl, rfl, rfl⟩
  | writable errorCode =>
    dsimp only
    split <;> exact ⟨by simp [SocketOp.items], rfl, rfl, rfl⟩

theorem step_breaks (breaks : o.Breaks op) :
    (o.step op).queue = [] ∧ (o.step op).fd = -1 ∧ (o.step op).status = .idle := by
  obtain ⟨live, flushes, failed⟩ := breaks
  rcases ran : flushQueue (o.queued op).queue o.sends with ⟨queue, left, bytes, how⟩
  rw [ran] at failed
  rw [step_flushed live flushes, flush_eq (o := o.queued op) ran, if_pos failed]
  exact ⟨rfl, rfl, rfl⟩

theorem step_intact (intact : ¬ o.Breaks op) :
    (o.step op).sent ++ unsent (o.step op).queue = o.sent ++ unsent o.queue ++ op.given ∧
      (o.step op).fd = o.fd := by
  by_cases quiet : o.status = .connected ∧ op.flushes = true
  · rcases ran : flushQueue (o.queued op).queue o.sends with ⟨queue, left, bytes, how⟩
    obtain ⟨all, -, -⟩ := flushQueue_spec _ _ _ _ _ _ ran
    have sound : how ≠ .failed := fun failed => intact ⟨quiet.1, quiet.2, by rw [ran]; exact failed⟩
    rw [step_flushed quiet.1 quiet.2, flush_eq (o := o.queued op) ran, if_neg sound]
    refine ⟨?_, rfl⟩
    change o.sent ++ bytes ++ unsent queue = _
    rw [List.append_assoc, all, queued, unsent_append, op.unsent_items, List.append_assoc]
  · obtain ⟨queue, -, sent, fd⟩ := step_waiting quiet
    rw [queue, sent, unsent_append, op.unsent_items, List.append_assoc]
    exact ⟨rfl, fd⟩

/-- A closed socket only queues. -/
theorem step_idle (idle : o.status = .idle) : o.step op = o.queued op := by
  unfold step
  rw [if_neg (by simp [idle])]
  cases op with
  | send buffer more => rfl
  | writable errorCode =>
    have early : ¬ o.status = .connecting := by simp [idle]
    simp [early, queued, SocketOp.items]

theorem flushItem_offset (results : List SendResult) {item : QueueItem}
    (valid : item.offset ≤ item.len) :
    (flushItem item results).1.offset ≤ (flushItem item results).1.len := by
  induction results generalizing item with
  | nil =>
    unfold flushItem
    split <;> exact valid
  | cons result results ih =>
    unfold flushItem
    split
    · split
      · exact valid
      · exact ih (by simp only; omega)
      · exact valid
      · exact valid
    · exact valid

theorem flushQueue_offset (results : List SendResult) {queue : List QueueItem}
    (valid : ∀ item ∈ queue, item.offset ≤ item.len) :
    ∀ item ∈ (flushQueue queue results).1, item.offset ≤ item.len := by
  induction queue generalizing results with
  | nil => exact valid
  | cons item queue ih =>
    obtain ⟨first, rest⟩ := List.forall_mem_cons.mp valid
    unfold flushQueue
    split
    · exact ih _ rest
    · rename_i ran
      have kept := flushItem_offset results first
      rw [ran] at kept
      exact List.forall_mem_cons.mpr ⟨kept, rest⟩

theorem Valid.queued (valid : o.Valid) (op : SocketOp) : (o.queued op).Valid := by
  refine List.forall_mem_append.mpr ⟨valid, ?_⟩
  rcases op with ⟨_ | buffer, more⟩ | errorCode <;> simp [SocketOp.items, itemNew]

theorem Valid.step (valid : o.Valid) (op : SocketOp) : (o.step op).Valid := by
  by_cases quiet : o.status = .connected ∧ op.flushes = true
  · rcases ran : flushQueue (o.queued op).queue o.sends with ⟨queue, left, bytes, how⟩
    have kept := flushQueue_offset o.sends (valid.queued op)
    rw [ran] at kept
    rw [step_flushed quiet.1 quiet.2, flush_eq (o := o.queued op) ran]
    split
    · simp [Valid]
    · exact kept
  · unfold Valid
    rw [(step_waiting quiet).1]
    exact valid.queued op

def steps (ops : List SocketOp) (o : Outlet) : Outlet := ops.foldl (fun o op => o.step op) o

variable {ops : List SocketOp}

theorem Valid.steps (valid : o.Valid) (ops : List SocketOp) : (o.steps ops).Valid := by
  induction ops generalizing o with
  | nil => exact valid
  | cons op ops ih => exact ih (valid.step op)

theorem steps_intact (intact : o.Intact ops) :
    (o.steps ops).sent ++ unsent (o.steps ops).queue =
        o.sent ++ unsent o.queue ++ ops.flatMap SocketOp.given ∧ (o.steps ops).fd = o.fd := by
  induction ops generalizing o with
  | nil => simp [steps]
  | cons op ops ih =>
    obtain ⟨here, later⟩ := intact
    obtain ⟨bytes, fd⟩ := step_intact here
    obtain ⟨bytes', fd'⟩ := ih later
    refine ⟨?_, fd'.trans fd⟩
    rw [List.flatMap_cons, ← List.append_assoc, ← bytes]
    exact bytes'

theorem steps_idle (idle : o.status = .idle) :
    o.steps ops = { o with queue := o.queue ++ ops.flatMap SocketOp.items } := by
  induction ops generalizing o with
  | nil => simp [steps]
  | cons op ops ih =>
    have first : o.steps (op :: ops) = (o.queued op).steps ops := by
      rw [← step_idle idle]
      rfl
    rw [first, ih (o := o.queued op) idle, List.flatMap_cons, queued, List.append_assoc]

/-- An open socket is closed by a failing `send` and by nothing else. -/
theorem intact_iff_open (opened : o.fd ≠ -1) : o.Intact ops ↔ (o.steps ops).fd ≠ -1 := by
  induction ops generalizing o with
  | nil => exact iff_of_true trivial opened
  | cons op ops ih =>
    by_cases breaks : o.Breaks op
    · obtain ⟨-, closed, idle⟩ := step_breaks breaks
      have shut : (o.steps (op :: ops)).fd = -1 := by
        change ((o.step op).steps ops).fd = -1
        rw [steps_idle idle]
        exact closed
      exact iff_of_false (fun intact => intact.1 breaks) fun still => still shut
    · have same := (step_intact breaks).2
      exact (and_iff_right breaks).trans (ih (by rwa [same]))

end Outlet

section Code
variable {i : SocketId} {n : Net} {w : Wire} {sock : Socket}

theorem outlet_of (here : w.sockets i = some sock) :
    w.outlet i = some ⟨sock.outputQueue, w.sends i, w.sent i, sock.fd, sock.status⟩ := by
  rw [Wire.outlet, here, Option.map_some]

theorem outlet_put (sock : Socket) :
    (w.put i (some sock)).outlet i =
      some ⟨sock.outputQueue, w.sends i, w.sent i, sock.fd, sock.status⟩ :=
  outlet_of (Wire.sockets_put_self _ _ _)

theorem sockFlushData_outlet (here : n.sockets i = some sock) :
    Ensures (sockFlushData i n) (fun _ n' => n'.wire.outlet i = some (Outlet.flush
      ⟨sock.outputQueue, n.sends i, n.sent i, sock.fd, sock.status⟩)) Unrelated := by
  unfold sockFlushData
  rw [ensures_bind]
  apply ensures_getSocket
  intro sock₁ found
  obtain rfl : sock = sock₁ := Option.some.inj (here.symm.trans found)
  rw [ensures_bind, ensures_get]
  rcases ran : flushQueue sock.outputQueue (n.sends i) with ⟨queue, left, bytes, how⟩
  rw [Outlet.flush_eq (o := ⟨sock.outputQueue, n.sends i, n.sent i, sock.fd, sock.status⟩) ran]
  dsimp only
  rw [ensures_bind, ensures_set, ensures_bind]
  refine (modifySocket_wire _ _).mono ?_ fun _ => id
  rintro _ n₁ ⟨sock₁, found₁, same₁⟩
  obtain rfl : sock = sock₁ := Option.some.inj (found.symm.trans found₁)
  have sends : n₁.wire.sends i = left := by simp [same₁]
  have sent : n₁.wire.sent i = n.sent i ++ bytes := by simp [same₁]
  have after : n₁.wire.sockets i = some { sock with outputQueue := queue } := by simp [same₁]
  have open_ : ∀ n' : Net, n'.wire = n₁.wire → n'.wire.outlet i =
      some ⟨queue, left, n.sent i ++ bytes, sock.fd, sock.status⟩ := fun n' same => by
    rw [same, outlet_of after, sends, sent]
  split
  · refine (sockClose_shuts i).mono ?_ fun _ => id
    rintro _ n₂ ⟨_, sock₂, -, same₂, -, closed, empty⟩
    rw [same₂, outlet_put, sends, sent, closed.1, closed.2, empty]
  · split
    · exact (smDelEvents_wire _ _).mono (fun _ => open_) fun _ => id
    · exact (smAddEvents_wire _ _).mono (fun _ => open_) fun _ => id

theorem sockSend_end {o : Outlet} (more : Bool) (shown : n.wire.outlet i = some o) :
    Ensures ((do
      let sock ← getSocket i
      if sock.status = SocketStatus.connected ∧ more = false then sockFlushData i) n)
      (fun _ n' => n'.wire.outlet i =
        some (if o.status = .connected ∧ more = false then o.flush else o)) Unrelated := by
  rw [ensures_bind]
  apply ensures_getSocket
  intro sock here
  obtain rfl := Option.some.inj ((outlet_of (w := n.wire) here).symm.trans shown)
  by_cases ready : sock.status = .connected ∧ more = false
  · rw [if_pos ready, if_pos ready]
    exact sockFlushData_outlet here
  · rw [if_neg ready, if_neg ready]
    exact shown

theorem sockSend_outlet {o : Outlet} (buffer : Option Bytes) (more : Bool)
    (shown : n.wire.outlet i = some o) :
    Ensures (sockSend i buffer ((buffer.map List.length).getD 0) more n) (fun _ n' =>
      n'.wire.outlet i = some (o.step (.send buffer more))) Unrelated := by
  have result : o.step (.send buffer more) = if o.status = .connected ∧ more = false
      then (o.queued (.send buffer more)).flush else o.queued (.send buffer more) := by
    simp [Outlet.step, SocketOp.flushes]
  rw [result]
  unfold sockSend
  cases buffer with
  | none =>
    have nothing : o.queued (.send none more) = o := by simp [Outlet.queued, SocketOp.items]
    rw [nothing]
    exact sockSend_end more shown
  | some buffer =>
    rw [ensures_bind]
    refine (modifySocket_wire _ _).mono ?_ fun _ => id
    rintro _ n₁ ⟨sock, here, same⟩
    obtain rfl := Option.some.inj ((outlet_of here).symm.trans shown)
    have queued : n₁.wire.outlet i = some (Outlet.queued (.send (some buffer) more)
        ⟨sock.outputQueue, n.wire.sends i, n.wire.sent i, sock.fd, sock.status⟩) := by
      rw [same, outlet_put]
      rfl
    exact sockSend_end more queued

theorem sockWritable_outlet {o : Outlet} (errorCode : Int) (shown : n.wire.outlet i = some o) :
    Ensures (sockWritable i errorCode n) (fun _ n' =>
      n'.wire.outlet i = some (o.step (.writable errorCode))) Unrelated := by
  unfold sockWritable
  rw [ensures_bind]
  apply ensures_getSocket
  intro sock here
  obtain rfl := Option.some.inj ((outlet_of (w := n.wire) here).symm.trans shown)
  have put : ∀ status, Ensures (modifySocket i (fun sock => { sock with status }) n) (fun _ n' =>
      n'.wire.outlet i = some ⟨sock.outputQueue, n.sends i, n.sent i, sock.fd,
        status⟩) Unrelated := by
    intro status
    refine (modifySocket_wire _ _).mono ?_ fun _ => id
    rintro _ n₁ ⟨sock₁, here₁, same⟩
    obtain rfl : sock = sock₁ := Option.some.inj (here.symm.trans here₁)
    rw [same, outlet_put]
    rfl
  cases status : sock.status with
  | idle | listening =>
    rw [status] at shown
    exact shown
  | connected =>
    have flushed := sockFlushData_outlet (n := n) here
    rw [status] at flushed
    simpa [Outlet.step, SocketOp.flushes, Outlet.queued, SocketOp.items] using flushed
  | connecting =>
    by_cases refused : errorCode ≠ 0
    · rw [if_pos refused]
      simpa [Outlet.step, refused] using put .idle
    · rw [if_neg refused, ensures_bind]
      refine (put .connected).mono (fun _ n₁ shown₁ => ?_) fun _ => id
      have after : Outlet.step (.writable errorCode)
          ⟨sock.outputQueue, n.wire.sends i, n.wire.sent i, sock.fd, .connecting⟩ =
            ⟨sock.outputQueue, n.sends i, n.sent i, sock.fd, .connected⟩ := by
        simp [Outlet.step, refused]
      rw [after]
      split
      · exact (smAddEvents_wire _ _).mono (fun _ n₂ same => same ▸ shown₁) fun _ => id
      · exact shown₁

theorem SocketOp.run_outlet {o : Outlet} (op : SocketOp) (shown : n.wire.outlet i = some o) :
    Ensures (op.run i n) (fun _ n' => n'.wire.outlet i = some (o.step op)) Unrelated := by
  cases op with
  | send buffer more => exact sockSend_outlet buffer more shown
  | writable errorCode => exact sockWritable_outlet errorCode shown

def sockRun (i : SocketId) (ops : List SocketOp) : NetM Unit := ops.forM (SocketOp.run i)

theorem sockRun_cons (op : SocketOp) (ops : List SocketOp) :
    sockRun i (op :: ops) = op.run i >>= fun _ => sockRun i ops := by
  simp [sockRun]

theorem sockRun_outlet {o : Outlet} (ops : List SocketOp) (shown : n.wire.outlet i = some o) :
    Ensures (sockRun i ops n) (fun _ n' => n'.wire.outlet i = some (o.steps ops)) Unrelated := by
  induction ops generalizing n o with
  | nil => exact shown
  | cons op ops ih =>
    rw [sockRun_cons, ensures_bind]
    exact (op.run_outlet shown).mono (fun _ n₁ shown₁ => ih shown₁) fun _ => id

theorem sockRun_append (before after : List SocketOp) :
    sockRun i (before ++ after) = sockRun i before >>= fun _ => sockRun i after := by
  induction before with
  | nil => simp [sockRun]
  | cons op before ih => rw [List.cons_append, sockRun_cons, ih, sockRun_cons, bind_assoc]

theorem sockWritable_tidy (h : n.Tidy (some i)) (here : n.sockets i = some sock) (errorCode : Int) :
    Ensures (sockWritable i errorCode n) (fun _ n' => n'.Tidy (some i)) fun _ => False := by
  unfold sockWritable
  rw [run_bind_ok (getSocket_run here)]
  cases status : sock.status with
  | idle | listening => exact h
  | connected =>
    refine (sockFlushData_tidy h (only_self i) here status).mono (fun _ n' h' => ?_) fun _ => id
    exact h'.engage (only_none i)
  | connecting =>
    dsimp only
    split
    · rw [modifySocket_run here]
      exact h.edit (only_self i) here rfl rfl (.inr (.inl rfl))
    · have h₁ : (n.setSocket i (some { sock with status := .connected })).Tidy (some i) :=
        h.edit (only_self i) here rfl rfl (.inr (.inr ⟨status, rfl⟩))
      have here₁ : (n.setSocket i (some { sock with status := .connected })).sockets i =
          some { sock with status := .connected } := Function.update_self ..
      rw [run_bind_ok (modifySocket_run here _)]
      split
      · exact smAddEvents_tidy h₁ here₁ (h₁.live here₁ rfl) (only_self i) (.inr rfl)
      · exact h₁

theorem SocketOp.run_tidy (op : SocketOp) (h : n.Tidy (some i)) (here : n.sockets i = some sock) :
    Ensures (op.run i n) (fun _ n' => n'.Tidy (some i)) fun _ => False := by
  cases op with
  | send buffer more =>
    apply (sockSend_tidy h (only_self i) _ _ more).mono (fun _ n' => And.left)
    intro _ absent
    rw [here] at absent
    cases absent
  | writable errorCode => exact sockWritable_tidy h here errorCode

theorem sockRun_returns {o : Outlet} (ops : List SocketOp) (h : n.Tidy (some i))
    (shown : n.wire.outlet i = some o) : ∃ n', sockRun i ops n = .ok ((), n') := by
  induction ops generalizing n o with
  | nil => exact ⟨n, rfl⟩
  | cons op ops ih =>
    obtain ⟨sock, here, -⟩ := Option.map_eq_some_iff.mp shown
    have tidy := op.run_tidy h here
    rcases ran : op.run i n with fault | ⟨_, n₁⟩
    · exact (tidy.of_error ran).elim
    · obtain ⟨n', rest⟩ := ih (tidy.of_ok ran) ((op.run_outlet shown).of_ok ran)
      exact ⟨n', by rw [sockRun_cons, run_bind_ok ran, rest]⟩

end Code

/-- The output queue of an open socket, and what the kernel has accepted, make up a stream that
every buffer is appended to. A fatal error empties the queue; what is queued after it stays. -/
theorem sockRun_refines {n : Net} {i : SocketId} {o : Outlet} (shown : n.wire.outlet i = some o)
    (opened : o.fd ≠ -1) (valid : o.Valid) (ops : List SocketOp) :
    (n.Tidy (some i) → ∃ n', sockRun i ops n = .ok ((), n')) ∧
    ∀ n', sockRun i ops n = .ok ((), n') → ∃ o', n'.wire.outlet i = some o' ∧ o'.Valid ∧
      (o'.fd ≠ -1 → o'.sent ++ unsent o'.queue =
        o.sent ++ unsent o.queue ++ ops.flatMap SocketOp.given) ∧
      ∀ before op after, ops = before ++ op :: after → ∃ n₁ o₁ n₂ o₂,
        sockRun i before n = .ok ((), n₁) ∧ n₁.wire.outlet i = some o₁ ∧
        op.run i n₁ = .ok ((), n₂) ∧ n₂.wire.outlet i = some o₂ ∧
        (o₁.Breaks op → o₂.queue = [] ∧ o₂.status = .idle ∧
          o' = { o₂ with queue := after.flatMap SocketOp.items }) := by
  refine ⟨fun h => sockRun_returns ops h shown, fun n' ran => ?_⟩
  refine ⟨o.steps ops, (sockRun_outlet ops shown).of_ok ran, valid.steps ops, fun still => ?_, ?_⟩
  · exact (Outlet.steps_intact ((Outlet.intact_iff_open opened).mpr still)).1
  · rintro before op after rfl
    rw [sockRun_append] at ran
    rcases first : sockRun i before n with fault | ⟨_, n₁⟩
    · rw [run_bind_error first] at ran
      cases ran
    · rw [run_bind_ok first, sockRun_cons] at ran
      have shown₁ := (sockRun_outlet before shown).of_ok first
      rcases second : op.run i n₁ with fault | ⟨_, n₂⟩
      · rw [run_bind_error second] at ran
        cases ran
      · have shown₂ := (op.run_outlet shown₁).of_ok second
        refine ⟨n₁, _, n₂, _, rfl, shown₁, second, shown₂, fun breaks => ?_⟩
        obtain ⟨empty, -, idle⟩ := Outlet.step_breaks breaks
        have whole : o.steps (before ++ op :: after) = ((o.steps before).step op).steps after := by
          simp [Outlet.steps]
        rw [whole, Outlet.steps_idle idle, empty]
        exact ⟨rfl, idle, rfl⟩

namespace Sample

theorem accept_works : (replay (fun _ _ => True) boot (accept 4 1)).isSome := by decide +kernel

def accepted (results : List SendResult) : Net :=
  { (reached (fun _ _ => True) (accept 4 1) accept_works).server.net with sends := fun _ => results }

def outletAfter (ops : List SocketOp) (results : List SendResult) : Option Outlet :=
  (sockRun 1 ops (accepted results)).toOption.bind fun result => result.2.wire.outlet 1

theorem outletAfter_eq {ops : List SocketOp} {results : List SendResult} {o : Outlet}
    (known : outletAfter ops results = some o) :
    ∃ n', sockRun 1 ops (accepted results) = .ok ((), n') ∧ n'.wire.outlet 1 = some o := by
  unfold outletAfter at known
  cases ran : sockRun 1 ops (accepted results) with
  | error fault =>
    rw [ran] at known
    cases known
  | ok result =>
    rw [ran] at known
    exact ⟨result.2, rfl, known⟩

end Sample

theorem sockRun_refines_partial :
    ∃ n' o', sockRun 1 [.send (ascii "ab") true, .send (ascii "c") false]
        (Sample.accepted [.count 1, .again]) = .ok ((), n') ∧ n'.wire.outlet 1 = some o' ∧
      o'.sent = ascii "a" ∧ o'.sent ++ unsent o'.queue = ascii "abc" := by
  let queue : List QueueItem := [⟨ascii "ab", 2, 1⟩, ⟨ascii "c", 1, 0⟩]
  obtain ⟨n', ran, shown⟩ : ∃ n', sockRun 1 [.send (ascii "ab") true, .send (ascii "c") false]
      (Sample.accepted [.count 1, .again]) = .ok ((), n') ∧
        n'.wire.outlet 1 = some ⟨queue, [], ascii "a", 4, .connected⟩ :=
    Sample.outletAfter_eq (by decide +kernel)
  have start : (Sample.accepted [.count 1, .again]).wire.outlet 1 =
      some ⟨[], [.count 1, .again], [], 4, .connected⟩ := by decide +kernel
  obtain ⟨o', shown', -, stream, -⟩ :=
    (sockRun_refines start (by simp) (by simp [Outlet.Valid]) _).2 n' ran
  obtain rfl := Option.some.inj (shown.symm.trans shown')
  exact ⟨n', _, ran, shown, rfl, stream (by simp)⟩

/-- A call of `sock_send` after the failure puts its buffer into the queue of the closed socket. -/
theorem sockRun_refines_closed :
    ¬ ∀ (n : Net) (i : SocketId) (ops : List SocketOp) (o : Outlet) (n' : Net) (o' : Outlet),
      n.wire.outlet i = some o → o.fd ≠ -1 → o.Valid → ¬ o.Intact ops →
        sockRun i ops n = .ok ((), n') → n'.wire.outlet i = some o' → o'.queue = [] :=
      fun claim => by
  obtain ⟨n', ran, shown⟩ : ∃ n', sockRun 1 [.send (ascii "a") false, .send (ascii "b") false]
      (Sample.accepted [.fail]) = .ok ((), n') ∧
        n'.wire.outlet 1 = some ⟨[⟨ascii "b", 1, 0⟩], [], [], -1, .idle⟩ :=
    Sample.outletAfter_eq (by decide +kernel)
  have start : (Sample.accepted [.fail]).wire.outlet 1 =
      some ⟨[], [.fail], [], 4, .connected⟩ := by decide +kernel
  have closed : ¬ Outlet.Intact [.send (ascii "a") false, .send (ascii "b") false]
      ⟨[], [.fail], [], 4, .connected⟩ := fun intact => intact.1 (by decide)
  have empty := claim _ _ _ _ n' _ start (by simp) (by simp [Outlet.Valid]) closed ran shown
  cases empty

end Bosh
