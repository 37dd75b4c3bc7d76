import Bosh.Socket.Poll

/-! Which record a socket has, and what the kernel watches for it. -/
namespace Bosh
open Effect Text

/-- The socket's record is that of its descriptor, and calls back this socket alone. -/
structure Net.Registers (n : Net) (i : SocketId) (sock : Socket) (si : InfoId) (info : SocketInfo) :
    Prop where
  held : sock.si = some si
  record : n.infos si = some info
  descriptor : info.socketFd = sock.fd
  callback : info.callback = some .socketCallback
  userData : info.userData = some i
  watched : n.interest sock.fd = some (info.events, si)
  opened : n.openFds sock.fd = true

/-- A socket is closed, or it is registered and what it has to send waits for a write event;
this last is not asked of the socket that a function is still busy sending on. -/
inductive Net.Watches (n : Net) (busy : Option SocketId) (i : SocketId) (sock : Socket) : Prop where
  | closed : sock.fd = -1 → sock.si = none → sock.status = .idle → Watches n busy i sock
  | opened {si : InfoId} {info : SocketInfo} : sock.fd ≠ -1 → n.Registers i sock si info →
      (sock.status = .connecting → info.events.output = true) →
      (sock.status = .connected → sock.outputQueue ≠ [] → busy ≠ some i → info.events.output = true) →
      Watches n busy i sock

def Net.active (n : Net) : Nat :=
  (List.range n.nextInfo).countP fun si => ((n.infos si).bind SocketInfo.callback).isSome

structure Net.Tidy (busy : Option SocketId) (n : Net) : Prop where
  monitored : n.Monitored
  below : ∀ i, (n.sockets i).isSome → i < n.nextSocket
  unwatched : ∀ fd, n.openFds fd = false → n.interest fd = none
  sockets : ∀ i sock, n.sockets i = some sock → n.Watches busy i sock
  records : ∀ si info, n.infos si = some info → info.callback ≠ none →
    ∃ i sock, n.sockets i = some sock ∧ sock.si = some si
  counted : n.socketCount = n.active

section Tidy
variable {n n' : Net} {busy busy' : Option SocketId} {i j : SocketId} {sock sock' : Socket}
  {si si' : InfoId} {info info' : SocketInfo}

/-- A socket depends on its own record and its own descriptor. -/
theorem Net.Watches.frame (watches : n.Watches busy i sock)
    (infos : ∀ si, sock.si = some si → n'.infos si = n.infos si)
    (interest : sock.fd ≠ -1 → n'.interest sock.fd = n.interest sock.fd)
    (openFds : sock.fd ≠ -1 → n'.openFds sock.fd = n.openFds sock.fd)
    (covers : busy' ≠ some i → busy ≠ some i) : n'.Watches busy' i sock := by
  cases watches with
  | closed fd si status => exact .closed fd si status
  | opened fd registers connecting connected =>
    refine .opened fd { registers with
      record := (infos _ registers.held).trans registers.record
      watched := (interest fd).trans registers.watched
      opened := (openFds fd).trans registers.opened } connecting fun live waiting idle => ?_
    exact connected live waiting (covers idle)

structure Net.SameMonitor (n n' : Net) : Prop extends SameTable n n' where
  registrations : n'.registrations = n.registrations
  infos : n'.infos = n.infos
  interest : n'.interest = n.interest

theorem Net.SameMonitor.monitored (same : n.SameMonitor n') (h : n.Monitored) : n'.Monitored where
  distinct := by
    rw [same.socketHash]
    exact h.distinct
  hashed := by
    rw [same.socketHash, same.infos]
    exact h.hashed
  below := by
    rw [same.infos, same.nextInfo]
    exact h.below
  watched := by
    rw [same.interest, same.socketHash]
    exact h.watched
  earlier := by
    rw [same.infos, same.registrations]
    exact h.earlier

theorem Net.sameMonitor_setSocket (i : SocketId) (sock : Option Socket) (n : Net) :
    n.SameMonitor (n.setSocket i sock) := ⟨⟨rfl, rfl⟩, rfl, rfl, rfl⟩

theorem Net.Watches.keep (watches : n.Watches busy i sock) (same : n.SameMonitor n')
    (openFds : n'.openFds = n.openFds) (covers : busy' ≠ some i → busy ≠ some i) :
    n'.Watches busy' i sock := by
  apply watches.frame
  · exact fun si _ => congrFun same.infos si
  · exact fun _ => congrFun same.interest sock.fd
  · exact fun _ => congrFun openFds sock.fd
  · exact covers

theorem Net.Tidy.keep (h : n.Tidy busy) (same : n.SameMonitor n') (openFds : n'.openFds = n.openFds)
    (count : n'.socketCount = n.socketCount)
    (below : ∀ i, (n'.sockets i).isSome → i < n'.nextSocket)
    (sockets : ∀ i sock, n'.sockets i = some sock → n'.Watches busy' i sock)
    (records : ∀ si i sock, n.sockets i = some sock → sock.si = some si →
      ∃ i sock, n'.sockets i = some sock ∧ sock.si = some si) : n'.Tidy busy' where
  monitored := same.monitored h.monitored
  below := below
  unwatched := by
    rw [openFds, same.interest]
    exact h.unwatched
  sockets := sockets
  records si info there used := by
    rw [same.infos] at there
    obtain ⟨i, sock, here, mine⟩ := h.records si info there used
    exact records si i sock here mine
  counted := by
    rw [count, h.counted, Net.active, Net.active, same.nextInfo, same.infos]

theorem Net.Registers.edit (registers : n.Registers i sock si info) (fd : sock'.fd = sock.fd)
    (held : sock'.si = sock.si) : n.Registers i sock' si info where
  held := held.trans registers.held
  record := registers.record
  descriptor := registers.descriptor.trans fd.symm
  callback := registers.callback
  userData := registers.userData
  watched := fd ▸ registers.watched
  opened := fd ▸ registers.opened

theorem Net.Registers.unique (monitored : n.Monitored) (one : n.Registers i sock si info)
    (other : n.Registers j sock' si' info') (shared : si = si' ∨ sock.fd = sock'.fd) : i = j := by
  have same : si = si' := by
    rcases shared with same | fd
    · exact same
    · have mine := (monitored.hashed sock.fd si).mpr ⟨info, one.record, one.descriptor⟩
      have yours := (monitored.hashed sock'.fd si').mpr ⟨info', other.record, other.descriptor⟩
      rw [fd, yours] at mine
      exact (Option.some.inj mine).symm
  subst same
  obtain rfl := Option.some.inj (one.record.symm.trans other.record)
  exact Option.some.inj (one.userData.symm.trans other.userData)

namespace Net.Tidy

theorem registers (h : n.Tidy busy) (here : n.sockets i = some sock) (opened : sock.fd ≠ -1) :
    ∃ si info, n.Registers i sock si info := by
  cases h.sockets i sock here with
  | closed fd => exact absurd fd opened
  | opened _ registers => exact ⟨_, _, registers⟩

theorem of_si (h : n.Tidy busy) (here : n.sockets i = some sock) (registered : sock.si = some si) :
    sock.fd ≠ -1 ∧ ∃ info, n.Registers i sock si info := by
  cases h.sockets i sock here with
  | closed _ nothing => rw [nothing] at registered; cases registered
  | opened fd registers =>
    obtain rfl := Option.some.inj (registers.held.symm.trans registered)
    exact ⟨fd, _, registers⟩

theorem apart (h : n.Tidy busy) (registers : n.Registers i sock si info)
    (there : n.sockets j = some sock') (other : j ≠ i) :
    sock'.si ≠ some si ∧ (sock'.fd ≠ -1 → sock'.fd ≠ sock.fd) := by
  refine ⟨fun shared => ?_, fun opened shared => ?_⟩
  · obtain ⟨-, info', registers'⟩ := h.of_si there shared
    exact other (registers'.unique h.monitored registers (.inl rfl))
  · obtain ⟨si', info', registers'⟩ := h.registers there opened
    exact other (registers'.unique h.monitored registers (.inr shared))

end Net.Tidy

/-- One socket, its record and its descriptor change; no other socket has a part in them. -/
structure Net.Changes (n n' : Net) (i : SocketId) (sock' : Socket) (si : InfoId)
    (info' : SocketInfo) :
    Prop where
  sockets : n'.sockets = Function.update n.sockets i (some sock')
  nextSocket : n'.nextSocket = n.nextSocket
  infos : n'.infos = Function.update n.infos si (some info')
  interest : ∀ fd, fd ≠ info'.socketFd → n'.interest fd = n.interest fd
  openFds : ∀ fd, fd ≠ info'.socketFd → n'.openFds fd = n.openFds fd
  before : ∃ sock, n.sockets i = some sock ∧ (sock.si = none ∨ sock.si = some si)
  others : ∀ j sock, j ≠ i → n.sockets j = some sock →
    sock.si ≠ some si ∧ (sock.fd ≠ -1 → sock.fd ≠ info'.socketFd)

theorem Net.Tidy.change (h : n.Tidy busy) (changes : n.Changes n' i sock' si info')
    (monitored : n'.Monitored)
    (unwatched : n'.openFds info'.socketFd = false → n'.interest info'.socketFd = none)
    (watches : n'.Watches busy' i sock') (record : info'.callback ≠ none → sock'.si = some si)
    (counted : n'.socketCount = n'.active) (covers : ∀ j, j ≠ i → busy' ≠ some j → busy ≠ some j) :
    n'.Tidy busy' where
  monitored := monitored
  below j there := by
    obtain ⟨sock, here, -⟩ := changes.before
    rw [changes.nextSocket]
    rw [changes.sockets] at there
    by_cases same : j = i
    · exact same ▸ h.below i (by simp [here])
    · exact h.below j (by rwa [Function.update_of_ne same] at there)
  unwatched fd shut := by
    by_cases mine : fd = info'.socketFd
    · subst mine
      exact unwatched shut
    · rw [changes.interest fd mine]
      exact h.unwatched fd (changes.openFds fd mine ▸ shut)
  sockets j sock there := by
    rw [changes.sockets] at there
    rcases Table.of_update there with ⟨rfl, new⟩ | ⟨other, old⟩
    · exact Option.some.inj new ▸ watches
    · obtain ⟨notSi, notFd⟩ := changes.others j sock other old
      refine (h.sockets j sock old).frame (fun si' mine => ?_)
        (fun opened => changes.interest _ (notFd opened))
        (fun opened => changes.openFds _ (notFd opened)) (covers j other)
      rw [changes.infos, Function.update_of_ne]
      rintro rfl
      exact notSi mine
  records si' info'' there used := by
    rw [changes.infos] at there
    rw [changes.sockets]
    rcases Table.of_update there with ⟨rfl, new⟩ | ⟨other, old⟩
    · obtain rfl := Option.some.inj new
      exact ⟨i, sock', Function.update_self .., record used⟩
    · obtain ⟨j, sock, here, mine⟩ := h.records si' info'' old used
      have elsewhere : j ≠ i := by
        rintro rfl
        obtain ⟨sock₀, here₀, none | same⟩ := changes.before
        · obtain rfl := Option.some.inj (here.symm.trans here₀)
          rw [none] at mine
          cases mine
        · obtain rfl := Option.some.inj (here.symm.trans here₀)
          exact other (Option.some.inj (mine.symm.trans same))
      exact ⟨j, sock, (Function.update_of_ne elsewhere ..).trans here, mine⟩
  counted := counted

theorem Net.active_update (n n' : Net) (infos : n'.infos = Function.update n.infos si (some info'))
    (next : n'.nextInfo = n.nextInfo) (known : si < n.nextInfo) :
    n'.active + (if ((n.infos si).bind SocketInfo.callback).isSome then 1 else 0) =
      n.active + if info'.callback.isSome then 1 else 0 := by
  have count := Table.countP_update (f := fun si => (n.infos si).bind SocketInfo.callback)
    (b := info'.callback) List.nodup_range (List.mem_range.mpr known) fun callback =>
      callback.isSome = true
  have field : (fun j => (n'.infos j).bind SocketInfo.callback) =
      Function.update (fun j => (n.infos j).bind SocketInfo.callback) si info'.callback := by
    rw [infos]
    exact Table.bind_update
  simp only [← field, Bool.decide_eq_true] at count
  rw [Net.active, Net.active, next]
  exact count

theorem Net.active_new (n n' : Net)
    (infos : n'.infos = Function.update n.infos n.nextInfo (some info'))
    (next : n'.nextInfo = n.nextInfo + 1) :
    n'.active = n.active + if info'.callback.isSome then 1 else 0 := by
  have old : (List.range n.nextInfo).countP (fun si => ((n'.infos si).bind SocketInfo.callback).isSome) =
      n.active := by
    apply List.countP_congr
    intro si listed
    rw [infos, Function.update_of_ne (List.mem_range.mp listed).ne]
  rw [Net.active, next, List.range_succ, List.countP_append, old, List.countP_singleton, infos,
    Function.update_self]
  rfl

theorem Net.Tidy.put (h : n.Tidy busy) (here : n.sockets i = some sock)
    (held : sock'.si = sock.si) (watches : n.Watches busy' i sock')
    (covers : ∀ j, j ≠ i → busy' ≠ some j → busy ≠ some j) :
    (n.setSocket i (some sock')).Tidy busy' := by
  have same := n.sameMonitor_setSocket i (some sock')
  refine h.keep same rfl rfl (fun j there => ?_) (fun j sock₁ there => ?_) fun si j sock₁ here₁ mine => ?_
  · by_cases same : j = i
    · exact same ▸ h.below i (by simp [here])
    · exact h.below j (by simpa [same] using there)
  · rcases Table.of_update there with ⟨rfl, new⟩ | ⟨other, old⟩
    · exact Option.some.inj new ▸ watches.keep same rfl id
    · exact (h.sockets j sock₁ old).keep same rfl (covers j other)
  · by_cases same : j = i
    · subst same
      obtain rfl := Option.some.inj (here.symm.trans here₁)
      exact ⟨j, sock', Function.update_self .., held.trans mine⟩
    · exact ⟨j, sock₁, (Function.update_of_ne same ..).trans here₁, mine⟩

def Net.mask (si : InfoId) (info : SocketInfo) (events : Events) (n : Net) : Net :=
  { n with
    infos := Function.update n.infos si (some { info with events })
    interest := Function.update n.interest info.socketFd (some (events, si)) }

theorem Net.Tidy.mask (h : n.Tidy busy) (here : n.sockets i = some sock) (opened : sock.fd ≠ -1)
    (registers : n.Registers i sock si info) {events : Events}
    (connecting : sock.status = .connecting → events.output = true)
    (connected : sock.status = .connected → sock.outputQueue ≠ [] → busy' ≠ some i → events.output = true)
    (covers : ∀ j, j ≠ i → busy' ≠ some j → busy ≠ some j) :
    (n.mask si info events).Tidy busy' := by
  have stores : Stores si { info with events } n (n.mask si info events) := by
    refine ⟨rfl, fun fd entry there => ?_⟩
    rcases Table.of_update there with ⟨same, new⟩ | ⟨-, old⟩
    · exact .inr ⟨same, congrArg Prod.snd (Option.some.inj new).symm⟩
    · exact .inl old
  have watched : (n.mask si info events).interest sock.fd = some (events, si) := by
    rw [← registers.descriptor]
    exact Function.update_self ..
  have same : n.sockets = Function.update n.sockets i (some sock) :=
    (Function.update_eq_self_iff.mpr here.symm).symm
  have known := h.monitored.below si (by simp [registers.record])
  have callback : ((n.infos si).bind SocketInfo.callback).isSome := by
    simp [registers.record, registers.callback]
  have active := Net.active_update n (n.mask si info events) rfl rfl known
  rw [if_pos callback, if_pos (by simp [registers.callback])] at active
  have changes : n.Changes (n.mask si info events) i sock si { info with events } :=
    ⟨same, rfl, rfl, fun fd other => Function.update_of_ne other .., fun _ _ => rfl,
      ⟨sock, here, .inr registers.held⟩, fun j sock₁ other there =>
        registers.descriptor ▸ h.apart registers there other⟩
  refine h.change changes ?_ ?_ ?_ (fun _ => registers.held) ?_ covers
  · exact h.monitored.store ⟨rfl, rfl⟩ le_rfl registers.record stores rfl
      (by exact h.monitored.earlier si info registers.record)
  · intro shut
    rw [registers.descriptor] at shut
    exact absurd registers.opened (by simpa [Net.mask] using shut)
  · exact .opened opened ⟨registers.held, Function.update_self .., registers.descriptor,
      registers.callback, registers.userData, watched, registers.opened⟩ connecting connected
  · change n.socketCount = _
    rw [h.counted]
    omega

theorem Net.epollMod_watched {fd : Int} {entry : Events × InfoId}
    (there : n.interest fd = some entry) (events : Events) (si : InfoId) : n.epollMod fd events si =
      { n with interest := Function.update n.interest fd (some (events, si)) } := by
  unfold Net.epollMod
  rw [there]

theorem getInfo_run (record : n.infos si = some info) :
    getInfo (some si) n = .ok ((si, info), n) := by
  have there : demand (fun n : Net => n.infos si) Fault.useAfterFree n = .ok (info, n) :=
    run_demand record
  exact run_bind_ok there

theorem mask_run (registers : n.Registers i sock si info) (events : Events) :
    (n.setInfo si { info with events }).epollMod info.socketFd events si = n.mask si info events := by
  rw [Net.epollMod_watched (n := n.setInfo si { info with events })
    (registers.descriptor ▸ registers.watched)]
  rfl

theorem smAddEvents_run (registers : n.Registers i sock si info) (events : Events) :
    smAddEvents sock.si events n = .ok ((), if info.events.inter events = events then n
      else n.mask si info (info.events.union events)) := by
  unfold smAddEvents
  rw [registers.held, run_bind_ok (getInfo_run registers.record)]
  dsimp only
  split
  · rfl
  · rw [← mask_run registers]
    rfl

theorem smDelEvents_run (registers : n.Registers i sock si info) (events : Events) :
    smDelEvents sock.si events n = .ok ((), n.mask si info (info.events.diff events)) := by
  unfold smDelEvents
  rw [registers.held, run_bind_ok (getInfo_run registers.record), ← mask_run registers]
  rfl

def Only (i : SocketId) (busy : Option SocketId) : Prop := ∀ j, j ≠ i → busy ≠ some j

theorem only_none (i : SocketId) : Only i none := fun _ _ => by simp

theorem only_self (i : SocketId) : Only i (some i) := fun _ other same =>
  other (Option.some.inj same).symm

theorem Net.Tidy.cover (h : n.Tidy busy) (only : Only i busy)
    (watches : ∀ sock, n.sockets i = some sock → n.Watches busy' i sock) : n.Tidy busy' := by
  have same : n.SameMonitor n := ⟨⟨rfl, rfl⟩, rfl, rfl, rfl⟩
  refine h.keep same rfl rfl h.below (fun j sock there => ?_) fun si j sock here mine => ⟨j, sock,
    here, mine⟩
  by_cases mine : j = i
  · subst mine
    exact watches sock there
  · exact (h.sockets j sock there).keep same rfl fun _ => only j mine

theorem Net.Tidy.engage (h : n.Tidy busy) (only : Only i busy) : n.Tidy (some i) :=
  h.cover only fun sock here =>
    (h.sockets i sock here).keep ⟨⟨rfl, rfl⟩, rfl, rfl, rfl⟩ rfl fun idle => absurd rfl idle

/-- Asking for write events is enough for what waits. -/
theorem smAddEvents_tidy (h : n.Tidy busy) (here : n.sockets i = some sock) (opened : sock.fd ≠ -1)
    (only : Only i busy) {events : Events} (armed : events.output = true ∨ busy' = busy) :
    Ensures (smAddEvents sock.si events n) (fun _ n' => n'.Tidy busy') fun _ => False := by
  cases h.sockets i sock here with
  | closed fd => exact absurd fd opened
  | @opened si info _ registers connecting connected =>
    have kept : ∀ mask : Events, (info.events.output = true → mask.output = true) →
        (events.output = true → mask.output = true) →
        (sock.status = .connected → sock.outputQueue ≠ [] → busy' ≠ some i → mask.output = true) := by
      intro mask old new live waiting idle
      rcases armed with asked | rfl
      · exact new asked
      · exact old (connected live waiting idle)
    rw [smAddEvents_run registers]
    change Net.Tidy busy' (if _ then _ else _)
    split
    · rename_i present
      apply h.cover only
      intro sock₁ here₁
      obtain rfl := Option.some.inj (here.symm.trans here₁)
      refine .opened opened registers connecting (kept _ id fun asked => ?_)
      have := congrArg Events.output present
      simpa [Events.inter, asked] using this
    · refine h.mask here opened registers (fun pending => ?_) (kept _ ?_ ?_) fun j other _ => only j other
      · simp [Events.union, connecting pending]
      · exact fun old => by simp [Events.union, old]
      · exact fun asked => by simp [Events.union, asked]

theorem smDelEvents_tidy (h : n.Tidy busy) (here : n.sockets i = some sock) (opened : sock.fd ≠ -1)
    (only : Only i busy) {events : Events}
    (idle : sock.status = .connected ∧ sock.outputQueue = [] ∨
      events.output = false ∧ busy' = busy) :
    Ensures (smDelEvents sock.si events n) (fun _ n' => n'.Tidy busy') fun _ => False := by
  cases h.sockets i sock here with
  | closed fd => exact absurd fd opened
  | @opened si info _ registers connecting connected =>
    rw [smDelEvents_run registers]
    refine h.mask here opened registers ?_ ?_ fun j other _ => only j other
    · intro pending
      rcases idle with ⟨live, -⟩ | ⟨kept, -⟩
      · rw [live] at pending
        cases pending
      · simp [Events.diff, connecting pending, kept]
    · intro live waiting free
      rcases idle with ⟨-, empty⟩ | ⟨kept, rfl⟩
      · exact absurd empty waiting
      · simp [Events.diff, connected live waiting free, kept]

def Socket.shut (sock : Socket) : Socket :=
  { sock with si := none, fd := -1, outputQueue := [], status := .idle }

def Net.unregister (i : SocketId) (sock : Socket) (si : InfoId) (info : SocketInfo) (n : Net) :
    Net :=
  { n with
    sockets := Function.update n.sockets i (some sock.shut)
    infos := Function.update n.infos si
      (some { info with events := .none, callback := none, userData := none })
    interest := Function.update n.interest sock.fd none
    openFds := Function.update n.openFds sock.fd false
    socketCount := n.socketCount - 1 }

theorem Net.Tidy.unregister (h : n.Tidy busy) (here : n.sockets i = some sock)
    (registers : n.Registers i sock si info) (only : Only i busy) :
    (n.unregister i sock si info).Tidy none := by
  have known := h.monitored.below si (by simp [registers.record])
  have callback : ((n.infos si).bind SocketInfo.callback).isSome := by
    simp [registers.record, registers.callback]
  have active := Net.active_update n (n.unregister i sock si info) rfl rfl known
  rw [if_pos callback, if_neg (by simp)] at active
  have gone : (n.unregister i sock si info).interest sock.fd = none := Function.update_self ..
  have stores : Stores si { info with events := .none, callback := none, userData := none } n
      (n.unregister i sock si info) :=
    ⟨rfl, fun fd entry there => .inl (Table.of_update_none there).2⟩
  have changes : n.Changes (n.unregister i sock si info) i sock.shut si
      { info with events := .none, callback := none, userData := none } := by
    refine ⟨rfl, rfl, rfl, fun fd other => ?_, fun fd other => ?_,
      ⟨sock, here, .inr registers.held⟩, fun j sock₁ other there =>
        registers.descriptor ▸ h.apart registers there other⟩
    · rw [registers.descriptor] at other
      exact Function.update_of_ne other ..
    · rw [registers.descriptor] at other
      exact Function.update_of_ne other ..
  refine h.change changes ?_ (fun _ => ?_) (.closed rfl rfl rfl) (fun used => absurd rfl used) ?_
    fun j other _ => only j other
  · exact h.monitored.store ⟨rfl, rfl⟩ le_rfl registers.record stores rfl
      (by exact h.monitored.earlier si info registers.record)
  · rw [registers.descriptor]
    exact gone
  · change n.socketCount - 1 = _
    rw [h.counted]
    omega

theorem sockClose_run (here : n.sockets i = some sock) (opened : sock.fd ≠ -1)
    (registers : n.Registers i sock si info) :
    sockClose i n = .ok ((), n.unregister i sock si info) := by
  let n₁ : Net := { n with
    infos := Function.update n.infos si
      (some { info with events := .none, callback := none, userData := none })
    interest := Function.update n.interest info.socketFd none
    socketCount := n.socketCount - 1 }
  have deleted : smDelSocket sock.si n = .ok ((), n₁) := by
    unfold smDelSocket
    rw [registers.held, run_bind_ok (getInfo_run registers.record)]
    rfl
  have here₁ : (n₁.close sock.fd).sockets i = some sock := here
  have here₂ : ((n₁.close sock.fd).setSocket i (some { sock with si := none, fd := -1 })).sockets i =
      some { sock with si := none, fd := -1 } := Function.update_self ..
  have final : ((n₁.close sock.fd).setSocket i (some { sock with si := none, fd := -1 })).setSocket i
      (some sock.shut) = n.unregister i sock si info := by
    simp [n₁, Net.close, Net.unregister, registers.descriptor]
  unfold sockClose
  rw [run_bind_ok (getSocket_run here), if_pos opened, run_bind_ok deleted, run_modify,
    run_bind_ok (modifySocket_run here₁ _), ← final]
  exact modifySocket_run here₂ _

theorem sockClose_run_shut (here : n.sockets i = some sock) (shut : sock.fd = -1) :
    sockClose i n = .ok ((), n.setSocket i (some { sock with outputQueue := [], status := .idle })) := by
  unfold sockClose
  rw [run_bind_ok (getSocket_run here), if_neg (by simpa using shut)]
  exact modifySocket_run here _

theorem getSocket_missing {α : Type} {next : Socket → NetM α} (absent : n.sockets i = none) :
    (getSocket i >>= next) n = .error .useAfterFree :=
  run_bind_error (run_demand_none absent)

theorem modifySocket_missing (absent : n.sockets i = none) (f : Socket → Socket) :
    modifySocket i f n = .error .useAfterFree := getSocket_missing absent

theorem sockClose_tidy (h : n.Tidy busy) (only : Only i busy) :
    Ensures (sockClose i n) (fun _ n' => n'.Tidy none ∧
      ∃ sock, n'.sockets i = some sock ∧ sock.fd = -1) fun _ => n.sockets i = none := by
  cases here : n.sockets i with
  | none =>
    unfold sockClose
    rw [getSocket_missing here]
    rfl
  | some sock =>
    cases h.sockets i sock here with
    | closed shut nothing idle =>
      rw [sockClose_run_shut here shut]
      refine ⟨h.put here rfl (.closed shut nothing rfl) fun j other _ => only j other, ?_⟩
      exact ⟨_, Function.update_self .., shut⟩
    | opened opened registers =>
      rw [sockClose_run here opened registers]
      exact ⟨h.unregister here registers only, _, Function.update_self .., rfl⟩

theorem Net.Tidy.remove (h : n.Tidy busy) (here : n.sockets i = some sock) (shut : sock.fd = -1) :
    (n.setSocket i none).Tidy busy := by
  have same := n.sameMonitor_setSocket i none
  refine h.keep same rfl rfl (fun j there => ?_) (fun j sock₁ there => ?_) fun si j sock₁ here₁ mine => ?_
  · by_cases same : j = i
    · simp [same] at there
    · exact h.below j (by simpa [same] using there)
  · exact (h.sockets j sock₁ (Table.of_update_none there).2).keep same rfl id
  · have other : j ≠ i := by
      rintro rfl
      obtain rfl := Option.some.inj (here.symm.trans here₁)
      exact (h.of_si here mine).1 shut
    exact ⟨j, sock₁, (Function.update_of_ne other ..).trans here₁, mine⟩

theorem sockDelete_tidy (h : n.Tidy busy) (only : Only i busy) :
    Ensures (sockDelete i n) (fun _ n' => n'.Tidy none) fun _ => n.sockets i = none := by
  unfold sockDelete
  rw [ensures_bind]
  refine (sockClose_tidy h only).mono ?_ fun _ => id
  rintro _ n₁ ⟨h₁, sock, here, shut⟩
  exact h₁.remove here shut

theorem Net.Tidy.sending (h : n.Tidy busy) (sends : SocketId → List SendResult)
    (sent : SocketId → Bytes) : ({ n with sends, sent } : Net).Tidy busy := by
  have same : n.SameMonitor { n with sends, sent } := ⟨⟨rfl, rfl⟩, rfl, rfl, rfl⟩
  apply h.keep same rfl rfl h.below
  · exact fun j sock there => (h.sockets j sock there).keep same rfl id
  · exact fun si j sock here mine => ⟨j, sock, here, mine⟩

theorem Net.Watches.edit (watches : n.Watches busy i sock) (fd : sock'.fd = sock.fd)
    (held : sock'.si = sock.si) (status : sock'.status = sock.status ∨ sock'.status = .idle ∨
      sock.status = .connecting ∧ sock'.status = .connected) : n.Watches (some i) i sock' := by
  cases watches with
  | closed shut nothing idle =>
    refine .closed (fd.trans shut) (held.trans nothing) ?_
    rcases status with same | idle' | ⟨pending, -⟩
    · exact same.trans idle
    · exact idle'
    · rw [idle] at pending
      cases pending
  | opened opened registers connecting =>
    refine .opened (fd ▸ opened) (registers.edit fd held) (fun pending => ?_) fun _ _ idle => absurd rfl idle
    rcases status with same | idle | ⟨-, live⟩
    · exact connecting (same ▸ pending)
    · rw [idle] at pending
      cases pending
    · rw [live] at pending
      cases pending

theorem Net.Tidy.edit (h : n.Tidy busy) (only : Only i busy) (here : n.sockets i = some sock)
    (fd : sock'.fd = sock.fd) (held : sock'.si = sock.si)
    (status : sock'.status = sock.status ∨ sock'.status = .idle ∨
      sock.status = .connecting ∧ sock'.status = .connected) :
    (n.setSocket i (some sock')).Tidy (some i) :=
  h.put here held ((h.sockets i sock here).edit fd held status) fun j other _ => only j other

theorem Net.Tidy.live (h : n.Tidy busy) (here : n.sockets i = some sock)
    (live : sock.status = .connected) : sock.fd ≠ -1 := by
  cases h.sockets i sock here with
  | closed _ _ idle => rw [live] at idle; cases idle
  | opened opened => exact opened

theorem sockFlushData_tidy (h : n.Tidy busy) (only : Only i busy) (here : n.sockets i = some sock)
    (live : sock.status = .connected) :
    Ensures (sockFlushData i n) (fun _ n' => n'.Tidy none) fun _ => False := by
  unfold sockFlushData
  rw [run_bind_ok (getSocket_run here), run_get]
  rcases flushQueue sock.outputQueue (n.sends i) with ⟨queue, left, bytes, how⟩
  dsimp only
  rw [ensures_bind, ensures_set]
  have h₁ := h.sending (Function.update n.sends i left) (Function.update n.sent i (n.sent i ++ bytes))
  have here₁ : ({ n with
      sends := Function.update n.sends i left
      sent := Function.update n.sent i (n.sent i ++ bytes) } : Net).sockets i = some sock := here
  generalize ({ n with
    sends := Function.update n.sends i left
    sent := Function.update n.sent i (n.sent i ++ bytes) } : Net) = n₁ at h₁ here₁ ⊢
  have h₂ : (n₁.setSocket i (some { sock with outputQueue := queue })).Tidy (some i) :=
    h₁.edit only here₁ rfl rfl (.inl rfl)
  have here₂ : (n₁.setSocket i (some { sock with outputQueue := queue })).sockets i =
      some { sock with outputQueue := queue } := Function.update_self ..
  have opened := h₂.live here₂ live
  rw [run_bind_ok (modifySocket_run here₁ _)]
  split
  · apply (sockClose_tidy h₂ (only_self i)).mono (fun _ _ closed => closed.1)
    intro _ absent
    rw [here₂] at absent
    cases absent
  · split
    · rename_i empty
      exact smDelEvents_tidy h₂ here₂ opened (only_self i) (.inl ⟨live, empty⟩)
    · exact smAddEvents_tidy h₂ here₂ opened (only_self i) (.inl rfl)

theorem Net.Tidy.rest (h : n.Tidy (some i)) (here : n.sockets i = some sock)
    (quiet : sock.status ≠ .connected) : n.Tidy none := by
  apply h.cover (only_self i)
  intro sock₁ here₁
  obtain rfl := Option.some.inj (here.symm.trans here₁)
  cases h.sockets i sock here with
  | closed shut nothing idle => exact .closed shut nothing idle
  | opened opened registers connecting =>
    exact .opened opened registers connecting fun live => absurd live quiet

theorem sockSend_tidy (h : n.Tidy busy) (only : Only i busy) (buffer : Option Bytes) (len : Nat)
    (more : Bool) :
    Ensures (sockSend i buffer len more n) (fun _ n' => n'.Tidy (some i) ∧ (more = false → n'.Tidy none))
      fun _ => n.sockets i = none := by
  have flushed : ∀ {n₁ : Net} {sock₁ : Socket}, n₁.Tidy (some i) → n₁.sockets i = some sock₁ →
      Ensures ((do
        let sock ← getSocket i
        if sock.status = SocketStatus.connected ∧ more = false then sockFlushData i) n₁)
        (fun _ n' => n'.Tidy (some i) ∧ (more = false → n'.Tidy none)) fun _ => False := by
    intro n₁ sock₁ h₁ here₁
    rw [run_bind_ok (getSocket_run here₁)]
    by_cases ready : sock₁.status = .connected ∧ more = false
    · rw [if_pos ready]
      refine (sockFlushData_tidy h₁ (only_self i) here₁ ready.1).mono (fun _ n₂ h₂ => ?_) fun _ => id
      exact ⟨h₂.engage (only_none i), fun _ => h₂⟩
    · rw [if_neg ready]
      exact ⟨h₁, fun last => h₁.rest here₁ fun live => ready ⟨live, last⟩⟩
  cases here : n.sockets i with
  | none =>
    unfold sockSend
    cases buffer with
    | none =>
      dsimp only
      rw [getSocket_missing here]
      rfl
    | some buffer =>
      dsimp only
      rw [run_bind_error (modifySocket_missing here _)]
      rfl
  | some sock =>
    unfold sockSend
    cases buffer with
    | none => exact (flushed (h.engage only) here).mono (fun _ _ => id) fun _ => False.elim
    | some buffer =>
      dsimp only
      rw [run_bind_ok (modifySocket_run here _)]
      have h₁ : (n.setSocket i (some { sock with
          outputQueue := sock.outputQueue ++ [itemNew buffer len 0] })).Tidy (some i) :=
        h.edit only here rfl rfl (.inl rfl)
      exact (flushed h₁ (Function.update_self ..)).mono (fun _ _ => id) fun _ => False.elim

theorem sockRecv_tidy (h : n.Tidy none) (len : Nat) (answer : RecvResult) :
    Ensures (sockRecv i len answer n) (fun _ n' => n'.Tidy none) fun _ => True := by
  have closed : Ensures (sockClose i n) (fun _ n' => n'.Tidy none) fun _ => True :=
    (sockClose_tidy h (only_none i)).mono (fun _ _ shut => shut.1) fun _ _ => trivial
  unfold sockRecv
  simp only [getSocket, ensures_bind, ensures_demand, implies_true, and_true]
  intro sock here
  cases answer with
  | again => exact h
  | fail =>
    rw [ensures_bind]
    exact closed.mono (fun _ _ shut => shut) fun _ => id
  | data bytes =>
    dsimp only
    split
    · rw [ensures_bind]
      exact closed.mono (fun _ _ shut => shut) fun _ => id
    · exact h

theorem Net.Tidy.calls (h : n.Tidy none) (here : n.sockets i = some sock) (fd : sock'.fd = sock.fd)
    (held : sock'.si = sock.si) (status : sock'.status = sock.status)
    (queue : sock'.outputQueue = sock.outputQueue) : (n.setSocket i (some sock')).Tidy none := by
  refine h.put here held ?_ fun _ _ => id
  cases h.sockets i sock here with
  | closed shut nothing idle =>
    exact .closed (fd.trans shut) (held.trans nothing) (status.trans idle)
  | opened opened registers connecting connected =>
    refine .opened (fd ▸ opened) (registers.edit fd held) (fun pending => connecting (status ▸ pending)) ?_
    rw [status, queue]
    exact connected

theorem setCallback_tidy (h : n.Tidy none) {f : Socket → Socket} (ready : SocketStatus)
    (quiet : ready ≠ .idle) (same : ∀ sock : Socket, (f sock).fd = sock.fd ∧ (f sock).si = sock.si ∧
      (f sock).status = sock.status ∧ (f sock).outputQueue = sock.outputQueue) :
    Ensures ((do
      modifySocket i f
      let sock ← getSocket i
      if sock.status = ready then smAddEvents sock.si .epollIn) n) (fun _ n' => n'.Tidy none)
      fun _ => True := by
  cases here : n.sockets i with
  | none =>
    rw [run_bind_error (modifySocket_missing here f)]
    trivial
  | some sock =>
    obtain ⟨fd, held, status, queue⟩ := same sock
    have h₁ := h.calls here fd held status queue
    have here₁ : (n.setSocket i (some (f sock))).sockets i = some (f sock) :=
      Function.update_self ..
    rw [run_bind_ok (modifySocket_run here f), run_bind_ok (getSocket_run here₁)]
    split
    · rename_i now
      cases h₁.sockets i _ here₁ with
      | closed _ _ idle => exact absurd (now.symm.trans idle) quiet
      | opened opened =>
        exact (smAddEvents_tidy h₁ here₁ opened (only_none i) (.inr rfl)).mono (fun _ _ => id)
          fun _ _ => trivial
    · exact h₁

theorem sockSetDataCallback_tidy (h : n.Tidy none) (callback : DataCallback) :
    Ensures (sockSetDataCallback i callback n) (fun _ n' => n'.Tidy none) fun _ => True :=
  setCallback_tidy h .connected (by simp) fun _ => ⟨rfl, rfl, rfl, rfl⟩

theorem sockSetAcceptCallback_tidy (h : n.Tidy none) (callback : AcceptCallback) :
    Ensures (sockSetAcceptCallback i callback n) (fun _ n' => n'.Tidy none) fun _ => True :=
  setCallback_tidy h .listening (by simp) fun _ => ⟨rfl, rfl, rfl, rfl⟩

theorem modifySocket_tidy (h : n.Tidy none) {f : Socket → Socket}
    (same : ∀ sock : Socket, (f sock).fd = sock.fd ∧ (f sock).si = sock.si ∧
      (f sock).status = sock.status ∧ (f sock).outputQueue = sock.outputQueue) :
    Ensures (modifySocket i f n) (fun _ n' => n'.Tidy none) fun _ => True := by
  cases here : n.sockets i with
  | none =>
    rw [modifySocket_missing here]
    trivial
  | some sock =>
    obtain ⟨fd, held, status, queue⟩ := same sock
    rw [modifySocket_run here]
    exact h.calls here fd held status queue

theorem Net.Tidy.made (h : n.Tidy busy) : n.made.Tidy busy := by
  have same : n.SameMonitor n.made := ⟨⟨rfl, rfl⟩, rfl, rfl, rfl⟩
  refine h.keep same rfl rfl (fun j there => ?_) (fun j sock there => ?_) fun si j sock here mine => ?_
  · by_cases new : j = n.nextSocket
    · exact new ▸ Nat.lt_succ_self _
    · exact Nat.lt_succ_of_lt (h.below j (by simpa [Net.made, new] using there))
  · rcases Table.of_update there with ⟨rfl, new⟩ | ⟨other, old⟩
    · cases new
      exact .closed rfl rfl rfl
    · exact (h.sockets j sock old).keep same rfl id
  · have other : j ≠ n.nextSocket := (h.below j (by simp [here])).ne
    exact ⟨j, sock, (Function.update_of_ne other ..).trans here, mine⟩

theorem Net.made_new (n : Net) : n.made.sockets n.nextSocket = some initialSocket :=
  Function.update_self ..

structure Net.Gained (n : Net) (fd : Int) : Prop where
  tidy : n.Tidy none
  real : fd ≠ -1
  opened : n.openFds fd = true
  unwatched : n.interest fd = none
  unused : ∀ j sock, n.sockets j = some sock → sock.fd ≠ fd

theorem Net.Tidy.gain (h : n.Tidy none) {fd : Int} (real : fd ≠ -1) (free : n.openFds fd = false) :
    ({ n with openFds := Function.update n.openFds fd true } : Net).Gained fd := by
  have unused : ∀ j sock, n.sockets j = some sock → sock.fd ≠ fd := by
    rintro j sock there rfl
    obtain ⟨si, info, registers⟩ := h.registers there real
    rw [registers.opened] at free
    cases free
  refine ⟨⟨?_, h.below, fun fd' shut => ?_, fun j sock there => ?_, h.records, h.counted⟩, real,
    Function.update_self .., h.unwatched fd free, unused⟩
  · exact Net.SameMonitor.monitored (n := n) ⟨⟨rfl, rfl⟩, rfl, rfl, rfl⟩ h.monitored
  · by_cases same : fd' = fd
    · exact same ▸ h.unwatched fd free
    · exact h.unwatched fd' (by simpa [same] using shut)
  · exact (h.sockets j sock there).frame (fun _ _ => rfl) (fun _ => rfl)
      (fun _ => Function.update_of_ne (unused j sock there) ..) id

theorem newFd_gains (h : n.Tidy none) (answer : Option Nat) :
    Ensures (newFd answer n) (fun fd n' => fd = -1 ∧ n' = n ∨ n'.Gained fd ∧ n'.sockets = n.sockets)
      fun _ => True := by
  unfold newFd
  cases answer with
  | none => exact .inl ⟨rfl, rfl⟩
  | some fd =>
    rw [ensures_bind, ensures_get]
    split
    · trivial
    · rename_i free
      exact .inr ⟨h.gain (by omega) (by simpa using free), rfl⟩

structure Net.Added (n n' : Net) (i : SocketId) (fd : Int) (events : Events) (si : InfoId) :
    Prop where
  sockets : n'.sockets = n.sockets
  nextSocket : n'.nextSocket = n.nextSocket
  openFds : n'.openFds = n.openFds
  infos : ∃ info, n'.infos = Function.update n.infos si (some info) ∧ info.socketFd = fd ∧
    info.events = events ∧ info.callback = some .socketCallback ∧ info.userData = some i
  interest : n'.interest = Function.update n.interest fd (some (events, si))
  monitored : n'.Monitored
  /-- The record is a new one, or was made for the same descriptor. -/
  table : si = n.nextInfo ∧ n'.nextInfo = n.nextInfo + 1 ∨
    n'.nextInfo = n.nextInfo ∧ ∃ old, n.infos si = some old ∧ old.socketFd = fd
  counted : n'.socketCount = n.socketCount + 1

theorem Net.epollAdd_free {fd : Int} (free : n.interest fd = none) (events : Events) (si : InfoId) :
    n.epollAdd fd events si =
      { n with interest := Function.update n.interest fd (some (events, si)) } := by
  unfold Net.epollAdd
  rw [free]

theorem smAddSocket_added (monitored : n.Monitored) {fd : Int} (free : n.interest fd = none)
    (i : SocketId) (events : Events) :
    Ensures (smAddSocket fd .socketCallback i events n) (fun si n' => n.Added n' i fd events si)
      fun _ => True := by
  have stores : ∀ (si : InfoId) (n' : Net), n'.infos = Function.update n.infos si
      (some ⟨some .socketCallback, some i, fd, events, n.registrations⟩) →
      n'.interest = Function.update n.interest fd (some (events, si)) →
      Stores si ⟨some .socketCallback, some i, fd, events, n.registrations⟩ n n' := by
    intro si n' infos interest
    refine ⟨infos, fun fd' entry there => ?_⟩
    rw [interest] at there
    rcases Table.of_update there with ⟨same, new⟩ | ⟨-, old⟩
    · exact .inr ⟨same, congrArg Prod.snd (Option.some.inj new).symm⟩
    · exact .inl old
  unfold smAddSocket
  rw [ensures_bind, ensures_get]
  cases found : n.socketHash.find fd with
  | some si =>
    obtain ⟨old, here, mine⟩ := (monitored.hashed fd si).mp found
    simp only [ensures_bind, ensures_pure, ensures_modify]
    rw [Net.epollAdd_free]
    · refine ⟨rfl, rfl, rfl, ⟨_, rfl, rfl, rfl, rfl, rfl⟩, rfl, ?_, .inr ⟨rfl, old, here, mine⟩,
        rfl⟩
      exact monitored.store ⟨rfl, rfl⟩ (Nat.le_succ _) here (stores si _ rfl rfl) mine.symm
        (Nat.lt_succ_self _)
    · exact free
  | none =>
    cases inserted : n.socketHash.insert fd n.nextInfo with
    | none => trivial
    | some socketHash =>
      simp only [ensures_bind, ensures_set, ensures_pure, ensures_modify]
      rw [Net.epollAdd_free]
      · refine ⟨rfl, rfl, rfl, ⟨_, rfl, rfl, rfl, rfl, rfl⟩, rfl, ?_, .inl ⟨rfl, rfl⟩, rfl⟩
        exact monitored.add found inserted rfl rfl rfl rfl (stores n.nextInfo _ rfl rfl)
      · exact free

theorem Net.Gained.free {fd : Int} (gained : n.Gained fd)
    (table : si = n.nextInfo ∨ ∃ old, n.infos si = some old ∧ old.socketFd = fd)
    (there : n.sockets j = some sock) : sock.si ≠ some si := by
  intro held
  obtain ⟨-, info, registers⟩ := gained.tidy.of_si there held
  rcases table with rfl | ⟨old, here, mine⟩
  · exact Nat.lt_irrefl _ (gained.tidy.monitored.below _ (by simp [registers.record]))
  · obtain rfl := Option.some.inj (here.symm.trans registers.record)
    exact gained.unused j sock there (registers.descriptor.symm.trans mine)

theorem Net.Gained.open {fd : Int} (gained : n.Gained fd) (here : n.sockets i = some sock)
    (shut : sock.fd = -1) {between : Option Socket} {events : Events}
    (added : (n.setSocket i between).Added n' i fd events si) (descriptor : sock'.fd = fd)
    (held : sock'.si = some si) (connecting : sock'.status = .connecting → events.output = true)
    (connected : sock'.status = .connected → sock'.outputQueue = []) :
    (n'.setSocket i (some sock')).Tidy none := by
  obtain ⟨info, infos, socketFd, same, callback, userData⟩ := added.infos
  subst same
  have table : si = n.nextInfo ∨ ∃ old, n.infos si = some old ∧ old.socketFd = fd :=
    added.table.imp And.left And.right
  have nothing : sock.si = none := by
    cases gained.tidy.sockets i sock here with
    | closed _ nothing => exact nothing
    | opened opened => exact absurd shut opened
  have interest : n'.interest = Function.update n.interest fd (some (info.events, si)) :=
    added.interest
  have openFds : n'.openFds = n.openFds := added.openFds
  have infos : n'.infos = Function.update n.infos si (some info) := infos
  have changes : n.Changes (n'.setSocket i (some sock')) i sock' si info := by
    refine ⟨?_, added.nextSocket, infos, fun fd' other => ?_, fun fd' _ => congrFun openFds fd',
      ⟨sock, here, .inl nothing⟩, fun j sock₁ _ there => ⟨gained.free table there, fun _ => ?_⟩⟩
    · simp [added.sockets]
    · rw [socketFd] at other
      exact (congrFun interest fd').trans (Function.update_of_ne other ..)
    · exact socketFd ▸ gained.unused j sock₁ there
  have active : ((n'.setSocket i (some sock')).active : Int) = n.active + 1 := by
    rcases added.table with ⟨rfl, next⟩ | ⟨next, old, record, mine⟩
    · rw [Net.active_new n (n'.setSocket i (some sock')) infos next, if_pos (by simp [callback])]
      rfl
    · have idle : old.callback = none := by
        by_contra used
        obtain ⟨j, sock₁, there, held₁⟩ := gained.tidy.records si old record used
        exact gained.free table there held₁
      have known := gained.tidy.monitored.below si (Option.isSome_iff_exists.mpr ⟨old, record⟩)
      have count := Net.active_update n (n'.setSocket i (some sock')) infos next known
      have record : n.infos si = some old := record
      rw [if_neg (by simp [record, idle]), if_pos (by simp [callback])] at count
      omega
  refine gained.tidy.change changes ?_ ?_ (.opened (descriptor ▸ gained.real) ⟨held, ?_,
    socketFd.trans descriptor.symm, callback, userData, ?_, ?_⟩ connecting ?_) (fun _ => held) ?_
    fun _ _ => id
  · exact (n'.sameMonitor_setSocket i _).monitored added.monitored
  · rw [socketFd]
    intro closed
    rw [show (n'.setSocket i (some sock')).openFds fd = n.openFds fd from congrFun openFds fd,
      gained.opened] at closed
    cases closed
  · exact (congrFun infos si).trans (Function.update_self ..)
  · rw [descriptor]
    exact (congrFun interest fd).trans (Function.update_self ..)
  · rw [descriptor]
    exact (congrFun openFds fd).trans gained.opened
  · exact fun live waiting => absurd (connected live) waiting
  · change n'.socketCount = _
    rw [active, added.counted, ← gained.tidy.counted]
    rfl

theorem Net.Gained.made {fd : Int} (gained : n.Gained fd) : n.made.Gained fd where
  tidy := gained.tidy.made
  real := gained.real
  opened := gained.opened
  unwatched := gained.unwatched
  unused j sock there := by
    rcases Table.of_update there with ⟨rfl, new⟩ | ⟨-, old⟩
    · cases new
      exact gained.real.symm
    · exact gained.unused j sock old

theorem Net.Gained.register {fd : Int} (gained : n.Gained fd) (here : n.sockets i = some sock)
    (shut : sock.fd = -1) (between : Socket) (events : Events) :
    Ensures (smAddSocket fd .socketCallback i events (n.setSocket i (some between))) (fun si n' =>
      n'.sockets i = some between ∧ ∀ sock' : Socket, sock'.fd = fd → sock'.si = some si →
        (sock'.status = .connecting → events.output = true) →
        (sock'.status = .connected → sock'.outputQueue = []) →
        (n'.setSocket i (some sock')).Tidy none) fun _ => True := by
  have monitored := (n.sameMonitor_setSocket i (some between)).monitored gained.tidy.monitored
  have free : (n.setSocket i (some between)).interest fd = none := gained.unwatched
  refine (smAddSocket_added monitored free i events).mono (fun si n' added => ⟨?_, fun sock' => ?_⟩)
    fun _ => id
  · rw [added.sockets]
    exact Function.update_self ..
  · exact gained.open here shut added

theorem sockAccept_tidy (h : n.Tidy none) (answer : Option Nat) :
    Ensures (sockAccept i answer n) (fun _ n' => n'.Tidy none) fun _ => True := by
  unfold sockAccept
  simp only [getSocket, ensures_bind, ensures_demand, implies_true, and_true]
  intro sock here
  refine (newFd_gains h answer).mono ?_ fun _ => id
  rintro fd n₁ (⟨rfl, rfl⟩ | ⟨gained, -⟩)
  · exact h
  · rw [if_neg gained.real, run_bind_ok sockNew_run,
      run_bind_ok (modifySocket_run (Net.made_new _) _), ensures_bind]
    refine (gained.made.register (Net.made_new _) rfl _ _).mono ?_ fun _ => id
    rintro si n' ⟨here', tidy⟩
    rw [run_bind_ok (modifySocket_run here' _)]
    exact tidy _ rfl rfl (fun pending => by cases pending) fun _ => rfl

theorem Net.setSocket_setSocket (i : SocketId) (a b : Option Socket) (n : Net) :
    (n.setSocket i a).setSocket i b = n.setSocket i b := by
  simp

/-- A `connect` that fails leaves the number of a descriptor without a record. -/
theorem sockConnect_tidy (h : n.Tidy none) (new : n.sockets i = some initialSocket) (host : Bytes)
    (port : Int) (answers : ConnectAnswers) :
    Ensures (sockConnect i host port answers n) (fun connected n' => n'.Tidy none ∨
      connected = false ∧ ∃ sock, n'.sockets i = some sock ∧ sock.fd ≠ -1 ∧ sock.si = none)
      fun _ => True := by
  unfold sockConnect
  split
  · exact .inl h
  · rw [ensures_bind]
    refine (newFd_gains h _).mono ?_ fun _ => id
    rintro fd n₁ (⟨rfl, rfl⟩ | ⟨gained, same⟩)
    · rw [run_bind_ok (modifySocket_run new _), if_pos rfl]
      exact .inl (h.calls new rfl rfl rfl rfl)
    · have new : n₁.sockets i = some initialSocket := same ▸ new
      rw [run_bind_ok (modifySocket_run new _), if_neg gained.real]
      split
      · exact .inr ⟨rfl, _, Function.update_self .., gained.real, rfl⟩
      · rw [ensures_bind]
        refine (gained.register new rfl _ _).mono ?_ fun _ => id
        rintro si n' ⟨here', tidy⟩
        rw [run_bind_ok (modifySocket_run here' _),
          run_bind_ok (modifySocket_run (Function.update_self ..) _), Net.setSocket_setSocket]
        exact .inl (tidy _ rfl rfl (fun _ => rfl) fun live => by cases live)

theorem sockListen_tidy (h : n.Tidy none) (new : n.sockets i = some initialSocket) (port : Int)
    (answers : ListenAnswers) :
    Ensures (sockListen i port answers n) (fun listening n' => listening = true → n'.Tidy none)
      fun _ => True := by
  unfold sockListen
  rw [ensures_bind]
  refine (newFd_gains h _).mono ?_ fun _ => id
  rintro fd n₁ (⟨rfl, rfl⟩ | ⟨gained, same⟩)
  · rw [run_bind_ok (modifySocket_run new _), if_pos rfl]
    exact fun listening => by cases listening
  · have new : n₁.sockets i = some initialSocket := same ▸ new
    rw [run_bind_ok (modifySocket_run new _), if_neg gained.real]
    split
    · exact fun listening => by cases listening
    · split
      · exact fun listening => by cases listening
      · rw [run_bind_ok (modifySocket_run (Function.update_self ..) _),
          run_bind_ok (getSocket_run (Function.update_self ..)), Net.setSocket_setSocket, ensures_bind]
        refine (gained.register new rfl _ _).mono ?_ fun _ => id
        rintro si n' ⟨here', tidy⟩
        rw [run_bind_ok (modifySocket_run here' _)]
        exact fun _ => tidy _ rfl rfl (fun pending => by cases pending) fun live => by cases live

end Tidy

end Bosh
