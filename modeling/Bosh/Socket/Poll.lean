import Bosh.Library.Table
import Bosh.Socket.Wire

/-! `sm_poll` and the callbacks it runs: whether an event is delivered to the registration
that the kernel has reported it for. -/
namespace Bosh
open Effect

/-- What a callback can do that the monitor notices. -/
inductive MonitorCall where
  | newFd (answer : Option Nat)
  | close (fd : Int)
  | smAddSocket (socketFd : Int) (userData : SocketId) (events : Events)
  | smAddEvents (si : InfoId) (events : Events)
  | smDelEvents (si : InfoId) (events : Events)
  | smDelSocket (si : InfoId)

def MonitorCall.run : MonitorCall → NetM Unit
  | newFd answer => do
    let _ ← Bosh.newFd answer
  | close fd => modify (Net.close fd)
  | smAddSocket socketFd userData events => do
    let _ ← Bosh.smAddSocket socketFd .socketCallback userData events
  | smAddEvents si events => Bosh.smAddEvents (some si) events
  | smDelEvents si events => Bosh.smDelEvents (some si) events
  | smDelSocket si => Bosh.smDelSocket (some si)

inductive Standing where
  | untouched
  | renewed
  | removed
  deriving DecidableEq

def MonitorCall.touch (fd : Int) (si : InfoId) : MonitorCall → Standing
  | smAddSocket fd' _ _ => if fd' = fd then .renewed else .untouched
  | smDelSocket si' => if si' = si then .removed else .untouched
  | _ => .untouched

def standing (fd : Int) (si : InfoId) : List MonitorCall → Standing
  | [] => .untouched
  | call :: older =>
    match call.touch fd si with
    | .untouched => standing fd si older
    | touched => touched

/-- The call of `sm_add_socket` in force for a record, and the socket it was for. -/
def Net.origin (si : InfoId) (n : Net) : Option (Nat × Option SocketId) :=
  (n.infos si).map fun info => (info.registration, info.userData)

/-- An event that the kernel has reported, with the registration it was reported for. -/
structure Report where
  si : InfoId
  events : Events
  origin : Option (Nat × Option SocketId)
  deriving DecidableEq

/-- `sm_poll` at work: the events it has still to look at, and the calls that callbacks have
made since `epoll_wait` returned. -/
structure Poll where
  net : Net
  pending : List Report
  calls : List MonitorCall

inductive PollInput where
  | wait (ready : List (Int × Events))
  /-- The loop goes on to its next event; the callback for this one may run now. -/
  | look
  | call (call : MonitorCall)

namespace Poll

def step : PollInput → Poll → Option Poll
  | .wait ready, m =>
    match m.pending, epollWait ready m.net with
    | [], .ok events => some {
        m with
        pending := events.map fun event => ⟨event.1, event.2, m.net.origin event.1⟩
        calls := [] }
    | _, _ => none
  | .look, m =>
    match m.pending with
    | [] => none
    | _ :: rest => some { m with pending := rest }
  | .call call, m =>
    match call.run m.net with
    | .ok (_, net) => some { m with net, calls := call :: m.calls }
    | .error _ => none

def callback (report : Report) (n : Net) : Option (MonitorCallback × Option SocketId) :=
  match smTarget report.si n with
  | .ok (target, _) => target
  | .error _ => none

structure Fresh (n : Net) : Prop where
  infos : n.infos = fun _ => none
  socketHash : n.socketHash = .new _ _
  interest : n.interest = fun _ => none

inductive Reached : Poll → Prop where
  | start {n : Net} : Fresh n → Reached ⟨n, [], []⟩
  | step {m m' : Poll} {input : PollInput} : Reached m → m.step input = some m' → Reached m'

end Poll

/-- Every descriptor that was ever watched has one record, and the kernel is given that. -/
structure Net.Monitored (n : Net) : Prop where
  distinct : (n.socketHash.pairs.map Prod.fst).Nodup
  hashed : ∀ fd si, n.socketHash.find fd = some si ↔
    ∃ info, n.infos si = some info ∧ info.socketFd = fd
  below : ∀ si, (n.infos si).isSome → si < n.nextInfo
  watched : ∀ fd entry, n.interest fd = some entry → n.socketHash.find fd = some entry.2
  earlier : ∀ si info, n.infos si = some info → info.registration < n.registrations

structure Stores (si : InfoId) (info : SocketInfo) (n n' : Net) : Prop where
  infos : n'.infos = Function.update n.infos si (some info)
  interest : ∀ fd entry, n'.interest fd = some entry →
    n.interest fd = some entry ∨ fd = info.socketFd ∧ entry.2 = si

structure SameTable (n n' : Net) : Prop where
  socketHash : n'.socketHash = n.socketHash
  nextInfo : n'.nextInfo = n.nextInfo

inductive MonitorCall.Effect (n n' : Net) : MonitorCall → Prop where
  | ignored {call : MonitorCall} : (∀ fd si, call.touch fd si = .untouched) → SameTable n n' →
      n'.registrations = n.registrations → n'.infos = n.infos →
      (∀ fd entry, n'.interest fd = some entry → n.interest fd = some entry) → Effect n n' call
  | edited {call : MonitorCall} {si : InfoId} {info : SocketInfo} (events : Events) :
      (∀ fd si, call.touch fd si = .untouched) → SameTable n n' →
        n'.registrations = n.registrations →
      n.infos si = some info → Stores si { info with events } n n' → Effect n n' call
  | removed {si : InfoId} {info : SocketInfo} : SameTable n n' →
    n'.registrations = n.registrations →
      n.infos si = some info →
      Stores si { info with events := .none, callback := none, userData := none } n n' →
      Effect n n' (smDelSocket si)
  | renewed {fd : Int} {si : InfoId} {userData : SocketId} {events : Events} {info : SocketInfo} :
      n.socketHash.find fd = some si → SameTable n n' → n'.registrations = n.registrations + 1 →
      info.socketFd = fd → info.registration = n.registrations → Stores si info n n' →
      Effect n n' (smAddSocket fd userData events)
  | added {fd : Int} {userData : SocketId} {events : Events} {info : SocketInfo} :
      n.socketHash.find fd = none → n.socketHash.insert fd n.nextInfo = some n'.socketHash →
      n'.nextInfo = n.nextInfo + 1 → n'.registrations = n.registrations + 1 →
      info.socketFd = fd → info.registration = n.registrations → Stores n.nextInfo info n n' →
      Effect n n' (smAddSocket fd userData events)

section Records
variable {n n' : Net}

theorem Net.epollAdd_interest {fd : Int} {events : Events} {si : InfoId} {fd' : Int}
    {entry : Events × InfoId} (there : (n.epollAdd fd events si).interest fd' = some entry) :
    n.interest fd' = some entry ∨ fd' = fd ∧ entry.2 = si := by
  unfold Net.epollAdd at there
  split at there
  · exact .inl there
  · rcases Table.of_update there with ⟨same, new⟩ | ⟨-, old⟩
    · exact .inr ⟨same, congrArg Prod.snd (Option.some.inj new).symm⟩
    · exact .inl old

theorem Net.epollMod_interest {fd : Int} {events : Events} {si : InfoId} {fd' : Int}
    {entry : Events × InfoId} (there : (n.epollMod fd events si).interest fd' = some entry) :
    n.interest fd' = some entry ∨ fd' = fd ∧ entry.2 = si := by
  unfold Net.epollMod at there
  split at there
  · rcases Table.of_update there with ⟨same, new⟩ | ⟨-, old⟩
    · exact .inr ⟨same, congrArg Prod.snd (Option.some.inj new).symm⟩
    · exact .inl old
  · exact .inl there

@[simp] theorem Net.epollAdd_infos (fd : Int) (events : Events) (si : InfoId) :
    (n.epollAdd fd events si).infos = n.infos := by
  unfold Net.epollAdd
  split <;> rfl

@[simp] theorem Net.epollAdd_registrations (fd : Int) (events : Events) (si : InfoId) :
    (n.epollAdd fd events si).registrations = n.registrations := by
  unfold Net.epollAdd
  split <;> rfl

@[simp] theorem Net.epollAdd_socketHash (fd : Int) (events : Events) (si : InfoId) :
    (n.epollAdd fd events si).socketHash = n.socketHash := by
  unfold Net.epollAdd
  split <;> rfl

@[simp] theorem Net.epollAdd_nextInfo (fd : Int) (events : Events) (si : InfoId) :
    (n.epollAdd fd events si).nextInfo = n.nextInfo := by
  unfold Net.epollAdd
  split <;> rfl

theorem epollAdd_stores {si : InfoId} {events : Events} (info : SocketInfo)
    (infos : n'.infos = Function.update n.infos si (some info))
    (interest : n'.interest = n.interest) :
    Stores si info n (n'.epollAdd info.socketFd events si) := by
  refine ⟨by rw [Net.epollAdd_infos, infos], fun fd entry there => ?_⟩
  rw [← interest]
  exact Net.epollAdd_interest there

theorem epollMod_stores (n : Net) (si : InfoId) (info : SocketInfo) :
    Stores si info n ((n.setInfo si info).epollMod info.socketFd info.events si) ∧
      SameTable n ((n.setInfo si info).epollMod info.socketFd info.events si) ∧
      ((n.setInfo si info).epollMod info.socketFd info.events si).registrations = n.registrations := by
  refine ⟨⟨?_, fun fd entry there => ?_⟩, ⟨?_, ?_⟩, ?_⟩
  · unfold Net.epollMod
    split <;> rfl
  · exact Net.epollMod_interest (n := n.setInfo si info) there
  all_goals
    unfold Net.epollMod
    split <;> rfl

theorem MonitorCall.run_effect (call : MonitorCall) :
    Ensures (call.run n) (fun _ n' => call.Effect n n') Unrelated := by
  cases call with
  | newFd answer =>
    unfold run Bosh.newFd
    rw [ensures_bind]
    cases answer with
    | none => exact .ignored (fun _ _ => rfl) ⟨rfl, rfl⟩ rfl rfl fun _ _ => id
    | some fd =>
      rw [ensures_bind, ensures_get]
      split
      · simp
      · exact .ignored (fun _ _ => rfl) ⟨rfl, rfl⟩ rfl rfl fun _ _ => id
  | close fd =>
    refine .ignored (fun _ _ => rfl) ⟨rfl, rfl⟩ rfl rfl fun fd' entry there => ?_
    exact (Table.of_update_none there).2
  | smAddSocket fd userData events =>
    unfold run Bosh.smAddSocket
    rw [ensures_bind, ensures_bind, ensures_get]
    cases found : n.socketHash.find fd with
    | some si =>
      simp only [ensures_bind, ensures_pure, ensures_modify]
      exact .renewed found ⟨by simp, by simp⟩ (by simp) rfl rfl (epollAdd_stores
        ⟨some .socketCallback, some userData, fd, events, n.registrations⟩ rfl rfl)
    | none =>
      cases inserted : n.socketHash.insert fd n.nextInfo with
      | none => simp
      | some socketHash =>
        simp only [ensures_bind, ensures_set, ensures_pure, ensures_modify]
        exact .added found (by simp [inserted]) (by simp) (by simp) rfl rfl (epollAdd_stores
          ⟨some .socketCallback, some userData, fd, events, n.registrations⟩ rfl rfl)
  | smAddEvents si events =>
    unfold run Bosh.smAddEvents
    rw [ensures_bind]
    apply ensures_getInfo
    intro i info same found
    cases same
    dsimp only
    split
    · exact .ignored (fun _ _ => rfl) ⟨rfl, rfl⟩ rfl rfl fun _ _ => id
    · rw [ensures_bind, ensures_modify, ensures_modify]
      obtain ⟨stores, table, registrations⟩ := epollMod_stores n si
        { info with events := info.events.union events }
      exact .edited _ (fun _ _ => rfl) table registrations found stores
  | smDelEvents si events =>
    unfold run Bosh.smDelEvents
    rw [ensures_bind]
    apply ensures_getInfo
    intro i info same found
    cases same
    dsimp only
    rw [ensures_bind, ensures_modify, ensures_modify]
    obtain ⟨stores, table, registrations⟩ := epollMod_stores n si
      { info with events := info.events.diff events }
    exact .edited _ (fun _ _ => rfl) table registrations found stores
  | smDelSocket si =>
    unfold run Bosh.smDelSocket
    rw [ensures_bind]
    apply ensures_getInfo
    intro i info same found
    cases same
    dsimp only
    simp only [ensures_bind, ensures_modify]
    refine .removed ⟨rfl, rfl⟩ rfl found ⟨rfl, fun fd entry there => .inl ?_⟩
    exact (Table.of_update_none there).2

namespace Net.Monitored

theorem store (h : n.Monitored) {si : InfoId} {old info : SocketInfo} (table : SameTable n n')
    (later : n.registrations ≤ n'.registrations) (here : n.infos si = some old)
    (stores : Stores si info n n') (fd : info.socketFd = old.socketFd)
    (registration : info.registration < n'.registrations) : n'.Monitored where
  distinct := table.socketHash ▸ h.distinct
  hashed fd' si' := by
    rw [table.socketHash, h.hashed, stores.infos]
    by_cases same : si' = si
    · simp [same, here, fd]
    · simp [same]
  below si' there := by
    rw [table.nextInfo]
    rw [stores.infos] at there
    by_cases same : si' = si
    · exact h.below si' (by simp [same, here])
    · exact h.below si' (by simpa [same] using there)
  watched fd' entry there := by
    rw [table.socketHash]
    rcases stores.interest fd' entry there with before | ⟨rfl, same⟩
    · exact h.watched fd' entry before
    · exact (h.hashed _ _).mpr ⟨old, same ▸ here, fd.symm⟩
  earlier si' info' there := by
    rw [stores.infos] at there
    rcases Table.of_update there with ⟨-, new⟩ | ⟨-, before⟩
    · exact Option.some.inj new ▸ registration
    · exact Nat.lt_of_lt_of_le (h.earlier si' info' before) later

theorem add (h : n.Monitored) {fd : Int} {info : SocketInfo} (absent : n.socketHash.find fd = none)
    (inserted : n.socketHash.insert fd n.nextInfo = some n'.socketHash)
    (nextInfo : n'.nextInfo = n.nextInfo + 1) (later : n'.registrations = n.registrations + 1)
    (mine : info.socketFd = fd) (registration : info.registration = n.registrations)
    (stores : Stores n.nextInfo info n n') : n'.Monitored := by
  have perm := HashTable.pairs_insert inserted
  have unused : n.infos n.nextInfo = none := by
    by_contra there
    exact Nat.lt_irrefl _ (h.below _ (Option.isSome_iff_ne_none.mpr there))
  have distinct : (n'.socketHash.pairs.map Prod.fst).Nodup := by
    refine (perm.map Prod.fst).nodup_iff.mpr (List.nodup_cons.mpr ⟨fun listed => ?_, h.distinct⟩)
    obtain ⟨⟨fd', si⟩, member, rfl⟩ := List.mem_map.mp listed
    exact HashTable.find_eq_none_iff.mp absent si member
  have find : ∀ fd' si, n'.socketHash.find fd' = some si ↔
      fd' = fd ∧ si = n.nextInfo ∨ n.socketHash.find fd' = some si := fun fd' si => by
    rw [HashTable.find_eq_some_iff distinct, HashTable.find_eq_some_iff h.distinct, perm.mem_iff,
      List.mem_cons, Prod.mk.injEq]
  refine ⟨distinct, fun fd' si => ?_, fun si there => ?_, fun fd' entry there => ?_,
    fun si info' there => ?_⟩
  · rw [find, h.hashed, stores.infos]
    by_cases new : si = n.nextInfo
    · simp [new, unused, mine, eq_comm]
    · simp [new]
  · rw [nextInfo]
    rw [stores.infos] at there
    by_cases new : si = n.nextInfo
    · exact new ▸ Nat.lt_succ_self _
    · exact Nat.lt_succ_of_lt (h.below si (by simpa [new] using there))
  · rw [find]
    rcases stores.interest fd' entry there with before | ⟨same, new⟩
    · exact .inr (h.watched fd' entry before)
    · exact .inl ⟨same.trans mine, new⟩
  · rw [stores.infos] at there
    rcases Table.of_update there with ⟨-, new⟩ | ⟨-, before⟩
    · rw [← Option.some.inj new, registration, later]
      exact Nat.lt_succ_self _
    · exact later ▸ Nat.lt_succ_of_lt (h.earlier si info' before)

theorem effect (h : n.Monitored) {call : MonitorCall} (effect : call.Effect n n') :
    n'.Monitored := by
  cases effect with
  | ignored _ table registrations infos interest =>
    exact ⟨table.socketHash ▸ h.distinct, table.socketHash ▸ infos ▸ h.hashed,
      table.nextInfo ▸ infos ▸ h.below,
      fun fd entry there => table.socketHash ▸ h.watched fd entry (interest fd entry there),
      registrations ▸ infos ▸ h.earlier⟩
  | edited events _ table registrations here stores =>
    apply h.store table registrations.ge here stores rfl
    have earlier := h.earlier _ _ here
    rwa [← registrations] at earlier
  | removed table registrations here stores =>
    apply h.store table registrations.ge here stores rfl
    have earlier := h.earlier _ _ here
    rwa [← registrations] at earlier
  | renewed found table registrations mine registration stores =>
    obtain ⟨old, here, same⟩ := (h.hashed _ _).mp found
    apply h.store table (registrations ▸ Nat.le_succ _) here stores (mine.trans same.symm)
    rw [registration, registrations]
    exact Nat.lt_succ_self _
  | added absent inserted nextInfo registrations mine registration stores =>
    exact h.add absent inserted nextInfo registrations mine registration stores

end Net.Monitored

theorem MonitorCall.Effect.registrations {call : MonitorCall} (effect : call.Effect n n') :
    n.registrations ≤ n'.registrations := by
  cases effect with
  | ignored _ _ same => exact same.ge
  | edited _ _ _ same => exact same.ge
  | removed _ same => exact same.ge
  | renewed _ _ more => exact more ▸ Nat.le_succ _
  | added _ _ _ more => exact more ▸ Nat.le_succ _

/-- What a call does to one record is what it does to its registration. -/
theorem MonitorCall.Effect.record {call : MonitorCall} (effect : call.Effect n n')
    (monitored : n.Monitored) {si : InfoId} {info : SocketInfo} (here : n.infos si = some info) :
    ∃ info', n'.infos si = some info' ∧ info'.socketFd = info.socketFd ∧
      match call.touch info.socketFd si with
      | .untouched => info'.registration = info.registration ∧ info'.userData = info.userData ∧
          info'.callback = info.callback
      | .renewed => n.registrations ≤ info'.registration
      | .removed => info'.callback = none := by
  have mine : n.socketHash.find info.socketFd = some si :=
    (monitored.hashed _ _).mpr ⟨info, here, rfl⟩
  cases effect with
  | ignored quiet _ _ infos =>
    rw [quiet]
    exact ⟨info, infos ▸ here, rfl, rfl, rfl, rfl⟩
  | @edited _ si' old _ quiet _ _ there stores =>
    rw [quiet, stores.infos]
    by_cases same : si = si'
    · subst same
      obtain rfl := Option.some.inj (here.symm.trans there)
      exact ⟨_, Function.update_self .., rfl, rfl, rfl, rfl⟩
    · exact ⟨info, (Function.update_of_ne same ..).trans here, rfl, rfl, rfl, rfl⟩
  | @removed si' old _ _ there stores =>
    rw [stores.infos]
    by_cases same : si = si'
    · subst same
      obtain rfl := Option.some.inj (here.symm.trans there)
      exact ⟨_, Function.update_self .., rfl, by simp [touch]⟩
    · exact ⟨info, (Function.update_of_ne same ..).trans here, rfl, by simp [touch, Ne.symm same]⟩
  | @renewed fd si' _ _ new found _ _ fd' registration stores =>
    rw [stores.infos]
    by_cases same : si = si'
    · subst same
      obtain ⟨old, there, rfl⟩ := (monitored.hashed _ _).mp found
      obtain rfl := Option.some.inj (here.symm.trans there)
      exact ⟨new, Function.update_self .., fd', by simp [touch, registration]⟩
    · have other : fd ≠ info.socketFd := by
        rintro rfl
        exact same (Option.some.inj (mine.symm.trans found))
      exact ⟨info, (Function.update_of_ne same ..).trans here, rfl, by simp [touch, other]⟩
  | @added fd _ _ _ absent _ _ _ _ _ stores =>
    rw [stores.infos]
    have old : si ≠ n.nextInfo := (monitored.below si (by simp [here])).ne
    have other : fd ≠ info.socketFd := by
      rintro rfl
      simp [mine] at absent
    exact ⟨info, (Function.update_of_ne old ..).trans here, rfl, by simp [touch, other]⟩

/-- A call leaves no record of an event behind but the one it was reported for. -/
theorem epollWait_watched {ready : List (Int × Events)} {events : List (InfoId × Events)}
    (reported : epollWait ready n = .ok events) :
    ∀ event ∈ events, ∃ fd mask, n.interest fd = some (mask, event.1) := by
  unfold epollWait at reported
  split at reported
  · intro event listed
    obtain ⟨⟨fd, happened⟩, done⟩ := mapM_ok reported event listed
    split at done
    · cases done
    · rename_i mask si there
      split at done
      · cases done
        exact ⟨fd, mask, there⟩
      · cases done
  · cases reported

end Records

def Report.Traced (since : Nat) (calls : List MonitorCall) (n : Net) (report : Report) : Prop :=
  ∃ registration userData info, report.origin = some (registration, userData) ∧
    registration < since ∧ n.infos report.si = some info ∧
    match standing info.socketFd report.si calls with
    | .untouched => info.registration = registration ∧ info.userData = userData
    | .renewed => since ≤ info.registration
    | .removed => info.callback = none

theorem Report.Traced.call {since : Nat} {calls : List MonitorCall} {n n' : Net} {report : Report}
    {call : MonitorCall} (traced : report.Traced since calls n) (monitored : n.Monitored)
    (early : since ≤ n.registrations) (effect : call.Effect n n') :
    report.Traced since (call :: calls) n' := by
  obtain ⟨registration, userData, info, origin, before, here, stands⟩ := traced
  obtain ⟨info', there, fd, changed⟩ := effect.record monitored here
  refine ⟨registration, userData, info', origin, before, there, ?_⟩
  rw [fd, standing]
  cases touched : call.touch info.socketFd report.si with
  | untouched =>
    rw [touched] at changed
    obtain ⟨same, data, callback⟩ := changed
    simpa only [same, data, callback] using stands
  | renewed =>
    rw [touched] at changed
    exact early.trans changed
  | removed =>
    rw [touched] at changed
    exact changed

namespace Poll

structure Sound (m : Poll) : Prop where
  monitored : m.net.Monitored
  traced : ∃ since, since ≤ m.net.registrations ∧
    ∀ report ∈ m.pending, report.Traced since m.calls m.net

variable {m m' : Poll}

theorem Fresh.monitored {n : Net} (fresh : Fresh n) : n.Monitored where
  distinct := by simp [fresh.socketHash]
  hashed fd si := by
    have absent : n.socketHash.find fd = none :=
      HashTable.find_eq_none_iff.mpr (by simp [fresh.socketHash])
    simp [absent, fresh.infos]
  below si there := by simp [fresh.infos] at there
  watched fd entry there := by simp [fresh.interest] at there
  earlier si info there := by simp [fresh.infos] at there

theorem Sound.wait (h : m.Sound) {ready : List (Int × Events)} {events : List (InfoId × Events)}
    (reported : epollWait ready m.net = .ok events) :
    Sound ⟨m.net, events.map fun event => ⟨event.1, event.2, m.net.origin event.1⟩, []⟩ := by
  refine ⟨h.monitored, m.net.registrations, le_rfl, fun report listed => ?_⟩
  obtain ⟨event, there, rfl⟩ := List.mem_map.mp listed
  obtain ⟨fd, mask, entry⟩ := epollWait_watched reported event there
  obtain ⟨info, here, -⟩ := (h.monitored.hashed _ _).mp (h.monitored.watched _ _ entry)
  exact ⟨info.registration, info.userData, info, by simp [Net.origin, here],
    h.monitored.earlier _ _ here, here, rfl, rfl⟩

theorem Sound.call (h : m.Sound) {call : MonitorCall} {net : Net}
    (done : call.run m.net = .ok ((), net)) : Sound { m with net, calls := call :: m.calls } := by
  have effect := call.run_effect.of_ok done
  obtain ⟨since, early, traced⟩ := h.traced
  exact ⟨h.monitored.effect effect, since, early.trans effect.registrations,
    fun report listed => (traced report listed).call h.monitored early effect⟩

theorem Sound.step (h : m.Sound) {input : PollInput} (done : m.step input = some m') :
    m'.Sound := by
  cases input with
  | wait ready =>
    simp only [Poll.step] at done
    split at done
    · rename_i reported
      cases done
      exact h.wait reported
    · cases done
  | look =>
    simp only [Poll.step] at done
    split at done
    · cases done
    · rename_i rest pending
      cases done
      obtain ⟨since, early, traced⟩ := h.traced
      exact ⟨h.monitored, since, early,
        fun report listed => traced report (pending ▸ .tail _ listed)⟩
  | call call =>
    simp only [Poll.step] at done
    split at done
    · rename_i ran
      cases done
      exact h.call ran
    · cases done

theorem Reached.sound (run : Reached m) : m.Sound := by
  induction run with
  | start fresh => exact ⟨fresh.monitored, 0, Nat.zero_le _, nofun⟩
  | step _ done ih => exact ih.step done

theorem callback_eq {report : Report} {n : Net} {info : SocketInfo}
    (record : n.infos report.si = some info) :
    callback report n = info.callback.map fun callback => (callback, info.userData) := by
  have target : smTarget report.si n =
      .ok (info.callback.map fun callback => (callback, info.userData), n) := by
    simp only [smTarget, getInfo, demand, bind, StateT.bind, Except.bind, record]
    rfl
  rw [callback, target]

/-- A callback is run for the registration that its event was reported for, exactly when the
last call about its descriptor since then was not one of `sm_add_socket`. -/
theorem origin_eq_iff (run : Reached m) {report : Report} {rest : List Report}
    (next : m.pending = report :: rest) (invoked : (callback report m.net).isSome)
    {info : SocketInfo} (record : m.net.infos report.si = some info) :
    m.net.origin report.si = report.origin ↔
      standing info.socketFd report.si m.calls ≠ .renewed := by
  obtain ⟨since, -, traced⟩ := run.sound.traced
  obtain ⟨registration, userData, info', origin, before, here, stands⟩ :=
    traced report (by simp [next])
  obtain rfl := Option.some.inj (record.symm.trans here)
  rw [callback_eq record] at invoked
  rw [origin, Net.origin, record]
  cases stood : standing info.socketFd report.si m.calls with
  | untouched =>
    rw [stood] at stands
    simp [stands]
  | renewed =>
    rw [stood] at stands
    have later : info.registration ≠ registration := (Nat.lt_of_lt_of_le before stands).ne'
    simp [later]
  | removed =>
    rw [stood] at stands
    simp [stands] at invoked

def play (inputs : List PollInput) (m : Poll) : Option Poll :=
  inputs.foldlM (fun m input => m.step input) m

theorem reached_of_play {inputs : List PollInput} (run : Reached m)
    (done : play inputs m = some m') : Reached m' := by
  induction inputs generalizing m with
  | nil =>
    cases done
    exact run
  | cons input inputs ih =>
    obtain ⟨next, stepped, rest⟩ := Option.bind_eq_some_iff.mp done
    exact ih (run.step stepped) rest

end Poll

namespace Sample

def blank : Net where
  sockets _ := none
  nextSocket := 0
  infos _ := none
  nextInfo := 0
  socketHash := .new _ _
  socketCount := 0
  openFds _ := false
  interest _ := none
  sends _ := []
  registrations := 0
  sent _ := []

def reading : List PollInput := [
  .call (.newFd (some 4)), .call (.smAddSocket 4 0 .epollIn),
  .call (.newFd (some 9)), .call (.smAddSocket 9 1 .epollIn),
  .wait [(4, .epollIn), (9, .epollIn)], .look]

def reconnecting : List PollInput := [
  .call (.smDelSocket 1), .call (.close 9),
  .call (.newFd (some 9)), .call (.smAddSocket 9 2 .epollOut)]

def played (inputs : List PollInput) (works : (Poll.play inputs ⟨blank, [], []⟩).isSome) : Poll :=
  (Poll.play inputs ⟨blank, [], []⟩).get works

theorem reached_played {inputs : List PollInput}
    {works : (Poll.play inputs ⟨blank, [], []⟩).isSome} : Poll.Reached (played inputs works) :=
  Poll.reached_of_play (.start ⟨rfl, rfl, rfl⟩) (Option.some_get works).symm

theorem reading_plays : (Poll.play reading ⟨blank, [], []⟩).isSome := by decide +kernel

theorem reconnecting_plays : (Poll.play (reading ++ reconnecting) ⟨blank, [], []⟩).isSome := by
  decide +kernel

end Sample

theorem Poll.origin_eq_reading :
    (Sample.played Sample.reading Sample.reading_plays).net.origin 1 = some (1, some 1) :=
  have next : (Sample.played Sample.reading Sample.reading_plays).pending =
      [⟨1, .epollIn, some (1, some 1)⟩] := by decide +kernel
  (Poll.origin_eq_iff Sample.reached_played next (by decide +kernel)
    (Option.some_get (by decide +kernel)).symm).mpr (by decide +kernel)

theorem Poll.origin_eq_reconnecting :
    ¬ ∀ m, Poll.Reached m → ∀ report rest, m.pending = report :: rest →
      (callback report m.net).isSome → m.net.origin report.si = report.origin := fun claim =>
  absurd (claim (Sample.played (Sample.reading ++ Sample.reconnecting) Sample.reconnecting_plays)
    Sample.reached_played ⟨1, .epollIn,
      some (1, some 1)⟩ [] (by decide +kernel) (by decide +kernel))
    (by decide +kernel)

end Bosh
