import Mathlib.Data.Option.Basic
import Bosh.Server.Directory

/-! Every connection and every session has a socket of its own, with its callbacks. -/
namespace Bosh
open Effect Text

inductive Owner where
  | connection (h : ConnectionId)
  | session (c : ClientId)
  deriving DecidableEq

namespace Owner

def callbacks : Owner → Option DataCallback × Option ConnectCallback × Option ErrorCallback
  | connection h => (some (.hcRead h), none, some (.hcHandleError h))
  | session c => (some (.jcReadJabber c), some (.jcAnswerCreation c), some (.jcHandleError c))

theorem callbacks_injective : Function.Injective callbacks := by
  intro o o' same
  cases o <;> cases o' <;> simp_all [callbacks]

def Status : Owner → SocketStatus → Prop
  | connection _, status => status = .connected ∨ status = .idle
  | session _, status => status ≠ .listening

end Owner

structure Socket.Restyled (sock sock' : Socket) : Prop where
  callbacks : sock'.callbacks = sock.callbacks
  status : sock'.fd = sock.fd ∧ sock'.status = sock.status ∨ sock'.status = .idle ∨
    sock'.fd = sock.fd ∧ sock.status = .connecting ∧ sock'.status = .connected

structure Wire.Keeps (w w' : Wire) : Prop where
  nextSocket : w'.nextSocket = w.nextSocket
  sockets : ∀ i, Option.Rel Socket.Restyled (w.sockets i) (w'.sockets i)

theorem Socket.Restyled.refl (sock : Socket) : sock.Restyled sock := ⟨rfl, .inl ⟨rfl, rfl⟩⟩

theorem Wire.Keeps.refl (w : Wire) : w.Keeps w := by
  refine ⟨rfl, fun i => ?_⟩
  cases w.sockets i with
  | none => exact .none
  | some sock => exact .some (.refl sock)

theorem Wire.Keeps.of_only {w w' : Wire} {i : SocketId} {sock sock' : Socket}
    (only : OnlySocket i w w') (before : w.sockets i = some sock)
    (after : w'.sockets i = some sock') (restyled : sock.Restyled sock') : w.Keeps w' := by
  refine ⟨only.nextSocket, fun j => ?_⟩
  by_cases same : j = i
  · rw [same, before, after]
    exact .some restyled
  · rw [only.sockets j same]
    exact (Wire.Keeps.refl w).sockets j

theorem Gives.keeps {i : SocketId} {bytes : Bytes} {w w' : Wire} (gives : Gives i bytes w w') :
    w.Keeps w' := by
  obtain ⟨sock, sock', before, after, calls, outcome⟩ := gives.outcome
  refine .of_only gives.only before after ⟨calls, ?_⟩
  rcases outcome with ⟨fd, status, -⟩ | ⟨-, closed, -⟩
  · exact .inl ⟨fd, status⟩
  · exact .inr (.inl closed.2)

theorem Move.keeps {exposed : SocketId → Prop} {w w' : Wire} (move : Move exposed w w') :
    w.Keeps w' ∨ w' = { w.put w.nextSocket none with nextSocket := w.nextSocket + 1 } := by
  cases move with
  | flush gives => exact .inl gives.keeps
  | @shut i _ _ shut =>
    obtain ⟨sock, sock', before, rfl, calls, closed, -⟩ := shut
    exact .inl <| .of_only (.put i _ w) before (Wire.sockets_put_self ..) ⟨calls,
      .inr (.inl closed.2)⟩
  | @connected i sock before status =>
    exact .inl <| .of_only (.put i _ w) before (Wire.sockets_put_self ..)
      ⟨rfl, .inr (.inr ⟨rfl, status, rfl⟩)⟩
  | @refused i sock _ before =>
    exact .inl <| .of_only (.put i _ w) before (Wire.sockets_put_self ..) ⟨rfl, .inr (.inl rfl)⟩
  | abandoned => exact .inr rfl

/-- The sockets, and which owner has which. -/
structure Estate where
  sock : Owner → Option SocketId
  wire : Wire

namespace Estate

inductive Change (e e' : Estate) : Prop where
  | keep : e.wire.Keeps e'.wire → e'.sock = e.sock → Change e e'
  | abandon : e'.wire = { e.wire.put e.wire.nextSocket none with
      nextSocket := e.wire.nextSocket + 1 } → e'.sock = e.sock → Change e e'
  | acquire {o : Owner} {sock : Socket} : e.sock o = none → sock.callbacks = o.callbacks →
      o.Status sock.status → sock.fd ≠ -1 → e'.wire = e.wire.push sock →
      e'.sock = Function.update e.sock o (some e.wire.nextSocket) → Change e e'
  | release {o : Owner} {i : SocketId} : e.sock o = some i → e'.wire = e.wire.put i none →
      e'.sock = Function.update e.sock o none → Change e e'
  | discard {i : SocketId} : (∀ o, e.sock o = none) → e'.wire = e.wire.put i none →
      e'.sock = e.sock → Change e e'

structure Owned (e : Estate) : Prop where
  fresh : ∀ i, e.wire.nextSocket ≤ i → e.wire.sockets i = none
  owned : ∀ o i, e.sock o = some i →
    ∃ sock, e.wire.sockets i = some sock ∧ sock.callbacks = o.callbacks ∧ o.Status sock.status
  owner : ∀ i sock, e.wire.sockets i = some sock →
    sock.callbacks = (none, none, none) ∨ ∃ o, sock.callbacks = o.callbacks ∧ e.sock o = some i
  closed : ∀ i sock, e.wire.sockets i = some sock → sock.fd = -1 → sock.status = .idle

variable {e e' : Estate}

theorem Owned.below (h : e.Owned) {i : SocketId} {sock : Socket}
    (here : e.wire.sockets i = some sock) : i < e.wire.nextSocket := by
  by_contra high
  simp [h.fresh i (Nat.le_of_not_lt high)] at here

theorem Owned.unique (h : e.Owned) {o o' : Owner} {i : SocketId} (mine : e.sock o = some i)
    (yours : e.sock o' = some i) : o = o' := by
  obtain ⟨sock, here, calls, -⟩ := h.owned o i mine
  obtain ⟨sock', here', calls', -⟩ := h.owned o' i yours
  obtain rfl := Option.some.inj (here.symm.trans here')
  exact Owner.callbacks_injective (calls.symm.trans calls')

/-- The callbacks tell whose socket it is. -/
theorem Owned.sock_of_callbacks (h : e.Owned) {o : Owner} {i : SocketId} {sock : Socket}
    (here : e.wire.sockets i = some sock) (calls : sock.callbacks = o.callbacks) :
    e.sock o = some i := by
  rcases h.owner i sock here with nobody | ⟨o', calls', mine⟩
  · rw [calls] at nobody
    cases o <;> cases nobody
  · rwa [← Owner.callbacks_injective (calls'.symm.trans calls)]

theorem Owned.keep (h : e.Owned) (keeps : e.wire.Keeps e'.wire) (same : e'.sock = e.sock) :
    e'.Owned := by
  have back : ∀ i sock', e'.wire.sockets i = some sock' →
      ∃ sock, e.wire.sockets i = some sock ∧ sock.Restyled sock' := fun i sock' there => by
    have related := keeps.sockets i
    rw [there] at related
    cases here : e.wire.sockets i with
    | none => rw [here] at related; cases related
    | some sock =>
      rw [here] at related
      cases related with
      | some restyled => exact ⟨sock, rfl, restyled⟩
  refine ⟨fun i high => ?_, fun o i mine => ?_, fun i sock' there => ?_, fun i sock' there fd => ?_⟩
  · by_contra there
    obtain ⟨sock', there⟩ := Option.ne_none_iff_exists'.mp there
    obtain ⟨sock, here, -⟩ := back i sock' there
    rw [h.fresh i (keeps.nextSocket ▸ high)] at here
    cases here
  · obtain ⟨sock, here, calls, status⟩ := h.owned o i (same ▸ mine)
    have related := keeps.sockets i
    rw [here] at related
    cases there : e'.wire.sockets i with
    | none => rw [there] at related; cases related
    | some sock' =>
      rw [there] at related
      cases related with
      | some restyled =>
        refine ⟨sock', rfl, restyled.callbacks.trans calls, ?_⟩
        rcases restyled.status with ⟨-, same⟩ | idle | ⟨-, connecting, connected⟩
        · exact same ▸ status
        · cases o <;> simp [Owner.Status, idle]
        · cases o <;> simp_all [Owner.Status]
  · obtain ⟨sock, here, restyled⟩ := back i sock' there
    rw [restyled.callbacks, same]
    exact h.owner i sock here
  · obtain ⟨sock, here, restyled⟩ := back i sock' there
    rcases restyled.status with ⟨sameFd, status⟩ | idle | ⟨sameFd, connecting, -⟩
    · rw [status]
      exact h.closed i sock here (sameFd ▸ fd)
    · exact idle
    · have := h.closed i sock here (sameFd ▸ fd)
      rw [connecting] at this
      cases this

theorem Owned.acquire (h : e.Owned) {o : Owner} {sock : Socket} (free : e.sock o = none)
    (calls : sock.callbacks = o.callbacks) (status : o.Status sock.status) (opened : sock.fd ≠ -1) :
    Owned ⟨Function.update e.sock o (some e.wire.nextSocket), e.wire.push sock⟩ := by
  have old : ∀ o' i, e.sock o' = some i → i ≠ e.wire.nextSocket := by
    rintro o' _ mine rfl
    obtain ⟨_, here, -⟩ := h.owned o' _ mine
    rw [h.fresh _ le_rfl] at here
    cases here
  refine ⟨fun i high => ?_, fun o' i mine => ?_, fun i sock' there => ?_,
    fun i sock' there fd => ?_⟩
  · have high : e.wire.nextSocket < i := high
    rw [Wire.sockets_push_ne high.ne']
    exact h.fresh i high.le
  · rcases Table.of_update mine with ⟨rfl, new⟩ | ⟨other, mine⟩
    · cases new
      exact ⟨sock, Wire.sockets_push_self .., calls, status⟩
    · rw [Wire.sockets_push_ne (old o' i mine)]
      exact h.owned o' i mine
  · by_cases new : i = e.wire.nextSocket
    · rw [new, Wire.sockets_push_self, Option.some.injEq] at there
      exact .inr ⟨o, there ▸ calls, by simp [new]⟩
    · rw [Wire.sockets_push_ne new] at there
      refine (h.owner i sock' there).imp_right fun ⟨o', calls', mine⟩ => ⟨o', calls', ?_⟩
      have other : o' ≠ o := by rintro rfl; simp [free] at mine
      simp [other, mine]
  · by_cases new : i = e.wire.nextSocket
    · rw [new, Wire.sockets_push_self, Option.some.injEq] at there
      exact absurd (there ▸ fd) opened
    · rw [Wire.sockets_push_ne new] at there
      exact h.closed i sock' there fd

theorem Owned.drop (h : e.Owned) {sock : Owner → Option SocketId} {i : SocketId}
    (left : ∀ o j, sock o = some j ↔ j ≠ i ∧ e.sock o = some j) :
    Owned ⟨sock, e.wire.put i none⟩ := by
  have old : ∀ j x, (e.wire.put i none).sockets j = some x → j ≠ i ∧ e.wire.sockets j = some x :=
    fun j x there => Table.of_update_none there
  refine ⟨fun j high => ?_, fun o j mine => ?_, fun j x there => ?_, fun j x there => ?_⟩
  · by_contra there
    obtain ⟨x, there⟩ := Option.ne_none_iff_exists'.mp there
    exact absurd (h.fresh j high) (by simp [(old j x there).2])
  · obtain ⟨other, mine⟩ := (left o j).mp mine
    rw [Wire.sockets_put_ne other]
    exact h.owned o j mine
  · obtain ⟨other, here⟩ := old j x there
    refine (h.owner j x here).imp_right fun ⟨o, calls, mine⟩ => ⟨o, calls, ?_⟩
    exact (left o j).mpr ⟨other, mine⟩
  · exact h.closed j x (old j x there).2

theorem Owned.change (h : e.Owned) (change : Change e e') : e'.Owned := by
  obtain ⟨sock', wire'⟩ := e'
  cases change with
  | keep keeps same => exact h.keep keeps same
  | abandon wire same =>
    have nothing := Wire.put_self e.wire.nextSocket e.wire
    rw [h.fresh _ le_rfl] at nothing
    obtain rfl : wire' = _ := wire
    obtain rfl : sock' = _ := same
    rw [nothing]
    exact ⟨fun i high => h.fresh i (Nat.le_of_succ_le high), h.owned, h.owner, h.closed⟩
  | acquire free calls status opened wire same =>
    obtain rfl : wire' = _ := wire
    obtain rfl : sock' = _ := same
    exact h.acquire free calls status opened
  | @release o i mine wire same =>
    obtain rfl : wire' = _ := wire
    obtain rfl : sock' = _ := same
    apply h.drop
    intro o' j
    by_cases gone : o' = o
    · simp [gone, mine, eq_comm]
    · rw [Function.update_of_ne gone, iff_and_self]
      rintro still rfl
      exact gone (h.unique still mine)
  | discard nobody wire same =>
    obtain rfl : wire' = _ := wire
    obtain rfl : sock' = _ := same
    exact h.drop fun o' j => by simp [nobody]

end Estate

section Steps
variable {Iks : Type} [Iksemel Iks] {a : Assumed} {p p' : Phase Iks} {s s' : Server Iks}

def ownerSocks (connections : ConnectionId → Option HttpConnection)
    (clients : ClientId → Option (JabberClient Iks)) : Owner → Option SocketId
  | .connection h => (connections h).map HttpConnection.sock
  | .session c => (clients c).map JabberClient.sock

def Server.estate (s : Server Iks) : Estate :=
  ⟨ownerSocks s.connections s.clients, s.net.wire⟩

omit [Iksemel Iks] in
theorem estate_connection {h : ConnectionId} {connection : HttpConnection}
    (here : s.connections h = some connection) :
    s.estate.sock (.connection h) = some connection.sock := by
  simp [Server.estate, ownerSocks, here]

omit [Iksemel Iks] in
theorem estate_session {c : ClientId} {client : JabberClient Iks}
    (here : s.clients c = some client) : s.estate.sock (.session c) = some client.sock := by
  simp [Server.estate, ownerSocks, here]

def Roster (s : Server Iks) : Prop :=
  Chain.Indexes (Option.map HttpConnection.it ∘ s.connections) s.httpConnections s.nextNode

/-- The facts about lists and sockets that hold in the middle of a callback, too. -/
structure Sound (s : Server Iks) : Prop where
  directory : s.directory.Coherent
  roster : Roster s
  estate : s.estate.Owned

omit [Iksemel Iks] in
theorem owners_connection {connections : ConnectionId → Option HttpConnection}
    {clients : ClientId → Option (JabberClient Iks)} (h : ConnectionId)
    (connection : Option HttpConnection) :
    ownerSocks (Function.update connections h connection) clients =
      Function.update (ownerSocks connections clients) (.connection h)
        (connection.map HttpConnection.sock) := by
  funext o
  cases o with
  | connection h' => by_cases same : h' = h <;> simp [ownerSocks, same]
  | session c => simp [ownerSocks]

omit [Iksemel Iks] in
theorem owners_session {connections : ConnectionId → Option HttpConnection}
    {clients : ClientId → Option (JabberClient Iks)} (c : ClientId)
    (client : Option (JabberClient Iks)) :
    ownerSocks connections (Function.update clients c client) =
      Function.update (ownerSocks connections clients) (.session c)
        (client.map JabberClient.sock) := by
  funext o
  cases o with
  | connection h => simp [ownerSocks]
  | session c' => by_cases same : c' = c <;> simp [ownerSocks, same]

omit [Iksemel Iks] in
theorem Sound.mem_jabberConnections (sound : Sound s) {c : ClientId} :
    c ∈ Chain.values s.jabberConnections ↔ (s.clients c).isSome :=
  sound.directory.listed.mem_values.trans (by simp [Server.directory])

omit [Iksemel Iks] in
theorem Sound.unused (sound : Sound s) : s.clients s.nextClient = none := by
  simpa [Server.directory] using sound.directory.entry_next

omit [Iksemel Iks] in
theorem Sound.known (sound : Sound s) {c : ClientId} {client : JabberClient Iks}
    (here : s.clients c = some client) : c < s.nextClient :=
  sound.directory.below _ (by simp [Server.directory, here])

omit [Iksemel Iks] in
theorem Sound.mem_httpConnections (sound : Sound s) {h : ConnectionId} :
    h ∈ Chain.values s.httpConnections ↔ (s.connections h).isSome :=
  (Chain.Indexes.mem_values sound.roster).trans (by simp)

omit [Iksemel Iks] in
theorem Sound.connection_of_callback (sound : Sound s) {i : SocketId} {sock : Socket}
    {h : ConnectionId} (there : s.net.sockets i = some sock)
    (calls : sock.dataCallback = some (.hcRead h) ∨ sock.errorCallback = some (.hcHandleError h)) :
    ∃ connection, s.connections h = some connection ∧ connection.sock = i := by
  rcases sound.estate.owner i sock there with nobody | ⟨o, same, mine⟩
  · simp_all [Socket.callbacks]
  · cases o with
    | connection h' =>
      obtain rfl : h' = h := by
        rcases calls with data | error <;> simp_all [Socket.callbacks, Owner.callbacks]
      exact Option.map_eq_some_iff.mp mine
    | session c =>
      rcases calls with data | error <;> simp_all [Socket.callbacks, Owner.callbacks]

omit [Iksemel Iks] in
theorem Sound.session_of_callback (sound : Sound s) {i : SocketId} {sock : Socket} {c : ClientId}
    (there : s.net.sockets i = some sock) (calls : sock.dataCallback = some (.jcReadJabber c)) :
    ∃ client, s.clients c = some client ∧ client.sock = i := by
  rcases sound.estate.owner i sock there with nobody | ⟨o, same, mine⟩
  · simp_all [Socket.callbacks]
  · cases o with
    | connection h => simp_all [Socket.callbacks, Owner.callbacks]
    | session c' =>
      obtain rfl : c' = c := by simp_all [Socket.callbacks, Owner.callbacks]
      exact Option.map_eq_some_iff.mp mine

theorem Micro.roster (step : Micro a (p, s) (p', s')) (roster : Roster s) : Roster s' := by
  have kept : ∀ {h connection connection'}, s.connections h = some connection →
      connection'.it = connection.it →
      Chain.Indexes (Option.map HttpConnection.it ∘
        Function.update s.connections h (some connection')) s.httpConnections s.nextNode :=
    fun here same => by
      rw [Table.map_update_same here same]
      exact roster
  have removed : ∀ {h connection rest}, s.connections h = some connection →
      Chain.erase connection.it s.httpConnections = some rest →
      Chain.Indexes (Option.map HttpConnection.it ∘ Function.update s.connections h none)
        rest s.nextNode := fun here erased => by
      rw [Function.comp_update]
      exact roster.remove (by simp [here]) erased
  cases step with
  | @create _ _ h _ _ _ unused =>
    have added := roster.add (k := h) (by simp [unused])
    unfold Roster
    dsimp only
    rwa [Function.comp_update]
  | receive _ here => exact kept here rfl
  | consume _ _ here =>
    apply kept here
    unfold HttpConnection.consume
    split <;> rfl
  | delete here _ _ _ _ _ erased => exact removed here erased
  | deleteHeld _ here _ _ _ _ _ _ erased => exact removed here erased
  | answer _ _ here => exact kept here rfl
  | drop _ _ here => exact kept here rfl
  | flush _ _ _ here => exact kept here rfl
  | hold _ _ _ _ _ _ _ here => exact kept here rfl
  | openSession => exact roster.mono (Nat.le_succ _)
  | _ => exact roster

theorem Micro.estate (step : Micro a (p, s) (p', s')) (sound : Sound s) :
    Estate.Change s.estate s'.estate := by
  have same : ∀ {net : Net}, s.net.wire.Keeps net.wire → ∀ {sock}, sock = s.estate.sock →
      Estate.Change s.estate ⟨sock, net.wire⟩ := fun keeps _ still => .keep keeps still
  have still := Wire.Keeps.refl s.net.wire
  have session : ∀ {c client client'}, s.clients c = some client → client'.sock = client.sock →
      ownerSocks s.connections (Function.update s.clients c (some client')) = s.estate.sock :=
    fun here sock => (owners_session _ _).trans <| Function.update_eq_self_iff.mpr <| by
      simp [ownerSocks, here, sock]
  have connection : ∀ {h connection connection'} {clients : ClientId → Option (JabberClient Iks)},
      s.connections h = some connection → connection'.sock = connection.sock →
      ownerSocks s.connections clients = s.estate.sock →
        ownerSocks (Function.update s.connections h (some connection')) clients = s.estate.sock :=
    fun here sock rest => by
      rw [owners_connection, rest, Function.update_eq_self_iff]
      simp [Server.estate, ownerSocks, here, sock]
  cases step with
  | tick => exact same still rfl
  | stamp here => exact same still (session here rfl)
  | monitor wire => exact same (wire ▸ still) rfl
  | move move =>
    rcases move.keeps with keeps | wire
    · exact same keeps rfl
    · exact .abandon wire rfl
  | discard noClients noConnections deleted =>
    refine .discard (fun o => ?_) deleted.2 rfl
    cases o with
    | connection h =>
      have listed : Chain.Indexes _ s.httpConnections s.nextNode := sound.roster
      have gone := Chain.Indexes.eq_none_of_nil (noConnections ▸ listed) h
      simpa [Server.estate, ownerSocks] using gone
    | session c =>
      have listed : Chain.Indexes _ s.jabberConnections s.nextNode := sound.directory.listed
      have gone := Chain.Indexes.eq_none_of_nil (noClients ▸ listed) c
      simpa [Server.estate, ownerSocks, Server.directory] using gone
  | @create _ _ h _ _ _ unused _ opened pushed =>
    have free : s.estate.sock (.connection h) = none := by simp [Server.estate, ownerSocks, unused]
    exact .acquire free rfl (by simp [Owner.Status, acceptedSocket]) opened pushed
      (owners_connection _ _)
  | receive _ here => exact same still (connection here rfl rfl)
  | consume _ _ here =>
    refine same still (connection here ?_ rfl)
    unfold HttpConnection.consume
    split <;> rfl
  | refuse _ gives => exact same gives.keeps rfl
  | delete here _ _ _ _ _ _ deleted =>
    exact .release (estate_connection here) deleted.2 (owners_connection _ _)
  | deleteHeld _ here _ there _ _ _ _ _ deleted =>
    refine .release (estate_connection here) deleted.2 ((owners_connection _ _).trans ?_)
    dsimp only
    rw [session there (by rfl)]
    rfl
  | answer _ _ here gives => exact same gives.keeps (connection here rfl rfl)
  | drop there _ here gives => exact same gives.keeps (connection here rfl (session there rfl))
  | flush there _ _ here gives => exact same gives.keeps (connection here rfl (session there rfl))
  | hold _ _ _ _ _ there _ here => exact same still (connection here rfl (session there rfl))
  | openSession _ _ _ _ _ opened pushed =>
    have free : s.estate.sock (.session s.nextClient) = none := by
      simp [Server.estate, ownerSocks, sound.unused]
    exact .acquire free rfl
      (by simp [Owner.Status, sessionSocket]) opened pushed (owners_session _ _)
  | stanza _ here => exact same still (session here rfl)
  | kill _ here => exact same still (session here rfl)
  | forward _ _ _ gives => exact same gives.keeps rfl
  | forget here _ _ _ _ deleted =>
    exact .release (estate_session here) deleted.2 (owners_session _ _)
  | _ => exact same still rfl

theorem Micro.sound (step : Micro a (p, s) (p', s')) (sound : Sound s) : Sound s' where
  directory := sound.directory.change step.directory
  roster := step.roster sound.roster
  estate := sound.estate.change (step.estate sound)

end Steps

end Bosh
