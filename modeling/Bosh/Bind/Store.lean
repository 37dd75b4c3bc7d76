import Bosh.Server.Run

/-! Session store coherence: what `jb_connect_client` and `jb_close_client` keep together. -/
namespace Bosh
open Effect Text

section Store
variable {Iks : Type} [Iksemel Iks]

/-- The list, the iterators, the hash and the two counters agree about the sessions. -/
structure StoreCoherent (s : Server Iks) : Prop where
  /-- A session is listed in its own node and nowhere else. -/
  listed : ∀ node c, (node, c) ∈ s.jabberConnections ↔
    ∃ client, s.clients c = some client ∧ client.it = node
  once : (Chain.values s.jabberConnections).Nodup
  hashed : ∀ sid c, (sid, c) ∈ s.sids.pairs ↔ ∃ client, s.clients c = some client ∧ client.sid = sid
  /-- The hash has one entry for a session, and no two sessions share a sid. -/
  entries : s.sids.pairs.Nodup
  distinct : ∀ c c' client client', s.clients c = some client → s.clients c' = some client' →
    client.sid = client'.sid → c = c'
  counted : s.clientCount = s.jabberConnections.length
  /-- `openCount` is what `client_count` was at the moments of the past. -/
  history : s.clientCount = openCount s.history
  highest : IsGreatest {n | ∃ past, past <:+ s.history ∧ openCount past = n} s.maxClientCount
  alive : ∀ c client, s.clients c = some client → client.alive = true
  /-- A session that has been closed has been closed once. -/
  closed : ∀ c, closings c s.history = if c < s.nextClient ∧ s.clients c = none then 1 else 0

omit [Iksemel Iks] in
theorem Directory.Coherent.store {s : Server Iks} (h : s.directory.Coherent)
    (alive : ∀ c client, s.clients c = some client → client.alive = true) : StoreCoherent s where
  listed node c := (h.listed.mem_iff node c).trans (by simp [Server.directory])
  once := h.listed.nodup_values
  hashed sid c := (h.hashed sid c).trans (by simp [Server.directory])
  entries := h.distinct.of_map _
  distinct c c' client client' here here' same := by
    have pair := (h.hashed client.sid c).mpr (by simp [Server.directory, here])
    have pair' := (h.hashed client.sid c').mpr (by simp [Server.directory, here', same])
    exact congrArg Prod.snd (List.inj_on_of_nodup_map h.distinct pair pair' rfl)
  counted := h.counted
  history := h.history
  highest := by
    rw [show s.maxClientCount = Bosh.peak s.history from h.highest]
    exact isGreatest_peak s.history
  alive := alive
  closed c := (h.closed c).trans (by simp [Server.directory])

/-- `jb_close_client` leaves every other session as it is. -/
theorem jbCloseClient_frame {c : ClientId} {s s' : Server Iks}
    (closed : jbCloseClient c s = .ok ((), s')) {c' : ClientId} (other : c' ≠ c) :
    s'.clients c' = s.clients c' := by
  have sim : Sim (Assumed.of False False) (({} : Phase Iks), s) (jbCloseClient c s) _ :=
    jbCloseClient_sim rfl (.inl rfl)
  obtain ⟨_, -, -, clients, -⟩ := sim.of_ok closed
  rw [clients, Function.update_of_ne other]

theorem alive_invariant (a : Assumed) :
    Invariant a fun q : Phase Iks × Server Iks => Alive q where
  initial s initial c dead := by simp [Server.aliveness, initial.clients] at dead
  hear _ _ h := h
  micro _ _ _ _ step _ h := step.alive h

/-- `jc_read_jabber` closes a session that has been marked as dead, before it returns. -/
theorem Reaches.alive {c : Configuration Iks} {admitted : Configuration Iks → Input Iks → Prop}
    (run : Reaches admitted c) {k : ClientId} {client : JabberClient Iks}
    (here : c.server.clients k = some client) : client.alive = true := by
  obtain ⟨-, alive⟩ := (alive_invariant (Assumed.of False False)).reaches (fun _ _ _ => .always) run
  by_contra dead
  have busy := alive k (by simpa [Server.aliveness, here] using dead)
  cases busy

theorem store_coherent :
    (∀ c : Configuration Iks, Reachable c → StoreCoherent c.server) ∧
      ∀ (c : ClientId) (s s' : Server Iks), jbCloseClient c s = .ok ((), s') →
        ∀ c', c' ≠ c → s'.clients c' = s.clients c' := by
  refine ⟨fun c run => ?_, fun c s s' closed c' other => jbCloseClient_frame closed other⟩
  exact run.sound.directory.store fun _ _ here => run.alive here

theorem Sample.created_works : (replay (fun _ _ => True) boot
    (accept 4 1 ++ arrive 4 (post "create"))).isSome := by decide +kernel

theorem store_coherent_sample :
    StoreCoherent (Sample.reached (fun _ _ => True)
      (Sample.accept 4 1 ++ Sample.arrive 4 (Sample.post "create")) Sample.created_works).server :=
  store_coherent.1 _ Sample.reaches_reached

end Store

end Bosh
