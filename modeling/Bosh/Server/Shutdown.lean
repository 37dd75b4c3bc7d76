import Bosh.Server.Descriptors
import Bosh.Server.Memory

/-! `jb_delete`: every session is closed, every connection is deleted, and nothing is left. -/
namespace Bosh
open Effect Text

def Estate.Claimed (e : Estate) (i : SocketId) : Prop :=
  ∀ j sock, e.wire.sockets j = some sock → j = i ∨ ∃ o, e.sock o = some j

theorem Estate.Claimed.change {e e' : Estate} {i : SocketId} (claimed : e.Claimed i)
    (change : Change e e') : e'.Claimed i := by
  intro j sock there
  cases change with
  | keep keeps same =>
    have related := keeps.sockets j
    rw [there] at related
    cases before : e.wire.sockets j with
    | none => rw [before] at related; cases related
    | some sock => exact same ▸ claimed j sock before
  | abandon wire same =>
    rw [wire] at there
    exact same ▸ claimed j sock (Table.of_update_none there).2
  | @acquire o sock' free _ _ _ wire same =>
    rw [wire] at there
    rw [same]
    by_cases new : j = e.wire.nextSocket
    · exact .inr ⟨o, by simp [new]⟩
    · rw [Wire.sockets_push_ne new] at there
      refine (claimed j sock there).imp id fun ⟨o', mine⟩ => ⟨o', ?_⟩
      rwa [Function.update_of_ne]
      rintro rfl
      simp [free] at mine
  | @release o i' mine wire same =>
    rw [wire] at there
    obtain ⟨other, before⟩ := Table.of_update_none there
    refine (claimed j sock before).imp id fun ⟨o', yours⟩ => ⟨o', ?_⟩
    rw [same, Function.update_of_ne]
    · exact yours
    · rintro rfl
      exact other (Option.some.inj (yours.symm.trans mine))
  | discard none wire same =>
    rw [wire] at there
    exact same ▸ claimed j sock (Table.of_update_none there).2

section Sessions
variable {Iks : Type} {s s' : Server Iks} {c : ClientId}

def farewell (s : Server Iks) (c : ClientId) : List (Record Iks) :=
  .closeSession c :: (s.holding c).toList.map fun h =>
    .answer h (.dropRequest c) terminateSessionResponse

structure Parted (c : ClientId) (s s' : Server Iks) : Prop where
  others : ∀ c', c' ≠ c → s'.clients c' = s.clients c'
  gone : s'.clients c = none
  order : ∀ client, s.clients c = some client →
    Chain.erase client.it s.jabberConnections = some s'.jabberConnections
  connections : ∀ h, (s'.connections h).isSome = (s.connections h).isSome
  httpConnections : s'.httpConnections = s.httpConnections
  history : s'.history = farewell s c ++ s.history

theorem Ended.parted (ended : Ended c s s') : Parted c s s' := by
  cases ended with
  | idle here unheld gone =>
    cases gone with | intro client rest net here' unheld' erased deletes =>
    exact {
      others := fun c' other => Function.update_of_ne other ..
      gone := Function.update_self ..
      order := fun client' same => by rwa [Option.some.inj (same.symm.trans here')]
      connections := fun _ => rfl
      httpConnections := rfl
      history := by simp [farewell, Server.holding, here', unheld'] }
  | held dropped gone =>
    cases dropped with | intro client h connection net clock oracle here held found gives later =>
    cases gone with | intro client' rest net' here' unheld' erased deletes =>
    obtain rfl := Option.some.inj (here'.symm.trans (Function.update_self ..))
    exact {
      others := fun c' other => by simp [other]
      gone := Function.update_self ..
      order := fun client' same => by rwa [Option.some.inj (same.symm.trans here)]
      connections := fun k => by
        by_cases equal : k = h
        · simp [Server.answered, equal, found]
        · simp [Server.answered, equal]
      httpConnections := rfl
      history := by
        simp [farewell, Server.holding, here, held, Server.answered, dropBody] }

namespace Parted

theorem holdsLive (parted : Parted c s s') (live : s.HoldsLive) : s'.HoldsLive := by
  intro c' client h there held
  by_cases same : c' = c
  · simp [same, parted.gone] at there
  · rw [parted.connections]
    exact live c' client h (parted.others c' same ▸ there) held

theorem farewell (parted : Parted c s s') {c' : ClientId} (other : c' ≠ c) :
    farewell s' c' = Bosh.farewell s c' := by
  simp [Bosh.farewell, Server.holding, parted.others c' other]

end Parted

variable [Iksemel Iks]

theorem jbCloseClient_first {node : Nat} {rest : Chain.Cells ClientId} (upright : Upright s)
    (order : s.jabberConnections = (node, c) :: rest) :
    Ensures (jbCloseClient c s)
      (fun _ s' => Upright s' ∧ Parted c s s' ∧ s'.jabberConnections = rest)
      fun _ => ¬ s.HoldsLive := by
  have listed : (node, c) ∈ s.jabberConnections := by simp [order]
  obtain ⟨client, here, rfl⟩ : ∃ client, s.clients c = some client ∧ client.it = node := by
    simpa [Server.directory] using (upright.sound.directory.listed.mem_iff _ _).mp listed
  cases done : jbCloseClient c s with
  | ok result =>
    have parted := ((jbCloseClient_exact upright here).of_ok done).parted
    have erased := parted.order client here
    rw [order, Chain.erase_head] at erased
    exact ⟨(jbCloseClient_upright upright c).of_ok done, parted, (Option.some.inj erased).symm⟩
  | error fault =>
    obtain ⟨h, held, missing⟩ := (jbCloseClient_exact upright here).of_error done
    exact fun live => by simpa [missing] using live c client h here held

/-- The sessions are closed in their order, and each answers what it holds before. -/
theorem closeClients_exact {cells : Chain.Cells ClientId} (upright : Upright s)
    (order : s.jabberConnections = cells) {fuel : Nat} (enough : cells.length < fuel) :
    Ensures (closeClients fuel s) (fun _ s' => s'.jabberConnections = [] ∧
      s'.httpConnections = s.httpConnections ∧
      s'.history = (Chain.values cells).reverse.flatMap (farewell s) ++ s.history)
      fun _ => ¬ s.HoldsLive := by
  obtain ⟨fuel, rfl⟩ := Nat.exists_eq_succ_of_ne_zero (Nat.ne_zero_of_lt enough)
  unfold closeClients
  rw [run_get]
  induction cells generalizing s fuel with
  | nil =>
    simp only [order]
    exact ⟨order, rfl, rfl⟩
  | cons cell rest ih =>
    obtain ⟨node, c⟩ := cell
    have distinct : (Chain.values s.jabberConnections).Nodup :=
      upright.sound.directory.listed.nodup_values
    rw [order, Chain.values, List.map_cons, List.nodup_cons] at distinct
    obtain ⟨fuel, rfl⟩ := Nat.exists_eq_succ_of_ne_zero (by simp at enough; omega : fuel ≠ 0)
    simp only [order]
    rw [ensures_bind]
    refine (jbCloseClient_first upright order).mono ?_ fun _ => id
    rintro _ s₁ ⟨upright₁, parted, order₁⟩
    unfold closeClients
    rw [run_get]
    refine (ih upright₁ order₁ fuel (Nat.lt_of_succ_lt_succ enough)).mono ?_ ?_
    · rintro _ s' ⟨none, connections, history⟩
      refine ⟨none, connections.trans parted.httpConnections, ?_⟩
      have same : ∀ c' ∈ (Chain.values rest).reverse, farewell s₁ c' = farewell s c' :=
        fun c' later => parted.farewell fun equal =>
          distinct.1 (equal ▸ List.mem_reverse.mp later)
      rw [history, List.flatMap_congr same, parted.history]
      simp [Chain.values]
    · exact fun _ stale live => stale (parted.holdsLive live)

end Sessions

section Connections
variable {Iks : Type} {s : Server Iks} {h : ConnectionId}

theorem hcDelete_exact (orderly : Orderly s) (alone : s.jabberConnections = [])
    {connection : HttpConnection} (here : s.connections h = some connection) :
    Ensures (hcDelete h s) (fun _ s' => s'.jabberConnections = [] ∧
      Chain.erase connection.it s.httpConnections = some s'.httpConnections ∧
      s'.history = .hcDelete h :: s.history) fun _ => False := by
  have listed : (connection.it, h) ∈ s.httpConnections :=
    (orderly.sound.roster.mem_iff _ _).mpr (by simp [here])
  obtain ⟨rest, erased⟩ := Chain.erase_isSome listed
  have silent : connection.closeCallback = none := by
    by_contra registered
    obtain ⟨⟨c⟩, calls⟩ := Option.ne_none_iff_exists'.mp registered
    have live := (orderly.sound.closesLive orderly.registered h
      (List.mem_map_of_mem (f := Prod.snd) listed) c (by simp [Server.registered, here, calls])).1
    simp [alone, Chain.values] at live
  unfold hcDelete
  rw [run_bind_ok (getConnection_run here), silent]
  change Ensures ((onNet (sockDelete connection.sock) >>= _) s) _ _
  rw [ensures_bind, onNet, ensures_part]
  refine (sockDelete_tidy orderly.tidy (only_none connection.sock)).mono ?_ fun _ missing => ?_
  · intro _ net _
    rw [run_get]
    simp only [erased]
    exact ⟨alone, rfl, rfl⟩
  · simpa [missing] using orderly.socket_connection here

variable [Iksemel Iks]

theorem deleteConnections_exact {cells : Chain.Cells ConnectionId} (orderly : Orderly s)
    (alone : s.jabberConnections = []) (order : s.httpConnections = cells) {fuel : Nat}
    (enough : cells.length < fuel) :
    Ensures (deleteConnections fuel s) (fun _ s' => s'.jabberConnections = [] ∧
      s'.httpConnections = [] ∧
      s'.history = (Chain.values cells).reverse.map .hcDelete ++ s.history) fun _ => False := by
  obtain ⟨fuel, rfl⟩ := Nat.exists_eq_succ_of_ne_zero (Nat.ne_zero_of_lt enough)
  unfold deleteConnections
  rw [run_get]
  induction cells generalizing s fuel with
  | nil =>
    simp only [order]
    exact ⟨alone, order, rfl⟩
  | cons cell rest ih =>
    obtain ⟨node, h⟩ := cell
    have listed : (node, h) ∈ s.httpConnections := by simp [order]
    obtain ⟨connection, here, rfl⟩ : ∃ connection, s.connections h = some connection ∧
        connection.it = node := by
      simpa using (orderly.sound.roster.mem_iff _ _).mp listed
    obtain ⟨fuel, rfl⟩ := Nat.exists_eq_succ_of_ne_zero (by simp at enough; omega : fuel ≠ 0)
    simp only [order]
    rw [ensures_bind]
    refine ((hcDelete_exact orderly alone here).both
      (hcDelete_orderly orderly (by simp [here]))).mono ?_ fun _ => And.left
    rintro _ s₁ ⟨⟨alone₁, erased, history⟩, orderly₁, -⟩
    rw [order, Chain.erase_head] at erased
    unfold deleteConnections
    rw [run_get]
    refine (ih orderly₁ alone₁ (Option.some.inj erased).symm fuel
      (Nat.lt_of_succ_lt_succ enough)).mono ?_ fun _ => id
    rintro _ s' ⟨alone', none, history'⟩
    exact ⟨alone', none, by simp [history', history, Chain.values]⟩

/-- What `jb_delete` does, to the order of the closings. -/
theorem jbDelete_exact (orderly : Orderly s) (listens : s.Listens) :
    Ensures (jbDelete s) (fun _ s' => s'.jabberConnections = [] ∧
      s'.httpConnections = [] ∧ s'.net.sockets s'.serverSock = none ∧
      s'.history = (Chain.values s.httpConnections).reverse.map .hcDelete ++
        (Chain.values s.jabberConnections).reverse.flatMap (farewell s) ++ s.history)
      fun _ => ¬ s.HoldsLive := by
  unfold jbDelete hsDelete
  rw [run_get, ensures_bind]
  have closes := (closeClients_exact orderly.toUpright rfl (Nat.lt_succ_self _)).both
    (closeClients_sparing (s.jabberConnections.length + 1) orderly listens)
  refine closes.mono ?_ fun _ => And.left
  rintro _ s₁ ⟨⟨alone, connections, history⟩, orderly₁, listens₁⟩
  rw [run_get, ensures_bind]
  have deletes := (deleteConnections_exact orderly₁ alone rfl (Nat.lt_succ_self _)).both
    (deleteConnections_sparing (s₁.httpConnections.length + 1) orderly₁ listens₁)
  refine deletes.mono ?_ fun _ bad => bad.1.elim
  rintro _ s₂ ⟨⟨alone₂, none, history₂⟩, orderly₂, listens₂, own⟩
  rw [onNet, ensures_part, ← own]
  refine ((sockDelete_deletes s₂.serverSock).both
    (sockDelete_tidy orderly₂.tidy (only_none _))).mono ?_ ?_
  · rintro _ net ⟨⟨-, deleted⟩, -⟩
    refine ⟨alone₂, none, ?_, ?_⟩
    · change net.wire.sockets s₂.serverSock = _
      rw [deleted]
      exact Function.update_self ..
    · simp [history₂, history, connections]
  · rintro fault ⟨-, missing⟩
    simp [Server.Listens, missing] at listens₂

end Connections

section Runs
variable {Iks : Type} [Iksemel Iks] {boot : Boot Iks} {c c₀ : Configuration Iks}

/-- Nothing is left of what the process has made. -/
structure Server.Empty (s : Server Iks) : Prop where
  clients : ∀ c, s.clients c = none
  connections : ∀ h, s.connections h = none
  sockets : ∀ i, s.net.sockets i = none
  jabberConnections : s.jabberConnections = []
  httpConnections : s.httpConnections = []
  sids : s.sids.pairs = []
  clientCount : s.clientCount = 0
  socketCount : s.net.socketCount = 0

theorem claimed_invariant : Invariant (Assumed.of False False)
    fun q : Phase Iks × Server Iks => q.2.estate.Claimed 0 where
  initial s initial := by
    obtain ⟨sends, sock, -, -, wire⟩ := initial.wire
    intro j sock' there
    change s.net.wire.sockets j = some sock' at there
    rw [wire] at there
    by_contra other
    rw [Wire.sockets_push_ne (by simpa using not_or.mp other |>.1)] at there
    cases there
  hear _ _ claimed := claimed
  micro _ _ _ _ step sound claimed := claimed.change (step.estate sound)

theorem Reaches.empty {admitted : Configuration Iks → Input Iks → Prop} (run : Reaches admitted c)
    (sessions : c.server.jabberConnections = []) (connections : c.server.httpConnections = [])
    (own : c.server.net.sockets c.server.serverSock = none) : c.server.Empty := by
  have upright := run.upright
  have clients : ∀ k, c.server.clients k = none := fun k => by
    by_contra there
    have listed := upright.sound.mem_jabberConnections.mpr (Option.isSome_iff_ne_none.mpr there)
    simp [sessions, Chain.values] at listed
  have gone : ∀ h, c.server.connections h = none := fun h => by
    by_contra there
    have listed := upright.sound.mem_httpConnections.mpr (Option.isSome_iff_ne_none.mpr there)
    simp [connections, Chain.values] at listed
  have unowned : ∀ o, c.server.estate.sock o = none := fun o => by
    cases o <;> simp [Server.estate, ownerSocks, clients, gone]
  have sockets : ∀ i, c.server.net.sockets i = none := fun i => by
    by_contra there
    obtain ⟨sock, there⟩ := Option.ne_none_iff_exists'.mp there
    rcases (claimed_invariant.reaches (fun _ _ _ => .always) run).2 i sock there with rfl | ⟨o, mine⟩
    · rw [← run.serverSock, own] at there
      cases there
    · cases (unowned o).symm.trans mine
  have coherent := upright.sound.directory
  refine ⟨clients, gone, sockets, sessions, connections, ?_, ?_, ?_⟩
  · refine List.eq_nil_iff_forall_not_mem.mpr fun pair listed => ?_
    obtain ⟨sid, k⟩ := pair
    have := (coherent.hashed sid k).mp listed
    simp [Server.directory, clients] at this
  · have := coherent.counted
    simpa [Server.directory, sessions] using this
  · rw [upright.tidy.counted, Net.active, Int.natCast_eq_zero, List.countP_eq_zero]
    intro si _ used
    obtain ⟨callback, used⟩ := Option.isSome_iff_exists.mp used
    obtain ⟨info, record, calls⟩ := Option.bind_eq_some_iff.mp used
    obtain ⟨i, sock, there, -⟩ := upright.tidy.records si info record (by simp [calls])
    cases (sockets i).symm.trans there

/-- Where no session holds a connection that has been deleted, a shutdown answers every request
that is held, closes every session and deletes every connection, once and in their order; no socket
is left, and the descriptors that are open are those that were before the start. These are the
descriptors of sockets: that of epoll and the log file are left to `sm_quit` and `log_quit`. -/
theorem shutdown_clean (began : start boot = .ok (some c₀)) (later : c₀.Later c)
    (polling : c.control = .polling) (live : c.server.HoldsLive) (oracle : Oracle Iks) :
    ∃ s', Bosh.step (.shutdown oracle) c = .ok ⟨s', .finished⟩ ∧ s'.Empty ∧
      s'.net.openFds = boot.openFds ∧
      s'.history = (Chain.values c.server.httpConnections).reverse.map .hcDelete ++
        (Chain.values c.server.jabberConnections).reverse.flatMap (farewell c.server) ++
          c.server.history := by
  have run : Reachable c := later.reachable began
  have ends := jbDelete_exact (run.orderly.hear oracle) (run.intact.listens (by simp [polling]))
  have steps : Bosh.step (.shutdown oracle) c = (jbDelete (c.server.hear oracle)).map
      fun result => ⟨result.2, .finished⟩ := by
    obtain ⟨s, control⟩ := c
    obtain rfl : control = _ := polling
    rfl
  cases done : jbDelete (c.server.hear oracle) with
  | error fault => exact absurd live (ends.of_error done)
  | ok result =>
    obtain ⟨sessions, connections, own, history⟩ := ends.of_ok done
    rw [done] at steps
    have later' : c₀.Later ⟨result.2, .finished⟩ := later.tail ⟨_, steps⟩
    have empty : result.2.Empty := (later'.reachable began).empty sessions connections own
    refine ⟨result.2, steps, empty, ?_, history⟩
    refine (accounted_run began later').balanced.nobody fun i => ?_
    simp [Net.ledger, empty.sockets i]

end Runs

theorem shutdown_clean_held : ∃ s' : Server Sample, s'.Empty ∧
    s'.net.openFds = Sample.inheriting.openFds ∧ ∃ past, s'.history = [.hcDelete 1,
      .closeSession 0, .answer 1 (.dropRequest 0) terminateSessionResponse] ++ past := by
  have found : (replay NoOverlap Sample.inheriting Sample.held).any fun c =>
      c.control = .polling ∧ Chain.values c.server.httpConnections = [1] ∧
        (Chain.values c.server.jabberConnections).reverse.flatMap (farewell c.server) =
          [.closeSession 0, .answer 1 (.dropRequest 0) terminateSessionResponse] := by decide +kernel
  obtain ⟨c, done, holds⟩ := (Option.any_eq_true _ _).mp found
  obtain ⟨polling, connections, sessions⟩ := of_decide_eq_true holds
  obtain ⟨c₀, began, later⟩ := later_of_replay done
  have live := (reaches_of_replay (fun _ _ _ => id) done : Reaches NoOverlap c).holdsLive
  obtain ⟨s', -, empty, same, history⟩ := shutdown_clean began later polling live {}
  refine ⟨s', empty, same, c.server.history, ?_⟩
  rw [history, connections, sessions]
  rfl

end Bosh
