import Bosh.Server.Links

/-! Requests and their answers: none is lost, none is answered twice, and none is answered
out of turn. -/
namespace Bosh
open Effect Text

section History
variable {Iks : Type}

def requestsOn (h : ConnectionId) : List (Record Iks) → Nat
  | [] => 0
  | .hcCreate k :: older => if k = h then 0 else requestsOn h older
  | .request k _ :: older => requestsOn h older + if k = h then 1 else 0
  | _ :: older => requestsOn h older

def answersOn (h : ConnectionId) : List (Record Iks) → Nat
  | [] => 0
  | .hcCreate k :: older => if k = h then 0 else answersOn h older
  | .answer k _ _ :: older => answersOn h older + if k = h then 1 else 0
  | _ :: older => answersOn h older

end History

/-- For every connection: the requests handed over, the answers given and the sessions that
hold it; and the connection of the request in hand. -/
structure Accounts where
  live : ConnectionId → Bool
  requests : ConnectionId → Nat
  answers : ConnectionId → Nat
  holders : ConnectionId → Nat
  owed : Option ConnectionId

namespace Accounts

inductive Change (b b' : Accounts) : Prop where
  | same : b' = b → Change b b'
  | create {h : ConnectionId} : b.owed ≠ some h → b.holders h = 0 → b' = { b with
      live := Function.update b.live h true
      requests := Function.update b.requests h 0
      answers := Function.update b.answers h 0 } → Change b b'
  | remove {h : ConnectionId} {holders : ConnectionId → Nat} :
      (∀ k, k ≠ h → holders k = b.holders k) →
      b' = { b with live := Function.update b.live h false, holders } → Change b b'
  | request {h : ConnectionId} : b.owed = none → b' = { b with
      owed := some h
      requests := Function.update b.requests h (b.requests h + 1) } → Change b b'
  | answer {h : ConnectionId} : b.owed = some h → b' = { b with
      owed := none
      answers := Function.update b.answers h (b.answers h + 1) } → Change b b'
  | release {h : ConnectionId} {n : Nat} : b.holders h = n + 1 → b' = { b with
      holders := Function.update b.holders h n
      answers := Function.update b.answers h (b.answers h + 1) } → Change b b'
  | hold {h : ConnectionId} : b.owed = some h → b' = { b with
      owed := none
      holders := Function.update b.holders h (b.holders h + 1) } → Change b b'

/-- Whatever has been handed over is answered, held or in hand. -/
def Balanced (b : Accounts) : Prop :=
  ∀ h, b.live h = true →
    b.requests h = b.answers h + b.holders h + if b.owed = some h then 1 else 0

theorem Balanced.change {b b' : Accounts} (h : b.Balanced) (change : Change b b') :
    b'.Balanced := by
  cases change with
  | same same => exact same ▸ h
  | @create k free unheld same =>
    subst same
    intro j live
    by_cases new : j = k
    · simp [new, unheld, free]
    · simpa [new] using h j (by simpa [new] using live)
  | @remove k holders still same =>
    subst same
    intro j live
    by_cases gone : j = k
    · simp [gone] at live
    · simpa [still j gone] using h j (by simpa [gone] using live)
  | @request k answered same =>
    subst same
    intro j live
    have old := h j live
    by_cases mine : j = k
    · subst mine
      simp [answered] at old ⊢
      omega
    · simpa [mine, answered, Ne.symm mine] using old
  | @answer k owed same =>
    subst same
    intro j live
    have old := h j live
    by_cases mine : j = k
    · subst mine
      simp [owed] at old ⊢
      omega
    · simpa [mine, owed, Ne.symm mine] using old
  | @release k n held same =>
    subst same
    intro j live
    have old := h j live
    by_cases mine : j = k
    · subst mine
      simp [held] at old ⊢
      omega
    · simpa [mine] using old
  | @hold k owed same =>
    subst same
    intro j live
    have old := h j live
    by_cases mine : j = k
    · subst mine
      simp [owed] at old ⊢
      omega
    · simpa [mine, owed, Ne.symm mine] using old

end Accounts

section Steps
variable {Iks : Type} [Iksemel Iks] {a : Assumed} {p p' : Phase Iks} {s s' : Server Iks}

def Server.holders (s : Server Iks) (h : ConnectionId) : Nat :=
  (Chain.values s.jabberConnections).countP fun c => s.holding c = some h

def accounts (q : Phase Iks × Server Iks) : Accounts where
  live h := (q.2.connections h).isSome
  requests h := requestsOn h q.2.history
  answers h := answersOn h q.2.history
  holders := q.2.holders
  owed := q.1.owed

omit [Iksemel Iks] in
theorem accounts_of {live : ConnectionId → Bool} {requests answers holders : ConnectionId → Nat}
    (h₁ : (fun h => (s.connections h).isSome) = live)
    (h₂ : (fun h => requestsOn h s.history) = requests)
    (h₃ : (fun h => answersOn h s.history) = answers) (h₄ : s.holders = holders) :
    accounts (p, s) = ⟨live, requests, answers, holders, p.owed⟩ := by
  rw [← h₁, ← h₂, ← h₃, ← h₄]
  rfl

private theorem update_succ (f : ConnectionId → Nat) (h : ConnectionId) :
    (fun k => f k + if h = k then 1 else 0) = Function.update f h (f h + 1) := by
  funext k
  by_cases same : k = h
  · simp [same]
  · simp [same, Ne.symm same]

private theorem update_zero (f : ConnectionId → Nat) (h : ConnectionId) :
    (fun k => if h = k then 0 else f k) = Function.update f h 0 := by
  funext k
  by_cases same : k = h
  · simp [same]
  · simp [same, Ne.symm same]

omit [Iksemel Iks] in
private theorem live_update {connections : ConnectionId → Option HttpConnection} {h : ConnectionId}
    {connection : Option HttpConnection} :
    (fun k => (Function.update connections h connection k).isSome) =
      Function.update (fun k => (connections k).isSome) h connection.isSome :=
  Function.comp_update Option.isSome connections h connection

omit [Iksemel Iks] in
private theorem live_same {connections : ConnectionId → Option HttpConnection} {h : ConnectionId}
    {connection connection' : HttpConnection} (here : connections h = some connection) :
    (fun k => (Function.update connections h (some connection') k).isSome) =
      fun k => (connections k).isSome := by
  rw [live_update, Function.update_eq_self_iff]
  simp [here]

omit [Iksemel Iks] in
/-- How the counts change when a session takes or leaves a connection. -/
theorem holders_update (sound : Sound s) {c : ClientId} {held : Option ConnectionId}
    (live : (s.clients c).isSome) (order : s'.jabberConnections = s.jabberConnections)
    (holding : s'.holding = Function.update s.holding c held) (h : ConnectionId) :
    s'.holders h + (if s.holding c = some h then 1 else 0) =
      s.holders h + if held = some h then 1 else 0 := by
  unfold Server.holders
  rw [order, holding]
  exact Table.countP_update sound.directory.listed.nodup_values
    (sound.mem_jabberConnections.mpr live) fun held => held = some h

omit [Iksemel Iks] in
theorem holders_release (sound : Sound s) {c : ClientId} {h : ConnectionId}
    (held : s.holding c = some h) (order : s'.jabberConnections = s.jabberConnections)
    (holding : s'.holding = Function.update s.holding c none) :
    s.holders h = s'.holders h + 1 ∧ ∀ k, k ≠ h → s'.holders k = s.holders k := by
  have live : (s.clients c).isSome := Option.isSome_of_isSome_bind (Option.isSome_of_mem held)
  have count := holders_update sound live order holding
  refine ⟨by simpa [held] using (count h).symm, fun k other => ?_⟩
  simpa [held, Ne.symm other] using count k

omit [Iksemel Iks] in
theorem holders_hold (sound : Sound s) {c : ClientId} {h : ConnectionId}
    (live : (s.clients c).isSome) (free : s.holding c = none)
    (order : s'.jabberConnections = s.jabberConnections)
    (holding : s'.holding = Function.update s.holding c (some h)) :
    s'.holders = Function.update s.holders h (s.holders h + 1) := by
  funext k
  have count := holders_update sound live order holding k
  by_cases mine : k = h
  · subst mine
    simpa [free] using count
  · simpa [free, mine, Ne.symm mine] using count

omit [Iksemel Iks] in
theorem holders_congr (order : s'.jabberConnections = s.jabberConnections)
    (holding : s'.holding = s.holding) : s'.holders = s.holders := by
  unfold Server.holders
  rw [order, holding]

omit [Iksemel Iks] in
theorem holders_idle {c : ClientId} (free : s.holding c = none) (holding : s'.holding = s.holding)
    (order : (Chain.values s.jabberConnections).Perm (c :: Chain.values s'.jabberConnections)) :
    s'.holders = s.holders := by
  funext h
  unfold Server.holders
  rw [order.countP_eq, List.countP_cons, holding]
  simp [free]

omit [Iksemel Iks] in
theorem release_change (sound : Sound s) {c : ClientId} {h : ConnectionId}
    {connection connection' : HttpConnection} {answerer : Answerer Iks} {body : Bytes}
    (held : s.holding c = some h) (here : s.connections h = some connection)
    (order : s'.jabberConnections = s.jabberConnections)
    (holding : s'.holding = Function.update s.holding c none)
    (connections : s'.connections = Function.update s.connections h (some connection'))
    (history : s'.history = .answer h answerer body :: s.history) :
    Accounts.Change (accounts (p, s)) (accounts (p, s')) := by
  obtain ⟨before, others⟩ := holders_release sound held order holding
  refine .release before (accounts_of ?_ ?_ ?_ ?_)
  · rw [connections]
    exact live_same here
  · rw [history]
    rfl
  · rw [history]
    exact update_succ _ h
  · funext k
    by_cases mine : k = h
    · simp [mine]
    · rw [Function.update_of_ne mine]
      exact others k mine

theorem Micro.accounts_change (step : Micro a (p, s) (p', s')) (sound : Sound s)
    (registered : (links (p, s)).Registered) (inHand : InHand (p, s))
    (unheld : ∀ h, s.connections h = none → (a.vacant → Vacant s h) → s.holders h = 0) :
    Accounts.Change (accounts (p, s)) (accounts (p', s')) := by
  cases step with
  | stamp here => exact .same (accounts_of rfl rfl rfl (holders_congr rfl (holding_same here rfl)))
  | stanza _ here => exact .same (accounts_of rfl rfl rfl (holders_congr rfl (holding_same here rfl)))
  | kill _ here => exact .same (accounts_of rfl rfl rfl (holders_congr rfl (holding_same here rfl)))
  | @create _ _ h _ _ _ gone vacant =>
    refine .create (h := h) ?_ (unheld h gone vacant)
      (accounts_of live_update (update_zero _ h) (update_zero _ h) rfl)
    intro owed
    simpa [gone] using inHand h (.inl owed)
  | receive _ here => exact .same (accounts_of (live_same here) rfl rfl rfl)
  | @request _ _ h _ _ _ _ _ _ _ owed =>
    exact .request owed (accounts_of rfl (update_succ _ h) rfl rfl)
  | consume _ _ here => exact .same (accounts_of (live_same here) rfl rfl rfl)
  | delete here => exact .remove (fun _ _ => rfl) (accounts_of live_update rfl rfl rfl)
  | @deleteHeld _ _ h connection c _ _ _ _ here callback there =>
    have held := registered h c (by simp [links, Server.registered, here, callback])
    refine .remove (h := h) ?_ (accounts_of live_update rfl rfl rfl)
    refine (holders_release sound held ?_ ?_).2
    · rfl
    · exact Table.bind_update
  | @answer _ _ h _ _ _ _ owed _ here =>
    exact .answer owed (accounts_of (live_same here) rfl (update_succ _ h) rfl)
  | drop there held here =>
    exact release_change sound (by simp [Server.holding, there, held]) here rfl Table.bind_update
      rfl rfl
  | flush there held _ here =>
    exact release_change sound (by simp [Server.holding, there, held]) here rfl Table.bind_update
      rfl rfl
  | hold _ _ owed target _ there free here =>
    exact .hold owed (accounts_of (live_same here) rfl rfl (holders_hold sound
      (Option.isSome_of_mem there) (by simp [Server.holding, there, free]) rfl Table.bind_update))
  | openSession =>
    refine .same (accounts_of rfl rfl rfl (holders_idle (c := s.nextClient) ?_ ?_ ?_).symm)
    · simp [Server.holding]
    · exact (holding_new sound rfl).symm
    · rw [Chain.values_pushBack]
      exact List.perm_append_singleton _ _
  | @forget _ _ c client rest _ here free _ _ erased =>
    have listed : (client.it, c) ∈ s.jabberConnections :=
      (sound.directory.listed.mem_iff _ _).mpr (by simp [Server.directory, here])
    have perm := (Chain.perm_of_erase sound.directory.listed.nodup listed erased).map Prod.snd
    refine .same (accounts_of rfl rfl rfl (holders_idle (c := c) ?_ ?_ perm))
    · simp [Server.holding, here, free]
    · exact holding_gone here free
  | _ => exact .same rfl

structure AccountsSound (q : Phase Iks × Server Iks) : Prop where
  registered : (links q).Registered
  inHand : InHand q
  balanced : (accounts q).Balanced

theorem accounts_invariant {a : Assumed} (vacant : a.vacant) :
    Invariant a (AccountsSound : Phase Iks × Server Iks → Prop) where
  initial s initial := by
    refine ⟨(registered_invariant a).initial s initial, by simp [InHand], fun h live => ?_⟩
    simp [accounts, initial.connections] at live
  hear _ _ h := ⟨h.registered, h.inHand, h.balanced⟩
  micro _ _ _ _ step sound h := by
    refine ⟨h.registered.change (step.links_change sound), step.inHand h.inHand,
      h.balanced.change (step.accounts_change sound h.registered h.inHand fun k _ free => ?_)⟩
    exact List.countP_eq_zero.mpr fun c listed => by simpa using free vacant c listed

/-- While a new connection never gets an address that a session still has, every request on
an open connection has been answered once or is held by one session. -/
theorem requests_balance {c : Configuration Iks} (run : Reaches FreshAddress c) {h : ConnectionId}
    (listed : h ∈ Chain.values c.server.httpConnections) :
    requestsOn h c.server.history = answersOn h c.server.history + c.server.holders h := by
  have invariant : Invariant (Assumed.of False True) (AccountsSound : Phase Iks × Server Iks → Prop) :=
    accounts_invariant trivial
  obtain ⟨sound, accounts⟩ := invariant.reaches
    (fun c input allowed => ⟨fun _ _ _ _ _ => trivial, nofun, fun _ => allowed⟩) run
  exact accounts.balanced h (sound.mem_httpConnections.mp listed)

end Steps

namespace Sample

/-- The connection goes, its session is not told, and the next one gets its address. -/
def reused : List (Input Sample) :=
  overlapped ++ iteration 4 .epollIn { arrivals := [{ result := .data [] }] } ++ accept 4 1

theorem held_fresh : (replay FreshAddress boot held).isSome := by decide +kernel

theorem reused_works : (replay (fun _ _ => True) boot reused).isSome := by decide +kernel

end Sample

theorem requests_balance_held :
    requestsOn 1 (Sample.reached FreshAddress Sample.held Sample.held_fresh).server.history =
      answersOn 1 (Sample.reached FreshAddress Sample.held Sample.held_fresh).server.history +
        (Sample.reached FreshAddress Sample.held Sample.held_fresh).server.holders 1 :=
  requests_balance Sample.reaches_reached (by decide +kernel)

/-- The new connection has had no request, but the old session holds it. -/
theorem requests_balance_reused :
    ¬ ∀ c : Configuration Sample, Reachable c →
      ∀ h ∈ Chain.values c.server.httpConnections, requestsOn h c.server.history =
        answersOn h c.server.history + c.server.holders h := fun claim =>
  absurd (claim (Sample.reached (fun _ _ => True) Sample.reused Sample.reused_works)
    Sample.reaches_reached 1 (by decide +kernel)) (by decide +kernel)

end Bosh
