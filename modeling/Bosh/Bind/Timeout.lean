import Bosh.Server.Effects

/-! The timeouts of `jb_run`: how long it sleeps, and what it does when it wakes up. -/
namespace Bosh
open Effect Text

variable {Iks : Type}

/-- When the session's request is to be answered or, if there is none, the session to be closed. -/
def JabberClient.deadline (sessionTimeout : Int) (client : JabberClient Iks) : Int :=
  client.timestamp + if client.connection.isSome then client.wait else sessionTimeout

namespace Server

def overdue (init : Int) (s : Server Iks) (c : ClientId) : Bool :=
  (s.clients c).any fun client => client.connection.isSome && client.wait ≤ init - client.timestamp

def expired (init : Int) (s : Server Iks) (c : ClientId) : Bool :=
  (s.clients c).any fun client =>
    client.connection.isNone && s.sessionTimeout ≤ init - client.timestamp

def overdues (init : Int) (s : Server Iks) : List ClientId :=
  (Chain.values s.jabberConnections).filter (s.overdue init)

def expireds (init : Int) (s : Server Iks) : List ClientId :=
  (Chain.values s.jabberConnections).filter (s.expired init)

/-- One empty response for each overdue request of a connection. -/
def dropResponses (s : Server Iks) (h : ConnectionId) : Bytes :=
  ((s.overdues s.now).filter fun c => s.holding c = some h).flatMap
    fun _ => httpResponse httpXmlContent emptyResponse

/-- Every request that is overdue has come on a connection that is still there. -/
def OverdueLive (s : Server Iks) : Prop :=
  ∀ c h, s.overdue s.now c = true → s.holding c = some h → (s.connections h).isSome

theorem HoldsLive.overdueLive {s : Server Iks} (live : s.HoldsLive) : s.OverdueLive :=
  fun c h _ held => by
  obtain ⟨client, here, held⟩ := Option.bind_eq_some_iff.mp held
  exact live c client h here held

theorem overdue_iff {init : Int} {s : Server Iks} {c : ClientId} :
    s.overdue init c = true ↔ ∃ client, s.clients c = some client ∧ client.connection.isSome ∧
      client.wait ≤ init - client.timestamp := by
  simp [overdue, Option.any_eq_true]

theorem expired_iff {init : Int} {s : Server Iks} {c : ClientId} :
    s.expired init c = true ↔ ∃ client, s.clients c = some client ∧ client.connection = none ∧
      s.sessionTimeout ≤ init - client.timestamp := by
  simp [expired, Option.any_eq_true]

/-- A deadline has passed if and only if one of the two tests succeeds. -/
theorem deadline_le_iff {init : Int} {s : Server Iks} {c : ClientId} {client : JabberClient Iks}
    (here : s.clients c = some client) :
    client.deadline s.sessionTimeout ≤ init ↔ s.overdue init c = true ∨
      s.expired init c = true := by
  unfold overdue expired JabberClient.deadline
  rw [here, Option.any_some, Option.any_some]
  cases client.connection with
  | none =>
    simp only [Option.isSome_none, Option.isNone_none, Bool.false_and, Bool.true_and,
      decide_eq_true_eq, Bool.false_eq_true, if_false, false_or]
    omega
  | some h =>
    simp only [Option.isSome_some, Option.isNone_some, Bool.false_and, Bool.true_and,
      decide_eq_true_eq, Bool.false_eq_true, if_true, or_false]
    omega

theorem overdue_congr {init : Int} {s s' : Server Iks} {c : ClientId}
    (same : s'.clients c = s.clients c) : s'.overdue init c = s.overdue init c := by
  rw [overdue, overdue, same]

theorem expired_congr {init : Int} {s s' : Server Iks} {c : ClientId}
    (same : s'.clients c = s.clients c) (timeout : s'.sessionTimeout = s.sessionTimeout) :
    s'.expired init c = s.expired init c := by
  rw [expired, expired, same, timeout]

theorem not_expired_of_overdue {init : Int} {s : Server Iks} {c : ClientId}
    (overdue : s.overdue init c = true) : s.expired init c = false := by
  obtain ⟨client, here, held, -⟩ := overdue_iff.mp overdue
  have some_ : client.connection.isNone = false := by simpa using held
  simp [expired, here, some_]

theorem clock_le_now (s : Server Iks) : s.clock ≤ s.now := by
  unfold now
  omega

end Server

inductive Drops : List ClientId → Server Iks → Server Iks → Prop where
  | nil (s : Server Iks) : Drops [] s s
  | cons {c : ClientId} {cs : List ClientId} {s s₁ s' : Server Iks} :
      Dropped c false s s₁ → Upright s₁ → Drops cs s₁ s' → Drops (c :: cs) s s'

inductive Closes : List ClientId → Server Iks → Server Iks → Prop where
  | nil (s : Server Iks) : Closes [] s s
  | cons {c : ClientId} {cs : List ClientId} {s s₁ s' : Server Iks} :
      Forgotten c s s₁ → Upright s₁ → Closes cs s₁ s' → Closes (c :: cs) s s'

section Released
variable {s s' : Server Iks} {c : ClientId} {answerer : Answerer Iks} {body : Bytes}
  {after : JabberClient Iks → JabberClient Iks}

theorem Released.clients_ne (released : Released c answerer body after s s') {c' : ClientId}
    (other : c' ≠ c) : s'.clients c' = s.clients c' := by
  cases released
  exact Function.update_of_ne other ..

theorem Released.connections (released : Released c answerer body after s s') (h : ConnectionId) :
    (s'.connections h).isSome = (s.connections h).isSome := by
  obtain ⟨client, h', connection, net, clock, oracle, here, held, found, gives, later⟩ := released
  by_cases same : h = h'
  · simp [Server.answered, same, found]
  · simp [Server.answered, same]

theorem Released.sessionTimeout (released : Released c answerer body after s s') :
    s'.sessionTimeout = s.sessionTimeout := by
  cases released
  rfl

end Released

section Drops
variable {s s' : Server Iks} {cs : List ClientId} {c : ClientId} {terminate : Bool}

theorem Dropped.connection (dropped : Dropped c terminate s s') (upright : Upright s)
    {h : ConnectionId} {connection : HttpConnection} (here : s.connections h = some connection) :
    Given connection.sock
        (if s.holding c = some h then httpResponse httpXmlContent (dropBody terminate) else [])
        s.net.wire s'.net.wire ∧
      s'.connections h = some (if s.holding c = some h then { connection with closeCallback := none }
        else connection) := by
  obtain ⟨client, h', connection', net, clock, oracle, mine, held, found, gives, later⟩ := dropped
  have holding : s.holding c = some h' := by simp [Server.holding, mine, held]
  by_cases same : h' = h
  · subst same
    obtain rfl := Option.some.inj (here.symm.trans found)
    rw [if_pos holding, if_pos holding]
    exact ⟨gives.given, Function.update_self ..⟩
  · have elsewhere : ¬ s.holding c = some h := by simpa [holding] using same
    have apart : connection.sock ≠ connection'.sock := fun equal => by
      have owners := upright.apart (estate_connection here) (equal ▸ estate_connection found)
      cases owners
      exact same rfl
    obtain ⟨sock, there⟩ := Option.isSome_iff_exists.mp (upright.socket_connection here)
    rw [if_neg elsewhere, if_neg elsewhere]
    exact ⟨.nothing there (gives.only.same apart),
      (Function.update_of_ne (Ne.symm same) ..).trans here⟩

theorem Dropped.holding_ne (dropped : Dropped c terminate s s') {c' : ClientId} (other : c' ≠ c) :
    s'.holding c' = s.holding c' := by
  rw [Server.holding, Server.holding, dropped.clients_ne other]

theorem Drops.clients_of_notMem (drops : Drops cs s s') (other : c ∉ cs) :
    s'.clients c = s.clients c := by
  induction drops with
  | nil => rfl
  | cons dropped _ _ ih =>
    rw [List.mem_cons, not_or] at other
    exact (ih other.2).trans (dropped.clients_ne other.1)

theorem Drops.client (drops : Drops cs s s') (distinct : cs.Nodup) (listed : c ∈ cs) :
    ∃ client timestamp, s.clients c = some client ∧ s.clock ≤ timestamp ∧
      s'.clients c = some { client with connection := none, timestamp } := by
  induction drops with
  | nil => cases listed
  | @cons c' cs s s₁ s' dropped _ drops ih =>
    obtain ⟨new, distinct⟩ := List.nodup_cons.mp distinct
    obtain ⟨client, h, connection, net, clock, oracle, here, held, found, gives, later⟩ := dropped
    rcases List.mem_cons.mp listed with rfl | listed
    · refine ⟨client, clock, here, later, (drops.clients_of_notMem new).trans ?_⟩
      exact Function.update_self ..
    · obtain ⟨client', timestamp, here', after, same⟩ := ih distinct listed
      have other : c ≠ c' := fun equal => new (equal ▸ listed)
      exact ⟨client', timestamp, (Function.update_of_ne other ..).symm.trans here',
        later.trans after, same⟩

theorem Drops.live (drops : Drops cs s s') (distinct : cs.Nodup) (listed : c ∈ cs)
    {h : ConnectionId} (held : s.holding c = some h) : (s.connections h).isSome := by
  induction drops with
  | nil => cases listed
  | @cons c' cs s s₁ s' dropped _ drops ih =>
    obtain ⟨new, distinct⟩ := List.nodup_cons.mp distinct
    rcases List.mem_cons.mp listed with rfl | listed
    · obtain ⟨client, h', connection, net, clock, oracle, here, held', found, -⟩ := dropped
      simp only [Server.holding, here, Option.bind_some, held', Option.some.injEq] at held
      simp [← held, found]
    · have other : c ≠ c' := fun equal => new (equal ▸ listed)
      have same := ih distinct listed ((dropped.holding_ne other).trans held)
      rwa [dropped.connections] at same

def Server.dropAnswers (s : Server Iks) (cs : List ClientId) : List (Record Iks) :=
  cs.filterMap fun c => (s.holding c).map fun h => .answer h (.dropRequest c) emptyResponse

theorem Drops.history (drops : Drops cs s s') (distinct : cs.Nodup) :
    s'.history = (s.dropAnswers cs).reverse ++ s.history := by
  induction drops with
  | nil => rfl
  | @cons c cs s s₁ s' dropped _ drops ih =>
    obtain ⟨new, distinct⟩ := List.nodup_cons.mp distinct
    have others : s₁.dropAnswers cs = s.dropAnswers cs := List.filterMap_congr fun c' listed => by
      rw [dropped.holding_ne fun equal => new (equal ▸ listed)]
    rw [ih distinct, others]
    obtain ⟨client, h, connection, net, clock, oracle, here, held, -⟩ := dropped
    have holding : s.holding c = some h := by simp [Server.holding, here, held]
    simp [Server.dropAnswers, holding, Server.answered, dropBody]

theorem Drops.connection (drops : Drops cs s s') (distinct : cs.Nodup) (upright : Upright s)
    {h : ConnectionId} {connection : HttpConnection} (here : s.connections h = some connection) :
    Given connection.sock
        ((cs.filter fun c => s.holding c = some h).flatMap fun _ => httpResponse httpXmlContent emptyResponse)
        s.net.wire s'.net.wire ∧
      s'.connections h = some (if ∃ c ∈ cs, s.holding c = some h then
        { connection with closeCallback := none } else connection) := by
  induction drops generalizing connection with
  | nil s =>
    obtain ⟨sock, there⟩ := Option.isSome_iff_exists.mp (upright.socket_connection here)
    exact ⟨.nothing there ⟨rfl, rfl, rfl⟩, by simpa using here⟩
  | @cons c cs s s₁ s' dropped upright₁ drops ih =>
    obtain ⟨new, distinct⟩ := List.nodup_cons.mp distinct
    obtain ⟨given, here₁⟩ := dropped.connection upright here
    obtain ⟨rest, here'⟩ := ih distinct upright₁ here₁
    have same : ∀ c' ∈ cs, s₁.holding c' = s.holding c' := fun c' listed =>
      dropped.holding_ne fun equal => new (equal ▸ listed)
    have filters : cs.filter (fun c' => s₁.holding c' = some h) = cs.filter fun c' => s.holding c' = some h :=
      List.filter_congr fun c' listed => by rw [same c' listed]
    have exist : (∃ c' ∈ cs, s₁.holding c' = some h) ↔ ∃ c' ∈ cs, s.holding c' = some h :=
      exists_congr fun c' => and_congr_right fun listed => by rw [same c' listed]
    rw [filters] at rest
    rw [if_congr exist rfl rfl] at here'
    by_cases held : s.holding c = some h
    · rw [if_pos held] at given rest here'
      refine ⟨?_, ?_⟩
      · rw [List.filter_cons_of_pos (by simpa using held), List.flatMap_cons]
        exact given.trans rest
      · rw [if_pos ⟨c, .head _, held⟩, here', ite_self]
    · rw [if_neg held] at given rest here'
      refine ⟨?_, ?_⟩
      · rw [List.filter_cons_of_neg (by simpa using held)]
        exact given.trans rest
      · have shorter : (∃ c' ∈ c :: cs, s.holding c' = some h) ↔
          ∃ c' ∈ cs, s.holding c' = some h := by
          simp [held]
        rw [here', if_congr shorter rfl rfl]

theorem Drops.socket (drops : Drops cs s s') {i : SocketId}
    (other : ∀ h connection, s.connections h = some connection → connection.sock ≠ i) :
    SameSocket i s.net.wire s'.net.wire := by
  induction drops with
  | nil => exact ⟨rfl, rfl, rfl⟩
  | cons dropped _ _ ih =>
    obtain ⟨client, h, connection, net, clock, oracle, here, held, found, gives, later⟩ := dropped
    refine (gives.only.same (other h connection found).symm).trans (ih fun h' connection' here' => ?_)
    rcases Table.of_update here' with ⟨-, new⟩ | ⟨-, old⟩
    · obtain rfl := Option.some.inj new
      exact other h connection found
    · exact other h' connection' old

theorem Drops.clock (drops : Drops cs s s') : s.clock ≤ s'.clock := by
  induction drops with
  | nil => exact le_rfl
  | cons dropped _ _ ih =>
    obtain ⟨client, h, connection, net, clock, oracle, here, held, found, gives, later⟩ := dropped
    exact later.trans ih

theorem Drops.rest (drops : Drops cs s s') : ∃ net connections clients clock oracle history,
    s' = { s with net, connections, clients, clock, oracle, history } := by
  induction drops with
  | nil s => exact ⟨_, _, _, _, _, _, rfl⟩
  | cons dropped _ _ ih =>
    obtain ⟨_, _, _, _, _, _, rfl⟩ := ih
    cases dropped
    exact ⟨_, _, _, _, _, _, rfl⟩

end Drops

section Closes
variable {s s' : Server Iks} {cs : List ClientId} {c : ClientId}

theorem Forgotten.clients_ne (gone : Forgotten c s s') {c' : ClientId} (other : c' ≠ c) :
    s'.clients c' = s.clients c' := by
  cases gone
  exact Function.update_of_ne other ..

theorem Closes.clients (closes : Closes cs s s') (c : ClientId) :
    s'.clients c = if c ∈ cs then none else s.clients c := by
  induction closes with
  | nil => simp
  | @cons c' cs s s₁ s' gone _ _ ih =>
    rw [ih]
    by_cases same : c = c'
    · subst same
      obtain ⟨client, rest, net, -⟩ := gone
      simp
    · simp only [List.mem_cons, same, false_or]
      rw [gone.clients_ne same]

theorem Closes.order (closes : Closes cs s s') (upright : Upright s) :
    s'.jabberConnections = s.jabberConnections.filter fun cell => cell.2 ∉ cs := by
  induction closes with
  | nil => simp
  | @cons c cs s s₁ s' gone upright₁ _ ih =>
    rw [ih upright₁]
    obtain ⟨client, rest, net, here, unheld, erased, gone⟩ := gone
    have node : s.directory.entry c = some (client.it, client.sid) := by
      simp [Server.directory, here]
    have left : rest = s.jabberConnections.filter fun cell => cell.2 ≠ c :=
      upright.sound.directory.listed.erase_eq_filter (k := c) (by simp [node]) erased
    subst left
    simp only [List.filter_filter, List.mem_cons, not_or]
    exact List.filter_congr fun cell _ => by simp [Bool.and_comm]

theorem Closes.count (closes : Closes cs s s') : s'.clientCount = s.clientCount - cs.length := by
  induction closes with
  | nil => simp
  | cons gone _ _ ih =>
    rw [ih]
    cases gone
    simp only [List.length_cons]
    omega

theorem Closes.history (closes : Closes cs s s') :
    s'.history = (cs.map Record.closeSession).reverse ++ s.history := by
  induction closes with
  | nil => rfl
  | cons gone _ _ ih =>
    rw [ih]
    cases gone
    simp

theorem Closes.socket (closes : Closes cs s s') {i : SocketId}
    (other : ∀ c ∈ cs, ∀ client, s.clients c = some client → client.sock ≠ i) :
    SameSocket i s.net.wire s'.net.wire := by
  induction closes with
  | nil => exact ⟨rfl, rfl, rfl⟩
  | @cons c cs s s₁ s' gone _ _ ih =>
    obtain ⟨client, rest, net, here, unheld, erased, deletes⟩ := id gone
    have mine : client.sock ≠ i := other c (.head _) client here
    refine (gone.socket here mine.symm).trans (ih fun c' listed client' here' => ?_)
    rcases Table.of_update here' with ⟨-, new⟩ | ⟨-, old⟩
    · cases new
    · exact other c' (.tail _ listed) client' old

theorem Closes.gone (closes : Closes cs s s') (distinct : cs.Nodup) (upright : Upright s)
    (listed : c ∈ cs) {client : JabberClient Iks} (here : s.clients c = some client) :
    s'.net.sockets client.sock = none := by
  induction closes with
  | nil => cases listed
  | @cons c' cs s s₁ s' gone upright₁ closes ih =>
    obtain ⟨new, distinct⟩ := List.nodup_cons.mp distinct
    rcases List.mem_cons.mp listed with rfl | listed
    · obtain ⟨client', rest, net, here', unheld, erased, ⟨-, wire⟩⟩ := gone
      obtain rfl := Option.some.inj (here.symm.trans here')
      have removed : net.wire.sockets client.sock = none := by rw [wire, Wire.sockets_put_self]
      refine (closes.socket fun c₂ listed₂ client₂ here₂ equal => ?_).sockets.trans removed
      rcases Table.of_update here₂ with ⟨-, nothing⟩ | ⟨other, old⟩
      · cases nothing
      · have owners := upright.apart (estate_session old) (equal ▸ estate_session here)
        cases owners
        exact other rfl
    · have other : c ≠ c' := fun equal => new (equal ▸ listed)
      exact ih distinct upright₁ listed ((gone.clients_ne other).trans here)

theorem Closes.rest (closes : Closes cs s s') :
    ∃ net clients jabberConnections sids clientCount history,
    s' = { s with net, clients, jabberConnections, sids, clientCount, history } := by
  induction closes with
  | nil s => exact ⟨_, _, _, _, _, _, rfl⟩
  | cons gone _ _ ih =>
    obtain ⟨_, _, _, _, _, _, rfl⟩ := ih
    cases gone
    exact ⟨_, _, _, _, _, _, rfl⟩

end Closes

section Loops
variable [Iksemel Iks] {s : Server Iks}

theorem jbTimedOut_exact (init : Int) {cs : List ClientId} (distinct : cs.Nodup)
    (live : ∀ c ∈ cs, (s.clients c).isSome) (upright : Upright s) :
    Ensures (jbTimedOut init cs s) (fun toClose s' => toClose = cs.filter (s.expired init) ∧
      Drops (cs.filter (s.overdue init)) s s' ∧ Upright s') fun _ => ∃ c ∈ cs,
        s.overdue init c = true ∧ ∃ h, s.holding c = some h ∧ s.connections h = none := by
  induction cs generalizing s with
  | nil => exact ⟨rfl, .nil s, upright⟩
  | cons c rest ih =>
    obtain ⟨new, distinct⟩ := List.nodup_cons.mp distinct
    obtain ⟨client, here⟩ := Option.isSome_iff_exists.mp (live c (.head _))
    unfold jbTimedOut
    rw [run_bind_ok (getClient_run here), run_get]
    by_cases late : client.connection.isSome ∧ init - client.timestamp ≥ client.wait
    · have overdue : s.overdue init c = true :=
        Server.overdue_iff.mpr ⟨client, here, late.1, late.2⟩
      obtain ⟨h, held⟩ := Option.isSome_iff_exists.mp late.1
      rw [if_pos late, ensures_bind]
      refine ((jcDropRequest_exact upright false here held).both
        (jcDropRequest_upright upright false here)).mono ?_ ?_
      · rintro _ s₁ ⟨dropped, upright₁⟩
        have same : ∀ c' ∈ rest, s₁.clients c' = s.clients c' := fun c' listed =>
          dropped.clients_ne fun equal => new (equal ▸ listed)
        have timeout := dropped.sessionTimeout
        have live₁ : ∀ c' ∈ rest, (s₁.clients c').isSome := fun c' listed =>
          same c' listed ▸ live c' (.tail _ listed)
        refine (ih distinct live₁ upright₁).mono ?_ ?_
        · rintro toClose s' ⟨rfl, drops, upright'⟩
          rw [List.filter_cons_of_neg (by simp [Server.not_expired_of_overdue overdue]),
            List.filter_cons_of_pos overdue]
          rw [List.filter_congr fun c' listed => Server.overdue_congr (same c' listed)] at drops
          refine ⟨?_, .cons dropped upright₁ drops, upright'⟩
          exact List.filter_congr fun c' listed => Server.expired_congr (same c' listed) timeout
        · rintro _ ⟨c', listed, due, h', held', gone⟩
          have other : c' ≠ c := fun equal => new (equal ▸ listed)
          rw [Server.overdue_congr (same c' listed)] at due
          rw [← Option.not_isSome_iff_eq_none, dropped.connections,
            Option.not_isSome_iff_eq_none] at gone
          exact ⟨c', .tail _ listed, due, h', (dropped.holding_ne other).symm.trans held', gone⟩
      · rintro fault ⟨absent, -⟩
        exact ⟨c, .head _, overdue, h, by simp [Server.holding, here, held], absent⟩
    · have punctual : ¬ s.overdue init c = true := fun overdue => by
        obtain ⟨client', here', held, waited⟩ := Server.overdue_iff.mp overdue
        obtain rfl := Option.some.inj (here.symm.trans here')
        exact late ⟨held, waited⟩
      have rest_live : ∀ c' ∈ rest, (s.clients c').isSome :=
        fun c' listed => live c' (.tail _ listed)
      rw [if_neg late, List.filter_cons_of_neg punctual]
      by_cases old : client.connection.isNone ∧ init - client.timestamp ≥ s.sessionTimeout
      · have expired : s.expired init c = true :=
          Server.expired_iff.mpr ⟨client, here, Option.isNone_iff_eq_none.mp old.1, old.2⟩
        rw [if_pos old, List.filter_cons_of_pos expired, ensures_bind]
        refine (ih distinct rest_live upright).mono ?_ ?_
        · rintro toClose s' ⟨rfl, drops, upright'⟩
          exact ⟨rfl, drops, upright'⟩
        · rintro _ ⟨c', listed, stale⟩
          exact ⟨c', .tail _ listed, stale⟩
      · have recent : ¬ s.expired init c = true := fun expired => by
          obtain ⟨client', here', unheld, waited⟩ := Server.expired_iff.mp expired
          obtain rfl := Option.some.inj (here.symm.trans here')
          exact old ⟨Option.isNone_iff_eq_none.mpr unheld, waited⟩
        rw [if_neg old, List.filter_cons_of_neg recent]
        refine (ih distinct rest_live upright).mono (fun _ _ => id) ?_
        rintro _ ⟨c', listed, stale⟩
        exact ⟨c', .tail _ listed, stale⟩

theorem closes_exact {cs : List ClientId} (distinct : cs.Nodup)
    (free : ∀ c ∈ cs, ∃ client, s.clients c = some client ∧ client.connection = none)
    (upright : Upright s) :
    Ensures (cs.forM jbCloseClient s) (fun _ s' => Closes cs s s' ∧ Upright s') fun _ => False := by
  induction cs generalizing s with
  | nil => exact ⟨.nil s, upright⟩
  | cons c rest ih =>
    obtain ⟨new, distinct⟩ := List.nodup_cons.mp distinct
    obtain ⟨client, here, unheld⟩ := free c (.head _)
    rw [List.forM_eq_forM, List.forM_cons, ensures_bind]
    refine ((jbCloseClient_exact upright here).both (jbCloseClient_upright upright c)).mono ?_ ?_
    · rintro _ s₁ ⟨ended, upright₁⟩
      have gone : Forgotten c s s₁ := by
        cases ended with
        | idle _ _ gone => exact gone
        | held dropped =>
          obtain ⟨client', h, _, _, _, _, here', held, -⟩ := dropped
          obtain rfl := Option.some.inj (here.symm.trans here')
          rw [unheld] at held
          cases held
      have free₁ : ∀ c' ∈ rest, ∃ client, s₁.clients c' = some client ∧ client.connection = none :=
        fun c' listed => by
          rw [gone.clients_ne fun equal => new (equal ▸ listed)]
          exact free c' (.tail _ listed)
      refine (ih distinct free₁ upright₁).mono ?_ fun _ => id
      rintro _ s' ⟨closes, upright'⟩
      exact ⟨.cons gone upright₁ closes, upright'⟩
    · rintro fault ⟨⟨h, held, -⟩, -⟩
      rw [unheld] at held
      cases held

/-- Everything `jb_check_timeout` does: first the overdue requests, then the expired sessions. -/
theorem jbCheckTimeout_exact (upright : Upright s) :
    Ensures (jbCheckTimeout s) (fun _ s' => ∃ s₁, Drops (s.overdues s.now) s.ticked s₁ ∧
      Closes (s.expireds s.now) s₁ s' ∧ Upright s₁ ∧ Upright s') fun _ => ¬ s.OverdueLive := by
  have distinct : (Chain.values s.jabberConnections).Nodup :=
    upright.sound.directory.listed.nodup_values
  have live : ∀ c ∈ Chain.values s.jabberConnections, (s.clients c).isSome :=
    fun c => upright.sound.mem_jabberConnections.mp
  have upright₀ : Upright s.ticked :=
    ⟨⟨upright.sound.directory, upright.sound.roster, upright.sound.estate⟩, upright.tidy⟩
  unfold jbCheckTimeout
  rw [run_bind_ok (getTime_run s), run_get, ensures_bind]
  refine (jbTimedOut_exact (s := s.ticked) s.now distinct live upright₀).mono ?_ ?_
  case refine_2 =>
    rintro _ ⟨c, -, overdue, h, held, gone⟩ answerable
    have there := answerable c h overdue held
    exact absurd gone (Option.isSome_iff_ne_none.mp there)
  rintro toClose s₁ ⟨rfl, drops, upright₁⟩
  refine (closes_exact (distinct.filter _) (fun c listed => ?_) upright₁).mono ?_ fun _ => False.elim
  · have expired : s.expired s.now c = true := (List.mem_filter.mp listed).2
    obtain ⟨client, here, unheld, -⟩ := Server.expired_iff.mp expired
    have punctual : c ∉ (Chain.values s.jabberConnections).filter (s.overdue s.now) :=
      fun overdue => by
      rw [Server.not_expired_of_overdue (List.mem_filter.mp overdue).2] at expired
      cases expired
    exact ⟨client, (drops.clients_of_notMem punctual).trans here, unheld⟩
  · rintro _ s' ⟨closes, upright'⟩
    exact ⟨s₁, drops, closes, upright₁, upright'⟩

omit [Iksemel Iks] in
theorem jbClosest_least (current : Int) {cs : List ClientId} (live : ∀ c ∈ cs, (s.clients c).isSome)
    (closest : Int) :
    ∃ least, jbClosest current cs closest s = .ok (least, s) ∧
      IsLeast {x | x = closest ∨ ∃ c ∈ cs, ∃ client, s.clients c = some client ∧
        x = client.deadline s.sessionTimeout - current} least := by
  induction cs generalizing closest with
  | nil => exact ⟨closest, rfl, .inl rfl, fun x listed => by simp_all⟩
  | cons c cs ih =>
    obtain ⟨client, here⟩ := Option.isSome_iff_exists.mp (live c (.head _))
    have tmp : (if client.connection.isSome then (client.timestamp + client.wait) - current
        else (client.timestamp + s.sessionTimeout) - current) =
          client.deadline s.sessionTimeout - current := by
      unfold JabberClient.deadline
      split <;> rfl
    unfold jbClosest
    rw [run_bind_ok (getClient_run here), run_get, tmp]
    obtain ⟨least, ran, member, lower⟩ := ih (fun c' listed => live c' (.tail _ listed))
      (if client.deadline s.sessionTimeout - current < closest then
        client.deadline s.sessionTimeout - current else closest)
    refine ⟨least, ran, ?_, fun x listed => ?_⟩
    · rcases member with same | ⟨c', listed, other⟩
      · split at same
        · exact .inr ⟨c, .head _, client, here, same⟩
        · exact .inl same
      · exact .inr ⟨c', .tail _ listed, other⟩
    · have bound := lower (.inl rfl)
      rcases listed with rfl | ⟨c', listed, client', here', rfl⟩
      · split at bound
        · omega
        · exact bound
      · rcases List.mem_cons.mp listed with rfl | later
        · obtain rfl := Option.some.inj (here.symm.trans here')
          split at bound
          · exact bound
          · omega
        · exact lower (.inr ⟨c', later, client', here', rfl⟩)

omit [Iksemel Iks] in
theorem jbClosestTimeout_least (upright : Upright s) :
    ∃ least, jbClosestTimeout s = .ok (least, s.ticked) ∧
      IsLeast {x | x = s.sessionTimeout ∨ ∃ c client, s.clients c = some client ∧
        x = client.deadline s.sessionTimeout - s.now} least := by
  have live : ∀ c ∈ Chain.values s.jabberConnections, (s.ticked.clients c).isSome :=
    fun c => upright.sound.mem_jabberConnections.mp
  obtain ⟨least, ran, isLeast⟩ := jbClosest_least s.now live s.sessionTimeout
  refine ⟨least, ?_, ?_⟩
  · unfold jbClosestTimeout
    rw [run_get, run_bind_ok (getTime_run s)]
    exact ran
  · have same : {x | x = s.sessionTimeout ∨ ∃ c client, s.clients c = some client ∧
        x = client.deadline s.sessionTimeout - s.now} =
      {x | x = s.sessionTimeout ∨ ∃ c ∈ Chain.values s.jabberConnections, ∃ client,
        s.ticked.clients c = some client ∧
          x = client.deadline s.ticked.sessionTimeout - s.now} := by
      apply Set.ext
      intro x
      apply or_congr_right
      constructor
      · rintro ⟨c, client, here, rfl⟩
        exact ⟨c, upright.sound.mem_jabberConnections.mpr (Option.isSome_of_mem here), client, here,
          rfl⟩
      · rintro ⟨c, -, client, here, rfl⟩
        exact ⟨c, client, here, rfl⟩
    rw [same]
    exact isLeast

/-- What `jb_check_timeout` leaves of the sessions and of the rest of the server. -/
structure Checked (s s' : Server Iks) : Prop where
  dropped : ∀ c client h, s.clients c = some client → client.connection = some h →
    client.wait ≤ s.now - client.timestamp → ∃ timestamp, s.now ≤ timestamp ∧
      s'.clients c = some { client with connection := none, timestamp }
  /-- The answer is given on the connection that the request has come on. -/
  answered : ∀ c client h, s.clients c = some client → client.connection = some h →
    client.wait ≤ s.now - client.timestamp → ∃ connection, s.connections h = some connection ∧
      Given connection.sock (s.dropResponses h) s.net.wire s'.net.wire
  closed : ∀ c client, s.clients c = some client → client.connection = none →
    s.sessionTimeout ≤ s.now - client.timestamp → s'.clients c = none ∧
      s'.net.sockets client.sock = none
  kept : ∀ c client, s.clients c = some client → s.now < client.deadline s.sessionTimeout →
    s'.clients c = some client
  absent : ∀ c, s.clients c = none → s'.clients c = none
  /-- The list keeps the order of what it keeps. -/
  order : s'.jabberConnections = s.jabberConnections.filter fun cell => !s.expired s.now cell.2
  sids : ∀ sid c, s'.sids.find sid = some c ↔ s.sids.find sid = some c ∧ s.expired s.now c = false
  count : s'.clientCount = s.clientCount - (s.expireds s.now).length
  /-- One answer for each overdue request, and one closing for each expired session. -/
  history : s'.history = ((s.expireds s.now).map Record.closeSession).reverse ++
    (s.dropAnswers (s.overdues s.now)).reverse ++ s.history
  once : (s.overdues s.now).Nodup ∧ (s.expireds s.now).Nodup
  responses : ∀ h connection, s.connections h = some connection →
    Given connection.sock (s.dropResponses h) s.net.wire s'.net.wire ∧
      s'.connections h = some (if ∃ c ∈ s.overdues s.now, s.holding c = some h then
        { connection with closeCallback := none } else connection)
  sockets : ∀ c client, s.clients c = some client → s.expired s.now c = false →
    SameSocket client.sock s.net.wire s'.net.wire
  clock : s.now ≤ s'.clock
  rest : ∃ net connections clients jabberConnections sids clientCount clock oracle history,
    s' = { s with
      net, connections, clients, jabberConnections, sids, clientCount, clock, oracle, history }

/-- A check that returns has not met a deleted connection. -/
theorem overdueLive_of (upright : Upright s) {s' : Server Iks}
    (done : jbCheckTimeout s = .ok ((), s')) : s.OverdueLive := by
  obtain ⟨s₁, drops, -⟩ := (jbCheckTimeout_exact upright).of_ok done
  intro c h overdue held
  obtain ⟨client, here, -⟩ := Server.overdue_iff.mp overdue
  have listed : c ∈ s.overdues s.now := List.mem_filter.mpr
    ⟨upright.sound.mem_jabberConnections.mpr (Option.isSome_of_mem here), overdue⟩
  exact drops.live (upright.sound.directory.listed.nodup_values.filter _) listed held

theorem checked_of {s' : Server Iks} (upright : Upright s)
    (done : jbCheckTimeout s = .ok ((), s')) : Checked s s' := by
  obtain ⟨s₁, drops, closes, upright₁, upright'⟩ := (jbCheckTimeout_exact upright).of_ok done
  have distinct : (Chain.values s.jabberConnections).Nodup :=
    upright.sound.directory.listed.nodup_values
  have listed : ∀ {c client}, s.clients c = some client → c ∈ Chain.values s.jabberConnections :=
    fun here => upright.sound.mem_jabberConnections.mpr (Option.isSome_of_mem here)
  have upright₀ : Upright s.ticked :=
    ⟨⟨upright.sound.directory, upright.sound.roster, upright.sound.estate⟩, upright.tidy⟩
  have closed : ∀ c, s.expired s.now c = true → c ∈ s.expireds s.now := fun c expired => by
    obtain ⟨client, here, -⟩ := Server.expired_iff.mp expired
    exact List.mem_filter.mpr ⟨listed here, expired⟩
  have punctual : ∀ c, s.expired s.now c = true → c ∉ s.overdues s.now :=
    fun c expired overdue => by
    rw [Server.not_expired_of_overdue (List.mem_filter.mp overdue).2] at expired
    cases expired
  have open_ : ∀ c, s.expired s.now c = false → c ∉ s.expireds s.now := fun c recent here => by
    rw [(List.mem_filter.mp here).2] at recent
    cases recent
  have order : s'.jabberConnections = s.jabberConnections.filter fun cell =>
    !s.expired s.now cell.2 := by
    rw [closes.order upright₁]
    obtain ⟨_, _, _, _, _, _, same⟩ := drops.rest
    rw [same]
    refine List.filter_congr fun cell here => ?_
    cases expired : s.expired s.now cell.2 with
    | true => simpa using closed _ expired
    | false => simpa using open_ _ expired
  -- a session that is not closed keeps its socket, and one that is has a socket of its own
  have after : ∀ {c}, s.expired s.now c = false → s'.clients c = s₁.clients c :=
    fun {c} recent => by
    rw [closes.clients c, if_neg (open_ c recent)]
  have apart : ∀ {i}, (∀ c client, s.clients c = some client → s.expired s.now c = true →
      client.sock ≠ i) → SameSocket i s₁.net.wire s'.net.wire := fun other => by
    apply closes.socket
    intro c listed client here
    have expired : s.expired s.now c = true := (List.mem_filter.mp listed).2
    rw [drops.clients_of_notMem (punctual c expired)] at here
    exact other c client here expired
  have responses : ∀ h connection, s.connections h = some connection →
      Given connection.sock (s.dropResponses h) s.net.wire s'.net.wire ∧
        s'.connections h = some (if ∃ c ∈ s.overdues s.now, s.holding c = some h then
          { connection with closeCallback := none } else connection) := fun h connection here => by
    obtain ⟨given, here₁⟩ := drops.connection (distinct.filter _) upright₀ here
    have still : SameSocket connection.sock s₁.net.wire s'.net.wire :=
      apart fun c client mine _ equal => by
        have owners := upright.apart (estate_connection here) (equal ▸ estate_session mine)
        cases owners
    obtain ⟨_, sock', -, there, -⟩ := given.outcome
    have both := given.trans (.nothing there still)
    rw [List.append_nil] at both
    refine ⟨both, ?_⟩
    obtain ⟨_, _, _, _, _, _, same⟩ := closes.rest
    rw [same]
    exact here₁
  refine ⟨?_, ?_, ?_, ?_, ?_, order, ?_, ?_, ?_, ⟨distinct.filter _, distinct.filter _⟩, responses,
    ?_, ?_, ?_⟩
  · intro c client h here held waited
    have overdue : s.overdue s.now c = true :=
      Server.overdue_iff.mpr ⟨client, here, by simp [held], waited⟩
    obtain ⟨client', timestamp, here', later, same⟩ :=
      drops.client (distinct.filter _) (List.mem_filter.mpr ⟨listed here, overdue⟩)
    obtain rfl := Option.some.inj (here.symm.trans here')
    exact ⟨timestamp, later, (after (Server.not_expired_of_overdue overdue)).trans same⟩
  · intro c client h here held waited
    have overdue : s.overdue s.now c = true :=
      Server.overdue_iff.mpr ⟨client, here, by simp [held], waited⟩
    have live := overdueLive_of upright done c h overdue (by simp [Server.holding, here, held])
    obtain ⟨connection, found⟩ := Option.isSome_iff_exists.mp live
    exact ⟨connection, found, (responses h connection found).1⟩
  · intro c client here unheld waited
    have expired : s.expired s.now c = true := Server.expired_iff.mpr ⟨client, here, unheld, waited⟩
    have here₁ : s₁.clients c = some client :=
      (drops.clients_of_notMem (punctual c expired)).trans here
    refine ⟨?_, closes.gone (distinct.filter _) upright₁ (closed c expired) here₁⟩
    rw [closes.clients c, if_pos (closed c expired)]
  · intro c client here early
    have neither := mt (Server.deadline_le_iff here).mpr (not_le.mpr early)
    rw [not_or, Bool.not_eq_true, Bool.not_eq_true] at neither
    rw [after neither.2, drops.clients_of_notMem fun overdue => ?_]
    · exact here
    · rw [(List.mem_filter.mp overdue).2] at neither
      exact absurd neither.1 (by simp)
  · intro c missing
    have recent : s.expired s.now c = false := by simp [Server.expired, missing]
    rw [after recent, drops.clients_of_notMem fun overdue => ?_]
    · exact missing
    · obtain ⟨client, here, -⟩ := Server.overdue_iff.mp (List.mem_filter.mp overdue).2
      rw [missing] at here
      cases here
  · intro sid c
    rw [upright'.find_iff, upright.find_iff]
    cases expired : s.expired s.now c with
    | true => simp [closes.clients c, closed c expired]
    | false =>
      rw [after expired]
      by_cases overdue : c ∈ s.overdues s.now
      · obtain ⟨client, timestamp, here, -, same⟩ := drops.client (distinct.filter _) overdue
        have here : s.clients c = some client := here
        simp [same, here]
      · have same : s₁.clients c = s.clients c := drops.clients_of_notMem overdue
        simp [same]
  · obtain ⟨_, _, _, _, _, _, same⟩ := drops.rest
    rw [closes.count, same]
    rfl
  · rw [closes.history, drops.history (distinct.filter _), List.append_assoc]
    rfl
  · intro c client here recent
    have first : SameSocket client.sock s.ticked.net.wire s₁.net.wire :=
      drops.socket fun h connection found equal => by
      have found : s.connections h = some connection := found
      have owners := upright.apart (estate_connection found) (equal ▸ estate_session here)
      cases owners
    refine first.trans (apart fun c' client' mine expired equal => ?_)
    have owners := upright.apart (estate_session mine) (equal ▸ estate_session here)
    cases owners
    rw [recent] at expired
    cases expired
  · obtain ⟨_, _, _, _, _, _, same⟩ := closes.rest
    rw [same]
    exact drops.clock
  · obtain ⟨_, _, _, _, _, _, same⟩ := drops.rest
    obtain ⟨_, _, _, _, _, _, same'⟩ := closes.rest
    rw [same', same]
    exact ⟨_, _, _, _, _, _, _, _, _, rfl⟩

section Entries
omit [Iksemel Iks]

/-- A session's request has been dropped, or the session has been closed. -/
def ActsOn (c : ClientId) (s s' : Server Iks) : Prop :=
  (∃ h body, .answer h (.dropRequest c) body ∈ s.since s') ∨ .closeSession c ∈ s.since s'

variable {s' : Server Iks} {c : ClientId} {h : ConnectionId} {body : Bytes}

theorem Checked.answer_iff (checked : Checked s s') (upright : Upright s) :
    .answer h (.dropRequest c) body ∈ s.since s' ↔
      body = emptyResponse ∧ s.holding c = some h ∧ s.overdue s.now c = true := by
  rw [Server.since_eq checked.history]
  simp only [Server.dropAnswers, List.mem_append, List.mem_reverse, List.mem_map,
    List.mem_filterMap, Option.map_eq_some_iff]
  constructor
  · rintro (⟨c', -, other⟩ | ⟨c', overdue, h', held, same⟩)
    · cases other
    · cases same
      exact ⟨rfl, held, (List.mem_filter.mp overdue).2⟩
  · rintro ⟨rfl, held, overdue⟩
    obtain ⟨client, here, -⟩ := Server.overdue_iff.mp overdue
    have listed : c ∈ Chain.values s.jabberConnections :=
      upright.sound.mem_jabberConnections.mpr (Option.isSome_of_mem here)
    exact .inr ⟨c, List.mem_filter.mpr ⟨listed, overdue⟩, h, held, rfl⟩

theorem Checked.close_iff (checked : Checked s s') (upright : Upright s) :
    .closeSession c ∈ s.since s' ↔ s.expired s.now c = true := by
  rw [Server.since_eq checked.history]
  simp only [Server.dropAnswers, List.mem_append, List.mem_reverse, List.mem_map,
    List.mem_filterMap, Option.map_eq_some_iff]
  constructor
  · rintro (⟨c', expired, same⟩ | ⟨c', -, h', -, other⟩)
    · cases same
      exact (List.mem_filter.mp expired).2
    · cases other
  · intro expired
    obtain ⟨client, here, -⟩ := Server.expired_iff.mp expired
    have listed : c ∈ Chain.values s.jabberConnections :=
      upright.sound.mem_jabberConnections.mpr (Option.isSome_of_mem here)
    exact .inl ⟨c, List.mem_filter.mpr ⟨listed, expired⟩, rfl⟩

theorem Checked.actsOn_iff (checked : Checked s s') (upright : Upright s) :
    ActsOn c s s' ↔ s.overdue s.now c = true ∨ s.expired s.now c = true := by
  refine or_congr ?_ (checked.close_iff upright)
  constructor
  · rintro ⟨h, body, answer⟩
    exact ((checked.answer_iff upright).mp answer).2.2
  · intro overdue
    obtain ⟨client, here, held, -⟩ := Server.overdue_iff.mp overdue
    obtain ⟨h, held⟩ := Option.isSome_iff_exists.mp held
    have holding : s.holding c = some h := by simp [Server.holding, here, held]
    exact ⟨h, emptyResponse, (checked.answer_iff upright).mpr ⟨rfl, holding, overdue⟩⟩

theorem Checked.overdueLive (checked : Checked s s') : s.OverdueLive := by
  intro c h overdue held
  obtain ⟨client, here, -, waited⟩ := Server.overdue_iff.mp overdue
  have held : client.connection = some h := by simpa [Server.holding, here] using held
  obtain ⟨connection, found, -⟩ := checked.answered c client h here held waited
  exact Option.isSome_of_mem found

theorem Checked.dropped_on (checked : Checked s s') (upright : Upright s)
    (answer : .answer h (.dropRequest c) body ∈ s.since s') :
    s.holding c = some h ∧ (s.connections h).isSome := by
  obtain ⟨-, held, overdue⟩ := (checked.answer_iff upright).mp answer
  exact ⟨held, checked.overdueLive c h overdue held⟩

theorem Checked.closed_idle (checked : Checked s s') (upright : Upright s)
    (closing : .closeSession c ∈ s.since s') : s.holding c = none := by
  obtain ⟨client, here, idle, -⟩ := Server.expired_iff.mp ((checked.close_iff upright).mp closing)
  simp [Server.holding, here, idle]

theorem Checked.early (checked : Checked s s') (positive : 0 < s.sessionTimeout)
    {client' : JabberClient Iks} (here' : s'.clients c = some client') :
    s.now < client'.deadline s.sessionTimeout := by
  rcases Option.eq_none_or_eq_some (s.clients c) with missing | ⟨client, here⟩
  · rw [checked.absent c missing] at here'
    cases here'
  by_cases early : s.now < client.deadline s.sessionTimeout
  · rw [checked.kept c client here early, Option.some.injEq] at here'
    exact here' ▸ early
  unfold JabberClient.deadline at early
  cases held : client.connection with
  | none =>
    simp only [held, Option.isSome_none, Bool.false_eq_true, if_false] at early
    have gone := (checked.closed c client here held (by omega)).1
    rw [gone] at here'
    cases here'
  | some h =>
    simp only [held, Option.isSome_some, if_true] at early
    obtain ⟨timestamp, later, same⟩ := checked.dropped c client h here held (by omega)
    obtain rfl := Option.some.inj (same.symm.trans here')
    simp only [JabberClient.deadline, Option.isSome_none, Bool.false_eq_true, if_false]
    omega

end Entries

theorem jbCheckTimeout_returns (upright : Upright s) (live : s.OverdueLive) :
    ∃ s', jbCheckTimeout s = .ok ((), s') := by
  cases ran : jbCheckTimeout s with
  | error fault => exact absurd live ((jbCheckTimeout_exact upright).of_error ran)
  | ok result => exact ⟨result.2, rfl⟩

/-- `jb_check_timeout` answers every overdue request on its connection, closes every expired session
and touches nothing else, if and only if no overdue request has come on a connection that has been
deleted since. -/
theorem jbCheckTimeout_checked {p : Process Iks} (upright : Upright p.server)
    (clean : p.pushed = []) :
    (∃ p', Process.jbCheckTimeout p = .ok ((), p') ∧ p'.pushed = [] ∧ Checked p.server p'.server) ↔
      p.server.OverdueLive := by
  constructor
  · rintro ⟨p', -, -, checked⟩
    exact checked.overdueLive
  · intro live
    obtain ⟨s', done⟩ := jbCheckTimeout_returns upright live
    obtain ⟨pools, same⟩ := Process.jbCheckTimeout_extends clean done
    exact ⟨_, same, rfl, checked_of upright done⟩

/-- Where no session holds a deleted connection, the server takes every step of the process. -/
theorem Process.step_server {p p' : Process Iks} {input : Input Iks} (upright : Upright p.server)
    (live : p.server.HoldsLive) (stepped : p.step input = .ok p') :
    ∃ c, Bosh.step input p.configuration = .ok c := by
  unfold Process.step at stepped
  split at stepped
  · rename_i oracle dispatched
    obtain ⟨s', done⟩ :=
      jbCheckTimeout_returns (upright.hear oracle) (live.hear oracle).overdueLive
    refine ⟨⟨s', .polling⟩, ?_⟩
    unfold Bosh.step Process.configuration call
    rw [dispatched]
    dsimp only
    rw [done]
    rfl
  · split at stepped
    · rename_i c ran
      exact ⟨c, ran⟩
    · cases stepped

/-- While no request overtakes one that another session holds, the process does what the server
does, and nothing is put on a list that is not its own. -/
theorem Process.Executes.reaches {p : Process Iks} (run : p.Executes NoOverlap) :
    Reaches NoOverlap p.configuration ∧ p.pushed = [] := by
  induction run with
  | start began => exact ⟨.start began, rfl⟩
  | step _ clean allowed _ stepped ih =>
    obtain ⟨c, ran⟩ := Process.step_server ih.1.upright ih.1.holdsLive stepped
    obtain ⟨pools, same⟩ := Process.step_extends clean ran
    cases stepped.symm.trans same
    exact ⟨ih.1.step allowed ran, rfl⟩

end Loops

namespace Sample

def heldInTime : List (Input Sample) :=
  accept 4 0 ++ receive 4 (post "create") { random := [0, 0], connect := { socket := some 7 } } ++
    receive 4 (post "message") {}

/-- A session holds a request, and its time has come. -/
theorem exists_late : ∃ p : Process Sample, Upright p.server ∧ p.pushed = [] ∧
    p.server.OverdueLive ∧ p.server.overdues p.server.now = [0] ∧
    p.server.expireds p.server.now = [] ∧ p.server.holding 0 = some 0 := by
  obtain ⟨p, executes, overdues, expireds, holding⟩ : ∃ p : Process Sample, p.Executes NoOverlap ∧
      (p.server.hear { ticks := [9000] }).overdues (p.server.hear { ticks := [9000] }).now = [0] ∧
      (p.server.hear { ticks := [9000] }).expireds (p.server.hear { ticks := [9000] }).now = [] ∧
      p.server.holding 0 = some 0 :=
    exists_executed heldInTime (by decide +kernel)
  obtain ⟨run, clean⟩ := executes.reaches
  exact ⟨{ p with server := p.server.hear { ticks := [9000] } }, run.upright.hear _, clean,
    (run.holdsLive.hear _).overdueLive, overdues, expireds, holding⟩

end Sample

theorem jbCheckTimeout_checked_late : ∃ p p' : Process Sample,
    Process.jbCheckTimeout p = .ok ((), p') ∧
    p'.server.history = .answer 0 (.dropRequest 0) emptyResponse :: p.server.history ∧
    (p'.server.clients 0).isSome := by
  obtain ⟨p, upright, clean, live, overdues, expireds, holding⟩ := Sample.exists_late
  obtain ⟨p', done, -, checked⟩ := (jbCheckTimeout_checked upright clean).mpr live
  have overdue : 0 ∈ p.server.overdues p.server.now := by simp [overdues]
  obtain ⟨client, here, held, waited⟩ := Server.overdue_iff.mp (List.mem_filter.mp overdue).2
  obtain ⟨h, held⟩ := Option.isSome_iff_exists.mp held
  obtain ⟨timestamp, -, still⟩ := checked.dropped 0 client h here held waited
  refine ⟨p, p', done, ?_, by simp [still]⟩
  rw [checked.history, overdues, expireds]
  simp [Server.dropAnswers, holding]

/-- One request is overdue, and no session has expired. The answer goes on the list that the check
collects sessions on, since that list was the one of the connection's Socket. -/
theorem jbCheckTimeout_checked_stale : ∃ p : Process Sample, p.Executes (fun _ _ => True) ∧
    ((p.server.hear { ticks := [9000] }).overdues 9000 = [0] ∧
      (p.server.hear { ticks := [9000] }).expireds 9000 = [] ∧ p.server.clock = 0) ∧
    p.step (.timeout { ticks := [9000] }) = .error .mistyped :=
  Sample.exists_mistyped (Sample.orphaned ++ [.wait {} []]) (by decide +kernel)

section Loops
variable [Iksemel Iks] {s : Server Iks}

omit [Iksemel Iks] in
/-- What a check in one state is to do, after a sleep that was found in another: act on the
sessions whose deadline has passed, on none before the sleep is over, on one at least from then
on, and leave only deadlines that are still to come. -/
structure Agrees (least : Int) (s s₁ s₂ : Server Iks) : Prop where
  acts : ∀ c client, s.clients c = some client →
    (ActsOn c s₁ s₂ ↔ client.deadline s.sessionTimeout ≤ s₁.now)
  early : s₁.now < s.now + least → ∀ c, ¬ ActsOn c s₁ s₂
  late : least < s.sessionTimeout → s.now + least ≤ s₁.now → ∃ c, ActsOn c s₁ s₂
  /-- A session that holds a request answers it, on the connection it has come on. -/
  dropped : ∀ c h body, .answer h (.dropRequest c) body ∈ s₁.since s₂ →
    s₁.holding c = some h ∧ (s₁.connections h).isSome
  closed : ∀ c, .closeSession c ∈ s₁.since s₂ → s₁.holding c = none
  ahead : 0 < s.sessionTimeout →
    (∀ c client, s₂.clients c = some client → s₁.now < client.deadline s₂.sessionTimeout) ∧
      ∃ next, jbClosestTimeout s₂ = .ok (next, s₂.ticked) ∧ s₁.now < s₂.now + next

omit [Iksemel Iks] in
theorem Agrees.overdueLive {least : Int} {s₁ s₂ : Server Iks} (agrees : Agrees least s s₁ s₂)
    (clients : s₁.clients = s.clients) (timeout : s₁.sessionTimeout = s.sessionTimeout) :
    s₁.OverdueLive := by
  intro c h overdue held
  obtain ⟨client, here, -⟩ := Server.overdue_iff.mp overdue
  have passed := (Server.deadline_le_iff here).mpr (.inl overdue)
  rcases (agrees.acts c client (clients ▸ here)).mpr (timeout ▸ passed) with
    ⟨h', body, answer⟩ | closing
  · obtain ⟨held', live⟩ := agrees.dropped c h' body answer
    obtain rfl := Option.some.inj (held.symm.trans held')
    exact live
  · rw [agrees.closed c closing] at held
    cases held

theorem agrees_of {least : Int} {s₁ s₂ : Server Iks} (upright₁ : Upright s₁)
    (clients : s₁.clients = s.clients) (timeout : s₁.sessionTimeout = s.sessionTimeout)
    (isLeast : IsLeast {x | x = s.sessionTimeout ∨ ∃ c client, s.clients c = some client ∧
      x = client.deadline s.sessionTimeout - s.now} least)
    (done : jbCheckTimeout s₁ = .ok ((), s₂)) : Agrees least s s₁ s₂ := by
  have checked := checked_of upright₁ done
  have acts : ∀ c client, s.clients c = some client →
      (ActsOn c s₁ s₂ ↔ client.deadline s.sessionTimeout ≤ s₁.now) := fun c client here => by
    rw [checked.actsOn_iff upright₁, ← timeout]
    exact (Server.deadline_le_iff (clients ▸ here)).symm
  have known : ∀ c, ActsOn c s₁ s₂ → ∃ client, s.clients c = some client := fun c acted => by
    rw [← clients]
    rcases (checked.actsOn_iff upright₁).mp acted with overdue | expired
    · obtain ⟨client, here, -⟩ := Server.overdue_iff.mp overdue
      exact ⟨client, here⟩
    · obtain ⟨client, here, -⟩ := Server.expired_iff.mp expired
      exact ⟨client, here⟩
  refine ⟨acts, fun early c acted => ?_, fun shorter late => ?_,
    fun c h body => checked.dropped_on upright₁, fun c => checked.closed_idle upright₁,
    fun positive => ?_⟩
  · obtain ⟨client, here⟩ := known c acted
    have passed := (acts c client here).mp acted
    have bound := isLeast.2 (.inr ⟨c, client, here, rfl⟩)
    omega
  · rcases isLeast.1 with same | ⟨c, client, here, same⟩
    · omega
    · exact ⟨c, (acts c client here).mpr (by omega)⟩
  · have timeout₂ : s₂.sessionTimeout = s₁.sessionTimeout := by
      obtain ⟨_, _, _, _, _, _, _, _, _, same⟩ := checked.rest
      rw [same]
    have early : ∀ c client, s₂.clients c = some client →
      s₁.now < client.deadline s₂.sessionTimeout :=
      fun c client here => timeout₂ ▸ checked.early (timeout ▸ positive) here
    obtain ⟨-, -, -, -, upright₂⟩ := (jbCheckTimeout_exact upright₁).of_ok done
    obtain ⟨next, ran₂, isLeast₂⟩ := jbClosestTimeout_least upright₂
    refine ⟨early, next, ran₂, ?_⟩
    rcases isLeast₂.1 with same | ⟨c, client, here, same⟩
    · have later := checked.clock.trans s₂.clock_le_now
      omega
    · have later := early c client here
      omega

/-- The time to sleep is the time to the first deadline, and a check agrees with it if and only if
no overdue request has come on a connection that has been deleted since. -/
theorem timeouts_agree (upright : Upright s) :
    ∃ least, jbClosestTimeout s = .ok (least, s.ticked) ∧
      IsLeast {x | x = s.sessionTimeout ∨ ∃ c client, s.clients c = some client ∧
        x = client.deadline s.sessionTimeout - s.now} least ∧
      ∀ p : Process Iks, Upright p.server → p.pushed = [] → p.server.clients = s.clients →
        p.server.sessionTimeout = s.sessionTimeout →
          ((∃ p', Process.jbCheckTimeout p = .ok ((), p') ∧ p'.pushed = [] ∧
            Agrees least s p.server p'.server) ↔ p.server.OverdueLive) := by
  obtain ⟨least, ran, isLeast⟩ := jbClosestTimeout_least upright
  refine ⟨least, ran, isLeast, fun p upright₁ clean clients timeout => ?_⟩
  constructor
  · rintro ⟨p', -, -, agrees⟩
    exact agrees.overdueLive clients timeout
  · intro live
    obtain ⟨s₂, done⟩ := jbCheckTimeout_returns upright₁ live
    obtain ⟨pools, same⟩ := Process.jbCheckTimeout_extends clean done
    exact ⟨_, same, rfl, agrees_of upright₁ clients timeout isLeast done⟩

end Loops

theorem timeouts_agree_late : ∃ p p' : Process Sample, Process.jbCheckTimeout p = .ok ((), p') ∧
    ActsOn 0 p.server p'.server := by
  obtain ⟨p, upright, clean, live, overdues, -⟩ := Sample.exists_late
  obtain ⟨least, -, -, agree⟩ := timeouts_agree upright
  obtain ⟨p', done, -, agrees⟩ := (agree p upright clean rfl rfl).mpr live
  have overdue : 0 ∈ p.server.overdues p.server.now := by simp [overdues]
  have overdue := (List.mem_filter.mp overdue).2
  obtain ⟨client, here, -⟩ := Server.overdue_iff.mp overdue
  exact ⟨p, p', done,
    (agrees.acts 0 client here).mpr ((Server.deadline_le_iff here).mpr (.inl overdue))⟩

/-- The deadline of session 0 comes at 9000 milliseconds, and the check at that time does not get
to its end. -/
theorem timeouts_agree_stale : ∃ p : Process Sample, p.Executes (fun _ _ => True) ∧
    ((p.server.clients 0).map (JabberClient.deadline p.server.sessionTimeout) = some 9000 ∧
      p.server.clock = 0 ∧ p.control = .dispatching []) ∧
    p.step (.timeout { ticks := [9000] }) = .error .mistyped :=
  Sample.exists_mistyped (Sample.orphaned ++ [.wait {} []]) (by decide +kernel)

end Bosh
