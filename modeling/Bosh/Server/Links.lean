import Bosh.Server.Run

/-! The link between a session and the connection whose request it holds: the session's
`connection` on one side, the connection's close callback on the other. -/
namespace Bosh
open Effect Text

/-- Both sides of all links, and the request in hand with the session it is for. -/
structure Links where
  holding : ClientId → Option ConnectionId
  registered : ConnectionId → Option CloseCallback
  owed : Option ConnectionId
  target : Option ClientId

namespace Links

inductive Change (alone : Prop) (l l' : Links) : Prop where
  | same : l' = l → Change alone l l'
  | request (h : ConnectionId) (target : Option ClientId) : l.owed = none →
      (alone → ∀ c, l.holding c = some h → target = some c) →
      l' = { l with owed := some h, target } → Change alone l l'
  | answer {h : ConnectionId} : l.owed = some h → l.target = none →
      l' = { l with owed := none, registered := Function.update l.registered h none } →
      Change alone l l'
  /-- A session answers the request it holds. -/
  | release {c : ClientId} {h : ConnectionId} : l.holding c = some h →
      l' = { l with
        holding := Function.update l.holding c none
        registered := Function.update l.registered h none } → Change alone l l'
  /-- A connection goes while a session holds a request of its. -/
  | clear {c : ClientId} {h : ConnectionId} : l.registered h = some (.jcClearHttp c) →
      l' = { l with
        holding := Function.update l.holding c none
        registered := Function.update l.registered h none } → Change alone l l'
  | hold {c : ClientId} {h : ConnectionId} : l.owed = some h → l.target = some c →
      l.holding c = none → l' = { l with
        owed := none
        holding := Function.update l.holding c (some h)
        registered := Function.update l.registered h (some (.jcClearHttp c)) } → Change alone l l'
  | forwarded : l.owed = none → l' = { l with target := none } → Change alone l l'

/-- A registered close callback always finds its session holding the connection. -/
def Registered (l : Links) : Prop :=
  ∀ h c, l.registered h = some (.jcClearHttp c) → l.holding c = some h

/-- A session that holds a request is the one its connection will tell when it goes. -/
structure Linked (l : Links) : Prop where
  linked : ∀ c h, l.holding c = some h → l.registered h = some (.jcClearHttp c)
  /-- The connection of the request in hand is held by the session it is for, if at all. -/
  owed : ∀ c h, l.owed = some h → l.holding c = some h → l.target = some c

variable {alone : Prop} {l l' : Links}

private theorem Registered.release (h : l.Registered) {c : ClientId} {k : ConnectionId}
    (held : l.holding c = some k) : Registered { l with
      holding := Function.update l.holding c none
      registered := Function.update l.registered k none } := by
  intro k' c' registered
  obtain ⟨other, registered⟩ := Table.of_update_none registered
  have old := h k' c' registered
  have different : c' ≠ c := by
    rintro rfl
    exact other (Option.some.inj (old.symm.trans held))
  exact (Function.update_of_ne different _ _).trans old

theorem Registered.change (h : l.Registered) (change : Change alone l l') : l'.Registered := by
  cases change with
  | same same => exact same ▸ h
  | request _ _ _ _ same => exact same ▸ h
  | answer _ _ same =>
    subst same
    exact fun k c registered => h k c (Table.of_update_none registered).2
  | release held same => exact same ▸ h.release held
  | clear registered same => exact same ▸ h.release (h _ _ registered)
  | hold _ _ free same =>
    subst same
    intro k c registered
    rcases Table.of_update registered with ⟨rfl, new⟩ | ⟨_, registered⟩
    · cases new
      exact Function.update_self ..
    · have old := h k c registered
      refine (Function.update_of_ne ?_ _ _).trans old
      rintro rfl
      simp [free] at old
  | forwarded _ same => exact same ▸ h

private theorem Linked.release (h : l.Linked) {c : ClientId} {k : ConnectionId}
    (held : l.holding c = some k) : Linked { l with
      holding := Function.update l.holding c none
      registered := Function.update l.registered k none } := by
  refine ⟨fun c' k' holds => ?_, fun c' k' owed holds => ?_⟩
  · obtain ⟨other, holds⟩ := Table.of_update_none holds
    have old := h.linked c' k' holds
    refine (Function.update_of_ne ?_ _ _).trans old
    rintro rfl
    have mine := h.linked c k' held
    rw [old] at mine
    cases mine
    exact other rfl
  · exact h.owed c' k' owed (Table.of_update_none holds).2

theorem Linked.change (h : l.Linked) (registered : l.Registered) (assumed : alone)
    (change : Change alone l l') : l'.Linked := by
  cases change with
  | same same => exact same ▸ h
  | request k target _ known same =>
    subst same
    refine ⟨h.linked, fun c k owed holds => ?_⟩
    cases owed
    exact known assumed c holds
  | answer owed nobody same =>
    subst same
    refine ⟨fun c k holds => (Function.update_of_ne ?_ _ _).trans (h.linked c k holds), nofun⟩
    rintro rfl
    have target := h.owed c k owed holds
    simp [nobody] at target
  | release held same => exact same ▸ h.release held
  | clear mine same => exact same ▸ h.release (registered _ _ mine)
  | @hold c k owed target free same =>
    subst same
    refine ⟨fun c' k' holds => ?_, nofun⟩
    rcases Table.of_update holds with ⟨rfl, new⟩ | ⟨other, held⟩
    · cases new
      exact Function.update_self ..
    · refine (Function.update_of_ne ?_ _ _).trans (h.linked c' k' held)
      rintro rfl
      have same := (h.owed c' k' owed held).symm.trans target
      exact other (Option.some.inj same)
  | forwarded answered same =>
    subst same
    exact ⟨h.linked, fun c k owed => by simp [answered] at owed⟩

end Links

section Steps
variable {Iks : Type} [Iksemel Iks] {a : Assumed} {p p' : Phase Iks} {s s' : Server Iks}

def Server.registered (s : Server Iks) (h : ConnectionId) : Option CloseCallback :=
  (s.connections h).bind HttpConnection.closeCallback

def links (q : Phase Iks × Server Iks) : Links where
  holding := q.2.holding
  registered := q.2.registered
  owed := q.1.owed
  target := q.1.debt.map Prod.fst

omit [Iksemel Iks] in
theorem links_of {holding : ClientId → Option ConnectionId}
    {registered : ConnectionId → Option CloseCallback} (first : s.holding = holding)
    (second : s.registered = registered) :
    links (p, s) = ⟨holding, registered, p.owed, p.debt.map Prod.fst⟩ := by
  rw [← first, ← second]
  rfl

omit [Iksemel Iks] in
theorem holding_same {c : ClientId} {client client' : JabberClient Iks}
    (here : s.clients c = some client) (same : client'.connection = client.connection) :
    (fun c' => (Function.update s.clients c (some client') c').bind JabberClient.connection) = s.holding :=
  Table.bind_update_same (by simp [here, same])

omit [Iksemel Iks] in
theorem holding_new (sound : Sound s) {client : JabberClient Iks}
    (free : client.connection = none) :
    (fun c => (Function.update s.clients s.nextClient (some client) c).bind JabberClient.connection) =
      s.holding :=
  Table.bind_update_same (by simp [sound.unused, free])

omit [Iksemel Iks] in
theorem holding_gone {c : ClientId} {client : JabberClient Iks} (here : s.clients c = some client)
    (free : client.connection = none) :
    (fun c' => (Function.update s.clients c none c').bind JabberClient.connection) = s.holding :=
  Table.bind_update_same (by simp [here, free])

omit [Iksemel Iks] in
theorem registered_same {h : ConnectionId} {connection connection' : HttpConnection}
    (here : s.connections h = some connection)
    (same : connection'.closeCallback = connection.closeCallback) :
    (fun k => (Function.update s.connections h (some connection') k).bind HttpConnection.closeCallback) =
      s.registered :=
  Table.bind_update_same (by simp [here, same])

theorem Micro.links_change (step : Micro a (p, s) (p', s')) (sound : Sound s) :
    Links.Change a.alone (links (p, s)) (links (p', s')) := by
  cases step with
  | stamp here => exact .same (links_of (holding_same here rfl) rfl)
  | stanza _ here => exact .same (links_of (holding_same here rfl) rfl)
  | kill _ here => exact .same (links_of (holding_same here rfl) rfl)
  | create unused => exact .same (links_of rfl (Table.bind_update_same (by simp [unused])))
  | receive _ here => exact .same (links_of rfl (registered_same here rfl))
  | consume _ _ here =>
    refine .same (links_of rfl (registered_same here ?_))
    unfold HttpConnection.consume
    split <;> rfl
  | delete here callback =>
    exact .same (links_of rfl (Table.bind_update_same (by simp [here, callback])))
  | openSession => exact .same (links_of (holding_new sound rfl) rfl)
  | forget here free => exact .same (links_of (holding_gone here free) rfl)
  | @request _ _ h _ request _ _ _ _ frame owed _ _ alone =>
    obtain rfl := frame_connection frame
    refine .request request.connection ((named s request).map Prod.fst) owed
      (fun assumed c holds => ?_) ?_
    · refine alone assumed c (sound.mem_jabberConnections.mpr ?_) holds
      exact Option.isSome_of_isSome_bind (Option.isSome_of_mem holds)
    · exact congrArg (Links.mk s.holding s.registered (some request.connection))
        (Option.map_map _ _ _)
  | answer owed free here =>
    exact .answer owed (by simp [links, free]) (links_of rfl Table.bind_update)
  | drop here held there =>
    exact .release (by simp [links, Server.holding, here, held])
      (links_of Table.bind_update Table.bind_update)
  | flush here held _ there =>
    exact .release (by simp [links, Server.holding, here, held])
      (links_of Table.bind_update Table.bind_update)
  | deleteHeld _ here callback there =>
    exact .clear (by simp [links, Server.registered, here, callback])
      (links_of Table.bind_update Table.bind_update)
  | hold _ _ owed target _ here free there =>
    exact .hold owed (by simp [links, target]) (by simp [links, Server.holding, here, free])
      (links_of Table.bind_update Table.bind_update)
  | forward _ target =>
    exact .same (congrArg (Links.mk s.holding s.registered p.owed) (by simp [target]))
  | forwarded owed => exact .forwarded owed rfl
  | _ => exact .same rfl

def InHand (q : Phase Iks × Server Iks) : Prop :=
  ∀ h, q.1.owed = some h ∨ q.1.reading = some h → (q.2.connections h).isSome

theorem Micro.inHand (step : Micro a (p, s) (p', s')) (live : InHand (p, s)) : InHand (p', s') := by
  cases step with
  | create => exact fun k named => Table.isSome_update (live k named)
  | read here =>
    rintro k (owed | reading)
    · exact live k (.inl owed)
    · cases reading
      exact Option.isSome_of_mem here
  | receive => exact fun k named => Table.isSome_update (live k named)
  | request _ _ here =>
    rintro k (owed | reading)
    · cases owed
      exact Option.isSome_of_mem here
    · exact live k (.inr reading)
  | consume => exact fun k named => Table.isSome_update (live k named)
  | finish =>
    rintro k (owed | reading)
    · exact live k (.inl owed)
    · cases reading
  | delete _ _ answered =>
    rintro k (owed | reading)
    · simp [answered] at owed
    · cases reading
  | deleteHeld _ _ _ _ answered =>
    rintro k (owed | reading)
    · simp [answered] at owed
    · cases reading
  | answer =>
    rintro k (owed | reading)
    · cases owed
    · exact Table.isSome_update (live k (.inr reading))
  | drop => exact fun k named => Table.isSome_update (live k named)
  | flush => exact fun k named => Table.isSome_update (live k named)
  | hold =>
    rintro k (owed | reading)
    · cases owed
    · exact Table.isSome_update (live k (.inr reading))
  | _ => exact live

theorem registered_invariant (a : Assumed) :
    Invariant a fun q : Phase Iks × Server Iks => (links q).Registered where
  initial s initial := by simp [links, Links.Registered, Server.registered, initial.connections]
  hear _ _ h := h
  micro _ _ _ _ step sound h := h.change (step.links_change sound)

def Server.ClosesLive (s : Server Iks) : Prop :=
  ∀ h ∈ Chain.values s.httpConnections, ∀ k, s.registered h = some (.jcClearHttp k) →
    k ∈ Chain.values s.jabberConnections ∧ s.holding k = some h

omit [Iksemel Iks] in
theorem Sound.closesLive (sound : Sound s) (registered : (links (p, s)).Registered) :
    s.ClosesLive := by
  intro h _ k calls
  have held : s.holding k = some h := registered h k calls
  refine ⟨sound.mem_jabberConnections.mpr ?_, held⟩
  exact Option.isSome_of_isSome_bind (Option.isSome_of_mem held)

omit [Iksemel Iks] in
theorem jcClearHttp_holding {k : ClientId} (live : (s.clients k).isSome) :
    ∃ s', jcClearHttp k s = .ok ((), s') ∧ s'.holding = Function.update s.holding k none := by
  have spec := jcClearHttp_spec (s := s) k
  cases ran : jcClearHttp k s with
  | error fault =>
    rw [ran] at spec
    simp [spec.2] at live
  | ok result =>
    rw [ran] at spec
    obtain ⟨client, clock, oracle, -, -, same⟩ := spec
    exact ⟨result.2, rfl, by rw [same]; exact Table.bind_update⟩

omit [Iksemel Iks] in
theorem hcDelete_holding (h : ConnectionId) :
    Ensures (hcDelete h s) (fun _ s' => s'.holding = fun k =>
      if s.registered h = some (.jcClearHttp k) then none else s.holding k) fun _ => True := by
  unfold hcDelete getConnection
  rw [ensures_bind, ensures_demand]
  refine ⟨fun connection found => ?_, fun _ => trivial⟩
  cases callback : connection.closeCallback with
  | none =>
    simp only [onNet, ensures_bind, ensures_part, ensures_get]
    refine (sockDelete_deletes connection.sock).mono (fun _ net _ => ?_) fun _ _ => trivial
    cases Chain.erase connection.it s.httpConnections with
    | none => trivial
    | some rest =>
      have nobody : s.registered h = none := by simp [Server.registered, found, callback]
      simp only [ensures_bind, ensures_modify, nobody, reduceCtorEq, if_false]
      rfl
  | some registered =>
    obtain ⟨k⟩ := registered
    rw [ensures_bind]
    refine (jcClearHttp_spec k).mono (fun _ s₁ cleared => ?_) fun _ _ => trivial
    obtain ⟨client, clock, oracle, here, -, rfl⟩ := cleared
    simp only [onNet, ensures_bind, ensures_part, ensures_get]
    refine (sockDelete_deletes connection.sock).mono (fun _ net _ => ?_) fun _ _ => trivial
    cases Chain.erase connection.it s.httpConnections with
    | none => trivial
    | some rest =>
      have mine : s.registered h = some (.jcClearHttp k) := by
        simp [Server.registered, found, callback]
      simp only [ensures_bind, ensures_modify, mine, Option.some.injEq,
        CloseCallback.jcClearHttp.injEq]
      funext k'
      by_cases same : k' = k
      · simp [same, Server.holding]
      · simp [same, Ne.symm same, Server.holding]

/-- Every close callback of a run is for a live session that holds the connection, between
two steps and in every state that a step passes through. There the callback can be run, and
deleting a connection takes it from that session and touches no other. -/
theorem close_callbacks_live {c : Configuration Iks} (run : Reachable c) :
    c.server.ClosesLive ∧
      ∀ input : Input Iks, (∀ c', step input c = .ok c' → Steps (Assumed.of False False)
          ({}, c.server.hear input.oracle) ({}, c'.server)) ∧
        ∀ q, Steps (Assumed.of False False) ({}, c.server.hear input.oracle) q → q.2.ClosesLive ∧
        (∀ h ∈ Chain.values q.2.httpConnections, ∀ k, q.2.registered h = some (.jcClearHttp k) →
          ∃ s', jcClearHttp k q.2 = .ok ((), s') ∧
            s'.holding = Function.update q.2.holding k none) ∧
        ∀ h s', hcDelete h q.2 = .ok ((), s') → s'.holding = fun k =>
          if q.2.registered h = some (.jcClearHttp k) then none else q.2.holding k := by
  have invariant : Invariant (Assumed.of False False)
      fun q : Phase Iks × Server Iks => (links q).Registered := registered_invariant _
  obtain ⟨sound, registered⟩ := invariant.reaches (fun _ _ _ => .always) run
  refine ⟨sound.closesLive registered, fun input => ⟨fun c' done => ?_, fun q steps => ?_⟩⟩
  · have stepped := step_stepped sound (Admits.always : Admits _ c input)
    rw [done] at stepped
    exact stepped.1
  · obtain ⟨sound', registered'⟩ :=
      invariant.steps steps (sound.hear _) (invariant.hear _ _ registered)
    have live := sound'.closesLive (p := q.1) registered'
    refine ⟨live, fun h listed k calls => ?_,
      fun h s' deleted => (hcDelete_holding h).of_ok deleted⟩
    exact jcClearHttp_holding (sound'.mem_jabberConnections.mp (live h listed k calls).1)

structure LinksSound (q : Phase Iks × Server Iks) : Prop where
  registered : (links q).Registered
  linked : (links q).Linked
  inHand : InHand q

theorem links_invariant {a : Assumed} (alone : a.alone) :
    Invariant a (LinksSound : Phase Iks × Server Iks → Prop) where
  initial s initial :=
    ⟨(registered_invariant a).initial s initial,
      ⟨by simp [links, Server.holding, initial.clients], nofun⟩, by simp [InHand]⟩
  hear _ _ h := ⟨h.registered, h.linked, h.inHand⟩
  micro _ _ _ _ step sound h :=
    ⟨h.registered.change (step.links_change sound),
      h.linked.change h.registered alone (step.links_change sound), step.inHand h.inHand⟩

omit [Iksemel Iks] in
theorem LinksSound.not_dangling {q : Phase Iks × Server Iks} (h : LinksSound q)
    (sound : Sound q.2) : ¬ Dangling q := by
  rintro ⟨k, gone, ⟨c, client, here, held⟩ | owed | reading | listed | ⟨i, sock, there, calls⟩⟩
  · have registered := h.linked.linked c k (by simp [links, Server.holding, here, held])
    simp [links, Server.registered, gone] at registered
  · simpa [gone] using h.inHand k (.inl owed)
  · simpa [gone] using h.inHand k (.inr reading)
  · simpa [gone] using sound.mem_httpConnections.mp listed
  · obtain ⟨connection, here, -⟩ := sound.connection_of_callback there calls
    simp [gone] at here

theorem Reaches.linksSound {c : Configuration Iks} (run : Reaches NoOverlap c) :
    Sound c.server ∧ LinksSound ({}, c.server) :=
  (links_invariant (a := Assumed.of True False) trivial).reaches
    (fun _ _ allowed => ⟨fun _ _ _ _ _ => trivial, fun _ => allowed, nofun⟩) run

theorem Reaches.held_live {c : Configuration Iks} (run : Reaches NoOverlap c) {k : ClientId}
    {h : ConnectionId} (held : c.server.holding k = some h) :
    h ∈ Chain.values c.server.httpConnections := by
  obtain ⟨sound, links⟩ := run.linksSound
  refine sound.mem_httpConnections.mpr (Option.isSome_of_isSome_bind (f := HttpConnection.closeCallback) ?_)
  exact Option.isSome_of_mem (links.linked.linked k h held)

/-- A step that no request overlaps works on no deleted connection. -/
theorem Reaches.step_undeleted {c : Configuration Iks} (run : Reaches NoOverlap c)
    {input : Input Iks} (allowed : NoOverlap c input) :
    Bosh.step input c ≠ .error .deletedConnection := fun failed => by
  obtain ⟨q, sound, h, dangling⟩ := (links_invariant (a := Assumed.of True False) trivial).fault
    (fun _ _ allowed => ⟨fun _ _ _ _ _ => trivial, fun _ => allowed, nofun⟩) run allowed failed
  exact h.not_dangling sound dangling

/-- While no request arrives on a connection that holds one for another session, a session
holds a connection that is live and will tell it when it goes, no two sessions hold the same
one, and nothing is answered on a deleted one. -/
theorem session_links {c : Configuration Iks} (run : Reaches NoOverlap c) :
    (∀ k ∈ Chain.values c.server.jabberConnections, ∀ h, c.server.holding k = some h →
      h ∈ Chain.values c.server.httpConnections ∧
        c.server.registered h = some (.jcClearHttp k)) ∧
      (∀ k k' h, c.server.holding k = some h → c.server.holding k' = some h → k = k') ∧
      ∀ input, NoOverlap c input → step input c ≠ .error .deletedConnection := by
  have linked := run.linksSound.2.linked.linked
  refine ⟨fun k _ j held => ⟨run.held_live held, linked k j held⟩, fun k k' j held held' => ?_,
    fun input allowed => run.step_undeleted allowed⟩
  have same := (linked k j held).symm.trans (linked k' j held')
  cases same
  rfl

end Steps

theorem close_callbacks_live_held :
    0 ∈ Chain.values (Sample.reached (fun _ _ => True) Sample.held Sample.held_works).server.jabberConnections ∧
      (Sample.reached (fun _ _ => True) Sample.held Sample.held_works).server.holding 0 = some 1 :=
  (close_callbacks_live Sample.reaches_reached).1 1 (by decide +kernel) 0 (by decide +kernel)

theorem session_links_held :
    (Sample.reached NoOverlap Sample.held Sample.held_apart).server.registered 1 =
      some (.jcClearHttp 0) :=
  ((session_links Sample.reaches_reached).1 0 (by decide +kernel) 1 (by decide +kernel)).2

/-- Answering the status request unregisters the session that still holds the connection. -/
theorem session_links_overlapped :
    ¬ ∀ c : Configuration Sample, Reachable c →
      ∀ k ∈ Chain.values c.server.jabberConnections, ∀ h, c.server.holding k = some h →
        h ∈ Chain.values c.server.httpConnections ∧
          c.server.registered h = some (.jcClearHttp k) := fun claim =>
  absurd (claim (Sample.reached (fun _ _ => True) Sample.overlapped Sample.overlapped_works)
    Sample.reaches_reached 0 (by decide +kernel) 1 (by decide +kernel)).2 (by decide +kernel)

end Bosh
