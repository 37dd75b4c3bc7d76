import Bosh.Library.Relay
import Bosh.Server.Links

/-! What the server is for: it relays stanzas to sessions that poll for them. The history of
every run is one that the relay allows, and the server's state is the relay's. -/
namespace Bosh
open Relay (Seat State Event Runs)

section Relaying
variable {Iks : Type} [Iksemel Iks] {a : Assumed} {p p' : Phase Iks} {s s' : Server Iks}

def Record.event : Record Iks → Option (Event ConnectionId ClientId UInt64 Iks)
  | .hcCreate h => some (.opened h)
  | .hcDelete h => some (.closed h)
  | .received .. => none
  | .request h new => some (.asked h ((posted new : Option (UInt64 × Iks)).map Prod.fst))
  | .answer h .request _ => some (.answered h)
  | .answer h (.dropRequest c) _ => some (.dismissed c h)
  | .answer h (.flushMessages c popped) _ => some (.delivered c h popped)
  | .newSession c sid .. => some (.joined c sid)
  | .hold c h => some (.kept c h)
  | .stanza c new => some (.posted c new)
  | .closeSession c => some (.left c)

def relayed (history : List (Record Iks)) : List (Event ConnectionId ClientId UInt64 Iks) :=
  history.filterMap Record.event

def JabberClient.seat (client : JabberClient Iks) : Seat ConnectionId UInt64 Iks where
  name := client.sid
  held := client.connection
  waiting := client.outputQueue

def relay (q : Phase Iks × Server Iks) : State ConnectionId ClientId UInt64 Iks where
  open' := {h | (q.2.connections h).isSome}
  inHand := q.1.owed.map fun h => (h, q.1.debt.map Prod.fst)
  seats := Option.map JabberClient.seat ∘ q.2.clients

omit [Iksemel Iks] in
theorem relay_of {opened : Set ConnectionId}
    {seats : ClientId → Option (Seat ConnectionId UInt64 Iks)}
    (first : {h | (s.connections h).isSome} = opened)
    (second : Option.map JabberClient.seat ∘ s.clients = seats) :
    relay (p, s) = ⟨opened, p.owed.map fun h => (h, p.debt.map Prod.fst), seats⟩ := by
  rw [← first, ← second]
  rfl

omit [Iksemel Iks] in
theorem open_same {connections : ConnectionId → Option HttpConnection} {h : ConnectionId}
    {connection connection' : HttpConnection} (here : connections h = some connection) :
    {k | (Function.update connections h (some connection') k).isSome} =
      {k | (connections k).isSome} := by
  ext k
  by_cases same : k = h
  · subst same
    simp [here]
  · simp [same]

omit [Iksemel Iks] in
theorem open_gone {connections : ConnectionId → Option HttpConnection} {h : ConnectionId} :
    {k | (Function.update connections h none k).isSome} = {k | (connections k).isSome} \ {h} := by
  ext k
  by_cases same : k = h <;> simp [same]

inductive Relays (q q' : Phase Iks × Server Iks) : Prop where
  | same : relayed q'.2.history = relayed q.2.history → relay q' = relay q → Relays q q'
  | step {event r} : relayed q'.2.history = event :: relayed q.2.history →
      Relay.Step (relay q) event r → relay q' = r → Relays q q'

omit [Iksemel Iks] in
theorem holding_eq {c : ClientId} {client : JabberClient Iks} {h : ConnectionId}
    (here : s.clients c = some client) (held : client.connection = some h) :
    s.holding c = some h :=
  Option.bind_eq_some_iff.mpr ⟨client, here, held⟩

omit [Iksemel Iks] in
theorem relay_seats {c : ClientId} {seat : Seat ConnectionId UInt64 Iks} :
    (relay (p, s)).seats c = some seat ↔ ∃ client, s.clients c = some client ∧ client.seat = seat :=
  Option.map_eq_some_iff

omit [Iksemel Iks] in
theorem free_iff {h : ConnectionId} : (relay (p, s)).Free h ↔ ∀ c, s.holding c ≠ some h := by
  constructor
  · rintro free c held
    obtain ⟨client, here, held⟩ := Option.bind_eq_some_iff.mp held
    exact free c client.seat (relay_seats.mpr ⟨client, here, rfl⟩) held
  · rintro free c seat taken held
    obtain ⟨client, here, rfl⟩ := relay_seats.mp taken
    exact free c (holding_eq here held)

omit [Iksemel Iks] in
/-- A connection that goes takes its request from the one session that holds it, if any. -/
theorem seats_without {h : ConnectionId} {clients : ClientId → Option (JabberClient Iks)}
    (same : ∀ c, s.holding c ≠ some h → clients c = s.clients c)
    (freed : ∀ c client, s.clients c = some client → client.connection = some h →
      (clients c).map JabberClient.seat = some { client.seat with held := none }) :
    Option.map JabberClient.seat ∘ clients =
      fun c => ((s.clients c).map JabberClient.seat).map (Seat.without h) := by
  funext c
  change (clients c).map JabberClient.seat = _
  cases here : s.clients c with
  | none =>
    rw [same c (by simp [Server.holding, here]), here]
    rfl
  | some client =>
    by_cases held : client.connection = some h
    · simp [freed c client here held, Seat.without, JabberClient.seat, held]
    · have unheld : s.holding c ≠ some h := by simpa [Server.holding, here] using held
      simp [same c unheld, here, Seat.without, JabberClient.seat, held]

omit [Iksemel Iks] in
theorem find_iff (sound : Sound s) {sid : UInt64} {c : ClientId} :
    s.sids.find sid = some c ↔ ∃ client, s.clients c = some client ∧ client.sid = sid := by
  refine (HashTable.find_eq_some_iff sound.directory.distinct).trans ?_
  refine (sound.directory.hashed sid c).trans ?_
  simp [Server.directory]

theorem named_seat (sound : Sound s) {request : HttpRequest} {c : ClientId} :
    (named s request).map Prod.fst = some c ↔ ∃ seat, (relay (p, s)).seats c = some seat ∧
      (posted request : Option (UInt64 × Iks)).map Prod.fst = some seat.name := by
  cases about : (posted request : Option (UInt64 × Iks)) with
  | none => simp [named, about]
  | some target =>
    have found : (named s request).map Prod.fst = s.sids.find target.1 := by
      simp [named, about]
    rw [found, find_iff sound]
    constructor
    · rintro ⟨client, here, same⟩
      exact ⟨client.seat, relay_seats.mpr ⟨client, here, rfl⟩, congrArg some same.symm⟩
    · rintro ⟨_, taken, same⟩
      obtain ⟨client, here, rfl⟩ := relay_seats.mp taken
      exact ⟨client, here, (Option.some.inj same).symm⟩

theorem Micro.relays (step : Micro a (p, s) (p', s')) (sound : Sound s)
    (links : LinksSound (p, s)) (assumed : a.alone) : Relays (p, s) (p', s') := by
  have seat_same : ∀ {c : ClientId} {client client' : JabberClient Iks},
      s.clients c = some client → client'.seat = client.seat →
      Option.map JabberClient.seat ∘ Function.update s.clients c (some client') =
        Option.map JabberClient.seat ∘ s.clients :=
    fun here same => Table.map_update_same here same
  cases step with
  | stamp here => exact .same rfl (relay_of rfl (seat_same here rfl))
  | kill _ here => exact .same rfl (relay_of rfl (seat_same here rfl))
  | receive _ here => exact .same rfl (relay_of (open_same here) rfl)
  | consume _ _ here => exact .same rfl (relay_of (open_same here) rfl)
  | forward answered => exact .same rfl (by simp [relay, answered])
  | forwarded answered => exact .same rfl (by simp [relay, answered])
  | @create _ _ h _ _ _ unused =>
    have free : (relay (p, s)).Free h := free_iff.mpr fun c held => by
      have registered := links.linked.linked c h held
      simp [Bosh.links, Server.registered, unused] at registered
    have shut : h ∉ (relay (p, s)).open' := by simp [relay, unused]
    refine .step rfl (.opened shut free) (relay_of ?_ rfl)
    ext k
    by_cases same : k = h <;> simp [relay, same]
  | delete here callback answered =>
    have listed : (s.connections _).isSome := Option.isSome_of_mem here
    refine .step rfl (.closed listed (by simp [relay, answered])) ?_
    refine relay_of open_gone (seats_without (fun _ _ => rfl) fun c client there held => ?_)
    have registered := links.linked.linked c _ (holding_eq there held)
    simp [Bosh.links, Server.registered, here, callback] at registered
  | @deleteHeld _ _ h connection c client _ _ _ here callback there answered =>
    have listed : (s.connections h).isSome := Option.isSome_of_mem here
    have registered : s.registered h = some (.jcClearHttp c) := by
      simp [Server.registered, here, callback]
    have only : ∀ c', s.holding c' = some h → c' = c := fun c' held => by
      have same := (links.linked.linked c' h held).symm.trans registered
      cases same
      rfl
    refine .step rfl (.closed listed (by simp [relay, answered])) ?_
    refine relay_of open_gone (seats_without (fun c' unheld => ?_) fun c' client' there' held => ?_)
    · refine Function.update_of_ne ?_ _ _
      rintro rfl
      exact unheld (links.registered h c' registered)
    · obtain rfl := only c' (holding_eq there' held)
      cases there.symm.trans there'
      simp [JabberClient.seat]
  | @request _ _ h _ request _ _ _ here frame owed _ _ alone =>
    obtain rfl := frame_connection frame
    have listed : (s.connections request.connection).isSome := Option.isSome_of_mem here
    have asks : ∀ c, (named s request).map Prod.fst = some c ↔
        ∃ seat, (relay (p, s)).seats c = some seat ∧
          (posted request : Option (UInt64 × Iks)).map Prod.fst = some seat.name :=
      fun _ => named_seat sound
    refine .step rfl (.asked listed (by simp [relay, owed]) asks ?_) ?_
    · rintro c seat taken held
      obtain ⟨client, there, rfl⟩ := relay_seats.mp taken
      exact alone assumed c (sound.mem_jabberConnections.mpr (Option.isSome_of_mem there))
        (holding_eq there held)
    · simp [relay, Function.comp_def]
  | @answer _ _ h _ _ _ _ owed free here =>
    have listed : (s.connections h).isSome := Option.isSome_of_mem here
    refine .step rfl (.answered listed (by simp [relay, owed, free]) ?_) (relay_of (open_same here) rfl)
    refine free_iff.mpr fun c held => ?_
    have target := links.linked.owed c h owed held
    simp [Bosh.links, free] at target
  | drop here held there =>
    have listed : (s.connections _).isSome := Option.isSome_of_mem there
    refine .step rfl (.dismissed listed (relay_seats.mpr ⟨_, here, rfl⟩) held)
      (relay_of (open_same there) ?_)
    exact Function.comp_update ..
  | flush here held waiting there =>
    have listed : (s.connections _).isSome := Option.isSome_of_mem there
    refine .step rfl (.delivered listed (relay_seats.mpr ⟨_, here, rfl⟩) held waiting)
      (relay_of (open_same there) ?_)
    exact Function.comp_update ..
  | @hold _ _ c _ client h _ _ _ owed target _ here free there =>
    have listed : (s.connections h).isSome := Option.isSome_of_mem there
    have unheld : (relay (p, s)).Free h := free_iff.mpr fun c' held => by
      have same := links.linked.owed c' h owed held
      obtain rfl : c = c' := by simpa [Bosh.links, target] using same
      simp [Server.holding, here, free] at held
    refine .step rfl (.kept listed (by simp [relay, owed, target])
      (relay_seats.mpr ⟨client, here, rfl⟩) free unheld) (relay_of (open_same there) ?_)
    exact Function.comp_update ..
  | openSession _ _ _ unused inserted =>
    refine .step rfl (.joined ?_ ?_) (relay_of rfl (Function.comp_update ..))
    · simp [relay, sound.unused]
    · rintro c seat taken rfl
      obtain ⟨client, here, rfl⟩ := relay_seats.mp taken
      have found : s.sids.find client.sid = some c := (find_iff sound).mpr ⟨client, here, rfl⟩
      simp [HashTable.hasKey, JabberClient.seat, found] at unused
  | stanza _ here =>
    refine .step rfl (.posted (relay_seats.mpr ⟨_, here, rfl⟩)) (relay_of rfl ?_)
    exact Function.comp_update ..
  | forget here free settled =>
    refine .step rfl (.left (relay_seats.mpr ⟨_, here, rfl⟩) free ?_)
      (relay_of rfl (Function.comp_update ..))
    simp [relay, settled]
  | _ => exact .same rfl rfl

theorem relay_invariant {a : Assumed} (alone : a.alone) :
    Invariant a fun q : Phase Iks × Server Iks =>
      LinksSound q ∧ Runs (relayed q.2.history) (relay q) where
  initial s initial := by
    refine ⟨(links_invariant alone).initial s initial, ?_⟩
    have empty : relay ({}, s) = State.empty := by
      simp [relay, State.empty, initial.connections, initial.clients, Function.comp_def]
    rw [empty, initial.history]
    exact .empty
  hear s oracle h := ⟨(links_invariant alone).hear s oracle h.1, h.2⟩
  micro p s p' s' step sound h := by
    refine ⟨(links_invariant alone).micro _ _ _ _ step sound h.1, ?_⟩
    cases step.relays sound h.1 alone with
    | same events state => rw [events, state]; exact h.2
    | step events rule state => rw [events, state]; exact h.2.step rule

/-- While no request arrives on a connection that holds one for another session, the server
is a relay: its history is a run of the relay, which ends where the server is. Between two
events no request is in hand. -/
theorem relay_refined {c : Configuration Iks} (run : Reaches NoOverlap c) :
    Runs (relayed c.server.history) (relay ({}, c.server)) := by
  have admits : ∀ (c : Configuration Iks) input, NoOverlap c input →
      Admits (Assumed.of True False) c input := fun c input allowed =>
    ⟨fun _ _ _ _ _ => trivial, fun _ => allowed, nofun⟩
  exact ((relay_invariant trivial).reaches admits run).2.2

end Relaying

theorem relay_refined_held :
    Runs [.kept 0 1, .asked 1 (some 0), .answered 1, .joined 0 0, .asked 1 none, .opened 1]
      (relay ({}, (Sample.reached NoOverlap Sample.held Sample.held_apart).server)) := by
  have reached : Reaches NoOverlap (Sample.reached NoOverlap Sample.held Sample.held_apart) :=
    Sample.reaches_reached
  have run := relay_refined reached
  have events : relayed (Sample.reached NoOverlap Sample.held Sample.held_apart).server.history =
      [.kept 0 1, .asked 1 (some 0), .answered 1, .joined 0 0, .asked 1 none, .opened 1] := by
    decide +kernel
  rwa [events] at run

end Bosh
