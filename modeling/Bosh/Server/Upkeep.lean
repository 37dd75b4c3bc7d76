import Bosh.Server.Run

/-! Sockets that fail: whether the owner of a socket that has been closed goes with it. -/
namespace Bosh
open Effect Text

def Owner.Live : Owner → SocketStatus → Prop
  | connection _, status => status = .connected
  | session _, status => status = .connecting ∨ status = .connected

theorem Owner.Live.opened {o : Owner} {status : SocketStatus} (live : o.Live status) :
    status ≠ .idle := by
  rintro rfl
  cases o <;> simp [Owner.Live] at live

/-- What a socket that is not exposed goes through: at most, it becomes connected. -/
def Steady (before after : SocketStatus) : Prop :=
  after = before ∨ before = .connecting ∧ after = .connected

theorem Steady.trans {first second third : SocketStatus} (one : Steady first second)
    (two : Steady second third) : Steady first third := by
  rcases two with rfl | ⟨rfl, rfl⟩
  · exact one
  · rcases one with rfl | ⟨-, absurd⟩
    · exact .inr ⟨rfl, rfl⟩
    · cases absurd

theorem Owner.Live.steady {o : Owner} {before after : SocketStatus} (live : o.Live before)
    (steady : Steady before after) : o.Live after := by
  rcases steady with rfl | ⟨rfl, rfl⟩
  · exact live
  · cases o <;> simp [Owner.Live]

/-- The sockets keep their callbacks, only exposed ones are closed, and new ones are live. -/
structure Sustains (exposed : SocketId → Prop) (w w' : Wire) : Prop where
  fewer : ∀ i, w'.sends i <:+ w.sends i
  grows : w.nextSocket ≤ w'.nextSocket
  sockets : ∀ i sock', w'.sockets i = some sock' →
    (∃ sock, w.sockets i = some sock ∧ sock'.callbacks = sock.callbacks ∧
        (¬ exposed i → Steady sock.status sock'.status)) ∨
      w.nextSocket ≤ i ∧ (¬ exposed i → ∀ o : Owner, sock'.callbacks = o.callbacks → o.Live sock'.status)

section Wires
variable {exposed : SocketId → Prop} {w w' w'' : Wire} {i : SocketId}

namespace Sustains

theorem refl (w : Wire) : Sustains exposed w w :=
  ⟨fun _ => List.suffix_rfl, le_rfl, fun _ sock there => .inl ⟨sock, there, rfl, fun _ => .inl rfl⟩⟩

theorem trans (first : Sustains exposed w w') (second : Sustains exposed w' w'') :
    Sustains exposed w w'' := by
  refine ⟨fun i => (second.fewer i).trans (first.fewer i), first.grows.trans second.grows,
    fun i sock₂ there => ?_⟩
  rcases second.sockets i sock₂ there with ⟨sock₁, between, calls, steady⟩ | ⟨high, live⟩
  · rcases first.sockets i sock₁ between with ⟨sock, here, calls', steady'⟩ | ⟨high, live⟩
    · exact .inl ⟨sock, here, calls.trans calls', fun safe => (steady' safe).trans (steady safe)⟩
    · exact .inr ⟨high, fun safe o mine => (live safe o (calls ▸ mine)).steady (steady safe)⟩
  · exact .inr ⟨first.grows.trans high, live⟩

theorem of_only {sock sock' : Socket} (only : OnlySocket i w w') (fewer : w'.sends i <:+ w.sends i)
    (before : w.sockets i = some sock) (after : w'.sockets i = some sock')
    (calls : sock'.callbacks = sock.callbacks)
    (steady : ¬ exposed i → Steady sock.status sock'.status) : Sustains exposed w w' := by
  refine ⟨fun j => ?_, only.nextSocket.ge, fun j x there => ?_⟩
  · by_cases same : j = i
    · exact same ▸ fewer
    · rw [only.sends j same]
  · by_cases same : j = i
    · subst same
      obtain rfl := Option.some.inj (after.symm.trans there)
      exact .inl ⟨sock, before, calls, steady⟩
    · rw [only.sockets j same] at there
      exact .inl ⟨x, there, rfl, fun _ => .inl rfl⟩

theorem replace {sock sock' : Socket} (before : w.sockets i = some sock)
    (calls : sock'.callbacks = sock.callbacks)
    (steady : ¬ exposed i → Steady sock.status sock'.status) :
    Sustains exposed w (w.put i (some sock')) :=
  of_only (.put i _ w) List.suffix_rfl before (Wire.sockets_put_self ..) calls steady

theorem removed (i : SocketId) : Sustains exposed w (w.put i none) :=
  ⟨fun _ => List.suffix_rfl, le_rfl, fun _ sock there =>
    .inl ⟨sock, (Table.of_update_none there).2, rfl, fun _ => .inl rfl⟩⟩

theorem push {sock : Socket}
    (live : ∀ o : Owner, sock.callbacks = o.callbacks → o.Live sock.status) :
    Sustains exposed w (w.push sock) := by
  refine ⟨fun _ => List.suffix_rfl, Nat.le_succ _, fun j x there => ?_⟩
  rcases Table.of_update there with ⟨rfl, new⟩ | ⟨-, old⟩
  · obtain rfl := Option.some.inj new
    exact .inr ⟨le_rfl, fun _ => live⟩
  · exact .inl ⟨x, old, rfl, fun _ => .inl rfl⟩

end Sustains

/-- Where only exposed sockets fail, only exposed sockets are closed. -/
theorem Gives.sustains {bytes : Bytes} (gives : Gives i bytes w w')
    (failing : .fail ∈ w.sends i → exposed i) : Sustains exposed w w' := by
  obtain ⟨sock, sock', before, after, calls, outcome⟩ := gives.outcome
  refine .of_only gives.only gives.fewer before after calls fun safe => ?_
  rcases outcome with ⟨-, status, -⟩ | ⟨-, -, failed, -⟩
  · exact .inl status
  · exact absurd (failing failed) safe

theorem Move.sustains (move : Move exposed w w') (failing : ∀ j, .fail ∈ w.sends j → exposed j) :
    Sustains exposed w w' := by
  cases move with
  | flush gives => exact gives.sustains (failing _)
  | shut revealed shut =>
    obtain ⟨sock, sock', before, rfl, calls, -⟩ := shut
    exact .replace before calls fun safe => absurd revealed safe
  | connected before status => exact .replace before rfl fun _ => .inr ⟨status, rfl⟩
  | refused revealed before => exact .replace before rfl fun safe => absurd revealed safe
  | abandoned =>
    exact ⟨fun _ => List.suffix_rfl, Nat.le_succ _, (Sustains.removed _).sockets⟩

end Wires

section Steps
variable {Iks : Type} [Iksemel Iks] {a : Assumed} {p p' : Phase Iks} {s s' : Server Iks}

theorem Micro.sustains (step : Micro a (p, s) (p', s'))
    (failing : ∀ i, .fail ∈ s.net.sends i → a.exposed i) :
    Sustains a.exposed s.net.wire s'.net.wire := by
  have gave : ∀ {i bytes} {net : Net}, Gives i bytes s.net.wire net.wire →
      Sustains a.exposed s.net.wire net.wire := fun gives => gives.sustains (failing _)
  have deleted : ∀ {i} {net : Net}, Deletes i s.net.wire net.wire →
      Sustains a.exposed s.net.wire net.wire := fun {i net} deleted => deleted.2 ▸ .removed i
  cases step with
  | monitor wire => exact wire ▸ .refl _
  | move move => exact move.sustains failing
  | discard _ _ gone => exact deleted gone
  | create _ _ _ wire =>
    refine wire ▸ .push fun o calls => ?_
    cases o <;> simp_all [acceptedSocket, Socket.callbacks, Owner.callbacks, Owner.Live]
  | refuse _ gives => exact gave gives
  | delete _ _ _ _ _ _ _ gone => exact deleted gone
  | deleteHeld _ _ _ _ _ _ _ _ _ gone => exact deleted gone
  | answer _ _ _ gives => exact gave gives
  | drop _ _ _ gives => exact gave gives
  | flush _ _ _ _ gives => exact gave gives
  | openSession _ _ _ _ _ _ wire =>
    refine wire ▸ .push fun o calls => ?_
    cases o <;> simp_all [sessionSocket, Socket.callbacks, Owner.callbacks, Owner.Live]
  | forward _ _ _ gives => exact gave gives
  | forget _ _ _ _ _ gone => exact deleted gone
  | _ => exact .refl _

theorem Steps.sustains {q q' : Phase Iks × Server Iks} (steps : Steps a q q')
    (failing : ∀ i, .fail ∈ q.2.net.sends i → a.exposed i) :
    Sustains a.exposed q.2.net.wire q'.2.net.wire := by
  induction steps with
  | refl => exact .refl _
  | tail _ last ih =>
    exact ih.trans (last.sustains fun i failed => failing i ((ih.fewer i).subset failed))

end Steps

section Runs
variable {Iks : Type} [Iksemel Iks] {c c' : Configuration Iks} {input : Input Iks}

/-- A socket whose owner is seen to if it fails during a step: the callback for it looks at
its status or deletes its owner, or the request in hand ends its session. -/
def Watched (c : Configuration Iks) (input : Input Iks) (i : SocketId) : Prop :=
  (∃ turn sock, c.turn input = some turn ∧ c.server.net.sockets turn.2 = some sock ∧
    Notices turn.1 sock ∧ turn.2 = i) ∨
  ∃ request k message client, c.request input = some request ∧
    named (c.heard input) request = some (k, message) ∧ isTerminate message = true ∧
    c.server.clients k = some client ∧ client.sock = i

/-- While the server runs, a `send` fails only where the owner is seen to. -/
def FailuresWatched (c : Configuration Iks) (input : Input Iks) : Prop :=
  input = .shutdown input.oracle ∨ ∀ i, .fail ∈ input.oracle.sends i → Watched c input i

/-- Every connection and every session has a socket that it can use. -/
def Healthy (s : Server Iks) : Prop :=
  ∀ o i, s.estate.sock o = some i → ∃ sock, s.net.sockets i = some sock ∧ o.Live sock.status

omit [Iksemel Iks] in
theorem Noticed.live {s s' : Server Iks} {i : SocketId} {sock sock' : Socket} {o : Owner}
    (noticed : Noticed sock i s s') (sound : Sound s) (here : s.net.sockets i = some sock)
    (there : s'.net.sockets i = some sock') (calls : sock.callbacks = o.callbacks)
    (mine : s'.estate.sock o = some i) : o.Live sock'.status := by
  have data : sock.dataCallback = o.callbacks.1 := congrArg (·.1) calls
  have connect : sock.connectCallback = o.callbacks.2.1 := congrArg (·.2.1) calls
  have error : sock.errorCallback = o.callbacks.2.2 := congrArg (·.2.2) calls
  cases o with
  | connection h =>
    obtain ⟨connection, found, rfl⟩ := Option.map_eq_some_iff.mp mine
    cases noticed with
    | readConnection mine checked =>
      obtain rfl : h = _ := by simpa [Owner.callbacks] using data.symm.trans mine
      exact checked connection sock' found there
    | readSession other => simp [Owner.callbacks, other] at data
    | deleted mine gone =>
      obtain rfl : h = _ := by simpa [Owner.callbacks] using error.symm.trans mine
      simp [found] at gone
    | failed other => simp [Owner.callbacks, other] at error
    | refused other => simp [Owner.callbacks, other] at connect
    | complete checked => exact checked sock' there
    | unowned absent =>
      rcases absent with absent | absent | ⟨connecting, -⟩
      · simp [Owner.callbacks, absent] at error
      · simp [Owner.callbacks, absent] at data
      · obtain ⟨x, here', -, status⟩ :=
          sound.estate.owned _ _ (sound.estate.sock_of_callbacks here calls)
        obtain rfl := Option.some.inj (here.symm.trans here')
        simp [Owner.Status, connecting] at status
  | session k =>
    obtain ⟨client, found, rfl⟩ := Option.map_eq_some_iff.mp mine
    cases noticed with
    | readConnection other => simp [Owner.callbacks, other] at data
    | readSession mine checked =>
      obtain rfl : k = _ := by simpa [Owner.callbacks] using data.symm.trans mine
      obtain ⟨client', found', same⟩ := sound.session_of_callback here mine
      exact .inr (checked client' sock' found' (same ▸ there))
    | deleted other => simp [Owner.callbacks, other] at error
    | failed mine gone =>
      obtain rfl : k = _ := by simpa [Owner.callbacks] using error.symm.trans mine
      simp [found] at gone
    | refused mine gone =>
      obtain rfl : k = _ := by simpa [Owner.callbacks] using connect.symm.trans mine
      simp [found] at gone
    | complete checked => exact .inr (checked sock' there)
    | unowned absent =>
      rcases absent with absent | absent | ⟨-, absent⟩
      · simp [Owner.callbacks, absent] at error
      · simp [Owner.callbacks, absent] at data
      · simp [Owner.callbacks, absent] at connect

theorem step_healthy (sound : Sound c.server) (healthy : Healthy c.server)
    (failing : ∀ i, .fail ∈ input.oracle.sends i → Watched c input i)
    (done : step input c = .ok c') : Healthy c'.server := by
  have admits : Admits ⟨Watched c input, False, False⟩ c input :=
    ⟨fun turn sock found here notices => .inl ⟨turn, sock, found, here, notices, rfl⟩, nofun, nofun⟩
  have stepped := step_stepped sound admits
  rw [done] at stepped
  obtain ⟨steps, settled⟩ := stepped
  have sustains := steps.sustains failing
  obtain ⟨sound', -⟩ := Invariant.sound.steps steps (sound.hear _) (sound.hear _)
  intro o i mine
  obtain ⟨sock', there, calls, -⟩ := sound'.estate.owned o i mine
  refine ⟨sock', there, ?_⟩
  by_cases watched : Watched c input i
  · rcases watched with ⟨turn, sock, found, here, notices, rfl⟩ |
      ⟨request, k, message, client, complete, who, ends, here, rfl⟩
    · rcases sustains.sockets _ sock' there with ⟨x, here', same, -⟩ | ⟨high, -⟩
      · obtain rfl := Option.some.inj (here.symm.trans here')
        exact (settled.noticed turn sock found here notices).live (sound.hear _) here there
          (same.symm.trans calls) mine
      · exact absurd (sound.estate.below here) (Nat.not_lt.mpr high)
    · have gone := settled.ended request complete k message client who ends here
      exact absurd (there.symm.trans gone) (by simp)
  · rcases sustains.sockets i sock' there with ⟨sock, here, same, steady⟩ | ⟨-, live⟩
    · obtain ⟨x, here', live⟩ :=
        healthy o i (sound.estate.sock_of_callbacks here (same.symm.trans calls))
      obtain rfl := Option.some.inj (here.symm.trans here')
      exact live.steady (steady watched)
    · exact live watched o calls

omit [Iksemel Iks] in
theorem healthy_initial {s : Server Iks} (initial : Initial s) : Healthy s := by
  intro o i mine
  cases o with
  | connection h => simp [Server.estate, ownerSocks, initial.connections] at mine
  | session k => simp [Server.estate, ownerSocks, initial.clients] at mine

theorem step_shutdown {oracle : Oracle Iks} (done : step (.shutdown oracle) c = .ok c') :
    c'.control = .finished := by
  obtain ⟨s, control⟩ := c
  cases control with
  | polling =>
    cases ran : call jbDelete oracle s with
    | error fault => simp [step, ran, Except.map] at done
    | ok result =>
      simp only [step, ran, Except.map, Except.ok.injEq] at done
      rw [← done]
  | _ => cases done

theorem healthy_of_reaches (run : Reaches FailuresWatched c) :
    c.control = .finished ∨ Healthy c.server := by
  induction run with
  | start began => exact .inr (healthy_initial (start_initial began))
  | @step c c' input reached allowed done before =>
    rcases allowed with down | failing
    · exact .inl (step_shutdown (down ▸ done))
    · have running : c.control ≠ .finished := fun finished => by
        cases input <;> simp [step, finished] at done
      exact .inr (step_healthy reached.sound (before.resolve_left running) failing done)

/-- While a `send` fails only where the owner is seen to, no connection and no session is
left with a dead socket at the end of an iteration. -/
theorem owners_alive (run : Reaches FailuresWatched c) (polling : c.control = .polling) :
    (∀ h ∈ Chain.values c.server.httpConnections, ∃ connection sock,
      c.server.connections h = some connection ∧ c.server.net.sockets connection.sock = some sock ∧
        sock.status = .connected ∧ sock.fd ≠ -1) ∧
      ∀ k ∈ Chain.values c.server.jabberConnections, ∃ client sock,
        c.server.clients k = some client ∧ c.server.net.sockets client.sock = some sock ∧
          (sock.status = .connecting ∨ sock.status = .connected) := by
  have sound := run.sound
  have healthy := (healthy_of_reaches run).resolve_left (by simp [polling])
  refine ⟨fun h listed => ?_, fun k listed => ?_⟩
  · obtain ⟨connection, here⟩ := Option.isSome_iff_exists.mp (sound.mem_httpConnections.mp listed)
    obtain ⟨sock, there, live⟩ := healthy _ _ (estate_connection here)
    exact ⟨connection, sock, here, there, live,
      fun fd => live.opened (sound.estate.closed _ sock there fd)⟩
  · obtain ⟨client, here⟩ := Option.isSome_iff_exists.mp (sound.mem_jabberConnections.mp listed)
    obtain ⟨sock, there, live⟩ := healthy _ _ (estate_session here)
    exact ⟨client, sock, here, there, live⟩

end Runs

namespace Sample

def failing : List (Input Sample) :=
  held ++ accept 5 2 ++ iteration 5 .epollIn {
    arrivals := [{ result := .data get }], sends := fun i => if i = 3 then [.fail] else [] }

def Reading (c : Configuration Sample) (input : Input Sample) : Prop :=
  .fail ∈ input.oracle.sends 3 → c.turn input = some (.epollIn, 3) ∧
    (c.server.net.sockets 3).map Socket.status = some .connected

instance (c : Configuration Sample) (input : Input Sample) : Decidable (Reading c input) :=
  inferInstanceAs (Decidable (_ → _ ∧ _))

theorem failing_works : (replay Reading boot failing).isSome := by decide +kernel

theorem failing_only : ∀ input ∈ failing, ∀ i, .fail ∈ input.oracle.sends i → i = 3 := by
  simp [failing, held, accept, arrive, iteration, Input.oracle]

theorem failing_watched : Reaches FailuresWatched (reached Reading failing failing_works) := by
  refine reaches_of_reached fun input listed c reading => .inr fun i fails => ?_
  obtain rfl := failing_only input listed i fails
  obtain ⟨turn, status⟩ := reading fails
  obtain ⟨sock, here, connected⟩ := Option.map_eq_some_iff.mp status
  exact .inl ⟨_, sock, turn, here, .inr (.inr ⟨by decide, rfl, connected⟩), rfl⟩

end Sample

/-- The connection whose `send` fails is gone at once, and the other one is as it should be. -/
theorem owners_alive_failing :
    (Sample.reached Sample.Reading Sample.failing Sample.failing_works).server.connections 2 = none ∧
    ∃ connection sock,
      (Sample.reached Sample.Reading Sample.failing Sample.failing_works).server.connections 1 =
        some connection ∧
      (Sample.reached Sample.Reading Sample.failing Sample.failing_works).server.net.sockets
        connection.sock = some sock ∧ sock.status = .connected ∧ sock.fd ≠ -1 :=
  ⟨by decide +kernel, (owners_alive Sample.failing_watched (by decide +kernel)).1 1
    (by decide +kernel)⟩

/-- A flush that fails closes the socket, and nobody tells the connection. -/
theorem owners_alive_broken :
    ¬ ∀ c : Configuration Sample, Reachable c → c.control = .polling →
      ∀ h ∈ Chain.values c.server.httpConnections, ∃ connection sock,
        c.server.connections h = some connection ∧
          c.server.net.sockets connection.sock = some sock ∧
          sock.status = .connected ∧ sock.fd ≠ -1 := fun claim => by
  obtain ⟨connection, sock, here, there, live, -⟩ := claim
    (Sample.reached (fun _ _ => True) Sample.broken Sample.broken_works) Sample.reaches_reached
    (by decide +kernel) 1 (by decide +kernel)
  have dead : (((Sample.reached (fun _ _ => True) Sample.broken
      Sample.broken_works).server.connections 1).bind fun connection =>
        (Sample.reached (fun _ _ => True) Sample.broken
          Sample.broken_works).server.net.sockets connection.sock).map Socket.status = some .idle := by
    decide +kernel
  simp [here, there, live] at dead

end Bosh
