import Bosh.Server.Callbacks
import Bosh.Server.Owners

/-! Runs of the main loop: where they start, and what every step of theirs comes to. -/
namespace Bosh
open Effect Text

section Start
variable {Iks : Type} [Iksemel Iks]

/-- The server as `jb_new` leaves it: one socket, which listens, and nothing else. -/
structure Initial (s : Server Iks) : Prop where
  connections : s.connections = fun _ => none
  httpConnections : s.httpConnections = []
  clients : s.clients = fun _ => none
  nextClient : s.nextClient = 0
  jabberConnections : s.jabberConnections = []
  sids : s.sids.pairs = []
  clientCount : s.clientCount = 0
  maxClientCount : s.maxClientCount = 0
  history : s.history = []
  wire : ∃ sends sock, sock.callbacks = (none, none, none) ∧ sock.fd ≠ -1 ∧
    s.net.wire = Wire.push sock ⟨fun _ => none, 0, sends, fun _ => []⟩

theorem hsNew_spec (config : Iks) (s : Server Iks) :
    Ensures (hsNew config s) (fun started s' => started = true →
      ∃ net serverSock sock, sock.callbacks = (none, none, none) ∧ sock.fd ≠ -1 ∧
        net.wire = s.net.wire.push sock ∧ s' = { s with net, serverSock, httpConnections := [] })
      Unrelated := by
  unfold hsNew
  simp only [onNet, ensures_bind, ensures_part, ensures_get]
  refine sockNew_wire.mono ?_ fun _ => id
  rintro _ n₁ ⟨rfl, same₁⟩
  refine (sockListen_spec _ _).mono (fun listening n₂ listens => ?_) fun _ => id
  cases listening with
  | false => exact fun started => by cases started
  | true =>
    obtain ⟨sock, fd, si, found, opened, same₂⟩ := listens rfl
    rw [← Net.wire_sockets, same₁, ← Net.wire_nextSocket, Wire.sockets_push_self,
      Option.some.injEq] at found
    subst found
    rw [if_pos rfl, ensures_bind, ensures_modify, ensures_bind, ensures_part]
    refine (sockSetAcceptCallback_wire _ _).mono ?_ fun _ => id
    rintro _ n₃ ⟨sock₃, found₃, same₃⟩
    rw [← Net.wire_sockets, same₂, Wire.sockets_put_self, Option.some.injEq] at found₃
    subst found₃
    have pushed := same₃
    rw [same₂, same₁, Wire.put_put, ← Net.wire_nextSocket, Wire.put_push] at pushed
    exact fun _ => ⟨n₃, _, _, rfl, opened, pushed, rfl⟩

theorem start_initial {boot : Boot Iks} {c : Configuration Iks}
    (began : start boot = .ok (some c)) : Initial c.server := by
  obtain ⟨httpConfig, jabberPort, sessionTimeout, s, ran, rfl⟩ := start_began began
  obtain ⟨net, serverSock, sock, calls, opened, wire, rfl⟩ := (hsNew_spec _ _).of_ok ran rfl
  exact ⟨rfl, rfl, rfl, rfl, rfl, HashTable.pairs_new, rfl, rfl, rfl, _, sock, calls, opened, wire⟩

omit [Iksemel Iks] in
theorem Initial.sound {s : Server Iks} (initial : Initial s) : Sound s := by
  obtain ⟨connections, httpConnections, clients, nextClient, jabberConnections, sids, clientCount,
    maxClientCount, history, sends, sock, calls, opened, wire⟩ := initial
  have nothing : s.directory.entry = fun _ => none := by
    funext c
    simp [Server.directory, clients]
  have nobody : s.estate.sock = fun _ => none := by
    funext o
    cases o <;> simp [Server.estate, ownerSocks, clients, connections]
  have only : ∀ i x, s.net.wire.sockets i = some x → x = sock := fun i x there => by
    rw [wire] at there
    rcases Table.of_update there with ⟨-, here⟩ | ⟨-, absurd⟩
    · exact (Option.some.inj here).symm
    · cases absurd
  refine ⟨⟨?_, ?_, ?_, ?_, ?_, ?_, ?_, ?_⟩, ?_, ⟨?_, ?_, ?_, ?_⟩⟩
  · have order : s.directory.order = [] := jabberConnections
    rw [nothing, order]
    exact Chain.Indexes.empty _
  · simp [nothing]
  · intro sid c
    have order : s.directory.sids.pairs = [] := sids
    simp [nothing, order]
  · have order : s.directory.sids.pairs = [] := sids
    simp [order]
  · simp [Server.directory, clientCount, jabberConnections]
  · simp [Server.directory, clientCount, history, openCount]
  · simp [Server.directory, maxClientCount, history, peak]
  · simp [Server.directory, history, closings, nextClient]
  · unfold Roster
    rw [connections, httpConnections]
    exact Chain.Indexes.empty _
  · intro i high
    change s.net.wire.nextSocket ≤ i at high
    change s.net.wire.sockets i = none
    rw [wire] at high ⊢
    exact Wire.sockets_push_ne (Nat.one_le_iff_ne_zero.mp high) sock
  · simp [nobody]
  · exact fun i x there => .inl (only i x there ▸ calls)
  · exact fun i x there closed => absurd (only i x there ▸ closed) opened

end Start

section Steps
variable {Iks : Type} [Iksemel Iks] {a : Assumed} {c : Configuration Iks} {input : Input Iks}

def Input.oracle : Input Iks → Oracle Iks
  | .wait oracle _ | .event oracle | .timeout oracle | .shutdown oracle => oracle

def Configuration.turn (c : Configuration Iks) (input : Input Iks) : Option (Events × SocketId) :=
  match input, c.control with
  | .event _, .dispatching ((si, events) :: _) => (c.server.net.target si).map (events, ·)
  | _, _ => none

def Configuration.heard (c : Configuration Iks) (input : Input Iks) : Server Iks :=
  c.server.hear input.oracle

def Configuration.request (c : Configuration Iks) (input : Input Iks) : Option HttpRequest :=
  (c.turn input).bind fun turn => requestOf turn.1 turn.2 (c.heard input)

/-- No request arrives on a connection that holds one for another session. -/
def NoOverlap (c : Configuration Iks) (input : Input Iks) : Prop :=
  ∀ request ∈ c.request input, Alone c.server request

instance (c : Configuration Iks) (input : Input Iks) : Decidable (NoOverlap c input) :=
  inferInstanceAs (Decidable (∀ _ ∈ _, _))

/-- A new connection does not get an address that a session still has. -/
def FreshAddress (c : Configuration Iks) (input : Input Iks) : Prop :=
  ∀ turn ∈ c.turn input, Accepts turn.1 turn.2 (c.heard input) →
    Vacant c.server input.oracle.address

instance (c : Configuration Iks) (input : Input Iks) : Decidable (FreshAddress c input) :=
  inferInstanceAs (Decidable (∀ _ ∈ _, _))

/-- What the assumptions about the state changes need of an input. -/
structure Admits (a : Assumed) (c : Configuration Iks) (input : Input Iks) : Prop where
  exposed : ∀ turn sock, c.turn input = some turn → c.server.net.sockets turn.2 = some sock →
    Notices turn.1 sock → a.exposed turn.2
  alone : a.alone → NoOverlap c input
  vacant : a.vacant → FreshAddress c input

structure Settled (c : Configuration Iks) (input : Input Iks) (c' : Configuration Iks) : Prop where
  noticed : ∀ turn sock, c.turn input = some turn → c.server.net.sockets turn.2 = some sock →
    Notices turn.1 sock → Noticed sock turn.2 (c.heard input) c'.server
  ended : ∀ request, c.request input = some request →
    EndsSession request (c.heard input) c'.server

def Stepped (a : Assumed) (c : Configuration Iks) (input : Input Iks) :
    Except Fault (Configuration Iks) → Prop
  | .ok c' => Steps a ({}, c.heard input) ({}, c'.server) ∧ Settled c input c'
  | .error fault => fault = .deletedConnection →
      ∃ q, Steps a ({}, c.heard input) q ∧ Dangling q

theorem Stepped.of_sim {α : Type} (c : Configuration Iks) (input : Input Iks)
    {run : Except Fault (α × Server Iks)} {P : Server Iks → Prop} (control : α → Control)
    (sim : Sim a ({}, c.heard input) run fun _ p' s' => p' = {} ∧ P s')
    (settled : ∀ v s', P s' → Settled c input ⟨s', control v⟩) :
    Stepped a c input (run.map fun (v, server) => { server, control := control v }) := by
  cases run with
  | error fault => 
    obtain ⟨q, steps, dangling⟩ := sim
    exact fun same => ⟨q, steps, dangling same⟩
  | ok result =>
    obtain ⟨_, steps, rfl, h⟩ := sim
    exact ⟨steps, settled _ _ h⟩

theorem smDispatch_sim {s : Server Iks} {event : InfoId × Events} (sound : Sound s)
    (exposed : ∀ i sock, s.net.target event.1 = some i → s.net.sockets i = some sock →
      Notices event.2 sock → a.exposed i)
    (vacant : a.vacant → ∀ i, s.net.target event.1 = some i → Accepts event.2 i s →
      Vacant s s.oracle.address)
    (alone : a.alone → ∀ i, s.net.target event.1 = some i → ∀ request,
      requestOf event.2 i s = some request → Alone s request) :
    Sim a ({}, s) (smDispatch event s) fun _ p' s' => p' = {} ∧
      ∀ i, s.net.target event.1 = some i →
        (∀ sock, s.net.sockets i = some sock → Notices event.2 sock → Noticed sock i s s') ∧
        ∀ request, requestOf event.2 i s = some request → EndsSession request s s' := by
  unfold smDispatch
  apply Sim.net (smTarget_spec _)
  rintro target net ⟨rfl, same⟩
  rcases target with _ | ⟨⟨⟩, _ | i⟩
  · exact Follows.pure ⟨rfl, fun i found => by simp [same] at found⟩
  · exact Sim.fault (by simp)
  · replace same : s.net.target event.1 = some i := same
    refine (socketCallback_sim (fun sock found => exposed i sock same found) ?_ ?_
      (fun assumed => vacant assumed i same) fun assumed => alone assumed i same).mono ?_
    · intro h connection sock there calls here
      obtain ⟨connection', here', mine⟩ := sound.connection_of_callback there (.inl calls)
      rw [Option.some.inj (here.symm.trans here')]
      exact mine
    · intro c client sock there calls here
      obtain ⟨client', here', mine⟩ := sound.session_of_callback there calls
      rw [Option.some.inj (here.symm.trans here')]
      exact mine
    · rintro _ p' s' ⟨rfl, settled⟩
      refine ⟨rfl, fun j found => ?_⟩
      obtain rfl := Option.some.inj (same.symm.trans found)
      exact settled

omit [Iksemel Iks] in
theorem epollWait_error {ready : List (Int × Events)} {n : Net} {fault : Fault}
    (failed : epollWait ready n = .error fault) : fault = .impossible := by
  unfold epollWait at failed
  split at failed
  · obtain ⟨event, refused⟩ := mapM_error failed
    split at refused
    · exact (Except.error.inj refused).symm
    · split at refused
      · cases refused
      · exact (Except.error.inj refused).symm
  · exact (Except.error.inj failed).symm

theorem jbWait_sim {p : Phase Iks} {s : Server Iks} (ready : List (Int × Events)) :
    Sim a (p, s) (jbWait ready s) fun _ p' _ => p' = p := by
  unfold jbWait
  apply Follows.bind jbClosestTimeout_sim
  rintro _ _ s₁ rfl
  refine Follows.read <| Follows.last <| Follows.computed (fun _ _ => Follows.pure rfl) ?_
  intro fault failed same
  rw [epollWait_error failed] at same
  cases same

omit [Iksemel Iks] in
theorem Sound.hear {s : Server Iks} (sound : Sound s) (oracle : Oracle Iks) :
    Sound (s.hear oracle) where
  directory := sound.directory
  roster := sound.roster
  estate := sound.estate.keep ⟨rfl, (Wire.Keeps.refl s.net.wire).sockets⟩ rfl

theorem step_stepped (sound : Sound c.server) (admits : Admits a c input) :
    Stepped a c input (step input c) := by
  obtain ⟨s, control⟩ := c
  have quiet : ∀ {input : Input Iks} {c'}, Configuration.turn ⟨s, control⟩ input = none →
      Settled ⟨s, control⟩ input c' := fun nothing =>
    ⟨fun turn _ found => by simp [nothing] at found,
      fun request found => by simp [Configuration.request, nothing] at found⟩
  unfold step
  split
  · rename_i oracle ready polling
    obtain rfl : control = _ := polling
    have sim : Sim a ({}, s.hear oracle) (jbWait ready (s.hear oracle)) fun _ p' _ => p' = {} ∧
      True :=
      (jbWait_sim ready).mono fun _ _ _ same => ⟨same, trivial⟩
    exact Stepped.of_sim ⟨s, .polling⟩ (.wait oracle ready) .dispatching sim fun _ _ _ => quiet rfl
  · rename_i oracle event events dispatching
    obtain rfl : control = _ := dispatching
    have turn : ∀ {i}, s.net.target event.1 = some i →
        Configuration.turn ⟨s, .dispatching (event :: events)⟩ (.event oracle) =
          some (event.2, i) := fun found => by
      simp [Configuration.turn, found]
    have only : ∀ {t}, Configuration.turn ⟨s, .dispatching (event :: events)⟩ (.event oracle) =
        some t → s.net.target event.1 = some t.2 ∧ t.1 = event.2 := fun found => by
      obtain ⟨i, target, rfl⟩ := Option.map_eq_some_iff.mp found
      exact ⟨target, rfl⟩
    have sim : Sim a _ (smDispatch event (s.hear oracle)) _ := smDispatch_sim (sound.hear oracle)
      (fun i sock target => admits.exposed _ sock (turn target))
      (fun assumed i target => admits.vacant assumed _ (turn target))
      (fun assumed i target request complete => admits.alone assumed request (by
        rw [Configuration.request, turn target]
        exact complete))
    refine Stepped.of_sim ⟨s, .dispatching (event :: events)⟩ (.event oracle)
      (fun _ => .dispatching events) sim fun _ s' settled => ⟨fun t sock found there notices => ?_,
        ?_⟩
    · obtain ⟨target, events⟩ := only found
      exact (settled t.2 target).1 sock there (events ▸ notices)
    · intro request complete
      obtain ⟨t, found, complete⟩ := Option.bind_eq_some_iff.mp complete
      obtain ⟨target, events⟩ := only found
      exact (settled t.2 target).2 request (events ▸ complete)
  · rename_i oracle dispatched
    obtain rfl : control = _ := dispatched
    have sim : Sim a ({}, s.hear oracle) (jbCheckTimeout (s.hear oracle)) fun _ p' _ => p' = {} ∧
      True :=
      (jbCheckTimeout_sim rfl rfl).mono fun _ _ _ same => ⟨same, trivial⟩
    exact Stepped.of_sim ⟨s, .dispatching []⟩ (.timeout oracle) (fun _ => .polling) sim
      fun _ _ _ => quiet rfl
  · rename_i oracle polling
    obtain rfl : control = _ := polling
    have sim : Sim a ({}, s.hear oracle) (jbDelete (s.hear oracle)) fun _ p' _ => p' = {} ∧ True :=
      jbDelete_sim.mono fun _ _ _ same => ⟨same, trivial⟩
    exact Stepped.of_sim ⟨s, .polling⟩ (.shutdown oracle) (fun _ => .finished) sim
      fun _ _ _ => quiet rfl
  · exact nofun

end Steps

section Invariants
variable {Iks : Type} [Iksemel Iks] {a : Assumed} {kept : Phase Iks × Server Iks → Prop}
  {admitted : Configuration Iks → Input Iks → Prop} {c : Configuration Iks}

def Assumed.of (alone vacant : Prop) : Assumed := { exposed := fun _ => True, alone, vacant }

/-- `kept` holds at the start, does not depend on what the environment answers next, and
is kept by every state change. -/
structure Invariant (a : Assumed) (kept : Phase Iks × Server Iks → Prop) : Prop where
  initial : ∀ s, Initial s → kept ({}, s)
  hear : ∀ s oracle, kept ({}, s) → kept ({}, s.hear oracle)
  micro : ∀ p s p' s', Micro a (p, s) (p', s') → Sound s → kept (p, s) → kept (p', s')

theorem Invariant.steps (invariant : Invariant a kept) {q q' : Phase Iks × Server Iks}
    (steps : Steps a q q') (sound : Sound q.2) (h : kept q) : Sound q'.2 ∧ kept q' := by
  induction steps with
  | refl => exact ⟨sound, h⟩
  | tail _ last ih => exact ⟨Micro.sound last ih.1, invariant.micro _ _ _ _ last ih.1 ih.2⟩

theorem Invariant.sound : Invariant a fun q : Phase Iks × Server Iks => Sound q.2 where
  initial _ initial := initial.sound
  hear _ oracle sound := sound.hear oracle
  micro _ _ _ _ step sound _ := step.sound sound

/-- What holds of a run whose inputs all meet the assumptions. -/
theorem Invariant.reaches (invariant : Invariant a kept)
    (admits : ∀ c input, admitted c input → Admits a c input) (run : Reaches admitted c) :
    Sound c.server ∧ kept ({}, c.server) := by
  induction run with
  | start began =>
    have initial := start_initial began
    exact ⟨initial.sound, invariant.initial _ initial⟩
  | @step c c' input _ allowed done ih =>
    have stepped := step_stepped ih.1 (admits c input allowed)
    rw [done] at stepped
    exact invariant.steps stepped.1 (ih.1.hear _) (invariant.hear _ _ ih.2)

theorem Admits.always {input : Input Iks} : Admits (Assumed.of False False) c input :=
  ⟨fun _ _ _ _ _ => trivial, nofun, nofun⟩

theorem Reaches.sound (run : Reaches admitted c) : Sound c.server :=
  (Invariant.sound.reaches (fun _ _ _ => .always) run).1

/-- A step that works on a deleted connection has left a reference to it behind. -/
theorem Invariant.fault (invariant : Invariant a kept)
    (admits : ∀ c input, admitted c input → Admits a c input) (run : Reaches admitted c)
    {input : Input Iks} (allowed : admitted c input)
    (failed : step input c = .error .deletedConnection) : ∃ q, Sound q.2 ∧ kept q ∧ Dangling q := by
  obtain ⟨sound, h⟩ := invariant.reaches admits run
  have stepped := step_stepped sound (admits c input allowed)
  rw [failed] at stepped
  obtain ⟨q, steps, dangling⟩ := stepped rfl
  obtain ⟨sound', h'⟩ := invariant.steps steps (sound.hear _) (invariant.hear _ _ h)
  exact ⟨q, sound', h', dangling⟩

end Invariants

section Replay
variable {Iks : Type} [Iksemel Iks] (admitted : Configuration Iks → Input Iks → Prop)
  [∀ c input, Decidable (admitted c input)]

def follow : List (Input Iks) → Configuration Iks → Option (Configuration Iks)
  | [], c => some c
  | input :: inputs, c =>
    if admitted c input then
      match step input c with
      | .ok c' => follow inputs c'
      | .error _ => none
    else none

def replay (boot : Boot Iks) (inputs : List (Input Iks)) : Option (Configuration Iks) :=
  match start boot with
  | .ok (some c) => follow admitted inputs c
  | _ => none

variable {admitted} {admitted' : Configuration Iks → Input Iks → Prop} {inputs : List (Input Iks)}
  {c c' : Configuration Iks}

/-- The inputs may be known to be admitted in another sense, too. -/
theorem reaches_of_follow (weaker : ∀ input ∈ inputs, ∀ c, admitted c input → admitted' c input)
    (run : Reaches admitted' c) (done : follow admitted inputs c = some c') :
    Reaches admitted' c' := by
  induction inputs generalizing c with
  | nil =>
    cases done
    exact run
  | cons input inputs ih =>
    unfold follow at done
    split at done
    · rename_i allowed
      split at done
      · rename_i next stepped
        have next := run.step (weaker input (.head _) c allowed) stepped
        exact ih (fun later listed => weaker later (.tail _ listed)) next done
      · cases done
    · cases done

theorem reaches_of_replay {boot : Boot Iks}
    (weaker : ∀ input ∈ inputs, ∀ c, admitted c input → admitted' c input)
    (done : replay admitted boot inputs = some c) : Reaches admitted' c := by
  unfold replay at done
  split at done
  · rename_i began
    exact reaches_of_follow weaker (.start began) done
  · cases done

end Replay

theorem suffix_of_getElem {α : Type} {xs : List α} {n : Nat} {x : α} (here : xs[n]? = some x) :
    x :: xs.drop (n + 1) <:+ xs := by
  obtain ⟨inside, rfl⟩ := List.getElem?_eq_some_iff.mp here
  rw [← List.drop_eq_getElem_cons inside]
  exact List.drop_suffix n xs

/-- An XML library that knows seven documents; `bare` has no rid, and `other` is for session 1. -/
inductive Sample where
  | config
  | create
  | message
  | other
  | bare
  | terminate
  | stanza
  deriving DecidableEq

instance : Iksemel Sample where
  tree body :=
    if body = ascii "create" then some .create
    else if body = ascii "message" then some .message
    else if body = ascii "other" then some .other
    else if body = ascii "bare" then some .bare
    else if body = ascii "terminate" then some .terminate
    else none
  find x _ := some x
  findAttrib x name :=
    match x with
    | .create => if name = "sid" then none else some ⟨ascii "9", by decide⟩
    | .message => if name = "type" then none else some ⟨ascii "0", by decide⟩
    | .other => if name = "type" then none else some ⟨ascii "1", by decide⟩
    | .bare => if name = "sid" then some ⟨ascii "0", by decide⟩ else none
    | .terminate =>
      if name = "type" then some ⟨ascii "terminate", by decide⟩ else some ⟨ascii "0", by decide⟩
    | .config => if name = "rotate_size" then some ⟨ascii "1m", by decide⟩ else none
    | .stanza => none
  string _ := ⟨ascii "<m/>", by decide⟩
  tags
    | .message | .bare => [.stanza]
    | _ => []
  string_fits _ := by decide

namespace Sample

def boot : Boot Sample where
  openFds _ := false
  clock := 0
  config := .config
  oracle := { listen := { socket := some 3 } }

def reached (admitted : Configuration Sample → Input Sample → Prop)
    [∀ c input, Decidable (admitted c input)] (inputs : List (Input Sample))
    (works : (replay admitted boot inputs).isSome) : Configuration Sample :=
  (replay admitted boot inputs).get works

variable {admitted admitted' : Configuration Sample → Input Sample → Prop}
  [∀ c input, Decidable (admitted c input)] {inputs : List (Input Sample)}
  {works : (replay admitted boot inputs).isSome}

theorem reaches_of_reached
    (weaker : ∀ input ∈ inputs, ∀ c, admitted c input → admitted' c input) :
    Reaches admitted' (reached admitted inputs works) :=
  reaches_of_replay weaker (Option.some_get works).symm

theorem reaches_reached : Reaches admitted (reached admitted inputs works) :=
  reaches_of_reached fun _ _ _ => id

theorem exists_reached {about : Configuration Sample → Prop} [DecidablePred about]
    (found : (replay admitted boot inputs).any fun c => about c) :
    ∃ c, Reaches admitted c ∧ about c := by
  obtain ⟨c, done, holds⟩ := (Option.any_eq_true _ _).mp found
  exact ⟨c, reaches_of_replay (fun _ _ _ => id) done, of_decide_eq_true holds⟩

def iteration (fd : Int) (events : Events) (oracle : Oracle Sample) : List (Input Sample) :=
  [.wait {} [(fd, events)], .event oracle, .timeout {}]

/-- Descriptor 3 listens; a connection at an address, with a descriptor of its own. -/
def accept (fd : Nat) (h : ConnectionId) : List (Input Sample) :=
  iteration 3 .epollIn { accept := some fd, address := h }

def arrive (fd : Int) (bytes : Bytes) : List (Input Sample) :=
  iteration fd .epollIn { arrivals := [{ result := .data bytes }], random := [0, 0],
                          connect := { socket := some 9 } }

def post (body : String) : Bytes :=
  ascii "POST / HTTP/1.1\r\nContent-Length: " ++ decimal body.length ++ ascii "\r\n\r\n" ++
    ascii body

def get : Bytes := ascii "GET / HTTP/1.1\r\nHost: h\r\n\r\n"

/-- A session is created, and its next request is held. -/
def held : List (Input Sample) :=
  accept 4 1 ++ arrive 4 (post "create") ++ arrive 4 (post "message")

def overlapped : List (Input Sample) := held ++ arrive 4 get

/-- The answer to a status request waits in the queue, and then a `send` fails. -/
def broken : List (Input Sample) :=
  accept 4 1 ++ arrive 4 get ++ iteration 4 .epollOut { sends := fun _ => [.fail] }

def talked : List (Input Sample) :=
  held ++ iteration 9 .epollOut {} ++ iteration 9 .epollIn {
    arrivals := [{ result := .data [60], hooks := [(.normal, some .stanza)] }] }

theorem held_works : (replay (fun _ _ => True) boot held).isSome := by decide +kernel

theorem held_apart : (replay NoOverlap boot held).isSome := by decide +kernel

theorem overlapped_works : (replay (fun _ _ => True) boot overlapped).isSome := by decide +kernel

theorem broken_works : (replay (fun _ _ => True) boot broken).isSome := by decide +kernel

theorem talked_apart : (replay NoOverlap boot talked).isSome := by decide +kernel

end Sample

end Bosh
