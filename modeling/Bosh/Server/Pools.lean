import Bosh.Allocator
import Bosh.Server.Run

/-! What the process does where the server is defined no longer: a session still holds a request
whose connection `hc_delete` has freed, and `jb_check_timeout` answers it. The pools keep the memory
of what is freed, so that `hs_answer_request` goes on with `connection->sock` as it was left there,
whoever has got that Socket or its list since. Addresses are given out here as the pools do it. -/
namespace Bosh
open Effect Text

-- `sizeof`, where a pointer takes eight bytes
def sizeofHttpConnection : Nat := 131144
def sizeofSocket : Nat := 96
def sizeofList : Nat := 24

/-- The pools, and the pointers in the objects that came from them, freed or not. -/
structure Pools where
  httpConnections : Pool := {}
  sockets : Pool := {}
  lists : Pool := {}
  serverSock : Nat := 0
  connectionSock : ConnectionId → Nat := fun _ => 0
  sockQueue : Nat → Nat := fun _ => 0
  clientSock : ClientId → Nat := fun _ => 0
  clientQueue : ClientId → Nat := fun _ => 0

def Record.opens {Iks : Type} : Record Iks → Bool
  | .hcCreate _ | .newSession .. => true
  | _ => false

namespace Pools

def listNew (m : Pools) : Nat × Pools :=
  let (list, lists) := m.lists.alloc (allocStep sizeofList)
  (list, { m with lists })

def listDelete (list : Nat) (m : Pools) : Pools := { m with lists := m.lists.free list }

def sockNew (m : Pools) : Nat × Pools :=
  let (sock, sockets) := m.sockets.alloc (allocStep sizeofSocket)
  let (queue, m) := Pools.listNew { m with sockets }
  (sock, { m with sockQueue := Function.update m.sockQueue sock queue })

def sockDelete (sock : Nat) (m : Pools) : Pools :=
  let m := m.listDelete (m.sockQueue sock)
  { m with sockets := m.sockets.free sock }

/-- `hs_new` makes the Socket that listens and a list of connections, and `jb_new` one of sessions. -/
def start : Pools :=
  let (serverSock, m) := sockNew {}
  let (_, m) := m.listNew
  let (_, m) := m.listNew
  { m with serverSock }

variable {Iks : Type}

/-- What the call of an entry does to the pools. The list that `jc_flush_messages` makes is freed
before anything else is made. -/
def after (m : Pools) : Record Iks → Pools
  | .hcCreate h =>
    let (sock, m) := m.sockNew
    { m with
      httpConnections := (m.httpConnections.alloc (allocStep sizeofHttpConnection)).2
      connectionSock := Function.update m.connectionSock h sock }
  | .hcDelete h =>
    let m := m.sockDelete (m.connectionSock h)
    { m with httpConnections := m.httpConnections.free h }
  | .newSession c _ _ _ =>
    let (sock, m) := m.sockNew
    let (queue, m) := m.listNew
    { m with
      clientSock := Function.update m.clientSock c sock
      clientQueue := Function.update m.clientQueue c queue }
  | .closeSession c => (m.sockDelete (m.clientSock c)).listDelete (m.clientQueue c)
  | _ => m

/-- What one step of the server does to the pools. The only other Socket it can make is that of
`jb_connect_client` where `sock_connect` fails, which is given back before anything else happens. -/
def follow (s s' : Server Iks) (m : Pools) : Pools :=
  let news := s.since s'
  let made := s'.net.nextSocket - s.net.nextSocket
  let m := if made = news.countP Record.opens then m else m.sockNew.2.sockDelete m.sockNew.1
  news.foldr (fun entry m => m.after entry) m

end Pools

inductive Element (Iks : Type) where
  | client (c : ClientId)
  | stanza (stanza : Iks)
  | item (item : QueueItem)
  deriving DecidableEq

structure Process (Iks : Type) where
  server : Server Iks
  control : Control
  pools : Pools
  /-- What lies on a list besides what its owner in the server has put there. -/
  pushed : List (Nat × Element Iks)

inductive ProcessFault where
  | server (fault : Fault)
  /-- The element of a list is taken for one of another type. -/
  | mistyped
  deriving DecidableEq

abbrev ProcessM (Iks : Type) := Program (Process Iks) ProcessFault

variable {Iks : Type}

def onServer {α : Type} (program : ServerM Iks α) : ProcessM Iks α := fun p =>
  match program p.server with
  | .ok (value, server) => .ok (value, { p with server })
  | .error fault => .error (.server fault)

namespace Process

def configuration (p : Process Iks) : Configuration Iks := ⟨p.server, p.control⟩

def sockets (p : Process Iks) : List (Nat × SocketId) :=
  (p.pools.serverSock, p.server.serverSock) ::
    (Chain.values p.server.httpConnections).filterMap (fun h =>
      (p.server.connections h).map fun connection => (p.pools.connectionSock h, connection.sock)) ++
    (Chain.values p.server.jabberConnections).filterMap fun c =>
      (p.server.clients c).map fun client => (p.pools.clientSock c, client.sock)

def socketAt (sock : Nat) (p : Process Iks) : Option SocketId :=
  (p.sockets.find? fun entry => entry.1 == sock).map Prod.snd

def queueAt (list : Nat) (p : Process Iks) : Option SocketId :=
  (p.sockets.find? fun entry => p.pools.sockQueue entry.1 == list).map Prod.snd

def pushedOn (list : Nat) (p : Process Iks) : List (Element Iks) :=
  (p.pushed.filter fun entry => entry.1 == list).map Prod.snd

def outputQueue (c : ClientId) (p : Process Iks) : List (Element Iks) :=
  ((p.server.clients c).elim [] fun client => client.outputQueue.map .stanza) ++
    p.pushedOn (p.pools.clientQueue c)

def listNew : ProcessM Iks Nat := do
  let p ← get
  let (list, pools) := p.pools.listNew
  set { p with pools, pushed := p.pushed.filter fun entry => entry.1 ≠ list }
  pure list

def listDelete (list : Nat) : ProcessM Iks Unit :=
  modify fun p => { p with
    pools := p.pools.listDelete list, pushed := p.pushed.filter fun entry => entry.1 ≠ list }

def listPushBack (list : Nat) (element : Element Iks) : ProcessM Iks Unit :=
  modify fun p => { p with pushed := p.pushed ++ [(list, element)] }

/-- `sock_send` on the Socket at an address. One that has been freed is idle, and what its
`output_queue` points to may be in use again. -/
def sockSend (sock : Nat) (buffer : Bytes) (more : Bool) : ProcessM Iks Unit := do
  let p ← get
  match p.socketAt sock with
  | some i => onServer (onNet (Bosh.sockSend i (some buffer) buffer.length more))
  | none =>
    let item := itemNew buffer buffer.length 0
    match p.queueAt (p.pools.sockQueue sock) with
    | some i =>
      onServer (onNet (modifySocket i fun sock =>
        { sock with outputQueue := sock.outputQueue ++ [item] }))
    | none => listPushBack (p.pools.sockQueue sock) (.item item)

def hsAnswerRequest (h : ConnectionId) (answerer : Answerer Iks) (msg : Bytes)
    (contentType : Bytes) : ProcessM Iks Unit := do
  let p ← get
  if (p.server.connections h).isSome then
    onServer (Bosh.hsAnswerRequest h answerer msg contentType)
  else
    sockSend (p.pools.connectionSock h) (makeHttpHead 200 msg.length contentType) true
    sockSend (p.pools.connectionSock h) msg false
    onServer (modify (Server.record (.answer h answerer msg)))

def jcDropRequest (c : ClientId) (terminate : Bool) : ProcessM Iks Unit := do
  let client ← onServer (getClient c)
  let body := if terminate then terminateSessionResponse else emptyResponse
  match client.connection with
  | none => throw (.server .nullPointer)
  | some connection =>
    hsAnswerRequest connection (.dropRequest c) body httpXmlContent
    onServer do
      modifyClient c fun client => { client with connection := none }
      let timestamp ← getTime
      modifyClient c fun client => { client with timestamp }

def jbCloseClient [Iksemel Iks] (c : ClientId) : ProcessM Iks Unit := do
  onServer (Bosh.jbCloseClient c)
  modify fun p => { p with pools := p.pools.after (.closeSession c : Record Iks) }

def jbTimedOut (toClose : Nat) (init : Int) : List ClientId → ProcessM Iks Unit
  | [] => pure ()
  | c :: rest => do
    let client ← onServer (getClient c)
    let p ← get
    let idle := init - client.timestamp
    if client.connection.isSome ∧ idle ≥ client.wait then
      jcDropRequest c false
      jbTimedOut toClose init rest
    else if client.connection.isNone ∧ idle ≥ p.server.sessionTimeout then
      listPushBack toClose (.client c)
      jbTimedOut toClose init rest
    else jbTimedOut toClose init rest

/-- The loop that empties `to_close`; the fuel is one more than its elements. -/
def closeTimedOut [Iksemel Iks] (toClose : Nat) : Nat → ProcessM Iks Unit
  | 0 => throw (.server .diverges)
  | fuel + 1 => do
    let p ← get
    match p.pushedOn toClose with
    | [] => pure ()
    | element :: _ =>
      set { p with pushed := p.pushed.eraseP fun entry => entry.1 == toClose }
      match element with
      | .client c => jbCloseClient c
      | .stanza _ | .item _ => throw .mistyped
      closeTimedOut toClose fuel

def jbCheckTimeout [Iksemel Iks] : ProcessM Iks Unit := do
  let toClose ← listNew
  let init ← onServer getTime
  let p ← get
  jbTimedOut toClose init (Chain.values p.server.jabberConnections)
  let p ← get
  closeTimedOut toClose ((p.pushedOn toClose).length + 1)
  listDelete toClose

section Step
variable [Iksemel Iks]

/-- A step of `step`, but for `jb_check_timeout`, which runs on the pools. -/
def step (input : Input Iks) (p : Process Iks) : Except ProcessFault (Process Iks) :=
  match input, p.control with
  | .timeout oracle, .dispatching [] =>
    (jbCheckTimeout { p with server := p.server.hear oracle }).map
      fun (_, p) => { p with control := .polling }
  | _, _ =>
    match Bosh.step input p.configuration with
    | .ok c => .ok ⟨c.server, c.control, p.pools.follow p.server c.server, p.pushed⟩
    | .error fault => .error (.server fault)

/-- A connection that is accepted gets its address from the pool. -/
def Allocates (p : Process Iks) (input : Input Iks) : Prop :=
  ∀ turn ∈ p.configuration.turn input, Accepts turn.1 turn.2 (p.configuration.heard input) →
    input.oracle.address = (p.pools.httpConnections.alloc (allocStep sizeofHttpConnection)).1

instance (p : Process Iks) (input : Input Iks) : Decidable (p.Allocates input) :=
  inferInstanceAs (Decidable (∀ _ ∈ _, _))

/-- The states of the process in runs whose inputs are admitted. A run is not followed beyond a
state in which a list has got elements that are not its own. -/
inductive Executes (admitted : Configuration Iks → Input Iks → Prop) : Process Iks → Prop where
  | start {boot : Boot Iks} {c : Configuration Iks} : Bosh.start boot = .ok (some c) →
      Executes admitted ⟨c.server, c.control, .start, []⟩
  | step {p p' : Process Iks} {input : Input Iks} : Executes admitted p → p.pushed = [] →
      admitted p.configuration input → p.Allocates input → p.step input = .ok p' →
      Executes admitted p'

end Step

/-- Where the inner program returns the outer one does the same, on the server of the process. -/
def Extends {α : Type} (program : ProcessM Iks α) (inner : ServerM Iks α) : Prop :=
  ∀ p value s, inner p.server = .ok (value, s) → program p = .ok (value, { p with server := s })

section Extends
variable {α β : Type} {p : Process Iks}

theorem Extends.onServer (inner : ServerM Iks α) : Extends (onServer inner) inner := by
  intro p value s ran
  rw [Bosh.onServer, ran]

theorem Extends.bind {program : ProcessM Iks α} {inner : ServerM Iks α}
    {next : α → ProcessM Iks β} {innerNext : α → ServerM Iks β} (first : Extends program inner)
    (second : ∀ value, Extends (next value) (innerNext value)) :
    Extends (program >>= next) (inner >>= innerNext) := by
  intro p value s ran
  obtain ⟨middle, s₁, ran₁, rest⟩ := bind_run ran
  rw [run_bind_ok (first p middle s₁ ran₁)]
  exact second middle { p with server := s₁ } value s rest

theorem hsAnswerRequest_extends (h : ConnectionId) (answerer : Answerer Iks)
    (msg contentType : Bytes) : Extends (hsAnswerRequest h answerer msg contentType)
      (Bosh.hsAnswerRequest h answerer msg contentType) := by
  intro p value s ran
  have live : (p.server.connections h).isSome := by
    cases here : p.server.connections h with
    | some connection => rfl
    | none =>
      rw [Bosh.hsAnswerRequest, run_bind_error (getConnection_missing here)] at ran
      cases ran
  rw [hsAnswerRequest, run_get, if_pos live]
  exact Extends.onServer _ p value s ran

theorem jcDropRequest_extends (c : ClientId) (terminate : Bool) :
    Extends (jcDropRequest c terminate) (Bosh.jcDropRequest c terminate : ServerM Iks Unit) := by
  refine (Extends.onServer _).bind fun client => ?_
  cases client.connection with
  | none => exact fun p value s ran => by cases ran
  | some h => exact Extends.bind (hsAnswerRequest_extends h _ _ _) fun _ => .onServer _

theorem jbTimedOut_extends {toClose : Nat} {init : Int} {cs closing : List ClientId}
    {s : Server Iks} (ran : Bosh.jbTimedOut init cs p.server = .ok (closing, s)) :
    jbTimedOut toClose init cs p = .ok ((), { p with
      server := s, pushed := p.pushed ++ closing.map fun c => (toClose, .client c) }) := by
  induction cs generalizing p closing with
  | nil =>
    cases ran
    rw [List.map_nil, List.append_nil]
    rfl
  | cons c cs ih =>
    unfold Bosh.jbTimedOut at ran
    unfold jbTimedOut
    obtain ⟨client, s₁, got, ran⟩ := bind_run ran
    rw [run_bind_ok (Extends.onServer _ p client s₁ got), run_get]
    rw [run_get] at ran
    dsimp only at ran ⊢
    split at ran
    · rename_i overdue
      obtain ⟨_, s₂, dropped, ran⟩ := bind_run ran
      rw [if_pos overdue, run_bind_ok (jcDropRequest_extends c false _ _ _ dropped)]
      exact ih ran
    · rename_i punctual
      rw [if_neg punctual]
      split at ran
      · rename_i expired
        obtain ⟨later, s₂, timed, ran⟩ := bind_run ran
        cases ran
        rw [if_pos expired, listPushBack, run_modify]
        refine (ih timed).trans ?_
        rw [List.append_assoc, List.singleton_append, List.map_cons]
      · rename_i recent
        rw [if_neg recent]
        exact ih ran

theorem pushedOn_own {list : Nat} {cs : List ClientId}
    (own : p.pushed = cs.map fun c => (list, .client c)) : p.pushedOn list = cs.map .client := by
  simp [pushedOn, own, List.filter_map, Function.comp_def]

theorem listNew_run (clean : p.pushed = []) :
    ∃ list pools, listNew p = .ok (list, { p with pools }) := by
  obtain ⟨server, control, pools, pushed⟩ := p
  obtain rfl : pushed = [] := clean
  exact ⟨_, _, rfl⟩

variable [Iksemel Iks]

theorem closeTimedOut_extends {toClose fuel : Nat} {closing : List ClientId} {s : Server Iks}
    (pushed : p.pushed = closing.map fun c => (toClose, .client c)) (enough : closing.length < fuel)
    (ran : closing.forM Bosh.jbCloseClient p.server = .ok ((), s)) :
    ∃ pools, closeTimedOut toClose fuel p = .ok ((), ⟨s, p.control, pools, []⟩) := by
  induction closing generalizing p fuel with
  | nil =>
    obtain ⟨fuel, rfl⟩ := Nat.exists_eq_succ_of_ne_zero (Nat.ne_of_gt enough)
    cases ran
    refine ⟨p.pools, ?_⟩
    rw [closeTimedOut, run_get, pushedOn, pushed]
    exact congrArg (fun pushed => Except.ok ((), { p with pushed })) pushed
  | cons c closing ih =>
    obtain ⟨fuel, rfl⟩ := Nat.exists_eq_succ_of_ne_zero (Nat.ne_of_gt (Nat.zero_lt_of_lt enough))
    rw [List.forM_eq_forM, List.forM_cons] at ran
    obtain ⟨_, s₁, closed, ran⟩ := bind_run ran
    have rest : p.pushed.eraseP (fun entry => entry.1 == toClose) =
        closing.map fun c => (toClose, .client c) := by
      simp [pushed]
    have ran₁ := Extends.onServer _
      { p with pushed := closing.map fun c => (toClose, .client c) } _ s₁ closed
    rw [closeTimedOut, run_get, pushedOn_own pushed, List.map_cons]
    dsimp only
    rw [run_set, rest, jbCloseClient, bind_assoc, run_bind_ok ran₁, run_modify]
    exact ih rfl (Nat.lt_of_succ_lt_succ enough) ran

theorem jbCheckTimeout_extends {s : Server Iks} (clean : p.pushed = [])
    (ran : Bosh.jbCheckTimeout p.server = .ok ((), s)) :
    ∃ pools, jbCheckTimeout p = .ok ((), ⟨s, p.control, pools, []⟩) := by
  rw [Bosh.jbCheckTimeout, run_bind_ok (getTime_run _), run_get] at ran
  obtain ⟨closing, s₁, timed, ran⟩ := bind_run ran
  obtain ⟨toClose, pools, made⟩ := listNew_run clean
  have read := Extends.onServer getTime { p with pools } _ _ (getTime_run p.server)
  rw [jbCheckTimeout, run_bind_ok made, run_bind_ok read, run_get,
    run_bind_ok (jbTimedOut_extends timed), clean, List.nil_append, run_get]
  generalize after : (⟨s₁, p.control, pools, closing.map fun c => (toClose, .client c)⟩ :
    Process Iks) = q
  have own : q.pushed = closing.map fun c => (toClose, .client c) := after ▸ rfl
  obtain ⟨pools', closed⟩ := closeTimedOut_extends own (Nat.lt_succ_self closing.length)
    (by rw [← after]; exact ran)
  have control : q.control = p.control := after ▸ rfl
  rw [pushedOn_own own, List.length_map, run_bind_ok closed, control]
  exact ⟨_, rfl⟩

/-- Where the server takes a step, the process takes the same. -/
theorem step_extends {input : Input Iks} {c : Configuration Iks} (clean : p.pushed = [])
    (stepped : Bosh.step input p.configuration = .ok c) :
    ∃ pools, p.step input = .ok ⟨c.server, c.control, pools, []⟩ := by
  unfold step
  split
  · rename_i oracle dispatched
    obtain ⟨server, control, pools, pushed⟩ := p
    obtain rfl : control = .dispatching [] := dispatched
    change (call Bosh.jbCheckTimeout oracle server).map _ = _ at stepped
    unfold call at stepped
    cases ran : Bosh.jbCheckTimeout (server.hear oracle) with
    | error fault =>
      rw [ran] at stepped
      cases stepped
    | ok result =>
      rw [ran] at stepped
      cases stepped
      obtain ⟨pools', checked⟩ := jbCheckTimeout_extends
        (p := ⟨server.hear oracle, .dispatching [], pools, pushed⟩) clean ran
      exact ⟨pools', by rw [checked]; rfl⟩
  · rw [stepped, clean]
    exact ⟨_, rfl⟩

end Extends

section Replay
variable [Iksemel Iks] (admitted : Configuration Iks → Input Iks → Prop)
  [∀ c input, Decidable (admitted c input)]

def follow : List (Input Iks) → Process Iks → Option (Process Iks)
  | [], p => some p
  | input :: inputs, p =>
    if p.pushed.isEmpty ∧ admitted p.configuration input ∧ p.Allocates input then
      match p.step input with
      | .ok p' => follow inputs p'
      | .error _ => none
    else none

def replay (boot : Boot Iks) (inputs : List (Input Iks)) : Option (Process Iks) :=
  match Bosh.start boot with
  | .ok (some c) => follow admitted inputs ⟨c.server, c.control, .start, []⟩
  | _ => none

variable {admitted} {inputs : List (Input Iks)} {p p' : Process Iks}

theorem executes_of_follow (run : Executes admitted p) (done : follow admitted inputs p = some p') :
    Executes admitted p' := by
  induction inputs generalizing p with
  | nil =>
    cases done
    exact run
  | cons input inputs ih =>
    unfold follow at done
    split at done
    · rename_i allowed
      split at done
      · rename_i next stepped
        exact ih (run.step (List.isEmpty_iff.mp allowed.1) allowed.2.1 allowed.2.2 stepped) done
      · cases done
    · cases done

theorem executes_of_replay {boot : Boot Iks} (done : replay admitted boot inputs = some p) :
    Executes admitted p := by
  unfold replay at done
  split at done
  · rename_i began
    exact executes_of_follow (.start began) done
  · cases done

def mistypes (input : Input Iks) (p : Process Iks) : Bool :=
  match p.step input with
  | .error .mistyped => true
  | _ => false

theorem step_of_mistypes {input : Input Iks} {p : Process Iks} (mistypes : p.mistypes input) :
    p.step input = .error .mistyped := by
  unfold Process.mistypes at mistypes
  split at mistypes
  · rename_i failed
    exact failed
  · cases mistypes

end Replay

end Process

namespace Sample

theorem exists_executed {admitted : Configuration Sample → Input Sample → Prop}
    [∀ c input, Decidable (admitted c input)] {about : Process Sample → Prop} [DecidablePred about]
    (inputs : List (Input Sample))
    (found : (Process.replay admitted boot inputs).any fun p => about p) :
    ∃ p, Process.Executes admitted p ∧ about p := by
  obtain ⟨p, done, holds⟩ := (Option.any_eq_true _ _).mp found
  exact ⟨p, Process.executes_of_replay done, of_decide_eq_true holds⟩

theorem exists_mistyped {about : Process Sample → Prop} [DecidablePred about]
    (inputs : List (Input Sample)) {input : Input Sample}
    (found : (Process.replay (fun _ _ => True) boot inputs).any fun p => about p ∧ p.mistypes input) :
    ∃ p : Process Sample, p.Executes (fun _ _ => True) ∧ about p ∧
      p.step input = .error .mistyped := by
  obtain ⟨p, executes, holds, mistypes⟩ := exists_executed inputs found
  exact ⟨p, executes, holds, Process.step_of_mistypes mistypes⟩

def receive (fd : Int) (bytes : Bytes) (oracle : Oracle Sample) : List (Input Sample) :=
  iteration fd .epollIn { oracle with arrivals := [{ result := .data bytes }] }

def check (later : Nat) (sends : SocketId → List SendResult) : List (Input Sample) :=
  [.wait {} [], .timeout { ticks := [later], sends }]

/-- There are connections at 0, 1 and 2. On the first one a request of session 0 is held, a status
request clears the close callback, and the client closes. -/
def orphaned : List (Input Sample) :=
  accept 4 0 ++ accept 5 1 ++ accept 6 2 ++
    receive 4 (post "create") { random := [0, 0], connect := { socket := some 7 } } ++
    receive 4 (post "message") {} ++ receive 4 get {} ++ receive 4 [] {}

def joined : List (Input Sample) :=
  receive 5 (post "create") { random := [1, 0], connect := { socket := some 4 } }

end Sample

end Bosh
