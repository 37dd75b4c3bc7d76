import Bosh.Http.Connection
import Bosh.Log

/-! The main loop: `socket_callback`, the dispatch loop of `sm_poll`, start-up, `jb_run`
and shutdown. A configuration stands between two callbacks, and an input is what the
environment does next. -/
namespace Bosh
open Effect Text

section Callbacks
variable {Iks : Type} [Iksemel Iks]

def runDataCallback : DataCallback → ServerM Iks Unit
  | .hcRead h => hcRead h
  | .jcReadJabber c => jcReadJabber c

def runConnectCallback (code : Int) : ConnectCallback → ServerM Iks Unit
  | .jcAnswerCreation c => jcAnswerCreation code c

def runErrorCallback : ErrorCallback → ServerM Iks Unit
  | .hcHandleError h => hcHandleError h
  | .jcHandleError c => jcHandleError c

def socketCallback (events : Events) (i : SocketId) : ServerM Iks Unit := do
  let sock ← onNet (getSocket i)
  let s ← get
  let errorCode := s.oracle.socketError
  if events.error ∨ events.hangup then
    onNet (sockClose i)
    match sock.errorCallback with
    | some callback => runErrorCallback callback
    | none => pure ()
  else if events.output then
    match sock.status with
    | .connecting =>
      if errorCode ≠ 0 then onNet (modifySocket i fun sock => { sock with status := .idle })
      else
        onNet (modifySocket i fun sock => { sock with status := .connected })
        if sock.dataCallback.isSome then onNet (smAddEvents sock.si .epollIn)
      match sock.connectCallback with
      | some callback => runConnectCallback errorCode callback
      | none => pure ()
    | .connected => onNet (sockFlushData i)
    | .idle | .listening => pure ()
  else if events.input then
    match sock.status with
    | .listening =>
      match sock.acceptCallback with
      | some .hsAccept => hsAccept
      | none => onNet (smDelEvents sock.si .epollIn)
    | .connected =>
      match sock.dataCallback with
      | some callback => runDataCallback callback
      | none => onNet (smDelEvents sock.si .epollIn)
    | .idle | .connecting => pure ()

/-- One turn of the loop of `sm_poll`. -/
def smDispatch (event : InfoId × Events) : ServerM Iks Unit := do
  match ← onNet (smTarget event.1) with
  | none => pure ()
  | some (.socketCallback, userData) =>
    match userData with
    | none => throw .nullPointer
    | some i => socketCallback event.2 i

end Callbacks

section Main
variable {Iks : Type} [Iksemel Iks]

def jabberPortDefault : Int := 5222
def httpPortDefault : Int := 8080
def sessionTimeoutDefault : Int := 30000

def configInt (config : Iks) (name : String) (default : Int) : Int :=
  match Iksemel.findAttrib config name with
  | some str => atoi str.bytes
  | none => default

def hsNew (config : Iks) : ServerM Iks Bool := do
  let port := configInt config "port" httpPortDefault
  let sock ← onNet sockNew
  let s ← get
  let listening ← onNet (sockListen sock port s.oracle.listen)
  if listening then
    modify fun s => { s with serverSock := sock, httpConnections := [] }
    onNet (sockSetAcceptCallback sock .hsAccept)
    pure true
  else pure false

/-- What `log_init` finds at the start. -/
structure LogStart where
  logger : Logger := { files := fun _ => none }
  refusal : Option Bytes := none
  answers : LogAnswers := { stamp := [], date := [] }

def jbNew (config : Iks) (log : LogStart) : ServerM Iks Bool :=
  match Iksemel.find config "bind", Iksemel.find config "http_server", Iksemel.find config "log" with
  | some bindConfig, some httpConfig, some logConfig => do
    modify fun s => { s with
      jabberPort := configInt bindConfig "jabber_port" jabberPortDefault
      sessionTimeout := configInt bindConfig "session_timeout" sessionTimeoutDefault }
    -- the log is a state of its own, which the server does not read
    let _ ← checked (logInit logConfig log.refusal log.answers log.logger)
    let started ← hsNew httpConfig
    if started then
      let startTime ← getTime
      modify fun s => { s with
        jabberConnections := [], sids := .new _ _, startTime, clientCount := 0
        maxClientCount := 0 }
      pure true
    else pure false
  | _, _, _ => pure false

/-- The start of an iteration of `jb_run`. The time-out bounds how long the kernel waits;
the clock ticks as the environment says. -/
def jbWait (ready : List (Int × Events)) : ServerM Iks (List (InfoId × Events)) := do
  let _maxTime := max 0 (← jbClosestTimeout)
  let s ← get
  checked (epollWait ready s.net)

/-- The loop of `jb_delete`; the fuel is one more than the sessions there are. -/
def closeClients : Nat → ServerM Iks Unit
  | 0 => throw .diverges
  | fuel + 1 => do
    let s ← get
    match s.jabberConnections with
    | [] => pure ()
    | (_, c) :: _ =>
      jbCloseClient c
      closeClients fuel

def deleteConnections : Nat → ServerM Iks Unit
  | 0 => throw .diverges
  | fuel + 1 => do
    let s ← get
    match s.httpConnections with
    | [] => pure ()
    | (_, h) :: _ =>
      hcDelete h
      deleteConnections fuel

def hsDelete : ServerM Iks Unit := do
  let s ← get
  deleteConnections (s.httpConnections.length + 1)
  onNet (sockDelete s.serverSock)

def jbDelete : ServerM Iks Unit := do
  let s ← get
  closeClients (s.jabberConnections.length + 1)
  hsDelete

/-- What the server is started with: the descriptors that are open, the time, the
configuration file and the answers of the environment. -/
structure Boot (Iks : Type) where
  openFds : Int → Bool
  clock : Int
  config : Iks
  oracle : Oracle Iks
  log : LogStart := {}

def Boot.blank (boot : Boot Iks) : Server Iks where
  net := {
    sockets := fun _ => none, nextSocket := 0, infos := fun _ => none, nextInfo := 0,
    socketHash := .new _ _, socketCount := 0, openFds := boot.openFds, interest := fun _ => none,
    sends := boot.oracle.sends, registrations := 0, sent := fun _ => [] }
  connections := fun _ => none
  httpConnections := []
  serverSock := 0
  clients := fun _ => none
  nextClient := 0
  jabberConnections := []
  sids := .new _ _
  jabberPort := 0
  sessionTimeout := 0
  startTime := 0
  clientCount := 0
  maxClientCount := 0
  nextNode := 0
  clock := boot.clock
  oracle := boot.oracle
  history := []

inductive Control where
  /-- At the top of the loop, an iteration being complete. -/
  | polling
  /-- In `sm_poll`, with these events still to look at. -/
  | dispatching (events : List (InfoId × Events))
  /-- After `jb_delete`. -/
  | finished
  deriving DecidableEq

structure Configuration (Iks : Type) where
  server : Server Iks
  control : Control

inductive Input (Iks : Type) where
  /-- `epoll_wait` returns with these descriptors. -/
  | wait (oracle : Oracle Iks) (ready : List (Int × Events))
  /-- `sm_poll` looks at the next event. -/
  | event (oracle : Oracle Iks)
  /-- The events are used up, and `jb_check_timeout` runs. -/
  | timeout (oracle : Oracle Iks)
  /-- A signal has ended the loop, and `jb_delete` runs. -/
  | shutdown (oracle : Oracle Iks)

@[simp] def Server.hear (oracle : Oracle Iks) (s : Server Iks) : Server Iks :=
  { s with oracle, net := { s.net with sends := oracle.sends } }

def call {α : Type} (program : ServerM Iks α) (oracle : Oracle Iks) (s : Server Iks) :
    Except Fault (α × Server Iks) := program (s.hear oracle)

def start (boot : Boot Iks) : Except Fault (Option (Configuration Iks)) :=
  match jbNew boot.config boot.log boot.blank with
  | .error fault => .error fault
  | .ok (false, _) => .ok none
  | .ok (true, server) => .ok (some { server, control := .polling })

/-- The server after `jb_new`, which `hs_new` has left in this state. -/
def Server.started (s : Server Iks) : Server Iks :=
  { s.ticked with
    jabberConnections := [], sids := .new _ _, startTime := s.now, clientCount := 0
    maxClientCount := 0 }

theorem start_began {boot : Boot Iks} {c : Configuration Iks} (began : start boot = .ok (some c)) :
    ∃ httpConfig jabberPort sessionTimeout s,
      hsNew httpConfig { boot.blank with jabberPort, sessionTimeout } = .ok (true, s) ∧
        c = ⟨s.started, .polling⟩ := by
  have spec : Ensures (jbNew boot.config boot.log boot.blank) (fun started s' => started = true →
      ∃ httpConfig jabberPort sessionTimeout s,
        hsNew httpConfig { boot.blank with jabberPort, sessionTimeout } = .ok (true, s) ∧
          s' = s.started) fun _ => True := by
    unfold jbNew
    cases Iksemel.find boot.config "bind" with
    | none => exact fun absurd => by cases absurd
    | some bindConfig =>
      cases Iksemel.find boot.config "http_server" with
      | none => exact fun absurd => by cases absurd
      | some httpConfig =>
        cases Iksemel.find boot.config "log" with
        | none => exact fun absurd => by cases absurd
        | some logConfig =>
          dsimp only
          rw [run_modify, ensures_bind, ensures_checked]
          refine ⟨fun _ _ => ?_, fun _ _ => trivial⟩
          rw [ensures_bind]
          refine (Ensures.self _).mono (fun started s ran => ?_) fun _ _ => trivial
          cases started with
          | false => exact fun absurd => by cases absurd
          | true =>
            rw [if_pos rfl, run_bind_ok (getTime_run s), run_modify]
            exact fun _ => ⟨httpConfig, _, _, s, ran, rfl⟩
  unfold start at began
  split at began
  · cases began
  · cases began
  · rename_i server made
    cases began
    obtain ⟨httpConfig, jabberPort, sessionTimeout, s, ran, same⟩ := spec.of_ok made rfl
    exact ⟨httpConfig, jabberPort, sessionTimeout, s, ran, by rw [same]⟩

def step (input : Input Iks) (c : Configuration Iks) : Except Fault (Configuration Iks) :=
  match input, c.control with
  | .wait oracle ready, .polling =>
    (call (jbWait ready) oracle c.server).map
      fun (events, server) => { server, control := .dispatching events }
  | .event oracle, .dispatching (event :: events) =>
    (call (smDispatch event) oracle c.server).map
      fun (_, server) => { server, control := .dispatching events }
  | .timeout oracle, .dispatching [] =>
    (call jbCheckTimeout oracle c.server).map
      fun (_, server) => { server, control := .polling }
  | .shutdown oracle, .polling =>
    (call jbDelete oracle c.server).map
      fun (_, server) => { server, control := .finished }
  | _, _ => .error .impossible

/-- The configurations that a run reaches whose every input is admitted where it is taken. -/
inductive Reaches (admitted : Configuration Iks → Input Iks → Prop) : Configuration Iks → Prop where
  | start {boot : Boot Iks} {c : Configuration Iks} :
      start boot = .ok (some c) → Reaches admitted c
  | step {c c' : Configuration Iks} {input : Input Iks} :
      Reaches admitted c → admitted c input → step input c = .ok c' → Reaches admitted c'

def Reachable (c : Configuration Iks) : Prop := Reaches (fun _ _ => True) c

end Main

end Bosh
