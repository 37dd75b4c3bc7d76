import Bosh.Library.Chain
import Bosh.Http.Parse
import Bosh.Socket.Socket

/-! The data of `http_server.c` and `jabber_bind.c`. The state also carries the
answers that the environment gives during the event being handled, and a history
of the calls that the properties speak about; no function reads the history. -/
namespace Bosh
open Effect Text

/-- What the server uses of the iksemel library. -/
class Iksemel (Iks : Type) where
  /-- `iks_tree` on exactly these bytes. -/
  tree : Bytes → Option Iks
  find : Iks → String → Option Iks
  findAttrib : Iks → String → Option CString
  /-- `iks_string`, which sizes its text in an `int`. -/
  string : Iks → CString
  /-- What `iks_first_tag` and `iks_next_tag` walk through. -/
  tags : Iks → List Iks
  string_fits : ∀ x, (string x).bytes.length < 2 ^ 31

inductive IksType where
  | start
  | normal
  | error
  | stop
  deriving DecidableEq

inductive BindErrorCode where
  | sidNotFound
  | badFormat
  | connectionFailed
  deriving DecidableEq

inductive CloseCallback where
  | jcClearHttp (client : ClientId)
  deriving DecidableEq

/-- `buffer` is the memory from its first byte on, as far as it has been written. -/
structure HttpConnection where
  buffer : Bytes
  bufferSize : Nat
  sock : SocketId
  it : Nat
  header : Option HttpHeader
  closeCallback : Option CloseCallback
  deriving DecidableEq

/-- `data` is the memory from the pointer on, which reaches past the request's body. -/
structure HttpRequest where
  connection : ConnectionId
  header : HttpHeader
  data : Bytes
  dataSize : Nat
  deriving DecidableEq

def HttpRequest.body (request : HttpRequest) : Bytes := request.data.take request.dataSize

/-- `rid` is `none` where the source leaves the variable uninitialised. -/
structure JabberClient (Iks : Type) where
  sock : SocketId
  sid : UInt64
  rid : Option UInt64
  connection : Option ConnectionId
  outputQueue : List Iks
  alive : Bool
  timestamp : Int
  wait : Int
  it : Nat

/-- On whose behalf a response is given: for the request being handled, or by a session
for the request it holds. -/
inductive Answerer (Iks : Type) where
  | request
  | dropRequest (client : ClientId)
  | flushMessages (client : ClientId) (popped : List Iks)
  deriving DecidableEq

inductive Record (Iks : Type) where
  | hcCreate (connection : ConnectionId)
  | hcDelete (connection : ConnectionId)
  | received (connection : ConnectionId) (bytes : Bytes)
  | request (connection : ConnectionId) (request : HttpRequest)
  | answer (connection : ConnectionId) (answerer : Answerer Iks) (body : Bytes)
  | newSession (client : ClientId) (sid : UInt64) (host : Bytes) (sock : SocketId)
  | hold (client : ClientId) (connection : ConnectionId)
  | stanza (client : ClientId) (stanza : Iks)
  | closeSession (client : ClientId)
  deriving DecidableEq

/-- One `recv` on a Jabber socket and, when it gave data, what `iks_parse` does with it:
the calls of the stream hook, and whether it returns `IKS_OK`. -/
structure Arrival (Iks : Type) where
  result : RecvResult
  hooks : List (IksType × Option Iks) := []
  ok : Bool := true

/-- What the environment answers while one event is handled. -/
structure Oracle (Iks : Type) where
  arrivals : List (Arrival Iks) := []
  sends : SocketId → List SendResult := fun _ => []
  /-- Milliseconds that pass before each reading of the clock; then none. -/
  ticks : List Nat := []
  /-- Results of `lrand48`. -/
  random : List Nat := []
  connect : ConnectAnswers := {}
  listen : ListenAnswers := {}
  accept : Option Nat := none
  /-- `SO_ERROR`, as `getsockopt` gives it. -/
  socketError : Int := 0
  /-- Whether `iks_stream_new` succeeds. -/
  parser : Bool := true
  /-- What `HttpConnection_alloc` returns. -/
  address : ConnectionId := 0

def Oracle.recv {Iks : Type} (oracle : Oracle Iks) : RecvResult :=
  (oracle.arrivals.head?.map Arrival.result).getD .again

structure Server (Iks : Type) where
  net : Net
  -- http server
  connections : ConnectionId → Option HttpConnection
  httpConnections : Chain.Cells ConnectionId
  serverSock : SocketId
  -- jabber bind
  clients : ClientId → Option (JabberClient Iks)
  nextClient : ClientId
  jabberConnections : Chain.Cells ClientId
  sids : HashTable (fun sid : UInt64 => UInt32.ofNat (sid.toNat % 4294967291)) ClientId
  jabberPort : Int
  sessionTimeout : Int
  startTime : Int
  clientCount : Int
  maxClientCount : Int
  /-- The list nodes handed out so far. -/
  nextNode : Nat
  clock : Int
  oracle : Oracle Iks
  history : List (Record Iks)

abbrev ServerM (Iks : Type) := Program (Server Iks) Fault

section Access
variable {Iks : Type}

namespace Server

@[simp] def setConnection (h : ConnectionId) (connection : Option HttpConnection)
    (s : Server Iks) : Server Iks :=
  { s with connections := Function.update s.connections h connection }

@[simp] def setClient (c : ClientId) (client : Option (JabberClient Iks)) (s : Server Iks) :
    Server Iks :=
  { s with clients := Function.update s.clients c client }

@[simp] def record (entry : Record Iks) (s : Server Iks) : Server Iks :=
  { s with history := entry :: s.history }

def since (s s' : Server Iks) : List (Record Iks) :=
  s'.history.take (s'.history.length - s.history.length)

theorem since_eq {s s' : Server Iks} {new : List (Record Iks)}
    (history : s'.history = new ++ s.history) : s.since s' = new := by
  simp [since, history]

end Server

def onNet {α : Type} (program : NetM α) : ServerM Iks α :=
  part Server.net (fun net s => { s with net }) program

section OnNet
variable {α β : Type} {s : Server Iks} {program : NetM α}

theorem onNet_run {value : α} {net : Net} (ran : program s.net = .ok (value, net)) :
    onNet program s = .ok (value, { s with net }) := run_part ran

theorem onNet_error {fault : Fault} (failed : program s.net = .error fault) :
    onNet program s = .error fault := run_part_error failed

theorem onNet_frame (program : NetM α) (s : Server Iks) :
    Ensures (onNet program s) (fun _ s' => ∃ net, s' = { s with net }) fun _ => True := by
  unfold onNet part
  cases program s.net with
  | error fault => trivial
  | ok result => exact ⟨result.2, rfl⟩

theorem onNet_bind (program : NetM α) (next : α → NetM β) :
    (onNet (program >>= next) : ServerM Iks β) = onNet program >>= fun value => onNet (next value) := by
  funext s
  cases ran : program s.net with
  | error fault =>
    rw [run_bind_error (onNet_error ran)]
    exact onNet_error (run_bind_error ran)
  | ok result =>
    rw [run_bind_ok (onNet_run ran), onNet, part, run_bind_ok ran]
    rfl

end OnNet

/-- Dereference an `HttpConnection`. The server stops at one that `hc_delete` has freed; how the
process goes on from there is in `Server/Pools`. -/
def getConnection (h : ConnectionId) : ServerM Iks HttpConnection :=
  demand (·.connections h) .deletedConnection

def modifyConnection (h : ConnectionId) (f : HttpConnection → HttpConnection) :
    ServerM Iks Unit := do
  let connection ← getConnection h
  modify (Server.setConnection h (some (f connection)))

def getClient (c : ClientId) : ServerM Iks (JabberClient Iks) :=
  demand (·.clients c) .useAfterFree

def modifyClient (c : ClientId) (f : JabberClient Iks → JabberClient Iks) : ServerM Iks Unit := do
  let client ← getClient c
  modify (Server.setClient c (some (f client)))

theorem getConnection_run {s : Server Iks} {h : ConnectionId} {connection : HttpConnection}
    (here : s.connections h = some connection) : getConnection h s = .ok (connection, s) :=
  run_demand here

theorem getConnection_missing {s : Server Iks} {h : ConnectionId}
    (missing : s.connections h = none) :
    getConnection h s = .error .deletedConnection := run_demand_none missing

theorem modifyConnection_run {s : Server Iks} {h : ConnectionId} {connection : HttpConnection}
    (here : s.connections h = some connection) (f : HttpConnection → HttpConnection) :
    modifyConnection h f s = .ok ((), s.setConnection h (some (f connection))) :=
  run_bind_ok (getConnection_run here)

theorem getClient_run {s : Server Iks} {c : ClientId} {client : JabberClient Iks}
    (here : s.clients c = some client) : getClient c s = .ok (client, s) := run_demand here

theorem modifyClient_run {s : Server Iks} {c : ClientId} {client : JabberClient Iks}
    (here : s.clients c = some client) (f : JabberClient Iks → JabberClient Iks) :
    modifyClient c f s = .ok ((), s.setClient c (some (f client))) :=
  run_bind_ok (getClient_run here)

/-- `get_time`, in milliseconds. The clock is monotonic. -/
def getTime : ServerM Iks Int := do
  let s ← get
  match s.oracle.ticks with
  | [] => pure s.clock
  | tick :: ticks =>
    set { s with clock := s.clock + tick, oracle := { s.oracle with ticks } }
    pure (s.clock + tick)

def Server.now (s : Server Iks) : Int := s.clock + s.oracle.ticks.headD 0

def Server.ticked (s : Server Iks) : Server Iks :=
  { s with clock := s.now, oracle := { s.oracle with ticks := s.oracle.ticks.tail } }

theorem getTime_run (s : Server Iks) : getTime s = .ok (s.now, s.ticked) := by
  unfold getTime
  rw [run_get]
  cases ticks : s.oracle.ticks with
  | nil =>
    have now : s.now = s.clock := by simp [Server.now, ticks]
    have same : s.ticked = s := by
      simp only [Server.ticked, now, ticks, List.tail_nil]
      rw [← ticks]
    rw [same, now]
    rfl
  | cons tick rest =>
    simp only [Server.ticked, Server.now, ticks]
    rfl

/-- `lrand48`: non-negative and below `2^31`. -/
def lrand48 : ServerM Iks Nat := do
  let s ← get
  match s.oracle.random with
  | [] => throw .diverges
  | value :: random =>
    set { s with oracle := { s.oracle with random } }
    pure (value % 2 ^ 31)

def newNode : ServerM Iks Nat := do
  let s ← get
  set { s with nextNode := s.nextNode + 1 }
  pure s.nextNode

end Access

end Bosh
