import Mathlib.Logic.Function.Basic
import Bosh.Hash
import Bosh.Library.Effect
import Bosh.Library.Text

/-! The data of `socket.c` and `socket_monitor.c`, with the part of the kernel they
talk to. Pointers are numbers into maps of the live objects. The number of a
`Socket` or a `JabberClient` stands for its lifetime and is never used again; that
of an `HttpConnection` is its address, which the allocator hands out again. -/
namespace Bosh
open Effect Text

abbrev ConnectionId := Nat
abbrev ClientId := Nat
abbrev SocketId := Nat
abbrev InfoId := Nat

/-- Why an execution has no further defined state. -/
inductive Fault where
  | nullPointer
  | useAfterFree
  /-- A call that works on a connection after `hc_delete` freed it. -/
  | deletedConnection
  | outOfBounds
  | diverges
  /-- An answer that the kernel or the allocator never gives. -/
  | impossible
  deriving DecidableEq

structure Events where
  input : Bool := false
  output : Bool := false
  error : Bool := false
  hangup : Bool := false
  deriving DecidableEq

namespace Events

def none : Events := {}
def epollIn : Events := { input := true }
def epollOut : Events := { output := true }

def union (a b : Events) : Events :=
  ⟨a.input || b.input, a.output || b.output, a.error || b.error, a.hangup || b.hangup⟩

def diff (a b : Events) : Events :=
  ⟨a.input && !b.input, a.output && !b.output, a.error && !b.error, a.hangup && !b.hangup⟩

def inter (a b : Events) : Events :=
  ⟨a.input && b.input, a.output && b.output, a.error && b.error, a.hangup && b.hangup⟩

end Events

inductive SocketStatus where
  | idle
  | connecting
  | connected
  | listening
  deriving DecidableEq

inductive DataCallback where
  | hcRead (connection : ConnectionId)
  | jcReadJabber (client : ClientId)
  deriving DecidableEq

inductive AcceptCallback where
  | hsAccept
  deriving DecidableEq

inductive ConnectCallback where
  | jcAnswerCreation (client : ClientId)
  deriving DecidableEq

inductive ErrorCallback where
  | hcHandleError (connection : ConnectionId)
  | jcHandleError (client : ClientId)
  deriving DecidableEq

inductive MonitorCallback where
  | socketCallback
  deriving DecidableEq

structure QueueItem where
  buffer : Bytes
  len : Nat
  offset : Nat
  deriving DecidableEq

structure Socket where
  fd : Int
  si : Option InfoId
  dataCallback : Option DataCallback
  acceptCallback : Option AcceptCallback
  connectCallback : Option ConnectCallback
  errorCallback : Option ErrorCallback
  outputQueue : List QueueItem
  status : SocketStatus
  deriving DecidableEq

structure SocketInfo where
  callback : Option MonitorCallback
  userData : Option SocketId
  socketFd : Int
  events : Events
  /-- Ghost: which call of `sm_add_socket`, counted from 0, is in force. -/
  registration : Nat
  deriving DecidableEq

/-- What one `send` returns; `fail` is any error but `EAGAIN`. -/
inductive SendResult where
  | count (n : Nat)
  | again
  | fail
  deriving DecidableEq

/-- What one `recv` returns; no data at all is the end of the stream. -/
inductive RecvResult where
  | data (bytes : Bytes)
  | again
  | fail
  deriving DecidableEq

def hashInt (i : Int) : UInt32 := UInt32.ofNat (i % 2 ^ 32).toNat

structure Net where
  sockets : SocketId → Option Socket
  nextSocket : SocketId
  infos : InfoId → Option SocketInfo
  nextInfo : InfoId
  socketHash : HashTable hashInt InfoId
  socketCount : Int
  /-- The kernel's table of open descriptors. -/
  openFds : Int → Bool
  /-- The epoll instance: the mask and the data registered for a descriptor. -/
  interest : Int → Option (Events × InfoId)
  /-- The results that the coming `send` calls on a socket return; then `EAGAIN`. -/
  sends : SocketId → List SendResult
  /-- Ghost: the calls of `sm_add_socket` so far. -/
  registrations : Nat
  /-- Ghost: the bytes the kernel has accepted on a socket. -/
  sent : SocketId → Bytes

abbrev NetM := Program Net Fault

namespace Net

@[simp] def setSocket (i : SocketId) (sock : Option Socket) (n : Net) : Net :=
  { n with sockets := Function.update n.sockets i sock }

@[simp] def setInfo (si : InfoId) (info : SocketInfo) (n : Net) : Net :=
  { n with infos := Function.update n.infos si (some info) }

/-- `epoll_ctl` with `EPOLL_CTL_ADD`; a descriptor that is there already is an error. -/
def epollAdd (fd : Int) (events : Events) (si : InfoId) (n : Net) : Net :=
  match n.interest fd with
  | some _ => n
  | none => { n with interest := Function.update n.interest fd (some (events, si)) }

def epollMod (fd : Int) (events : Events) (si : InfoId) (n : Net) : Net :=
  match n.interest fd with
  | some _ => { n with interest := Function.update n.interest fd (some (events, si)) }
  | none => n

def epollDel (fd : Int) (n : Net) : Net :=
  { n with interest := Function.update n.interest fd none }

/-- `close`: the descriptor also leaves the epoll instance. -/
def close (fd : Int) (n : Net) : Net :=
  { n with
    openFds := Function.update n.openFds fd false
    interest := Function.update n.interest fd none }

end Net

def getSocket (i : SocketId) : NetM Socket := demand (·.sockets i) .useAfterFree

def modifySocket (i : SocketId) (f : Socket → Socket) : NetM Unit := do
  let sock ← getSocket i
  modify (Net.setSocket i (some (f sock)))

def getInfo (si : Option InfoId) : NetM (InfoId × SocketInfo) :=
  match si with
  | none => throw .nullPointer
  | some si => do
    let info ← demand (·.infos si) .useAfterFree
    pure (si, info)

def newFd (answer : Option Nat) : NetM Int :=
  match answer with
  | none => pure (-1)
  | some fd => do
    let n ← get
    if n.openFds fd then throw .impossible
    set { n with openFds := Function.update n.openFds fd true }
    pure fd

end Bosh
