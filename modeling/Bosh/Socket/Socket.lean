import Bosh.Socket.Monitor

/-! `socket.c`, all but `socket_callback`, which calls back into the other modules. -/
namespace Bosh
open Effect Text

def itemNew (buffer : Bytes) (len offset : Nat) : QueueItem := { buffer, len, offset }

def initialSocket : Socket where
  fd := -1
  si := none
  dataCallback := none
  acceptCallback := none
  connectCallback := none
  errorCallback := none
  outputQueue := []
  status := .idle

/-- A Socket is known by a number that is not used again. Its address is used again: the addresses
are in `Server/Pools`. -/
def sockNew : NetM SocketId := do
  let n ← get
  set { n with
    sockets := Function.update n.sockets n.nextSocket (some initialSocket)
    nextSocket := n.nextSocket + 1 }
  pure n.nextSocket

def sockClose (i : SocketId) : NetM Unit := do
  let sock ← getSocket i
  if sock.fd ≠ -1 then
    smDelSocket sock.si
    modify (Net.close sock.fd)
    modifySocket i fun sock => { sock with si := none, fd := -1 }
  modifySocket i fun sock => { sock with outputQueue := [], status := .idle }

def sockDelete (i : SocketId) : NetM Unit := do
  sockClose i
  modify (Net.setSocket i none)

inductive Flushed where
  | whole
  | blocked
  | failed
  deriving DecidableEq

/-- The inner loop of `sock_flush_data`: the item, the results left over, the bytes the
kernel took, and how it ended. No result left over means `EAGAIN`. -/
def flushItem (item : QueueItem) :
    List SendResult → QueueItem × List SendResult × Bytes × Flushed
  | [] => if item.offset < item.len then (item, [], [], .blocked) else (item, [], [], .whole)
  | result :: results =>
    if item.offset < item.len then
      match result with
      | .count 0 => (item, results, [], .blocked)
      | .count (n + 1) =>
        let taken := min (n + 1) (item.len - item.offset)
        let bytes := (item.buffer.drop item.offset).take taken
        let (last, left, more, how) :=
          flushItem { item with offset := item.offset + taken } results
        (last, left, bytes ++ more, how)
      | .again => (item, results, [], .blocked)
      | .fail => (item, results, [], .failed)
    else (item, result :: results, [], .whole)

def flushQueue : List QueueItem → List SendResult →
    List QueueItem × List SendResult × Bytes × Flushed
  | [], results => ([], results, [], .whole)
  | item :: queue, results =>
    match flushItem item results with
    | (_, left, bytes, .whole) =>
      let (rest, left, more, how) := flushQueue queue left
      (rest, left, bytes ++ more, how)
    | (item, left, bytes, how) => (item :: queue, left, bytes, how)

def sockFlushData (i : SocketId) : NetM Unit := do
  let sock ← getSocket i
  let n ← get
  let (queue, left, bytes, how) := flushQueue sock.outputQueue (n.sends i)
  set { n with
    sends := Function.update n.sends i left
    sent := Function.update n.sent i (n.sent i ++ bytes) }
  modifySocket i fun sock => { sock with outputQueue := queue }
  if how = .failed then sockClose i
  else if queue = [] then smDelEvents sock.si .epollOut
  else smAddEvents sock.si .epollOut

structure ConnectAnswers where
  resolves : Bytes → Bool := fun _ => true
  socket : Option Nat := none
  connects : Bytes → Int → Bool := fun _ _ => true

def sockConnect (i : SocketId) (host : Bytes) (port : Int) (answers : ConnectAnswers) :
    NetM Bool := do
  if ¬ answers.resolves host then return false
  let fd ← newFd answers.socket
  modifySocket i fun sock => { sock with fd }
  if fd = -1 then return false
  if ¬ answers.connects host port then
    -- `fd` keeps the number of the closed descriptor
    modify (Net.close fd)
    return false
  let si ← smAddSocket fd .socketCallback i .epollOut
  modifySocket i fun sock => { sock with si := some si }
  modifySocket i fun sock => { sock with status := .connecting }
  return true

/-- The bytes received, at most `len` of them; none when the source returns 0. -/
def sockRecv (i : SocketId) (len : Nat) (answer : RecvResult) : NetM Bytes := do
  let _ ← getSocket i
  match answer with
  | .again => pure []
  | .fail =>
    sockClose i
    pure []
  | .data bytes =>
    let bytes := bytes.take len
    if bytes = [] then sockClose i
    pure bytes

def sockSend (i : SocketId) (buffer : Option Bytes) (len : Nat) (more : Bool) : NetM Unit := do
  match buffer with
  | none => pure ()
  | some buffer =>
    modifySocket i fun sock =>
      { sock with outputQueue := sock.outputQueue ++ [itemNew buffer len 0] }
  let sock ← getSocket i
  if sock.status = .connected ∧ more = false then sockFlushData i

structure ListenAnswers where
  socket : Option Nat := none
  binds : Int → Bool := fun _ => true
  listens : Bool := true

def sockListen (i : SocketId) (port : Int) (answers : ListenAnswers) : NetM Bool := do
  let fd ← newFd answers.socket
  modifySocket i fun sock => { sock with fd }
  if fd = -1 then return false
  if ¬ answers.binds port then
    modify (Net.close fd)
    return false
  if ¬ answers.listens then
    modify (Net.close fd)
    return false
  modifySocket i fun sock => { sock with status := .listening }
  let sock ← getSocket i
  let opt := if sock.acceptCallback.isSome then Events.epollIn else .none
  let si ← smAddSocket fd .socketCallback i opt
  modifySocket i fun sock => { sock with si := some si }
  return true

def sockAccept (i : SocketId) (answer : Option Nat) : NetM (Option SocketId) := do
  let _ ← getSocket i
  let fd ← newFd answer
  if fd = -1 then return none
  let client ← sockNew
  modifySocket client fun sock => { sock with fd, status := .connected }
  let si ← smAddSocket fd .socketCallback client .none
  modifySocket client fun sock => { sock with si := some si }
  return some client

def sockSetDataCallback (i : SocketId) (callback : DataCallback) : NetM Unit := do
  modifySocket i fun sock => { sock with dataCallback := some callback }
  let sock ← getSocket i
  if sock.status = .connected then smAddEvents sock.si .epollIn

def sockSetAcceptCallback (i : SocketId) (callback : AcceptCallback) : NetM Unit := do
  modifySocket i fun sock => { sock with acceptCallback := some callback }
  let sock ← getSocket i
  if sock.status = .listening then smAddEvents sock.si .epollIn

def sockSetConnectCallback (i : SocketId) (callback : ConnectCallback) : NetM Unit :=
  modifySocket i fun sock => { sock with connectCallback := some callback }

def sockSetErrorCallback (i : SocketId) (callback : ErrorCallback) : NetM Unit :=
  modifySocket i fun sock => { sock with errorCallback := some callback }

end Bosh
