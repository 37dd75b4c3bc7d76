import Bosh.Bind.Request

/-! `http_server.c`: the life of an HTTP connection. -/
namespace Bosh
open Effect Text

def maxBufferSize : Nat := 1024 * 128

def htmlError (msg : Bytes) : Bytes :=
  ascii "<html><head>" ++ ascii "<title>400 Bad Request</title>" ++ ascii "</head><body>" ++
    ascii "<h1>Bad Request</h1>" ++ ascii "<p>" ++ msg ++ ascii "</p>" ++ ascii "</body></html>"

def writeAt (memory : Bytes) (offset : Nat) (bytes : Bytes) : Bytes :=
  memory.take offset ++ bytes ++ memory.drop (offset + bytes.length)

namespace HttpConnection

/-- What `hc_read` does with received bytes before it looks for a request: append them,
terminate the buffer, and parse the header if none is cached. -/
def receive (bytes : Bytes) (connection : HttpConnection) : HttpConnection :=
  let size := connection.bufferSize + bytes.length
  let buffer := writeAt (writeAt connection.buffer connection.bufferSize bytes) size [0]
  { connection with
    buffer
    bufferSize := size
    header := connection.header.orElse fun _ => httpParse (cstr buffer) }

def contentSize (header : HttpHeader) : Int :=
  match httpGetField header (ascii "Content-Length") with
  | none => 0
  | some value => atoi value

inductive Framed where
  | tooBig
  | incomplete
  /-- A request, and the number of bytes to remove from the buffer for it. -/
  | complete (request : HttpRequest) (length : Nat)
  deriving DecidableEq

/-- The computation of `hc_process` up to its three outcomes. -/
def frame (h : ConnectionId) (connection : HttpConnection) : Except Fault Framed :=
  match connection.header with
  | none => .error .nullPointer
  | some header =>
    match find (httpLineSep ++ httpLineSep) (cstr connection.buffer) with
    | none => .error .nullPointer
    | some blank =>
      let headerSize := blank + 4
      let contentSize := contentSize header
      if toInt32 (contentSize + headerSize) ≥ maxBufferSize then .ok .tooBig
      else if connection.bufferSize ≥ toSize (toInt32 (headerSize + contentSize)) then
        .ok (.complete
          { connection := h, header, data := connection.buffer.drop headerSize,
            dataSize := toSize contentSize }
          (headerSize + contentSize).toNat)
      else .ok .incomplete

/-- The end of `hc_process`: drop the header and move the rest of the buffer down. -/
def consume (length : Nat) (connection : HttpConnection) : HttpConnection :=
  if connection.bufferSize > length then
    { connection with
      header := none
      buffer := writeAt connection.buffer 0
        ((connection.buffer.drop length).take (connection.bufferSize - length))
      bufferSize := connection.bufferSize - length }
  else { connection with header := none, bufferSize := 0 }

end HttpConnection

section Connection
variable {Iks : Type} [Iksemel Iks]

def hcReportError (h : ConnectionId) (msg : Bytes) : ServerM Iks Unit := do
  let connection ← getConnection h
  let body := htmlError msg
  let header := makeHttpHead 500 body.length httpHtmlContent
  onNet (sockSend connection.sock (some header) header.length true)
  onNet (sockSend connection.sock (some body) body.length false)

def hcDelete (h : ConnectionId) : ServerM Iks Unit := do
  let connection ← getConnection h
  match connection.closeCallback with
  | none => pure ()
  | some (.jcClearHttp c) => jcClearHttp c
  onNet (sockDelete connection.sock)
  let s ← get
  match Chain.erase connection.it s.httpConnections with
  | none => throw .useAfterFree
  | some httpConnections =>
    modify fun s => { s with httpConnections }
    modify (Server.setConnection h none)
    modify (Server.record (.hcDelete h))

def hcCreate (sock : SocketId) : ServerM Iks Unit := do
  let s ← get
  let h := s.oracle.address
  if (s.connections h).isSome then throw .impossible
  else
    let it ← newNode
    modify (Server.setConnection h (some {
      buffer := [], bufferSize := 0, sock, it, header := none, closeCallback := none }))
    modify fun s => { s with httpConnections := Chain.pushBack it h s.httpConnections }
    modify (Server.record (.hcCreate h))
    onNet (sockSetDataCallback sock (.hcRead h))
    onNet (sockSetErrorCallback sock (.hcHandleError h))

def hcProcess (h : ConnectionId) : ServerM Iks Unit := do
  let connection ← getConnection h
  match ← checked (connection.frame h) with
  | .tooBig => hcReportError h (ascii "Message is too big")
  | .incomplete => pure ()
  | .complete request length =>
    modify (Server.record (.request h request))
    jbHandleRequest request
    modifyConnection h (HttpConnection.consume length)

/-- What `hc_read` does when it has received something. -/
def hcReceived (h : ConnectionId) (bytes : Bytes) : ServerM Iks Unit := do
  modifyConnection h (HttpConnection.receive bytes)
  modify (Server.record (.received h bytes))
  let connection ← getConnection h
  if connection.header.isSome then hcProcess h

def hcRead (h : ConnectionId) : ServerM Iks Unit := do
  let connection ← getConnection h
  let s ← get
  let bytes ← onNet (sockRecv connection.sock (maxBufferSize - connection.bufferSize) s.oracle.recv)
  if bytes ≠ [] then hcReceived h bytes
  let connection ← getConnection h
  let sock ← onNet (getSocket connection.sock)
  if sock.status ≠ .connected then hcDelete h

def hcHandleError (h : ConnectionId) : ServerM Iks Unit := hcDelete h

def hsAccept : ServerM Iks Unit := do
  let s ← get
  match ← onNet (sockAccept s.serverSock s.oracle.accept) with
  | none => pure ()
  | some client => hcCreate client

end Connection

end Bosh
