import Bosh.Bind.Session

/-! The functions of `jabber_bind.c` that handle one HTTP request. -/
namespace Bosh
open Effect Text

def errorTable : BindErrorCode → Bytes × Bytes
  | .sidNotFound => (ascii "terminate", ascii "item-not-found")
  | .badFormat => (ascii "terminate", ascii "bad-request")
  | .connectionFailed => (ascii "terminate", ascii "host-gone")

def errorResponse (code : BindErrorCode) : Bytes :=
  ascii "<body type='" ++ (errorTable code).1 ++ ascii "' condition='" ++ (errorTable code).2 ++
    ascii "' xmlns='http://jabber.org/protocol/httpbind'/>"

def jabberHeader (host : Bytes) : Bytes :=
  ascii "<stream:stream xmlns='jabber:client' xmlns:stream='http://etherx.jabber.org/streams' to='" ++
    host ++ ascii "' xml:lang='en'>"

/-- The sid is printed as a signed number. -/
def sessionResponse (sid : UInt64) : Bytes :=
  ascii "<body sid='" ++ decimalInt ((sid.toNat : Int).bmod (2 ^ 64)) ++
    ascii "' ver='1.6' xmlns='http://jabber.org/protocol/httpbind'/>"

def statusHtml (uptime : Bytes) (clients maximum : Int) : Bytes :=
  ascii "<html><body>" ++
    ascii "<p>Uptime: " ++ uptime ++ ascii "</p>" ++
    ascii "<p>Clients: " ++ decimalInt clients ++ ascii "</p>" ++
    ascii "<p>Maximum clients: " ++ decimalInt maximum ++ ascii "</p>" ++
    ascii "</body></html>"

/-- `iks_tree` on a pointer and a length; a length of 0 means up to the terminator. -/
def iksTree {Iks : Type} [Iksemel Iks] (data : Bytes) (size : Nat) : Except Fault (Option Iks) :=
  if size = 0 then .ok (Iksemel.tree (cstr data))
  else if size ≤ data.length then .ok (Iksemel.tree (data.take size))
  else .error .outOfBounds

section Request
variable {Iks : Type} [Iksemel Iks]

theorem iksTree_error {data : Bytes} {size : Nat} {fault : Fault}
    (failed : (iksTree data size : Except Fault (Option Iks)) = .error fault) :
    fault = .outOfBounds := by
  unfold iksTree at failed
  split at failed
  · cases failed
  · split at failed
    · cases failed
    · exact (Except.error.inj failed).symm

def jcReportError (connection : ConnectionId) (code : BindErrorCode) : ServerM Iks Unit :=
  hsAnswerRequest connection .request (errorResponse code) httpXmlContent

def genSid : ServerM Iks UInt64 := do
  let low ← lrand48
  let high ← lrand48
  pure (UInt64.ofNat low ||| (UInt64.ofNat high <<< 32))

/-- Draw sids until one is not in use, `attempts` times at most. -/
def pickSid : Nat → ServerM Iks UInt64
  | 0 => throw .diverges
  | attempts + 1 => do
    let sid ← genSid
    let s ← get
    if s.sids.hasKey sid then pickSid attempts else pure sid

/-- The part of `jb_connect_client` that follows a successful `sock_connect`. -/
def jbOpenSession (connection : ConnectionId) (host : CString) (wait : Int) (sock : SocketId) :
    ServerM Iks Unit := do
  let s ← get
  -- each draw uses up a result of `lrand48`, so the bound is never what ends the loop
  let sid ← pickSid (s.oracle.random.length + 1)
  let timestamp ← getTime
  let it ← newNode
  let s ← get
  let c := s.nextClient
  match s.sids.insert sid c with
  | none => throw .outOfBounds
  | some sids =>
    set { s with
      sids
      clients := Function.update s.clients c (some {
        sock, sid, rid := none, connection := none, outputQueue := [], alive := true,
        timestamp, wait, it })
      nextClient := c + 1
      jabberConnections := Chain.pushBack it c s.jabberConnections
      clientCount := s.clientCount + 1
      maxClientCount := max s.maxClientCount (s.clientCount + 1) }
    modify (Server.record (.newSession c sid host.bytes sock))
    let header := jabberHeader host.bytes
    onNet (sockSend sock (some header) header.length false)
    onNet (sockSetDataCallback sock (.jcReadJabber c))
    onNet (sockSetConnectCallback sock (.jcAnswerCreation c))
    onNet (sockSetErrorCallback sock (.jcHandleError c))
    hsAnswerRequest connection .request (sessionResponse sid) httpXmlContent

def jbConnectClient (connection : ConnectionId) (body : Iks) : ServerM Iks Unit := do
  match Iksemel.findAttrib body "wait" with
  | none => jcReportError connection .badFormat
  | some wait =>
    let wait := toInt32 (atoi wait.bytes * 1000)
    match Iksemel.findAttrib body "to" with
    | none => jcReportError connection .badFormat
    | some host =>
      match Iksemel.findAttrib body "rid" with
      | none => jcReportError connection .badFormat
      | some _ =>
        let s ← get
        if s.oracle.parser = false then jcReportError connection .connectionFailed
        else
          let sock ← onNet sockNew
          let connected ← onNet (sockConnect sock host.bytes s.jabberPort s.oracle.connect)
          if connected then jbOpenSession connection host wait sock
          else
            onNet (sockDelete sock)
            jcReportError connection .connectionFailed

/-- The loop that sends the stanzas of a request to the Jabber server. -/
def jbForward (sock : SocketId) : List Iks → ServerM Iks Unit
  | [] => onNet (sockSend sock none 0 false)
  | stanza :: stanzas => do
    let text := (Iksemel.string stanza).bytes
    onNet (sockSend sock (some text) text.length true)
    jbForward sock stanzas

def isTerminate (message : Iks) : Bool :=
  (Iksemel.findAttrib message "type").map CString.bytes = some (ascii "terminate")

def jbHandleHttpPost (request : HttpRequest) : ServerM Iks Unit := do
  match ← checked (iksTree request.data request.dataSize) with
  | none => jcReportError request.connection .badFormat
  | some message =>
    match Iksemel.findAttrib message "sid" with
    | none => jbConnectClient request.connection message
    | some sid =>
      match scanInt64 sid.bytes with
      | none => jcReportError request.connection .badFormat
      | some sid =>
        match Iksemel.findAttrib message "rid" with
        | none => jcReportError request.connection .badFormat
        | some rid =>
          let s ← get
          match s.sids.find sid with
          | none => jcReportError request.connection .sidNotFound
          | some c =>
            jcSetHttp c request.connection (scanInt64 rid.bytes)
            let client ← getClient c
            jbForward client.sock (Iksemel.tags message)
            if isTerminate message then jbCloseClient c

def uptimeString (uptime : Int) : Bytes :=
  let seconds := uptime.tmod 60
  let uptime := uptime.tdiv 60
  let minutes := uptime.tmod 60
  let uptime := uptime.tdiv 60
  let hours := uptime.tmod 24
  let days := uptime.tdiv 24
  decimalInt days ++ ascii " days, " ++ decimalPadded hours ++ ascii ":" ++
    decimalPadded minutes ++ ascii ":" ++ decimalPadded seconds

def jbHandleHttpGet (request : HttpRequest) : ServerM Iks Unit := do
  let now ← getTime
  let s ← get
  let uptime := uptimeString ((now - s.startTime).tdiv 1000)
  hsAnswerRequest request.connection .request
    (statusHtml uptime s.clientCount s.maxClientCount) httpHtmlContent

def jbHandleRequest (request : HttpRequest) : ServerM Iks Unit :=
  if request.header.type = ascii "POST" then jbHandleHttpPost request
  else if request.header.type = ascii "GET" then jbHandleHttpGet request
  else jcReportError request.connection .badFormat

end Request

end Bosh
