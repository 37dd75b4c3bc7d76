import Bosh.Server.Loop
import Bosh.Socket.Wire

/-! The state changes that the callbacks are made of. Between two of them the phase says
what is still to be done for the request or the session in hand. -/
namespace Bosh
open Effect Text

section Request
variable {Iks : Type} [Iksemel Iks]

/-- The sid and the message of a POST that names a session, as `jb_handle_http_post` reads
them: the body parses, the sid is an integer, and there is a rid. -/
def posted (request : HttpRequest) : Option (UInt64 × Iks) :=
  if request.header.type = ascii "POST" then
    match iksTree request.data request.dataSize with
    | .ok (some message) => do
      let sid ← Iksemel.findAttrib message "sid"
      let sid ← scanInt64 sid.bytes
      let _ ← Iksemel.findAttrib message "rid"
      some (sid, message)
    | _ => none
  else none

def named (s : Server Iks) (request : HttpRequest) : Option (ClientId × Iks) := do
  let (sid, message) ← posted request
  let c ← s.sids.find sid
  some (c, message)

def Server.holding (s : Server Iks) (c : ClientId) : Option ConnectionId :=
  (s.clients c).bind JabberClient.connection

/-- No session but the one the request is for holds the request's connection. -/
def Alone (s : Server Iks) (request : HttpRequest) : Prop :=
  ∀ c ∈ Chain.values s.jabberConnections, s.holding c = some request.connection →
    (named s request).map Prod.fst = some c

instance (s : Server Iks) (request : HttpRequest) : Decidable (Alone s request) :=
  inferInstanceAs (Decidable (∀ _ ∈ _, _))

def Vacant (s : Server Iks) (h : ConnectionId) : Prop :=
  ∀ c ∈ Chain.values s.jabberConnections, s.holding c ≠ some h

instance (s : Server Iks) (h : ConnectionId) : Decidable (Vacant s h) :=
  inferInstanceAs (Decidable (∀ _ ∈ _, _))

end Request

/-- What two results of `lrand48` can make: one in the low half, the other in the high half. -/
def Drawn (sid : UInt64) : Prop :=
  ∃ low high : Nat, low < 2 ^ 31 ∧ high < 2 ^ 31 ∧ sid.toNat = low + high * 2 ^ 32

/-- What is under way between two state changes. -/
structure Phase (Iks : Type) where
  /-- The connection whose socket is being read. -/
  reading : Option ConnectionId := none
  /-- The connection whose latest bytes `hc_process` has not looked at yet. -/
  arrived : Option ConnectionId := none
  /-- The request in hand, while it is neither answered nor held. -/
  owed : Option ConnectionId := none
  /-- The session the request is for, and the tags still to be sent to its server. -/
  debt : Option (ClientId × List Iks) := none
  /-- The length of the request that still lies at the start of the buffer. -/
  unconsumed : Option (ConnectionId × Nat) := none
  /-- The session at work, and whether it may have been found dead. -/
  busy : Option (ClientId × Bool) := none

/-- What a stretch of execution may rely on. -/
structure Assumed where
  /-- The sockets that may be closed without a `send` having failed. -/
  exposed : SocketId → Prop
  /-- Whether every request finds its connection `Alone`. -/
  alone : Prop
  /-- Whether a new connection's address is held by no session. -/
  vacant : Prop

/-- A change on the wire that is not for one session or connection to notice. -/
inductive Move (exposed : SocketId → Prop) (w : Wire) : Wire → Prop where
  | flush {i : SocketId} {w' : Wire} : Gives i [] w w' → Move exposed w w'
  | shut {i : SocketId} {w' : Wire} : exposed i → Shuts i w w' → Move exposed w w'
  | connected {i : SocketId} {sock : Socket} : w.sockets i = some sock →
      sock.status = .connecting → Move exposed w (w.put i (some { sock with status := .connected }))
  | refused {i : SocketId} {sock : Socket} : exposed i → w.sockets i = some sock →
      sock.status = .connecting → Move exposed w (w.put i (some { sock with status := .idle }))
  /-- A socket made for a session that then could not be created. -/
  | abandoned : Move exposed w { w.put w.nextSocket none with nextSocket := w.nextSocket + 1 }

def acceptedSocket (h : ConnectionId) (fd : Int) (si : InfoId) : Socket :=
  { initialSocket with
    fd
    si := some si
    dataCallback := some (.hcRead h)
    errorCallback := some (.hcHandleError h)
    status := .connected }

def sessionSocket (c : ClientId) (header : Bytes) (fd : Int) (si : InfoId) : Socket :=
  { initialSocket with
    fd
    si := some si
    dataCallback := some (.jcReadJabber c)
    connectCallback := some (.jcAnswerCreation c)
    errorCallback := some (.jcHandleError c)
    outputQueue := [itemNew header header.length 0]
    status := .connecting }

section Steps
variable {Iks : Type} [Iksemel Iks]

def Server.answered (h : ConnectionId) (connection : HttpConnection) (net : Net)
    (answerer : Answerer Iks) (body : Bytes) (s : Server Iks) : Server Iks :=
  { s with
    net
    connections := Function.update s.connections h (some { connection with closeCallback := none })
    history := .answer h answerer body :: s.history }

inductive Micro (a : Assumed) : Phase Iks × Server Iks → Phase Iks × Server Iks → Prop where
  | tick {p s clock oracle} : s.clock ≤ clock → Micro a (p, s) (p, { s with clock, oracle })
  | stamp {p s c client timestamp} : s.clients c = some client →
      Micro a (p, s) (p, s.setClient c (some { client with timestamp }))
  | monitor {p s net} : net.wire = s.net.wire → Micro a (p, s) (p, { s with net })
  | move {p s net} : Move a.exposed s.net.wire net.wire → Micro a (p, s) (p, { s with net })
  /-- The server's own socket goes when nothing is left that owns one. -/
  | discard {p s i net} : s.jabberConnections = [] → s.httpConnections = [] →
      Deletes i s.net.wire net.wire → Micro a (p, s) (p, { s with net })
  -- the life of a connection
  | create {p s h net fd si} : s.connections h = none →
      (a.vacant → Vacant s h) → fd ≠ -1 → net.wire = s.net.wire.push (acceptedSocket h fd si) →
      Micro a (p, s) (p, { s with
        net
        nextNode := s.nextNode + 1
        connections := Function.update s.connections h (some {
          buffer := [], bufferSize := 0, sock := s.net.nextSocket, it := s.nextNode,
          header := none, closeCallback := none })
        httpConnections := Chain.pushBack s.nextNode h s.httpConnections
        history := .hcCreate h :: s.history })
  | read {p s h connection} : s.connections h = some connection → p.reading = none →
      Micro a (p, s) ({ p with reading := some h }, s)
  | receive {p s h connection bytes} : p.reading = some h → s.connections h = some connection →
      bytes ≠ [] → bytes.length ≤ maxBufferSize - connection.bufferSize → p.arrived = none →
      p.unconsumed = none →
      Micro a (p, s) ({ p with arrived := some h }, { s with
        connections := Function.update s.connections h (some (connection.receive bytes))
        history := .received h bytes :: s.history })
  | examined {p s h connection} : p.arrived = some h → s.connections h = some connection →
      (∀ request length, connection.frame h ≠ .ok (.complete request length)) →
      Micro a (p, s) ({ p with arrived := none }, s)
  | refuse {p s h connection bytes net} : s.connections h = some connection →
      Gives connection.sock bytes s.net.wire net.wire → Micro a (p, s) (p, { s with net })
  | request {p s h connection request length} : p.reading = some h → p.arrived = some h →
      s.connections h = some connection → connection.frame h = .ok (.complete request length) →
      p.owed = none → p.debt = none → p.unconsumed = none → (a.alone → Alone s request) →
      Micro a (p, s) ({ p with
        arrived := none
        owed := some h
        debt := (named s request).map fun target => (target.1, Iksemel.tags target.2)
        unconsumed := some (h, length) }, s.record (.request h request))
  | consume {p s h connection length} : p.unconsumed = some (h, length) → p.owed = none →
      s.connections h = some connection →
      Micro a (p, s) ({ p with unconsumed := none },
        s.setConnection h (some (connection.consume length)))
  | finish {p s h} : p.reading = some h → p.unconsumed = none →
      Micro a (p, s) ({ p with reading := none }, s)
  | delete {p s h connection rest net} : s.connections h = some connection →
      connection.closeCallback = none → p.owed = none → p.arrived = none → p.unconsumed = none →
      (p.reading = none ∨ p.reading = some h) →
      Chain.erase connection.it s.httpConnections = some rest →
      Deletes connection.sock s.net.wire net.wire →
      Micro a (p, s) ({ p with reading := none }, { s with
        net
        httpConnections := rest
        connections := Function.update s.connections h none
        history := .hcDelete h :: s.history })
  | deleteHeld {p s h connection c client rest net} (timestamp : Int) : s.connections h =
    some connection →
      connection.closeCallback = some (.jcClearHttp c) → s.clients c = some client →
      p.owed = none → p.arrived = none → p.unconsumed = none →
      (p.reading = none ∨ p.reading = some h) →
      Chain.erase connection.it s.httpConnections = some rest →
      Deletes connection.sock s.net.wire net.wire →
      Micro a (p, s) ({ p with reading := none }, { s with
        net
        clients := Function.update s.clients c (some { client with connection := none, timestamp })
        httpConnections := rest
        connections := Function.update s.connections h none
        history := .hcDelete h :: s.history })
  -- answers
  | answer {p s h connection body bytes net} : p.owed = some h → p.debt = none →
      s.connections h = some connection → Gives connection.sock bytes s.net.wire net.wire →
      Micro a (p, s) ({ p with owed := none }, s.answered h connection net .request body)
  | drop {p s c client h connection body bytes net} : s.clients c = some client →
      client.connection = some h → s.connections h = some connection →
      Gives connection.sock bytes s.net.wire net.wire →
      Micro a (p, s) (p, (s.answered h connection net (.dropRequest c) body).setClient c
        (some { client with connection := none }))
  | flush {p s c client h connection bytes net} : s.clients c = some client →
      client.connection = some h → client.outputQueue ≠ [] → s.connections h = some connection →
      Gives connection.sock bytes s.net.wire net.wire →
      Micro a (p, s) (p, (s.answered h connection net (.flushMessages c client.outputQueue)
        (messageWrapper (serialised client.outputQueue))).setClient c
          (some { client with connection := none, outputQueue := [] }))
  | hold {p s c tags client h connection} (timestamp : Int) (rid : Option UInt64) : p.owed =
    some h →
      p.debt = some (c, tags) → p.busy = none → s.clients c = some client →
      client.connection = none → s.connections h = some connection →
      Micro a (p, s) ({ p with owed := none, busy := some (c, false) }, { s with
        clients := Function.update s.clients c
          (some { client with connection := some h, timestamp, rid })
        connections := Function.update s.connections h
          (some { connection with closeCallback := some (.jcClearHttp c) })
        history := .hold c h :: s.history })
  -- the life of a session
  | openSession {p s sid host sids net fd si} (timestamp wait : Int) : Drawn sid →
    s.sids.hasKey sid = false →
      s.sids.insert sid s.nextClient = some sids → fd ≠ -1 →
      net.wire = s.net.wire.push (sessionSocket s.nextClient (jabberHeader host) fd si) →
      Micro a (p, s) (p, { s with
        net
        sids
        clients := Function.update s.clients s.nextClient (some {
          sock := s.net.nextSocket, sid, rid := none, connection := none, outputQueue := [],
          alive := true, timestamp, wait, it := s.nextNode })
        nextClient := s.nextClient + 1
        nextNode := s.nextNode + 1
        jabberConnections := Chain.pushBack s.nextNode s.nextClient s.jabberConnections
        clientCount := s.clientCount + 1
        maxClientCount := max s.maxClientCount (s.clientCount + 1)
        history := .newSession s.nextClient sid host s.net.nextSocket :: s.history })
  | wake {p s} (c : ClientId) : p.busy = none →
    Micro a (p, s) ({ p with busy := some (c, false) }, s)
  | stanza {p s c dead client stanza} : p.busy = some (c, dead) → s.clients c = some client →
      Micro a (p, s) (p, (s.setClient c (some { client with
        outputQueue := client.outputQueue ++ [stanza] })).record (.stanza c stanza))
  | kill {p s c dead client} : p.busy = some (c, dead) → s.clients c = some client →
      Micro a (p, s) ({ p with busy := some (c, true) },
        s.setClient c (some { client with alive := false }))
  | settle {p s c dead client} : p.busy = some (c, dead) → s.clients c = some client →
      (client.connection = none ∨ client.outputQueue = []) → (dead = true → client.alive = true) →
      Micro a (p, s) ({ p with busy := none }, s)
  | forward {p s c stanza tags client net} : p.owed = none → p.debt = some (c, stanza :: tags) →
      s.clients c = some client →
      Gives client.sock (Iksemel.string stanza).bytes s.net.wire net.wire →
      Micro a (p, s) ({ p with debt := some (c, tags) }, { s with net })
  | forwarded {p s c} : p.owed = none → p.debt = some (c, []) →
      Micro a (p, s) ({ p with debt := none }, s)
  | forget {p s c client rest net} : s.clients c = some client → client.connection = none →
      p.debt = none → (p.busy = none ∨ ∃ dead, p.busy = some (c, dead)) →
      Chain.erase client.it s.jabberConnections = some rest →
      Deletes client.sock s.net.wire net.wire →
      Micro a (p, s) ({ p with busy := none }, { s with
        net
        jabberConnections := rest
        clientCount := s.clientCount - 1
        sids := s.sids.erase client.sid
        clients := Function.update s.clients c none
        history := .closeSession c :: s.history })

abbrev Steps (a : Assumed) : Phase Iks × Server Iks → Phase Iks × Server Iks → Prop :=
  Relation.ReflTransGen (Micro a)

end Steps

end Bosh
