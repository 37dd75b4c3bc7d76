import Bosh.Server.Answer

/-! The functions of `jabber_bind.c` that work on one session. -/
namespace Bosh
open Effect Text

def messageWrapper (payload : Bytes) : Bytes :=
  ascii "<body xmlns:stream='http://etherx.jabber.org/streams' xmlns='http://jabber.org/protocol/httpbind'>" ++
    payload ++ ascii "</body>"

def emptyResponse : Bytes := ascii "<body xmlns='http://jabber.org/protocol/httpbind'/>"

def terminateSessionResponse : Bytes :=
  ascii "<body type='terminate' xmlns='http://jabber.org/protocol/httpbind'/>"

/-- The second loop of `jc_flush_messages`: copy each text behind what is written, into
`capacity` bytes, and write the terminator. -/
def copyXmls (capacity : Nat) : List Bytes → Bytes → Except Fault Bytes
  | [], written => if written.length < capacity then .ok written else .error .outOfBounds
  | xml :: xmls, written =>
    let n := toSize (toInt32 xml.length)
    if written.length + n ≤ capacity then copyXmls capacity xmls (written ++ xml.take n)
    else .error .outOfBounds

section Session
variable {Iks : Type} [Iksemel Iks]

/-- The first loop of `jc_flush_messages` sums the lengths in an `int`. -/
def sumSizes (xmls : List Bytes) : Int :=
  xmls.foldl (fun size xml => toInt32 (size + xml.length)) 0

def flushBuffer (popped : List Iks) : Except Fault Bytes :=
  let xmls := popped.map fun msg => (Iksemel.string msg).bytes
  let capacity := toSize (toInt32 (sumSizes xmls + 1))
  -- `malloc` has no block of half the address space
  if 2 ^ 63 ≤ capacity then .error .nullPointer else copyXmls capacity xmls []

def serialised (stanzas : List Iks) : Bytes :=
  stanzas.flatMap fun stanza => (Iksemel.string stanza).bytes

omit [Iksemel Iks] in
theorem copyXmls_spec (capacity : Nat) (xmls : List Bytes)
    (small : ∀ xml ∈ xmls, xml.length < 2 ^ 31) (written : Bytes) :
    (∀ out, copyXmls capacity xmls written = .ok out → out = written ++ xmls.flatten) ∧
      ∀ fault, copyXmls capacity xmls written = .error fault → fault = .outOfBounds := by
  induction xmls generalizing written with
  | nil =>
    unfold copyXmls
    split
    · exact ⟨fun out done => by cases done; simp, nofun⟩
    · exact ⟨nofun, fun fault done => by cases done; rfl⟩
  | cons xml xmls ih =>
    have fits := small xml (by simp)
    have whole : toSize (toInt32 xml.length) = xml.length := by
      rw [toInt32_of_lt (by omega) (by omega), toSize_of_nonneg (by omega) (by omega)]
      rfl
    unfold copyXmls
    rw [whole]
    dsimp only
    split
    · obtain ⟨ok, error⟩ := ih (fun x h => small x (by simp [h])) (written ++ xml.take xml.length)
      exact ⟨fun out done => by simpa using ok out done, error⟩
    · exact ⟨nofun, fun fault done => by cases done; rfl⟩

/-- Where the second loop stays inside its buffer it copies every text whole. -/
theorem flushBuffer_spec (popped : List Iks) :
    (∀ out, flushBuffer popped = .ok out → out = serialised popped) ∧
      ∀ fault, flushBuffer popped = .error fault → fault = .nullPointer ∨ fault = .outOfBounds := by
  unfold flushBuffer
  dsimp only
  split
  · exact ⟨nofun, fun fault done => by cases done; exact .inl rfl⟩
  · obtain ⟨ok, error⟩ := copyXmls_spec
      (toSize (toInt32 (sumSizes (popped.map fun msg => (Iksemel.string msg).bytes) + 1)))
      (popped.map fun msg => (Iksemel.string msg).bytes)
      (fun xml h => by
        obtain ⟨stanza, -, rfl⟩ := List.mem_map.mp h
        exact Iksemel.string_fits stanza) []
    refine ⟨fun out done => ?_, fun fault done => .inr (error fault done)⟩
    rw [ok out done, serialised, List.flatMap_def, List.nil_append]

/-- The loop of `jb_closest_timeout`. -/
def jbClosest (current : Int) : List ClientId → Int → ServerM Iks Int
  | [], closest => pure closest
  | c :: rest, closest => do
    let client ← getClient c
    let s ← get
    let tmp :=
      if client.connection.isSome then (client.timestamp + client.wait) - current
      else (client.timestamp + s.sessionTimeout) - current
    jbClosest current rest (if tmp < closest then tmp else closest)

def jbClosestTimeout : ServerM Iks Int := do
  let s ← get
  let current ← getTime
  jbClosest current (Chain.values s.jabberConnections) s.sessionTimeout

def jcFlushMessages (c : ClientId) : ServerM Iks Unit := do
  let client ← getClient c
  match client.connection with
  | none => pure ()
  | some connection =>
    if client.outputQueue ≠ [] then
      let popped := client.outputQueue
      modifyClient c fun client => { client with outputQueue := [] }
      let buffer ← checked (flushBuffer popped)
      let body := messageWrapper buffer
      hsAnswerRequest connection (.flushMessages c popped) body httpXmlContent
      modifyClient c fun client => { client with connection := none }
      let timestamp ← getTime
      modifyClient c fun client => { client with timestamp }

def jcDropRequest (c : ClientId) (terminate : Bool) : ServerM Iks Unit := do
  let client ← getClient c
  let body := if terminate then terminateSessionResponse else emptyResponse
  match client.connection with
  | none => throw .nullPointer
  | some connection =>
    hsAnswerRequest connection (.dropRequest c) body httpXmlContent
    modifyClient c fun client => { client with connection := none }
    let timestamp ← getTime
    modifyClient c fun client => { client with timestamp }

def jbCloseClient (c : ClientId) : ServerM Iks Unit := do
  let client ← getClient c
  if client.connection.isSome then jcDropRequest c true
  onNet (sockDelete client.sock)
  let s ← get
  match Chain.erase client.it s.jabberConnections with
  | none => throw .useAfterFree
  | some jabberConnections =>
    modify fun s => { s with
      jabberConnections
      clientCount := s.clientCount - 1
      sids := s.sids.erase client.sid }
    modify (Server.setClient c none)
    modify (Server.record (.closeSession c))

/-- The loop over the sessions in `jb_check_timeout`: the sessions to close. -/
def jbTimedOut (init : Int) : List ClientId → ServerM Iks (List ClientId)
  | [] => pure []
  | c :: rest => do
    let client ← getClient c
    let s ← get
    let idle := init - client.timestamp
    if client.connection.isSome ∧ idle ≥ client.wait then
      jcDropRequest c false
      jbTimedOut init rest
    else if client.connection.isNone ∧ idle ≥ s.sessionTimeout then
      let toClose ← jbTimedOut init rest
      pure (c :: toClose)
    else jbTimedOut init rest

def jbCheckTimeout : ServerM Iks Unit := do
  let init ← getTime
  let s ← get
  let toClose ← jbTimedOut init (Chain.values s.jabberConnections)
  toClose.forM jbCloseClient

def jcHandleStanza (c : ClientId) (type : IksType) (stanza : Option Iks) : ServerM Iks Unit :=
  match stanza with
  | none => pure ()
  | some stanza =>
    match type with
    | .normal => do
      modifyClient c fun client => { client with outputQueue := client.outputQueue ++ [stanza] }
      modify (Server.record (.stanza c stanza))
    | .error | .stop => modifyClient c fun client => { client with alive := false }
    | .start => pure ()

/-- The read loop of `jc_read_jabber`; the result is whether `ret` is `IKS_OK`. The socket
has nothing more to give when the arrivals are used up. -/
def jcReadLoop (c : ClientId) : List (Arrival Iks) → ServerM Iks Bool
  | [] => do
    let client ← getClient c
    let _ ← onNet (sockRecv client.sock 8192 .again)
    pure true
  | arrival :: arrivals => do
    let client ← getClient c
    let bytes ← onNet (sockRecv client.sock 8192 arrival.result)
    if bytes = [] then pure true
    else
      arrival.hooks.forM fun hook => jcHandleStanza c hook.1 hook.2
      if arrival.ok then jcReadLoop c arrivals else pure false

def jcReadJabber (c : ClientId) : ServerM Iks Unit := do
  let s ← get
  let ok ← jcReadLoop c s.oracle.arrivals
  jcFlushMessages c
  let client ← getClient c
  let sock ← onNet (getSocket client.sock)
  if sock.status ≠ .connected ∨ ok = false ∨ client.alive = false then jbCloseClient c

def jcHandleError (c : ClientId) : ServerM Iks Unit := jbCloseClient c

def jcAnswerCreation (code : Int) (c : ClientId) : ServerM Iks Unit :=
  if code ≠ 0 then jbCloseClient c else pure ()

def jcClearHttp (c : ClientId) : ServerM Iks Unit := do
  modifyClient c fun client => { client with connection := none }
  let timestamp ← getTime
  modifyClient c fun client => { client with timestamp }

def jcSetHttp (c : ClientId) (connection : ConnectionId) (rid : Option UInt64) :
    ServerM Iks Unit := do
  let client ← getClient c
  if client.connection.isSome then jcDropRequest c false
  modifyClient c fun client => { client with connection := some connection }
  modify (Server.record (.hold c connection))
  let timestamp ← getTime
  modifyClient c fun client => { client with timestamp, rid }
  hcSetCloseCallback connection (.jcClearHttp c)
  jcFlushMessages c

end Session

end Bosh
