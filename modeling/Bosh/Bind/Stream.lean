import Bosh.Server.Pools

/-! From the client to the Jabber server: what is written on the socket of a session. -/
namespace Bosh
open Effect Text

section History
variable {Iks : Type} [Iksemel Iks]

structure Channel where
  sid : UInt64
  sock : SocketId
  stream : Bytes
  deriving DecidableEq

def Channel.extend (names : HttpRequest → Option (UInt64 × Iks)) (request : HttpRequest)
    (channel : Channel) : Channel :=
  match names request with
  | some (sid, message) =>
    if sid = channel.sid then
      { channel with stream := channel.stream ++ serialised (Iksemel.tags message) }
    else channel
  | none => channel

@[simp] theorem Channel.extend_sock (names : HttpRequest → Option (UInt64 × Iks))
    (request : HttpRequest) (channel : Channel) :
    (channel.extend names request).sock = channel.sock := by
  unfold Channel.extend
  split
  · split <;> rfl
  · rfl

@[simp] theorem Channel.extend_sid (names : HttpRequest → Option (UInt64 × Iks))
    (request : HttpRequest) (channel : Channel) :
    (channel.extend names request).sid = channel.sid := by
  unfold Channel.extend
  split
  · split <;> rfl
  · rfl

/-- The header, and then the tags of every request that names the session. -/
def channel (names : HttpRequest → Option (UInt64 × Iks)) (c : ClientId) :
    List (Record Iks) → Option Channel
  | [] => none
  | .newSession c' sid host sock :: older =>
    if c' = c then some ⟨sid, sock, jabberHeader host⟩ else channel names c older
  | .request _ request :: older => (channel names c older).map (Channel.extend names request)
  | _ :: older => channel names c older

/-- The sid and the message of any POST that names a session, be there a rid or not. -/
def naming (request : HttpRequest) : Option (UInt64 × Iks) :=
  if request.header.type = ascii "POST" then
    match iksTree request.data request.dataSize with
    | .ok (some message) => do
      let sid ← Iksemel.findAttrib message "sid"
      let sid ← scanInt64 sid.bytes
      some (sid, message)
    | _ => none
  else none

def Record.request? : Record Iks → Option HttpRequest
  | .request _ made => some made
  | _ => none

def Numbered (history : List (Record Iks)) : Prop :=
  ∀ entry ∈ history, ∀ request ∈ entry.request?,
    (naming request : Option (UInt64 × Iks)) = posted request

instance [DecidableEq Iks] (history : List (Record Iks)) : Decidable (Numbered history) :=
  inferInstanceAs (Decidable (∀ _ ∈ _, ∀ _ ∈ _, _))

theorem channel_naming {history : List (Record Iks)} (numbered : Numbered history) (c : ClientId) :
    channel naming c history = channel posted c history := by
  induction history with
  | nil => rfl
  | cons entry older ih =>
    have same := ih fun entry listed => numbered entry (.tail _ listed)
    cases entry with
    | newSession c' sid host sock =>
      unfold channel
      rw [same]
    | request h request =>
      have named : (naming request : Option (UInt64 × Iks)) = posted request :=
        numbered _ (.head _) request rfl
      refine congrArg₂ Option.map (funext fun ch => ?_) same
      simp only [Channel.extend, named]
    | _ => exact same

/-- What has gone out to a Jabber server is the start of the session's stream, and while
the socket is open the rest waits in its queue. -/
structure Relayed (names : HttpRequest → Option (UInt64 × Iks)) (s : Server Iks) : Prop where
  sent : ∀ c ch, channel names c s.history = some ch → s.net.sent ch.sock <+: ch.stream
  queued : ∀ c client, s.clients c = some client →
    ∃ ch, channel names c s.history = some ch ∧ ch.sock = client.sock ∧ ch.sid = client.sid ∧
      ∀ sock, s.net.sockets ch.sock = some sock → sock.fd ≠ -1 →
        s.net.sent ch.sock ++ unsent sock.outputQueue = ch.stream

end History

/-- The bytes that went out on a socket, what waits in its queue and what is still in hand
are the stream, while the socket is open. -/
structure Conveys (w : Wire) (i : SocketId) (hand stream : Bytes) : Prop where
  before : w.sent i <+: stream
  whole : ∀ sock, w.sockets i = some sock → sock.fd ≠ -1 →
    w.sent i ++ unsent sock.outputQueue ++ hand = stream

namespace Conveys
variable {w w' : Wire} {i : SocketId} {hand stream : Bytes}

theorem of_only (h : Conveys w i hand stream) {j : SocketId} (only : OnlySocket j w w')
    (other : i ≠ j) : Conveys w' i hand stream := by
  refine ⟨?_, fun sock there fd => ?_⟩
  · rw [only.sent i other]
    exact h.before
  · rw [only.sent i other]
    exact h.whole sock (only.sockets i other ▸ there) fd

theorem restyle (h : Conveys w i hand stream) {sock sock' : Socket} (here : w.sockets i = some sock)
    (fd : sock'.fd = sock.fd ∧ sock'.outputQueue = sock.outputQueue ∨ sock'.fd = -1) :
    Conveys (w.put i (some sock')) i hand stream := by
  refine ⟨h.before, fun x there opened => ?_⟩
  rw [Wire.sockets_put_self, Option.some.injEq] at there
  subst there
  rcases fd with ⟨fd, queue⟩ | closed
  · rw [queue]
    exact h.whole sock here (fd ▸ opened)
  · exact absurd closed opened

theorem gone (h : Conveys w i hand stream) (j : SocketId) : Conveys (w.put j none) i hand stream :=
  ⟨h.before, fun sock there => h.whole sock (Table.of_update_none there).2⟩

theorem gives {bytes : Bytes} (h : Conveys w i (bytes ++ hand) stream) (gives : Gives i bytes w w')
    (closed : ∀ sock, w.sockets i = some sock → sock.fd = -1 → sock.status = .idle) :
    Conveys w' i hand stream := by
  obtain ⟨sock, sock', here, there, -, outcome⟩ := gives.outcome
  have same : ∀ x, w'.sockets i = some x → x = sock' := fun x found =>
    Option.some.inj (found.symm.trans there)
  rcases outcome with ⟨fd, -, still, bytes'⟩ | ⟨live, shut, -, lost, bytes'⟩
  · by_cases opened : sock.fd = -1
    · refine ⟨?_, fun x found fd' => ?_⟩
      · rw [still (by simp [closed sock here opened])]
        exact h.before
      · rw [same x found, fd] at fd'
        exact absurd opened fd'
    · have whole := h.whole sock here opened
      rw [← List.append_assoc, ← bytes'] at whole
      refine ⟨⟨_, (List.append_assoc ..).symm.trans whole⟩, fun x found _ => ?_⟩
      rw [same x found]
      exact whole
  · have opened : sock.fd ≠ -1 := fun fd => by simp [closed sock here fd] at live
    have whole := h.whole sock here opened
    rw [← List.append_assoc, ← bytes'] at whole
    refine ⟨⟨_, (List.append_assoc ..).symm.trans whole⟩, fun x found fd' => ?_⟩
    rw [same x found] at fd'
    exact absurd shut.1 fd'

theorem extend (h : Conveys w i hand stream) (more : Bytes) :
    Conveys w i (hand ++ more) (stream ++ more) :=
  ⟨h.before.trans (List.prefix_append _ _), fun sock there opened => by
    rw [← List.append_assoc, h.whole sock there opened]⟩

theorem outlives (h : Conveys w i hand stream) (absent : w.sockets i = none) (hand' more : Bytes) :
    Conveys w i hand' (stream ++ more) :=
  ⟨h.before.trans (List.prefix_append _ _), fun sock there => by simp [absent] at there⟩

end Conveys

structure Lines (Iks : Type) where
  wire : Wire
  session : ClientId → Option (SocketId × UInt64)
  next : ClientId
  debt : Option (ClientId × List Iks)
  history : List (Record Iks)

def Lines.hand {Iks : Type} (l : Lines Iks) (c : ClientId) : List Iks :=
  match l.debt with
  | some (c', tags) => if c' = c then tags else []
  | none => []

theorem Lines.hand_eq_nil {Iks : Type} {l : Lines Iks} {c : ClientId}
    (free : ∀ tags, l.debt ≠ some (c, tags)) : l.hand c = [] := by
  unfold hand
  split
  · rename_i c' tags owed
    rw [if_neg]
    rintro rfl
    exact free tags owed
  · rfl

structure Streams {Iks : Type} [Iksemel Iks] (l : Lines Iks) : Prop where
  unsent : ∀ i, l.wire.nextSocket ≤ i → l.wire.sent i = []
  unknown : ∀ c, l.next ≤ c → channel posted c l.history = none
  debt : ∀ c tags, l.debt = some (c, tags) → (l.session c).isSome
  live : ∀ c sock sid, l.session c = some (sock, sid) →
    ∃ ch, channel posted c l.history = some ch ∧ ch.sock = sock ∧ ch.sid = sid
  dead : ∀ c ch, channel posted c l.history = some ch → l.session c = none →
    l.wire.sockets ch.sock = none
  below : ∀ c ch, channel posted c l.history = some ch → ch.sock < l.wire.nextSocket
  conveys : ∀ c ch, channel posted c l.history = some ch →
    Conveys l.wire ch.sock (serialised (l.hand c)) ch.stream

namespace Streams
variable {Iks : Type} [Iksemel Iks] {l : Lines Iks} {owners : Owner → Option SocketId}

theorem entry (h : Streams l) {entry : Record Iks}
    (apart : ∀ c, channel posted c (entry :: l.history) = channel posted c l.history) :
    Streams { l with history := entry :: l.history } where
  unsent := h.unsent
  unknown c new := (apart c).trans (h.unknown c new)
  debt := h.debt
  live c sock sid here := by
    rw [apart]
    exact h.live c sock sid here
  dead c ch known := h.dead c ch ((apart c).symm.trans known)
  below c ch known := h.below c ch ((apart c).symm.trans known)
  conveys c ch known := h.conveys c ch ((apart c).symm.trans known)

theorem socket (h : Streams l) {j : SocketId} {w : Wire} {debt : Option (ClientId × List Iks)}
    (only : OnlySocket j l.wire w) (old : j < l.wire.nextSocket)
    (absent : l.wire.sockets j = none → w.sockets j = none)
    (known : ∀ c tags, debt = some (c, tags) → (l.session c).isSome)
    (others : ∀ c ch, channel posted c l.history = some ch → ch.sock ≠ j →
      Lines.hand { l with debt } c = l.hand c)
    (mine : ∀ c ch, channel posted c l.history = some ch → ch.sock = j →
      Conveys w j (serialised (Lines.hand { l with debt } c)) ch.stream) :
    Streams { l with wire := w, debt } where
  unsent i high := by
    have high : l.wire.nextSocket ≤ i := only.nextSocket ▸ high
    exact (only.sent i (Nat.lt_of_lt_of_le old high).ne').trans (h.unsent i high)
  unknown := h.unknown
  debt := known
  live := h.live
  dead c ch known gone := by
    by_cases same : ch.sock = j
    · rw [same]
      exact absent (same ▸ h.dead c ch known gone)
    · exact (only.sockets _ same).trans (h.dead c ch known gone)
  below c ch known := Nat.lt_of_lt_of_eq (h.below c ch known) only.nextSocket.symm
  conveys c ch known := by
    by_cases same : ch.sock = j
    · rw [same]
      exact mine c ch known same
    · have conveys := (h.conveys c ch known).of_only only same
      rwa [← others c ch known same] at conveys

theorem push (h : Streams l) (sock : Socket) : Streams { l with wire := l.wire.push sock } where
  unsent i high := h.unsent i (Nat.le_of_succ_le high)
  unknown := h.unknown
  debt := h.debt
  live := h.live
  dead c ch known gone :=
    (Wire.sockets_push_ne (h.below c ch known).ne sock).trans (h.dead c ch known gone)
  below c ch known := Nat.lt_succ_of_lt (h.below c ch known)
  conveys c ch known := by
    have conveys := h.conveys c ch known
    refine ⟨conveys.before, fun x there opened => conveys.whole x ?_ opened⟩
    rwa [← Wire.sockets_push_ne (h.below c ch known).ne sock]

theorem abandon (h : Streams l) (fresh : l.wire.sockets l.wire.nextSocket = none) : Streams { l with
    wire := { l.wire.put l.wire.nextSocket none with nextSocket := l.wire.nextSocket + 1 } } := by
  have nothing := Wire.put_self l.wire.nextSocket l.wire
  rw [fresh] at nothing
  rw [nothing]
  exact { h with
    unsent := fun i high => h.unsent i (Nat.le_of_succ_le high)
    below := fun c ch known => Nat.lt_succ_of_lt (h.below c ch known)
    conveys := fun c ch known => ⟨(h.conveys c ch known).before, (h.conveys c ch known).whole⟩ }

theorem request (h : Streams l) {request : HttpRequest} {target : Option (ClientId × Iks)}
    (k : ConnectionId) (idle : l.debt = none)
    (named : ∀ c message, target = some (c, message) ↔
      ∃ sid sock, posted request = some (sid, message) ∧ l.session c = some (sock, sid)) :
    Streams { l with
      debt := target.map fun target => (target.1, Iksemel.tags target.2)
      history := .request k request :: l.history } := by
  have back : ∀ c ch, channel posted c (.request k request :: l.history) = some ch →
      ∃ old, channel posted c l.history = some old ∧ old.extend posted request = ch :=
    fun c ch known => Option.map_eq_some_iff.mp known
  refine ⟨h.unsent, fun c new => ?_, fun c tags owed => ?_, fun c sock sid here => ?_,
    fun c ch known gone => ?_, fun c ch known => ?_, fun c ch known => ?_⟩
  · exact Option.map_eq_none_iff.mpr (h.unknown c new)
  · obtain ⟨⟨c', message⟩, same, pair⟩ := Option.map_eq_some_iff.mp owed
    cases pair
    obtain ⟨sid, sock, -, here⟩ := (named c' message).mp same
    exact Option.isSome_of_mem here
  · obtain ⟨ch, known, rfl, rfl⟩ := h.live c sock sid here
    exact ⟨ch.extend posted request, congrArg (Option.map _) known, by simp, by simp⟩
  · obtain ⟨old, was, rfl⟩ := back c ch known
    rw [Channel.extend_sock]
    exact h.dead c old was gone
  · obtain ⟨old, was, rfl⟩ := back c ch known
    rw [Channel.extend_sock]
    exact h.below c old was
  · obtain ⟨old, was, rfl⟩ := back c ch known
    have before := h.conveys c old was
    rw [l.hand_eq_nil fun tags => by simp [idle]] at before
    -- the session's own channel, when it is live
    have own : ∀ sock sid, l.session c = some (sock, sid) → old.sock = sock ∧ old.sid = sid :=
      fun sock sid here => by
        obtain ⟨ch, known, rfl, rfl⟩ := h.live c sock sid here
        obtain rfl := Option.some.inj (was.symm.trans known)
        exact ⟨rfl, rfl⟩
    have apart : ∀ new : Channel, (∀ message, target ≠ some (c, message)) → new = old →
        Conveys l.wire new.sock (serialised (Lines.hand { l with
          debt := target.map fun target => (target.1, Iksemel.tags target.2) } c))
          new.stream := fun new nobody same => by
      rw [same, Lines.hand_eq_nil fun tags owed => ?_]
      · exact before
      · obtain ⟨⟨c', message⟩, found, pair⟩ := Option.map_eq_some_iff.mp owed
        cases pair
        exact nobody message found
    cases same : (posted request : Option (UInt64 × Iks)) with
    | none =>
      refine apart _ (fun message found => ?_) (by simp [Channel.extend, same])
      obtain ⟨sid, sock, posted, -⟩ := (named c message).mp found
      simp [same] at posted
    | some post =>
      obtain ⟨sid, message⟩ := post
      by_cases mine : sid = old.sid
      · have extended : Channel.extend (posted : HttpRequest → Option (UInt64 × Iks)) request old =
            { old with stream := old.stream ++ serialised (Iksemel.tags message) } := by
          simp [Channel.extend, same, mine]
        rw [extended]
        cases live : l.session c with
        | none => exact before.outlives (h.dead c old was live) _ _
        | some pair =>
          obtain ⟨-, sid'⟩ := own pair.1 pair.2 live
          have found := (named c message).mpr ⟨sid, pair.1, same, by rw [live, mine, sid']⟩
          rw [Lines.hand, found]
          simp only [Option.map_some, if_true]
          exact before.extend (serialised (Iksemel.tags message))
      · refine apart _ (fun message' found => mine ?_) (by simp [Channel.extend, same, mine])
        obtain ⟨sid', sock, posted, here⟩ := (named c message').mp found
        rw [same] at posted
        cases posted
        exact (own sock sid here).2.symm

theorem session_of_socket (h : Streams l) {c : ClientId} {ch : Channel} {sock : Socket}
    (known : channel posted c l.history = some ch) (there : l.wire.sockets ch.sock = some sock) :
    l.session c = some (ch.sock, ch.sid) := by
  cases live : l.session c with
  | none => simp [h.dead c ch known live] at there
  | some pair =>
    obtain ⟨ch', known', sock', sid'⟩ := h.live c pair.1 pair.2 live
    obtain rfl := Option.some.inj (known.symm.trans known')
    rw [sock', sid']

/-- Bytes are handed to a socket: they are the next ones of the tags in hand, if any session
has the socket. -/
theorem give (h : Streams l) (estate : Estate.Owned ⟨owners, l.wire⟩) {j : SocketId}
    {bytes : Bytes} {w : Wire} {debt : Option (ClientId × List Iks)}
    (gives : Gives j bytes l.wire w)
    (known : ∀ c tags, debt = some (c, tags) → (l.session c).isSome)
    (others : ∀ c, (∀ sid, l.session c ≠ some (j, sid)) → Lines.hand { l with debt } c = l.hand c)
    (mine : ∀ c sid, l.session c = some (j, sid) →
      serialised (l.hand c) = bytes ++ serialised (Lines.hand { l with debt } c)) :
    Streams { l with wire := w, debt } := by
  obtain ⟨sock, -, here, -⟩ := gives.outcome
  refine h.socket gives.only (estate.below here) (fun absent => ?_) known
    (fun c ch channel other => others c fun sid live => ?_) fun c ch channel same => ?_
  · simp [absent] at here
  · obtain ⟨ch', channel', rfl, -⟩ := h.live c j sid live
    exact other (congrArg Channel.sock (Option.some.inj (channel.symm.trans channel')))
  · subst same
    have conveys := h.conveys c ch channel
    rw [mine c ch.sid (h.session_of_socket channel here)] at conveys
    exact conveys.gives gives (estate.closed _)

theorem openSession (h : Streams l) {sid : UInt64} {host : Bytes} {fd : Int} {si : InfoId}
    (unused : l.session l.next = none) : Streams { l with
      wire := l.wire.push (sessionSocket l.next (jabberHeader host) fd si)
      session := Function.update l.session l.next (some (l.wire.nextSocket, sid))
      next := l.next + 1
      history := .newSession l.next sid host l.wire.nextSocket :: l.history } := by
  have cases : ∀ {c ch}, channel posted c
      (.newSession l.next sid host l.wire.nextSocket :: l.history) = some ch →
        c = l.next ∧ ch = ⟨sid, l.wire.nextSocket, jabberHeader host⟩ ∨
          c ≠ l.next ∧ channel posted c l.history = some ch := fun {c ch} known => by
    unfold channel at known
    split at known
    · rename_i same
      exact .inl ⟨same.symm, (Option.some.inj known).symm⟩
    · rename_i other
      exact .inr ⟨Ne.symm other, known⟩
  refine ⟨fun i high => h.unsent i (Nat.le_of_succ_le high), fun c new => ?_, fun c tags owed => ?_,
    fun c sock sid' here =>
      ?_, fun c ch known gone => ?_, fun c ch known => ?_, fun c ch known => ?_⟩
  · have old : channel posted c l.history = none := h.unknown c (Nat.le_of_succ_le new)
    rwa [channel, if_neg (Nat.ne_of_lt new)]
  · have live := h.debt c tags owed
    by_cases new : c = l.next
    · simp [new]
    · simpa [new] using live
  · rcases Table.of_update here with ⟨rfl, new⟩ | ⟨other, old⟩
    · cases new
      exact ⟨_, if_pos rfl, rfl, rfl⟩
    · obtain ⟨ch, known, same⟩ := h.live c sock sid' old
      exact ⟨ch, (if_neg (Ne.symm other)).trans known, same⟩
  · rcases cases known with ⟨rfl, -⟩ | ⟨other, old⟩
    · simp at gone
    · exact (Wire.sockets_push_ne (h.below c ch old).ne _).trans
        (h.dead c ch old (by simpa [other] using gone))
  · rcases cases known with ⟨-, rfl⟩ | ⟨-, old⟩
    · exact Nat.lt_succ_self _
    · exact Nat.lt_succ_of_lt (h.below c ch old)
  · rcases cases known with ⟨rfl, rfl⟩ | ⟨-, old⟩
    · have nothing : l.hand l.next = [] := l.hand_eq_nil fun tags owed => by
        simpa [unused] using h.debt _ tags owed
      have silent := h.unsent l.wire.nextSocket le_rfl
      refine ⟨by simp [silent], fun sock there _ => ?_⟩
      rw [Wire.sockets_push_self, Option.some.injEq] at there
      subst there
      change l.wire.sent _ ++ _ ++ serialised (l.hand _) = _
      simp [silent, nothing, sessionSocket, serialised]
    · exact ((h.push _).conveys c ch old)

theorem close (h : Streams l) {c : ClientId} {sock : SocketId} {sid : UInt64}
    (live : l.session c = some (sock, sid)) (settled : l.debt = none) : Streams { l with
      wire := l.wire.put sock none
      session := Function.update l.session c none
      history := .closeSession c :: l.history } := by
  have gone : ∀ {i}, l.wire.sockets i = none → (l.wire.put sock none).sockets i = none :=
    fun {i} absent => by
    by_cases same : i = sock
    · rw [same, Wire.sockets_put_self]
    · rwa [Wire.sockets_put_ne same]
  refine ⟨h.unsent, h.unknown, fun c' tags owed => ?_, fun c' sock' sid' here => ?_,
    fun c' ch known nobody => ?_, h.below, fun c' ch known => ?_⟩
  · simp [settled] at owed
  · exact h.live c' sock' sid' (Table.of_update_none here).2
  · by_cases mine : c' = c
    · subst mine
      obtain ⟨ch', known', rfl, -⟩ := h.live c' sock sid live
      obtain rfl := Option.some.inj (known.symm.trans known')
      exact Wire.sockets_put_self ..
    · exact gone (h.dead c' ch known (by simpa [mine] using nobody))
  · exact (h.conveys c' ch known).gone sock

theorem replace (h : Streams l) (estate : Estate.Owned ⟨owners, l.wire⟩) {j : SocketId}
    {sock : Socket} {after : Option Socket} (here : l.wire.sockets j = some sock)
    (less : ∀ sock' ∈ after, sock'.fd = sock.fd ∧ sock'.outputQueue = sock.outputQueue ∨ sock'.fd = -1) :
    Streams { l with wire := l.wire.put j after } :=
  h.socket (.put j after l.wire) (estate.below here) (fun absent => by simp [absent] at here) h.debt
    (fun _ _ _ _ => rfl) fun c ch known same => by
      subst same
      cases after with
      | none => exact (h.conveys c ch known).gone ch.sock
      | some sock' => exact (h.conveys c ch known).restyle here (less sock' rfl)

theorem move (h : Streams l) (estate : Estate.Owned ⟨owners, l.wire⟩) {exposed : SocketId → Prop}
    {w : Wire} (move : Move exposed l.wire w) : Streams { l with wire := w } := by
  cases move with
  | flush gives => exact h.give estate gives h.debt (fun _ _ => rfl) fun _ _ _ => rfl
  | shut _ shut =>
    obtain ⟨sock, sock', here, rfl, -, closed, -⟩ := shut
    exact h.replace estate here fun _ same => .inr (Option.some.inj same ▸ closed.1)
  | connected here =>
    exact h.replace estate here fun _ same => .inl (Option.some.inj same ▸ ⟨rfl, rfl⟩)
  | refused _ here =>
    exact h.replace estate here fun _ same => .inl (Option.some.inj same ▸ ⟨rfl, rfl⟩)
  | abandoned => exact h.abandon (estate.fresh _ le_rfl)

theorem give_other (h : Streams l) (estate : Estate.Owned ⟨owners, l.wire⟩) {j : SocketId}
    {bytes : Bytes} {w : Wire} (gives : Gives j bytes l.wire w)
    (apart : ∀ c sid, l.session c ≠ some (j, sid)) : Streams { l with wire := w } :=
  h.give estate gives h.debt (fun _ _ => rfl) fun c sid live => absurd live (apart c sid)

theorem forward (h : Streams l) (estate : Estate.Owned ⟨owners, l.wire⟩)
    (unique : ∀ c c' i sid sid', l.session c = some (i, sid) → l.session c' = some (i, sid') → c = c')
    {c : ClientId} {tag : Iks} {tags : List Iks} (owed : l.debt = some (c, tag :: tags))
    {j : SocketId} {sid : UInt64} (live : l.session c = some (j, sid)) {w : Wire}
    (gives : Gives j (Iksemel.string tag).bytes l.wire w) :
    Streams { l with wire := w, debt := some (c, tags) } := by
  refine h.give estate gives (fun c' tags' same => ?_) (fun c' other => ?_) fun c' sid' live' => ?_
  · cases same
    exact h.debt c _ owed
  · have different : c ≠ c' := by
      rintro rfl
      exact other sid live
    simp [Lines.hand, owed, different]
  · obtain rfl := unique c c' j sid sid' live live'
    simp [Lines.hand, owed, serialised]

theorem forwarded (h : Streams l) {c : ClientId} (owed : l.debt = some (c, [])) :
    Streams { l with debt := none } := by
  have nothing : ∀ c', l.hand c' = [] := fun c' => by simp [Lines.hand, owed]
  refine ⟨h.unsent, h.unknown, nofun, h.live, h.dead, h.below, fun c' ch known => ?_⟩
  have conveys := h.conveys c' ch known
  rwa [nothing] at conveys

end Streams

section Steps
variable {Iks : Type} [Iksemel Iks] {a : Assumed} {p p' : Phase Iks} {s s' : Server Iks}

def Server.line (s : Server Iks) : ClientId → Option (SocketId × UInt64) :=
  Option.map (fun client => (client.sock, client.sid)) ∘ s.clients

def lines (q : Phase Iks × Server Iks) : Lines Iks :=
  ⟨q.2.net.wire, q.2.line, q.2.nextClient, q.1.debt, q.2.history⟩

omit [Iksemel Iks] in
theorem line_eq_some_iff {c : ClientId} {i : SocketId} {sid : UInt64} :
    s.line c = some (i, sid) ↔ ∃ client, s.clients c = some client ∧ client.sock = i ∧
      client.sid = sid := by
  simp [Server.line]

theorem named_iff (sound : Sound s) {request : HttpRequest} {c : ClientId} {message : Iks} :
    named s request = some (c, message) ↔
      ∃ sid i, posted request = some (sid, message) ∧ s.line c = some (i, sid) := by
  have hashed : ∀ sid, s.sids.find sid = some c ↔ ∃ i, s.line c = some (i, sid) := fun sid =>
    (HashTable.find_eq_some_iff sound.directory.distinct).trans <|
      (sound.directory.hashed sid c).trans <| by simp [Server.directory, Server.line]
  constructor
  · intro found
    obtain ⟨⟨sid, message'⟩, post, rest⟩ := Option.bind_eq_some_iff.mp found
    obtain ⟨c', here, same⟩ := Option.bind_eq_some_iff.mp rest
    cases same
    obtain ⟨i, live⟩ := (hashed sid).mp here
    exact ⟨sid, i, post, live⟩
  · rintro ⟨sid, i, post, live⟩
    have here := (hashed sid).mpr ⟨i, live⟩
    simp [named, post, here]

omit [Iksemel Iks] in
theorem line_unique (sound : Sound s) {c c' : ClientId} {i : SocketId} {sid sid' : UInt64}
    (mine : s.line c = some (i, sid)) (yours : s.line c' = some (i, sid')) : c = c' := by
  obtain ⟨client, here, rfl, -⟩ := line_eq_some_iff.mp mine
  obtain ⟨client', here', same, -⟩ := line_eq_some_iff.mp yours
  have owner := estate_session here'
  rw [same] at owner
  exact Owner.session.inj (sound.estate.unique (estate_session here) owner)

omit [Iksemel Iks] in
theorem line_apart (sound : Sound s) {h : ConnectionId} {connection : HttpConnection}
    (here : s.connections h = some connection) (c : ClientId) (sid : UInt64) :
    s.line c ≠ some (connection.sock, sid) := by
  intro live
  obtain ⟨client, there, same, -⟩ := line_eq_some_iff.mp live
  have owner := estate_session there
  rw [same] at owner
  cases sound.estate.unique (estate_connection here) owner

omit [Iksemel Iks] in
theorem line_update {c : ClientId} {client : Option (JabberClient Iks)} :
    Option.map (fun client => (client.sock, client.sid)) ∘ Function.update s.clients c client =
      Function.update s.line c (client.map fun client => (client.sock, client.sid)) :=
  Function.comp_update _ _ _ _

theorem Streams.of_line {session : ClientId → Option (SocketId × UInt64)}
    (h : Streams ⟨s.net.wire, session, s.nextClient, p.debt, s.history⟩) (same : s.line = session) :
    Streams (lines (p, s)) := by
  subst same
  exact h

theorem Micro.streams (step : Micro a (p, s) (p', s')) (sound : Sound s)
    (h : Streams (lines (p, s))) : Streams (lines (p', s')) := by
  have estate : Estate.Owned ⟨s.estate.sock, (lines (p, s)).wire⟩ := sound.estate
  have unused : s.line s.nextClient = none := by
    simp [Server.line, sound.unused]
  have kept : ∀ {c client client'}, s.clients c = some client →
      (client'.sock, client'.sid) = (client.sock, client.sid) →
      (s.setClient c (some client')).line = s.line :=
    fun here same => Table.map_update_same here same
  -- an answer goes out on a connection, and is no session's business
  have answered : ∀ {h' connection} {net : Net} {bytes} answerer body, s.connections h' =
    some connection →
      Gives connection.sock bytes s.net.wire net.wire →
      Streams { lines (p, s) with
        wire := net.wire, history := .answer h' answerer body :: s.history } :=
    fun answerer body here gives =>
      (h.give_other estate gives (line_apart sound here)).entry fun _ => rfl
  have deleted : ∀ {i} {net : Net}, Deletes i s.net.wire net.wire →
      Streams { lines (p, s) with wire := net.wire } := fun {i net} deleted => by
    obtain ⟨there, wire⟩ := deleted
    obtain ⟨sock, here⟩ := Option.isSome_iff_exists.mp there
    rw [wire]
    exact h.replace estate here (by simp)
  cases step with
  | monitor wire =>
    refine .of_line ?_ rfl
    rw [wire]
    exact h
  | move move => exact h.move estate move
  | stamp here => exact .of_line h (kept here rfl)
  | kill _ here => exact .of_line h (kept here rfl)
  | stanza _ here => exact .of_line (h.entry fun _ => rfl) (kept here rfl)
  | hold _ _ _ _ _ here => exact .of_line (h.entry fun _ => rfl) (kept here rfl)
  | discard _ _ gone => exact deleted gone
  | delete _ _ _ _ _ _ _ gone => exact (deleted gone).entry fun _ => rfl
  | deleteHeld _ _ _ here _ _ _ _ _ gone =>
    exact .of_line ((deleted gone).entry fun _ => rfl) (kept here rfl)
  | create _ _ _ wire =>
    refine .of_line ?_ rfl
    rw [wire]
    exact (h.push _).entry fun _ => rfl
  | receive => exact h.entry fun _ => rfl
  | request _ _ _ _ _ idle => exact h.request _ idle fun c message => named_iff sound
  | refuse here gives => exact h.give_other estate gives (line_apart sound here)
  | answer _ _ here gives => exact answered _ _ here gives
  | drop there _ here gives => exact .of_line (answered _ _ here gives) (kept there rfl)
  | flush there _ _ here gives => exact .of_line (answered _ _ here gives) (kept there rfl)
  | openSession _ _ _ _ _ _ wire =>
    refine .of_line ?_ line_update
    rw [wire]
    exact h.openSession unused
  | @forward _ _ c _ _ client _ _ owed here gives =>
    exact h.forward estate (fun _ _ _ _ _ => line_unique sound) owed
      (line_eq_some_iff.mpr ⟨client, here, rfl, rfl⟩) gives
  | forwarded _ owed => exact h.forwarded owed
  | @forget _ _ c client _ _ here _ settled _ _ gone =>
    refine .of_line ?_ line_update
    obtain ⟨-, wire⟩ := gone
    rw [wire]
    exact h.close (line_eq_some_iff.mpr ⟨client, here, rfl, rfl⟩) settled
  | _ => exact h

theorem streams_invariant (a : Assumed) :
    Invariant a fun q : Phase Iks × Server Iks => Streams (lines q) where
  initial s initial := by
    have nothing : s.line = fun _ => none := by
      funext c
      simp [Server.line, initial.clients]
    have silent : s.net.wire.sent = fun _ => [] := by
      obtain ⟨sends, sock, -, -, wire⟩ := initial.wire
      rw [wire]
      rfl
    refine .of_line ?_ nothing
    rw [initial.history]
    exact ⟨fun i _ => congrFun silent i, fun _ _ => rfl, nofun, nofun, nofun, nofun, nofun⟩
  hear s oracle h := by
    have conveys := h.conveys
    exact { h with conveys := fun c ch known => ⟨(conveys c ch known).before, (conveys c ch known).whole⟩ }
  micro _ _ _ _ step sound h := step.streams sound h

/-- While no request arrives on a connection that holds one for another session, the header and
then the tags of all POSTs that name the session and have a rid go to its Jabber server, in order
and each once. A POST without a rid is refused; where there is none, these are all that name it. -/
theorem stream_relayed {c : Configuration Iks} (run : Reaches NoOverlap c) :
    Relayed posted c.server ∧
      (Numbered c.server.history → Relayed naming c.server) := by
  obtain ⟨-, streams⟩ := (streams_invariant (Assumed.of False False)).reaches
    (fun _ _ _ => .always) run
  have relayed : Relayed posted c.server := by
    refine ⟨fun k ch known => (streams.conveys k ch known).before, fun k client here => ?_⟩
    obtain ⟨ch, known, sock, sid⟩ :=
      streams.live k _ _ (line_eq_some_iff.mpr ⟨client, here, rfl, rfl⟩)
    refine ⟨ch, known, sock, sid, fun x there opened => ?_⟩
    exact (List.append_nil _).symm.trans ((streams.conveys k ch known).whole x there opened)
  refine ⟨relayed, fun numbered => ?_⟩
  have same := channel_naming numbered
  exact ⟨fun k ch known => relayed.sent k ch (same k ▸ known),
    fun k client here => same k ▸ relayed.queued k client here⟩

end Steps

theorem stream_relayed_talked :
    Relayed naming (Sample.reached NoOverlap Sample.talked Sample.talked_apart).server :=
  (stream_relayed Sample.reaches_reached).2 (by decide +kernel)

/-- A POST without a rid names the session, and its tag goes nowhere. -/
example : (replay NoOverlap Sample.boot (Sample.accept 4 1 ++ Sample.arrive 4 (Sample.post "create") ++
    Sample.arrive 4 (Sample.post "bare"))).any fun c =>
      channel naming 0 c.server.history ≠ channel posted 0 c.server.history := by decide +kernel

/-- Session 1 has got the Socket of the first connection, and the answer to the request that
session 0 still holds goes to the Jabber server. -/
theorem stream_relayed_stale : ∃ p : Process Sample, p.Executes (fun _ _ => True) ∧
    Numbered p.server.history ∧ ¬ Relayed naming p.server := by
  obtain ⟨p, executes, numbered, meant, sent⟩ : ∃ p : Process Sample,
      p.Executes (fun _ _ => True) ∧ Numbered p.server.history ∧
        channel naming 1 p.server.history = some ⟨1, 5, jabberHeader (ascii "9")⟩ ∧
        p.server.net.sent 5 =
          jabberHeader (ascii "9") ++ httpResponse httpXmlContent emptyResponse :=
    Sample.exists_executed (Sample.orphaned ++ Sample.joined ++ Sample.iteration 4 .epollOut {} ++
      Sample.check 9000 fun _ => [.count 1000, .count 1000, .count 1000]) (by decide +kernel)
  refine ⟨p, executes, numbered, fun relayed => ?_⟩
  have short := (relayed.sent 1 _ meant).length_le
  rw [sent] at short
  simp only [List.length_append] at short
  have more : 0 < (httpResponse httpXmlContent emptyResponse).length := by decide +kernel
  omega

end Bosh
