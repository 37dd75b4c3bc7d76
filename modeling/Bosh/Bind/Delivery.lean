import Bosh.Server.Pools

/-! From the Jabber server to the client: every stanza that a session has received is in one
of the bodies it has sent, or still in its queue. -/
namespace Bosh
open Effect Text

section History
variable {Iks : Type} [Iksemel Iks]

/-- The stanzas that `jc_handle_stanza` has been given for a session, in order. -/
def handled (c : ClientId) : List (Record Iks) → List Iks
  | [] => []
  | .stanza c' stanza :: older => handled c older ++ if c' = c then [stanza] else []
  | _ :: older => handled c older

/-- The stanzas that `jc_flush_messages` has put into the bodies of a session, in order. -/
def flushed (c : ClientId) : List (Record Iks) → List Iks
  | [] => []
  | .answer _ (.flushMessages c' popped) _ :: older =>
    flushed c older ++ if c' = c then popped else []
  | _ :: older => flushed c older

def Serialised (history : List (Record Iks)) : Prop :=
  ∀ h c popped body, .answer h (.flushMessages c popped) body ∈ history →
    body = messageWrapper (serialised popped)

def Unheard (next : ClientId) (history : List (Record Iks)) : Prop :=
  ∀ c, next ≤ c → handled c history = [] ∧ flushed c history = []

end History

/-- What the sessions hold, each a connection and the stanzas that wait, and what has
happened to them. -/
structure Mail (Iks : Type) where
  box : ClientId → Option (Option ConnectionId × List Iks)
  busy : Option (ClientId × Bool)
  next : ClientId
  history : List (Record Iks)

structure Delivered {Iks : Type} [Iksemel Iks] (m : Mail Iks) : Prop where
  unheard : Unheard m.next m.history
  bodies : Serialised m.history
  /-- No loss, no repetition, no change of order. -/
  queued : ∀ c connection queue, m.box c = some (connection, queue) →
    handled c m.history = flushed c m.history ++ queue
  /-- Only a session at work holds a connection while stanzas wait. -/
  settled : ∀ c h queue, m.box c = some (some h, queue) →
    queue = [] ∨ ∃ dead, m.busy = some (c, dead)

section Steps
variable {Iks : Type} [Iksemel Iks] {a : Assumed} {p p' : Phase Iks} {s s' : Server Iks}

def Server.box (s : Server Iks) : ClientId → Option (Option ConnectionId × List Iks) :=
  Option.map (fun client => (client.connection, client.outputQueue)) ∘ s.clients

def mail (q : Phase Iks × Server Iks) : Mail Iks := ⟨q.2.box, q.1.busy, q.2.nextClient, q.2.history⟩

omit [Iksemel Iks] in
theorem box_update {c : ClientId} {client : Option (JabberClient Iks)} :
    Option.map (fun client => (client.connection, client.outputQueue)) ∘
        Function.update s.clients c client =
      Function.update s.box c (client.map fun client => (client.connection, client.outputQueue)) :=
  Function.comp_update _ _ _ _

omit [Iksemel Iks] in
theorem box_of {c : ClientId} {client : JabberClient Iks} (here : s.clients c = some client) :
    s.box c = some (client.connection, client.outputQueue) := by
  simp [Server.box, here]

theorem Serialised.cons {entry : Record Iks} {older : List (Record Iks)} (h : Serialised older)
    (new : ∀ k c popped body, entry = .answer k (.flushMessages c popped) body →
      body = messageWrapper (serialised popped)) : Serialised (entry :: older) := by
  intro k c popped body listed
  rcases List.mem_cons.mp listed with same | earlier
  · exact new k c popped body same.symm
  · exact h k c popped body earlier

namespace Delivered
variable {m : Mail Iks}

theorem of_box {box : ClientId → Option (Option ConnectionId × List Iks)}
    (h : Delivered ⟨box, p.busy, s.nextClient, s.history⟩) (same : s.box = box) :
    Delivered (mail (p, s)) := by
  subst same
  exact h

theorem entry (h : Delivered m) {entry : Record Iks} (apart : ∀ c,
      handled c (entry :: m.history) = handled c m.history ∧
        flushed c (entry :: m.history) = flushed c m.history)
    (other : ∀ k c popped body, entry ≠ .answer k (.flushMessages c popped) body) :
    Delivered { m with history := entry :: m.history } where
  unheard c new := by
    rw [(apart c).1, (apart c).2]
    exact h.unheard c new
  bodies := h.bodies.cons fun k c popped body same => absurd same (other k c popped body)
  queued c connection queue there := by
    rw [(apart c).1, (apart c).2]
    exact h.queued c connection queue there
  settled := h.settled

theorem revise (h : Delivered m) {c : ClientId} {connection : Option ConnectionId}
    {queue : List Iks} {history : List (Record Iks)} (known : c < m.next)
    (bodies : Serialised history) (others : ∀ c', c' ≠ c →
      handled c' history = handled c' m.history ∧ flushed c' history = flushed c' m.history)
    (queued : handled c history = flushed c history ++ queue)
    (settled : connection = none ∨ ∃ dead, m.busy = some (c, dead)) :
    Delivered { m with box := Function.update m.box c (some (connection, queue)), history } := by
  refine ⟨fun c' new => ?_, bodies, fun c' connection' queue' there => ?_,
    fun c' k queue' there => ?_⟩
  · obtain ⟨same, same'⟩ := others c' (Nat.lt_of_lt_of_le known new).ne'
    rw [same, same']
    exact h.unheard c' new
  · rcases Table.of_update there with ⟨rfl, new⟩ | ⟨other, old⟩
    · cases new
      exact queued
    · obtain ⟨same, same'⟩ := others c' other
      rw [same, same']
      exact h.queued c' _ _ old
  · rcases Table.of_update there with ⟨rfl, new⟩ | ⟨-, old⟩
    · cases new
      rcases settled with free | busy
      · cases free
      · exact .inr busy
    · exact h.settled c' k queue' old

theorem leave (h : Delivered m) {c : ClientId} {connection : Option ConnectionId} {queue : List Iks}
    (known : c < m.next) (here : m.box c = some (connection, queue)) :
    Delivered { m with box := Function.update m.box c (some (none, queue)) } :=
  h.revise known h.bodies (fun _ _ => ⟨rfl, rfl⟩) (h.queued c _ _ here) (.inl rfl)

theorem work (h : Delivered m) {c : ClientId} (dead : Bool)
    (mine : m.busy = none ∨ ∃ dead, m.busy = some (c, dead)) :
    Delivered { m with busy := some (c, dead) } where
  unheard := h.unheard
  bodies := h.bodies
  queued := h.queued
  settled c' k queue there := by
    rcases h.settled c' k queue there with empty | ⟨_, busy⟩
    · exact .inl empty
    · rcases mine with idle | ⟨_, mine⟩
      · rw [idle] at busy
        cases busy
      · rw [mine] at busy
        cases busy
        exact .inr ⟨dead, rfl⟩

theorem rest (h : Delivered m) {c : ClientId}
    (mine : m.busy = none ∨ ∃ dead, m.busy = some (c, dead))
    (done : ∀ k queue, m.box c = some (some k, queue) → queue = []) :
    Delivered { m with busy := none } where
  unheard := h.unheard
  bodies := h.bodies
  queued := h.queued
  settled c' k queue there := by
    rcases h.settled c' k queue there with empty | ⟨_, busy⟩
    · exact .inl empty
    · rcases mine with idle | ⟨_, mine⟩
      · rw [idle] at busy
        cases busy
      · rw [mine] at busy
        cases busy
        exact .inl (done k queue there)

theorem hold (h : Delivered m) {c : ClientId} {dead : Bool} (mine : m.busy = some (c, dead))
    {connection : Option ConnectionId} {queue : List Iks} (known : c < m.next) (k : ConnectionId)
    (here : m.box c = some (connection, queue)) :
    Delivered { m with box := Function.update m.box c (some (some k, queue)) } :=
  h.revise known h.bodies (fun _ _ => ⟨rfl, rfl⟩) (h.queued c _ _ here) (.inr ⟨dead, mine⟩)

theorem stanza (h : Delivered m) {c : ClientId} {dead : Bool} (mine : m.busy = some (c, dead))
    {connection : Option ConnectionId} {queue : List Iks} (known : c < m.next) (stanza : Iks)
    (here : m.box c = some (connection, queue)) : Delivered { m with
      box := Function.update m.box c (some (connection, queue ++ [stanza]))
      history := .stanza c stanza :: m.history } := by
  refine h.revise known (h.bodies.cons (by simp)) (fun c' other => ?_) ?_ (.inr ⟨dead, mine⟩)
  · simp [handled, flushed, Ne.symm other]
  · simp [handled, flushed, h.queued c _ _ here]

theorem flush (h : Delivered m) {c : ClientId} {connection : Option ConnectionId} {queue : List Iks}
    (known : c < m.next) (k : ConnectionId) (here : m.box c = some (connection, queue)) :
    Delivered { m with
      box := Function.update m.box c (some (none, []))
      history := .answer k (.flushMessages c queue) (messageWrapper (serialised queue)) ::
        m.history } := by
  refine h.revise known (h.bodies.cons ?_) (fun c' other => ?_) ?_ (.inl rfl)
  · intro _ _ _ _ same
    cases same
    rfl
  · simp [handled, flushed, Ne.symm other]
  · simp [handled, flushed, h.queued c _ _ here]

theorem openSession (h : Delivered m) : Delivered { m with
    box := Function.update m.box m.next (some (none, []))
    next := m.next + 1 } := by
  refine ⟨fun c new => h.unheard c (Nat.le_of_succ_le new), h.bodies,
    fun c connection queue there => ?_, fun c k queue there => ?_⟩
  · rcases Table.of_update there with ⟨rfl, new⟩ | ⟨-, old⟩
    · cases new
      obtain ⟨none, nothing⟩ := h.unheard m.next le_rfl
      simp [none, nothing]
    · exact h.queued c _ _ old
  · rcases Table.of_update there with ⟨-, new⟩ | ⟨-, old⟩
    · cases new
    · exact h.settled c k queue old

theorem close (h : Delivered m) (c : ClientId) :
    Delivered { m with box := Function.update m.box c none } where
  unheard := h.unheard
  bodies := h.bodies
  queued c' connection queue there := h.queued c' connection queue (Table.of_update_none there).2
  settled c' k queue there := h.settled c' k queue (Table.of_update_none there).2

end Delivered

theorem Micro.delivered (step : Micro a (p, s) (p', s')) (sound : Sound s)
    (h : Delivered (mail (p, s))) : Delivered (mail (p', s')) := by
  have kept : ∀ {c client client'}, s.clients c = some client →
      (client'.connection, client'.outputQueue) = (client.connection, client.outputQueue) →
      (s.setClient c (some client')).box = s.box := fun here same =>
    Table.map_update_same here same
  cases step with
  | stamp here => exact .of_box h (kept here rfl)
  | kill busy here => exact .of_box (h.work true (.inr ⟨_, busy⟩)) (kept here rfl)
  | create => exact h.entry (fun _ => ⟨rfl, rfl⟩) (by simp)
  | receive => exact h.entry (fun _ => ⟨rfl, rfl⟩) (by simp)
  | request => exact h.entry (fun _ => ⟨rfl, rfl⟩) (by simp)
  | delete => exact h.entry (fun _ => ⟨rfl, rfl⟩) (by simp)
  | answer => exact h.entry (fun _ => ⟨rfl, rfl⟩) (by simp)
  | deleteHeld _ _ _ here =>
    exact .of_box ((h.leave (sound.known here) (box_of here)).entry (fun _ => ⟨rfl, rfl⟩) (by simp)) box_update
  | drop here =>
    exact .of_box ((h.leave (sound.known here) (box_of here)).entry (fun _ => ⟨rfl, rfl⟩) (by simp)) box_update
  | @flush _ _ c client k _ _ _ here =>
    exact .of_box (h.flush (sound.known here) k (box_of here)) box_update
  | @hold _ _ c _ client k _ _ _ _ _ idle here =>
    have busy := h.work (c := c) false (.inl idle)
    exact .of_box ((busy.hold rfl (sound.known here) k (box_of here)).entry (fun _ => ⟨rfl, rfl⟩) (by simp)) box_update
  | openSession => exact .of_box (h.openSession.entry (fun _ => ⟨rfl, rfl⟩) (by simp)) box_update
  | wake _ idle => exact h.work false (.inl idle)
  | stanza busy here => exact .of_box (h.stanza busy (sound.known here) _ (box_of here)) box_update
  | settle busy here done =>
    apply h.rest (.inr ⟨_, busy⟩)
    intro k queue there
    have same := (box_of here).symm.trans there
    rw [Option.some.injEq, Prod.mk.injEq] at same
    rcases done with free | empty
    · simp [free] at same
    · rw [← same.2, empty]
  | @forget _ _ c _ _ _ here _ _ mine =>
    have closed := (h.close c).rest (c := c) mine (by simp)
    exact .of_box (closed.entry (fun _ => ⟨rfl, rfl⟩) (by simp)) box_update
  | _ => exact h

theorem delivered_invariant (a : Assumed) :
    Invariant a fun q : Phase Iks × Server Iks => Delivered (mail q) where
  initial s initial := by
    have empty : s.box = fun _ => none := by
      funext c
      simp [Server.box, initial.clients]
    refine .of_box ?_ empty
    rw [initial.history]
    exact ⟨fun _ _ => ⟨rfl, rfl⟩, fun _ _ _ _ listed => (nomatch listed), nofun, nofun⟩
  hear _ _ h := h
  micro _ _ _ _ step sound h := step.delivered sound h

/-- While no request arrives on a connection that holds one for another session, every stanza
reaches the client in order, once, and none waits while a request is held. -/
theorem stanza_delivery {c : Configuration Iks} (run : Reaches NoOverlap c) :
    (∀ k client, c.server.clients k = some client →
      handled k c.server.history = flushed k c.server.history ++ client.outputQueue ∧
        (client.connection = none ∨ client.outputQueue = [])) ∧
      ∀ h k popped body, .answer h (.flushMessages k popped) body ∈ c.server.history →
        body = messageWrapper (serialised popped) := by
  obtain ⟨-, delivered⟩ := (delivered_invariant (Assumed.of False False)).reaches
    (fun _ _ _ => .always) run
  refine ⟨fun k client here => ⟨delivered.queued k _ _ (box_of here), ?_⟩, delivered.bodies⟩
  cases held : client.connection with
  | none => exact .inl rfl
  | some h =>
    rcases delivered.settled k h _ (held ▸ box_of here) with empty | ⟨_, busy⟩
    · exact .inr empty
    · cases busy

end Steps

theorem stanza_delivery_talked :
    handled 0 (Sample.reached NoOverlap Sample.talked Sample.talked_apart).server.history =
      [.stanza] ++ [] :=
  ((stanza_delivery Sample.reaches_reached).1 0 _ (Option.some_get (by decide +kernel)).symm).1.trans
    (by decide +kernel)

/-- The list of session 1 has been that of the first connection's Socket: while the session holds
a request of its own, the two parts of the answer to session 0 are put there. -/
theorem stanza_delivery_stale : ∃ p : Process Sample, p.Executes (fun _ _ => True) ∧
    p.server.holding 1 = some 1 ∧
    p.outputQueue 1 = [.item (itemNew (makeHttpHead 200 emptyResponse.length httpXmlContent)
        (makeHttpHead 200 emptyResponse.length httpXmlContent).length 0),
      .item (itemNew emptyResponse emptyResponse.length 0)] ∧
    (handled 1 p.server.history).map .stanza ≠
      (flushed 1 p.server.history).map .stanza ++ p.outputQueue 1 :=
  Sample.exists_executed (Sample.orphaned ++ Sample.receive 6 [] {} ++ Sample.joined ++
    Sample.receive 5 (Sample.post "other") { ticks := [5000] } ++ Sample.check 4000 fun _ => [])
    (by decide +kernel)

end Bosh
