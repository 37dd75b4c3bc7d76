import Bosh.Bind.Store
import Bosh.Server.Effects

/-! How the end of the Jabber stream reaches the session. -/
namespace Bosh
open Effect Text

variable {Iks : Type}

def queuedStanza : IksType × Option Iks → Option Iks
  | (.normal, some stanza) => some stanza
  | _ => none

def marksDead : IksType × Option Iks → Bool
  | (.error, some _) | (.stop, some _) => true
  | _ => false

def JabberClient.heard (events : List (IksType × Option Iks)) (client : JabberClient Iks) :
    JabberClient Iks :=
  { client with
    outputQueue := client.outputQueue ++ events.filterMap queuedStanza
    alive := client.alive && !events.any marksDead }

def Server.heard (c : ClientId) (client : JabberClient Iks) (events : List (IksType × Option Iks))
    (s : Server Iks) : Server Iks :=
  { s with
    clients := Function.update s.clients c (some (client.heard events))
    history := ((events.filterMap queuedStanza).map (Record.stanza c)).reverse ++ s.history }

@[simp] theorem JabberClient.heard_nil (client : JabberClient Iks) : client.heard [] = client := by
  simp [heard]

@[simp] theorem JabberClient.heard_heard (first second : List (IksType × Option Iks))
    (client : JabberClient Iks) :
    (client.heard first).heard second = client.heard (first ++ second) := by
  simp [heard, Bool.and_assoc]

@[simp] theorem Server.heard_heard (c : ClientId) (client : JabberClient Iks)
    (first second : List (IksType × Option Iks)) (s : Server Iks) :
    (s.heard c client first).heard c (client.heard first) second = s.heard c client (first ++ second) := by
  simp [heard]

theorem Server.heard_nil {s : Server Iks} {c : ClientId} {client : JabberClient Iks}
    (here : s.clients c = some client) : s.heard c client [] = s := by
  have unchanged : Function.update s.clients c (some client) = s.clients :=
    Function.update_eq_self_iff.mpr here.symm
  simp [heard, unchanged]

/-- What the chunks that one call of `jc_read_jabber` receives come to: the calls of the hook,
and whether the parser fails or the socket ends. -/
structure Reading (Iks : Type) where
  events : List (IksType × Option Iks)
  failed : Bool
  closed : Bool

/-- Reading stops at the first chunk that is not one, and at the first that does not parse. -/
def reading : List (Arrival Iks) → Reading Iks
  | [] => ⟨[], false, false⟩
  | arrival :: arrivals =>
    if received 8192 arrival.result = [] then ⟨[], false, arrival.result ≠ .again⟩
    else if arrival.ok then
      { reading arrivals with events := arrival.hooks ++ (reading arrivals).events }
    else ⟨arrival.hooks, true, false⟩

section Loops
variable {s : Server Iks} {c : ClientId} {client : JabberClient Iks}

theorem jcHandleStanza_run (here : s.clients c = some client) (hook : IksType × Option Iks) :
    jcHandleStanza c hook.1 hook.2 s = .ok ((), s.heard c client [hook]) := by
  have unchanged : Function.update s.clients c (some client) = s.clients :=
    Function.update_eq_self_iff.mpr here.symm
  obtain ⟨type, stanza⟩ := hook
  unfold jcHandleStanza
  cases stanza with
  | none =>
    have nothing : s.heard c client [(type, none)] = s := by
      cases type <;> simp [Server.heard, JabberClient.heard, List.filterMap_cons, queuedStanza,
        marksDead, unchanged]
    rw [nothing]
    rfl
  | some stanza =>
    cases type with
    | normal =>
      dsimp only
      rw [run_bind_ok (modifyClient_run here _)]
      simp [Server.heard, JabberClient.heard, queuedStanza, marksDead]
      rfl
    | error | stop =>
      dsimp only
      rw [modifyClient_run here]
      simp [Server.heard, JabberClient.heard, List.filterMap_cons, queuedStanza, marksDead]
    | start =>
      have nothing : s.heard c client [(.start, some stanza)] = s := by
        simp [Server.heard, JabberClient.heard, List.filterMap_cons, queuedStanza, marksDead,
          unchanged]
      rw [nothing]
      rfl

theorem hooks_run (events : List (IksType × Option Iks)) (here : s.clients c = some client) :
    (events.forM fun hook => jcHandleStanza c hook.1 hook.2) s = .ok ((), s.heard c client events) := by
  induction events generalizing s client with
  | nil =>
    rw [Server.heard_nil here]
    rfl
  | cons hook events ih =>
    rw [List.forM_eq_forM, List.forM_cons, run_bind_ok (jcHandleStanza_run here hook)]
    have here' : (s.heard c client [hook]).clients c = some (client.heard [hook]) :=
      Function.update_self ..
    have rest := ih here'
    rw [List.forM_eq_forM] at rest
    rw [rest, Server.heard_heard]
    rfl

theorem sockRecv_exact (n : Net) (i : SocketId) (len : Nat) (answer : RecvResult) :
    Ensures (sockRecv i len answer n) (fun bytes n' => bytes = received len answer ∧
      if received len answer = [] ∧ answer ≠ .again then Shuts i n.wire n'.wire else n' = n)
      fun _ => True := by
  have closing : Ensures (sockClose i n) (fun _ n' => Shuts i n.wire n'.wire) fun _ => True :=
    (sockClose_shuts i).mono (fun _ _ => id) fun _ _ => trivial
  unfold sockRecv
  rw [ensures_bind]
  refine (getSocket_spec i).mono ?_ fun _ _ => trivial
  rintro sock _ ⟨rfl, here⟩
  cases answer with
  | again => exact ⟨rfl, by simp⟩
  | fail =>
    rw [ensures_bind]
    exact closing.mono (fun _ n' shut => ⟨rfl, by simpa [received] using shut⟩) fun _ => id
  | data bytes =>
    dsimp only
    split
    · rename_i ended
      rw [ensures_bind]
      exact closing.mono (fun _ n' shut => ⟨rfl, by simpa [received, ended] using shut⟩) fun _ => id
    · rename_i more
      exact ⟨rfl, by simp [received, more]⟩

theorem jcReadLoop_exact (here : s.clients c = some client) (arrivals : List (Arrival Iks)) :
    Ensures (jcReadLoop c arrivals s) (fun ok s' => ok = !(reading arrivals).failed ∧ ∃ net,
      (if (reading arrivals).closed then Shuts client.sock s.net.wire net.wire else net = s.net) ∧
      s' = { s.heard c client (reading arrivals).events with net }) fun _ => True := by
  induction arrivals generalizing s client with
  | nil =>
    unfold jcReadLoop
    rw [run_bind_ok (getClient_run here), onNet, ensures_bind, ensures_part]
    refine (sockRecv_exact s.net client.sock 8192 .again).mono ?_ fun _ _ => trivial
    rintro bytes net ⟨rfl, same⟩
    rw [if_neg (by simp)] at same
    refine ⟨rfl, net, same, ?_⟩
    exact congrArg (fun s : Server Iks => { s with net }) (Server.heard_nil here).symm
  | cons arrival arrivals ih =>
    unfold jcReadLoop reading
    rw [run_bind_ok (getClient_run here), onNet, ensures_bind, ensures_part]
    refine (sockRecv_exact s.net client.sock 8192 arrival.result).mono ?_ fun _ _ => trivial
    rintro bytes net ⟨rfl, ended⟩
    by_cases empty : received 8192 arrival.result = []
    · rw [if_pos empty, if_pos empty]
      refine ⟨rfl, net, ?_, ?_⟩
      · simpa [empty] using ended
      · rw [Server.heard_nil here]
    · rw [if_neg fun stopped => empty stopped.1] at ended
      subst ended
      rw [if_neg empty, if_neg empty, run_bind_ok (hooks_run arrival.hooks here)]
      by_cases parsed : arrival.ok
      · rw [if_pos parsed, if_pos parsed]
        have here₁ : (s.heard c client arrival.hooks).clients c =
          some (client.heard arrival.hooks) :=
          Function.update_self ..
        refine (ih here₁).mono ?_ fun _ _ => trivial
        rintro ok s' ⟨rfl, net, closed, rfl⟩
        refine ⟨rfl, net, closed, ?_⟩
        rw [Server.heard_heard]
      · rw [if_neg parsed, if_neg parsed]
        exact ⟨rfl, s.net, by simp, rfl⟩

end Loops

section Whole
variable [Iksemel Iks] {s s' : Server Iks} {c : ClientId} {client : JabberClient Iks}

/-- Everything `jc_read_jabber` does: it reads, it flushes, and it may close the session. -/
theorem jcReadJabber_exact (upright : Upright s) (here : s.clients c = some client) {sock : Socket}
    (there : s.net.sockets client.sock = some sock) (connected : sock.status = .connected) :
    Ensures (jcReadJabber c s) (fun _ s' => ∃ net s₂,
      (∀ i, i ≠ client.sock → SameSocket i s.net.wire net.wire) ∧
      Flushes c (client.heard (reading s.oracle.arrivals).events)
        { s.heard c client (reading s.oracle.arrivals).events with net } s₂ ∧
      (if (reading s.oracle.arrivals).failed ∨ (reading s.oracle.arrivals).closed ∨
          (client.heard (reading s.oracle.arrivals).events).alive = false
        then Ended c s₂ s' else s' = s₂) ∧ Upright s') fun _ => True := by
  unfold jcReadJabber
  rw [run_get, ensures_bind]
  have work : AtWork c client.sock {} { busy := some (c, false) } s :=
    ⟨⟨false, rfl⟩, client, here, rfl⟩
  have loop : Ensures (jcReadLoop c s.oracle.arrivals s) (fun _ s' => Upright s') fun _ => True :=
    upright.of_sim (jcReadLoop_sim trivial _ work) (tidy_lasting.durable.jcReadLoop_keeps c _)
  refine ((jcReadLoop_exact here s.oracle.arrivals).both loop).mono ?_ fun _ _ => trivial
  generalize reading s.oracle.arrivals = r
  rintro ok s₁ ⟨⟨rfl, net, closed, rfl⟩, upright₁⟩
  have here₁ : ({ s.heard c client r.events with net } : Server Iks).clients c =
      some (client.heard r.events) := Function.update_self ..
  generalize same₁ : ({ s.heard c client r.events with net } : Server Iks) = s₁ at upright₁ here₁ ⊢
  have net₁ : s₁.net = net := by rw [← same₁]
  rw [ensures_bind]
  refine (jcFlushMessages_flushes upright₁ here₁).mono ?_ fun _ _ => trivial
  rintro _ s₂ ⟨flushes, upright₂⟩
  obtain ⟨client₂, here₂, sock₂, alive₂⟩ := flushes.stays here₁
  have socket := flushes.socket upright₁ here₁
  have others : ∀ i, i ≠ client.sock → SameSocket i s.net.wire net.wire := fun i other => by
    by_cases ended : r.closed
    · rw [if_pos ended] at closed
      obtain ⟨_, _, -, same, -⟩ := closed
      rw [same]
      exact (OnlySocket.put _ _ _).same other
    · rw [if_neg ended] at closed
      rw [closed]
      exact ⟨rfl, rfl, rfl⟩
  -- the socket is connected unless the reading has closed it
  have status : ∃ x, s₂.net.sockets client₂.sock = some x ∧
    (x.status ≠ .connected ↔ r.closed = true) := by
    have same : s₂.net.sockets client.sock = net.sockets client.sock := net₁ ▸ socket.sockets
    have mine : client₂.sock = client.sock := sock₂
    rw [mine, same]
    by_cases ended : r.closed
    · rw [if_pos ended] at closed
      obtain ⟨_, x, -, same, -, shut, -⟩ := closed
      refine ⟨x, ?_, by simp [shut.2, ended]⟩
      rw [← Net.wire_sockets, same, Wire.sockets_put_self]
    · rw [if_neg ended] at closed
      exact ⟨sock, closed ▸ there, by simp [connected, ended]⟩
  obtain ⟨x, there₂, left⟩ := status
  rw [run_bind_ok (getClient_run here₂), onNet, ensures_bind, ensures_part, getSocket_run there₂]
  have ends : (x.status ≠ .connected ∨ (!r.failed) = false ∨ client₂.alive = false) ↔
      (r.failed ∨ r.closed ∨ (client.heard r.events).alive = false) := by
    rw [left, alive₂]
    cases r.failed <;> cases r.closed <;> simp
  change Ensures ((if x.status ≠ .connected ∨ (!r.failed) = false ∨ client₂.alive = false
    then jbCloseClient c else pure ()) s₂) _ _
  by_cases finished : r.failed ∨ r.closed ∨ (client.heard r.events).alive = false
  · rw [if_pos (ends.mpr finished)]
    refine ((jbCloseClient_exact upright₂ here₂).both (jbCloseClient_upright upright₂ c)).mono ?_
      fun _ _ => trivial
    rintro _ s' ⟨ended, upright'⟩
    refine ⟨net, s₂, others, same₁ ▸ flushes, ?_, upright'⟩
    rw [if_pos finished]
    exact ended
  · rw [if_neg (mt ends.mp finished)]
    refine ⟨net, s₂, others, same₁ ▸ flushes, ?_, upright₂⟩
    rw [if_neg finished]

/-- The stream hook is called with no node at the closing tag, and with a node for a stream
error. -/
def Reported (events : List (IksType × Option Iks)) : Prop :=
  ∀ event ∈ events, (event.1 = .stop → event.2 = none) ∧ (event.1 = .error → event.2.isSome)

instance (events : List (IksType × Option Iks)) : Decidable (Reported events) :=
  inferInstanceAs (Decidable (∀ _ ∈ _, _))

/-- The request that the session held has been answered with all that was queued, and nothing but
the end of the session has come after. -/
def FlushedFirst (c : ClientId) (client : JabberClient Iks) (news : List Iks) (s s' : Server Iks) :
    Prop :=
  ∀ h, client.connection = some h → client.outputQueue ++ news ≠ [] → ∃ connection ending,
    s.connections h = some connection ∧ (ending = [] ∨ ending = [.closeSession c]) ∧
    s'.history = ending ++ .answer h (.flushMessages c (client.outputQueue ++ news))
        (messageWrapper (serialised (client.outputQueue ++ news))) ::
      (news.map (Record.stanza c)).reverse ++ s.history ∧
    Given connection.sock
      (httpResponse httpXmlContent (messageWrapper (serialised (client.outputQueue ++ news))))
      s.net.wire s'.net.wire

/-- The session ends with its stream and not before, and what was queued is flushed first. -/
structure EndsRight (c : ClientId) (client : JabberClient Iks) (r : Reading Iks)
    (s s' : Server Iks) : Prop where
  ended : s'.Gone c ↔ r.failed ∨ r.closed ∨ ∃ event ∈ r.events, event.1 = .stop ∨ event.1 = .error
  flushed : FlushedFirst c client (r.events.filterMap queuedStanza) s s'

omit [Iksemel Iks] in
theorem Reported.marksDead_iff {events : List (IksType × Option Iks)} (reported : Reported events) :
    events.any marksDead = true ↔ ∃ event ∈ events, event.1 = .error := by
  rw [List.any_eq_true]
  refine exists_congr fun event => and_congr_right fun listed => ?_
  obtain ⟨stop, error⟩ := reported event listed
  obtain ⟨type, stanza⟩ := event
  cases type <;> cases stanza <;> simp_all [marksDead]

omit [Iksemel Iks] in
theorem Ended.unheld (ended : Ended c s s') (here : s.clients c = some client)
    (unheld : client.connection = none) : Forgotten c s s' := by
  cases ended with
  | idle _ _ gone => exact gone
  | held dropped _ =>
    obtain ⟨client', _, _, _, _, _, here', held, -⟩ := dropped
    obtain rfl := Option.some.inj (here.symm.trans here')
    simp [unheld] at held

omit [Iksemel Iks] in
theorem Ended.clients_self (ended : Ended c s s') : s'.clients c = none := by
  cases ended with
  | idle _ _ gone => exact gone.clients_self
  | held _ gone => exact gone.clients_self

/-- The session is gone exactly when the parser failed, the socket ended or the hook marked the
session as dead, and what was queued has been flushed before that. -/
theorem jcReadJabber_ends (upright : Upright s) (here : s.clients c = some client)
    (alive : client.alive = true) {sock : Socket} (there : s.net.sockets client.sock = some sock)
    (connected : sock.status = .connected) (done : jcReadJabber c s = .ok ((), s')) :
    (s'.Gone c ↔ (reading s.oracle.arrivals).failed ∨ (reading s.oracle.arrivals).closed ∨
        (reading s.oracle.arrivals).events.any marksDead = true) ∧
      FlushedFirst c client ((reading s.oracle.arrivals).events.filterMap queuedStanza) s s' := by
  obtain ⟨net, s₂, others, flushes, closed, upright'⟩ :=
    (jcReadJabber_exact upright here there connected).of_ok done
  generalize reading s.oracle.arrivals = r at flushes closed ⊢
  have here₁ : ({ s.heard c client r.events with net } : Server Iks).clients c =
      some (client.heard r.events) := Function.update_self ..
  have dead : (client.heard r.events).alive = false ↔ r.events.any marksDead = true := by
    simp [JabberClient.heard, alive]
  have ended : r.failed ∨ r.closed ∨ r.events.any marksDead = true → Ended c s₂ s' :=
    fun finished => by
    rw [← dead] at finished
    simpa [finished] using closed
  have stayed : ¬ (r.failed ∨ r.closed ∨ r.events.any marksDead = true) → s' = s₂ := fun going => by
    rw [← dead] at going
    simpa [going] using closed
  constructor
  · rw [upright'.gone_iff]
    by_cases finished : r.failed ∨ r.closed ∨ r.events.any marksDead = true
    · simp only [(ended finished).clients_self, finished]
    · obtain ⟨client₂, here₂, -⟩ := flushes.stays here₁
      rw [stayed finished, here₂]
      exact iff_of_false (by simp) finished
  · intro h held waiting
    cases flushes with
    | nothing idle =>
      rcases idle with unheld | empty
      · exact absurd (held.symm.trans unheld) (by simp)
      · exact absurd empty waiting
    | emptied _ emptied =>
      obtain ⟨client₁, h', connection, net₂, clock, oracle, mine, held', found, gives, later⟩ :=
        emptied
      obtain rfl := Option.some.inj (here₁.symm.trans mine)
      obtain rfl := Option.some.inj (held.symm.trans held')
      -- the connection's socket is not the session's
      have apart : connection.sock ≠ client.sock := fun equal => by
        have owners := upright.apart (estate_connection found) (equal ▸ estate_session here)
        cases owners
      obtain ⟨x, there'⟩ := Option.isSome_iff_exists.mp (upright.socket_connection found)
      have given := (Given.nothing there' (others _ apart)).trans gives.given
      rw [List.nil_append] at given
      by_cases finished : r.failed ∨ r.closed ∨ r.events.any marksDead = true
      · have gone := (ended finished).unheld (Function.update_self ..) rfl
        have last := gone.socket (Function.update_self ..) apart
        refine ⟨connection, [.closeSession c], found, .inr rfl, ?_, given.then last⟩
        cases gone
        rfl
      · obtain rfl := stayed finished
        exact ⟨connection, [], found, .inl rfl, rfl, given⟩

/-- `jc_handle_stanza` looks for a node before it looks at the type. The session ends as it
should exactly when no closing tag is reported, or when it ends for another reason, too. -/
theorem stream_end_iff {r : Configuration Iks} (run : Reachable r) (oracle : Oracle Iks)
    (here : r.server.clients c = some client) {sock : Socket}
    (there : r.server.net.sockets client.sock = some sock) (connected : sock.status = .connected)
    (reported : Reported (reading oracle.arrivals).events)
    (done : jcReadJabber c (r.server.hear oracle) = .ok ((), s')) :
    EndsRight c client (reading oracle.arrivals) (r.server.hear oracle) s' ↔
      ((∃ event ∈ (reading oracle.arrivals).events, event.1 = .stop) →
        (reading oracle.arrivals).failed ∨ (reading oracle.arrivals).closed ∨
          ∃ event ∈ (reading oracle.arrivals).events, event.1 = .error) := by
  have alive := run.alive here
  obtain ⟨ends, flushed⟩ :=
    jcReadJabber_ends (run.upright.hear oracle) here alive there connected done
  replace ends : s'.Gone c ↔ (reading oracle.arrivals).failed ∨ (reading oracle.arrivals).closed ∨
      ∃ event ∈ (reading oracle.arrivals).events, event.1 = .error := by
    rw [← reported.marksDead_iff]
    exact ends
  have split : (∃ event ∈ (reading oracle.arrivals).events, event.1 = .stop ∨ event.1 = .error) ↔
      (∃ event ∈ (reading oracle.arrivals).events, event.1 = .stop) ∨
        ∃ event ∈ (reading oracle.arrivals).events, event.1 = .error := by
    simp only [and_or_left, exists_or]
  constructor
  · rintro ⟨right, -⟩ stop
    exact ends.mp (right.mpr (.inr (.inr (split.mpr (.inl stop)))))
  · intro other
    refine ⟨?_, flushed⟩
    rw [ends, split]
    constructor
    · exact Or.imp_right (Or.imp_right .inr)
    · rintro (failed | closed | stop | error)
      · exact .inl failed
      · exact .inr (.inl closed)
      · exact other stop
      · exact .inr (.inr error)

end Whole

namespace Sample

def connected : List (Input Sample) := held ++ iteration 9 .epollOut {}

theorem connected_works : (replay (fun _ _ => True) boot connected).isSome := by decide +kernel

def hooked (type : IksType) (stanza : Option Sample) : Oracle Sample :=
  { arrivals := [{ result := .data [60], hooks := [(type, stanza)] }] }

theorem connected_session :
    ((reached (fun _ _ => True) connected connected_works).server.clients 0).any
    fun client => client.sock = 2 ∧ client.connection = some 1 := by decide +kernel

theorem connected_socket :
    ((reached (fun _ _ => True) connected connected_works).server.net.sockets 2).any
    fun sock => sock.status = .connected := by decide +kernel

theorem connected_stop : (jcReadJabber 0
    ((reached (fun _ _ => True) connected connected_works).server.hear (hooked .stop none))).toOption.isSome := by
  decide +kernel

theorem connected_normal :
    (jcReadJabber 0 ((reached (fun _ _ => True) connected connected_works).server.hear
    (hooked .normal (some .stanza)))).toOption.isSome := by
  decide +kernel

theorem connected_reads : ∃ r : Configuration Sample, Reachable r ∧
    (∃ client sock, r.server.clients 0 = some client ∧ client.connection = some 1 ∧
      r.server.net.sockets client.sock = some sock ∧ sock.status = .connected) ∧
    (∃ s', jcReadJabber 0 (r.server.hear (hooked .stop none)) = .ok ((), s')) ∧
    ∃ s', jcReadJabber 0 (r.server.hear (hooked .normal (some .stanza))) = .ok ((), s') := by
  have returns : ∀ {run : Except Fault (Unit × Server Sample)}, run.toOption.isSome →
      ∃ s', run = .ok ((), s') := fun done => by
    obtain ⟨result, ran⟩ := Option.isSome_iff_exists.mp done
    exact ⟨result.2, ok_of_toOption ran⟩
  obtain ⟨client, here, mine⟩ := (Option.any_eq_true _ _).mp connected_session
  obtain ⟨sock, there, status⟩ := (Option.any_eq_true _ _).mp connected_socket
  obtain ⟨number, held⟩ := of_decide_eq_true mine
  refine ⟨_, reaches_reached, ⟨client, sock, here, held, ?_, of_decide_eq_true status⟩,
    returns connected_stop, returns connected_normal⟩
  rw [number]
  exact there

end Sample

theorem reading_hooked (type : IksType) (stanza : Option Sample) :
    reading (Sample.hooked type stanza).arrivals = ⟨[(type, stanza)], false, false⟩ := rfl

theorem stream_end_iff_normal : ∃ (r : Configuration Sample) (s' : Server Sample), Reachable r ∧
    jcReadJabber 0 (r.server.hear (Sample.hooked .normal (some .stanza))) = .ok ((), s') ∧
    ¬ s'.Gone 0 ∧ ∃ popped, .answer 1 (.flushMessages 0 popped) (messageWrapper (serialised popped)) ∈ s'.history := by
  obtain ⟨r, run, ⟨client, sock, here, held, there, connected⟩, -, s', done⟩ :=
    Sample.connected_reads
  have right := (stream_end_iff run _ here there connected (by decide) done).mpr (by decide)
  rw [reading_hooked] at right
  refine ⟨r, s', run, done, fun gone => ?_, client.outputQueue ++ [.stanza], ?_⟩
  · exact absurd (right.ended.mp gone) (by decide)
  · obtain ⟨connection, ending, -, -, history, -⟩ := right.flushed 1 held (by simp [queuedStanza])
    rw [history]
    simp [queuedStanza]

/-- The closing tag of the stream, on a session whose socket is connected. -/
theorem stream_end_stop : ¬ ∀ (r : Configuration Sample) (oracle : Oracle Sample) (c : ClientId)
    (client : JabberClient Sample) (sock : Socket) (s' : Server Sample), Reachable r →
      r.server.clients c = some client → r.server.net.sockets client.sock = some sock →
      sock.status = .connected → Reported (reading oracle.arrivals).events →
      jcReadJabber c (r.server.hear oracle) = .ok ((), s') →
      EndsRight c client (reading oracle.arrivals) (r.server.hear oracle) s' := fun claim => by
  obtain ⟨r, run, ⟨client, sock, here, -, there, connected⟩, ⟨s', done⟩, -⟩ :=
    Sample.connected_reads
  have right := claim r (Sample.hooked .stop none) 0 client sock s' run here there connected (by decide) done
  have ends := (jcReadJabber_ends (run.upright.hear _) here (run.alive here) there connected done).1
  have dead : (reading (Sample.hooked .stop none).arrivals).failed ∨
      (reading (Sample.hooked .stop none).arrivals).closed ∨
      (reading (Sample.hooked .stop none).arrivals).events.any marksDead = true :=
    ends.mp (right.ended.mpr (by decide))
  exact absurd dead (by decide)

end Bosh
