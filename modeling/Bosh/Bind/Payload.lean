import Bosh.Bind.Ending
import Bosh.Bind.Handling
import Bosh.Server.Queues

/-! What becomes of the stanzas of a request that ends its session. -/
namespace Bosh
open Effect Text

/-- The kernel has accepted these bytes behind what it had, or a `send` has failed. -/
def Net.Accepts (i : SocketId) (bytes : Bytes) (n n' : Net) : Prop :=
  (∃ used, n.sends i = used ++ n'.sends i ∧ .fail ∈ used) ∨ n'.sent i = n.sent i ++ bytes

theorem sockSends_outlet {n : Net} {i : SocketId} {o : Outlet} (last : Option Bytes)
    (buffers : List Bytes) (shown : n.wire.outlet i = some o) :
    Ensures (sockSends i last buffers n) (fun _ n' => n'.wire.outlet i =
      some ((o.steps (buffers.map fun buffer => .send (some buffer) true)).step (.send last false))) Unrelated := by
  induction buffers generalizing n o with
  | nil => exact sockSend_outlet last false shown
  | cons buffer buffers ih =>
    rw [sockSends, ensures_bind]
    exact (sockSend_outlet (some buffer) true shown).mono (fun _ n₁ shown₁ => ih shown₁) fun _ => id

section Payload
variable {Iks : Type} {s s' : Server Iks} {c : ClientId} {client : JabberClient Iks}

theorem Ended.sent (ended : Ended c s s') (upright : Upright s) (here : s.clients c = some client) :
    s'.net.sends client.sock = s.net.sends client.sock ∧
      s'.net.sent client.sock = s.net.sent client.sock := by
  have last : ∀ {s₁ : Server Iks}, Forgotten c s₁ s' →
      s'.net.sends client.sock = s₁.net.sends client.sock ∧
        s'.net.sent client.sock = s₁.net.sent client.sock := by
    rintro s₁ ⟨_, _, net, -, -, -, -, wire⟩
    exact ⟨congrFun (congrArg Wire.sends wire) _, congrFun (congrArg Wire.sent wire) _⟩
  cases ended with
  | idle _ _ gone => exact last gone
  | held dropped gone =>
    have same := dropped.socket upright here
    obtain ⟨sends, sent⟩ := last gone
    exact ⟨sends.trans same.sends, sent.trans same.sent⟩

variable [Iksemel Iks] {r : Configuration Iks} {oracle : Oracle Iks} {request : HttpRequest}
  {message : Iks} {sock : Socket}

def texts (message : Iks) : List Bytes :=
  (Iksemel.tags message).map fun stanza => (Iksemel.string stanza).bytes

theorem texts_flatten (message : Iks) :
    (texts message).flatten = serialised (Iksemel.tags message) := by
  rw [texts, serialised, List.flatMap_def]

/-- The queue of the session's socket is flushed once before the socket is closed. The stanzas and
what waited before them get out exactly when the socket is connected and the kernel takes
everything now, or when there is nothing. -/
theorem terminate_delivers_iff (run : Reachable r) (handed : HandedOver r oracle request s)
    (who : named s request = some (c, message)) (terminates : isTerminate message = true)
    (here : s.clients c = some client) (there : s.net.sockets client.sock = some sock)
    (done : jbHandleRequest request s = .ok ((), s')) :
    s.net.Accepts client.sock (unsent sock.outputQueue ++ serialised (Iksemel.tags message)) s'.net ↔
      (sock.status = .connected ∧ drains (s.net.sends client.sock)
        (sock.outputQueue.map QueueItem.rest ++ (texts message).map List.length) = true) ∨
      unsent sock.outputQueue ++ serialised (Iksemel.tags message) = [] := by
  have upright := handed.upright run
  have sized : s.net.Sized := by
    cases handed
    exact run.keeps sized_lasting
  cases (jbHandleRequest_serves upright who).of_ok done with
  | @intro s₁ client₁ net sets upright₁ here₁ forwarded upright₂ ends =>
    rw [if_pos terminates] at ends
    obtain ⟨client', here', mine⟩ := sets.stays here
    obtain rfl := Option.some.inj (here₁.symm.trans here')
    -- the socket as the request finds it, after the stanzas, and when it is closed
    have same := sets.socket upright here
    have shown : s₁.net.wire.outlet client₁.sock =
        some ⟨sock.outputQueue, s.net.sends client.sock, s.net.sent client.sock, sock.fd,
          sock.status⟩ := by
      rw [mine, outlet_of (same.sockets.trans there), same.sends, same.sent]
      rfl
    have flushed := (sockSends_outlet none (texts message) shown).of_ok forwarded
    obtain ⟨sends, sent⟩ := ends.sent upright₂ here₁
    rw [Outlet.steps_announced] at flushed
    obtain ⟨sock₂, there₂, after⟩ := Option.map_eq_some_iff.mp flushed
    have queued : ∀ item ∈ sock.outputQueue ++ (texts message).map fun text =>
      itemNew text text.length 0,
        item.Sized := by
      refine List.forall_mem_append.mpr ⟨sized _ sock there, fun item news => ?_⟩
      obtain ⟨text, -, rfl⟩ := List.mem_map.mp news
      exact sized_itemNew text
    have delivers := Outlet.flush_delivers_iff (o := ⟨sock.outputQueue ++ (texts message).map fun text =>
      itemNew text text.length 0, s.net.sends client.sock, s.net.sent client.sock, sock.fd, sock.status⟩) queued
    have rests : QueueItem.rest ∘ (fun text : Bytes => itemNew text text.length 0) =
      List.length := by
      funext text
      simp [QueueItem.rest, itemNew]
    unfold Outlet.Delivers at delivers
    simp only [← after, unsent_append, Outlet.unsent_news, texts_flatten, List.map_append,
      List.map_map, rests]
      at delivers
    unfold Net.Accepts
    rw [← mine] at delivers ⊢
    rw [sends, sent]
    exact delivers

end Payload

namespace Sample

def ending (results : List SendResult) (r : Configuration Sample) :
    Option (HttpRequest × Server Sample) :=
  handOver 1 (post "terminate") { sends := fun _ => results } r

theorem connected_ending :
    (ending [.count 106, .count 4] (reached (fun _ _ => True) connected connected_works)).any
    fun handed => named handed.2 handed.1 = some (0, .terminate) ∧
      ((handed.2.clients 0).any fun client => client.sock = 2) ∧
      ((handed.2.net.sockets 2).any fun sock => sock.status = .connected ∧ unsent sock.outputQueue ≠ [] ∧
        handed.2.net.sends 2 = [.count 106, .count 4] ∧
          drains [.count 106, .count 4] (sock.outputQueue.map QueueItem.rest) = true) ∧
      (jbHandleRequest handed.1 handed.2).toOption.isSome := by
  decide +kernel

theorem held_ending : (ending [] (reached (fun _ _ => True) held held_works)).any
    fun handed => named handed.2 handed.1 = some (0, .terminate) ∧
      ((handed.2.clients 0).any fun client => client.sock = 2) ∧
      ((handed.2.net.sockets 2).any fun sock => sock.status = .connecting ∧
        (jbHandleRequest handed.1 handed.2).toOption.any fun result =>
          handed.2.net.sends 2 = [] ∧
            result.2.net.sent 2 ≠ handed.2.net.sent 2 ++ unsent sock.outputQueue) := by
  decide +kernel

end Sample

theorem terminate_delivers_iff_connected : ∃ (r : Configuration Sample) (oracle : Oracle Sample)
    (request : HttpRequest) (s s' : Server Sample) (sock : Socket), Reachable r ∧
    HandedOver r oracle request s ∧ jbHandleRequest request s = .ok ((), s') ∧
    s.net.sockets 2 = some sock ∧ unsent sock.outputQueue ≠ [] ∧
    s.net.Accepts 2 (unsent sock.outputQueue ++ serialised (Iksemel.tags Sample.terminate)) s'.net := by
  obtain ⟨⟨request, s⟩, handed, facts⟩ := (Option.any_eq_true _ _).mp Sample.connected_ending
  obtain ⟨who, mine, socket, returns⟩ := of_decide_eq_true facts
  obtain ⟨client, here, number⟩ := (Option.any_eq_true _ _).mp mine
  obtain ⟨sock, there, facts⟩ := (Option.any_eq_true _ _).mp socket
  obtain ⟨connected, waiting, sends, drained⟩ := of_decide_eq_true facts
  replace number : client.sock = 2 := of_decide_eq_true number
  replace sends : s.net.sends 2 = [.count 106, .count 4] := sends
  obtain ⟨result, ran⟩ := Option.isSome_iff_exists.mp returns
  have accepted := (terminate_delivers_iff Sample.reaches_reached (handedOver_of handed) who rfl here
    (number ▸ there) (ok_of_toOption ran)).mpr
      (.inl ⟨connected, by simpa [number, sends, texts, Iksemel.tags] using drained⟩)
  exact ⟨_, _, request, s, result.2, sock, Sample.reaches_reached, handedOver_of handed,
    ok_of_toOption ran, there, waiting, number ▸ accepted⟩

/-- The Jabber socket is still connecting when the session ends, and its queue goes with it. -/
theorem terminate_delivers_held :
    ¬ ∀ (r : Configuration Sample) (oracle : Oracle Sample) (request : HttpRequest)
    (s s' : Server Sample) (c : ClientId) (doc : Sample) (client : JabberClient Sample)
    (sock : Socket),
    Reachable r → HandedOver r oracle request s → named s request = some (c, doc) →
    isTerminate doc = true → s.clients c = some client → s.net.sockets client.sock = some sock →
    (sock.status = .connecting ∨ sock.status = .connected) →
      jbHandleRequest request s = .ok ((), s') →
    s.net.Accepts client.sock (unsent sock.outputQueue ++ serialised (Iksemel.tags doc)) s'.net :=
  fun claim => by
  obtain ⟨⟨request, s⟩, handed, facts⟩ := (Option.any_eq_true _ _).mp Sample.held_ending
  obtain ⟨who, mine, socket⟩ := of_decide_eq_true facts
  obtain ⟨client, here, number⟩ := (Option.any_eq_true _ _).mp mine
  obtain ⟨sock, there, facts⟩ := (Option.any_eq_true _ _).mp socket
  obtain ⟨connecting, facts⟩ := of_decide_eq_true facts
  obtain ⟨result, ran, facts⟩ := (Option.any_eq_true _ _).mp facts
  obtain ⟨sends, lost⟩ := of_decide_eq_true facts
  replace number : client.sock = 2 := of_decide_eq_true number
  have accepted := claim _ _ request s result.2 0 .terminate client sock Sample.reaches_reached
    (handedOver_of handed) who rfl here (number ▸ there) (.inl connecting) (ok_of_toOption ran)
  rw [number] at accepted
  rcases accepted with ⟨used, split, failed⟩ | sent
  · rw [sends] at split
    simp [(List.append_eq_nil_iff.mp split.symm).1] at failed
  · exact lost (by simpa [serialised, Iksemel.tags] using sent)

end Bosh
