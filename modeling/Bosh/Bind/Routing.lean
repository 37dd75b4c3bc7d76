import Bosh.Server.Run

/-! Sids: the one that is sent to a client leads back to its session, and no other number does. -/
namespace Bosh
open Effect Text

def announced (sid : UInt64) : Bytes := decimalInt ((sid.toNat : Int).bmod (2 ^ 64))

section Sids
variable {sid : UInt64} {text : Bytes} {v : Int}

theorem sessionResponse_announced (sid : UInt64) :
    sessionResponse sid = ascii "<body sid='" ++ announced sid ++
      ascii "' ver='1.6' xmlns='http://jabber.org/protocol/httpbind'/>" := rfl

theorem Drawn.signed (drawn : Drawn sid) : announced sid = decimal sid.toNat := by
  obtain ⟨low, high, small, large, size⟩ := drawn
  have positive : (sid.toNat : Int).bmod (2 ^ 64) = sid.toNat :=
    Int.bmod_eq_of_le (by omega) (by omega)
  rw [announced, positive, decimalInt, if_neg (by omega), Int.toNat_natCast]

theorem Drawn.read (drawn : Drawn sid) : readInt (announced sid) = some (sid.toNat : Int) := by
  rw [drawn.signed, readInt_decimal]

/-- Neither a negative number nor a saturated one is converted to a sid: the low half of the
largest integer does not come from `lrand48`. -/
theorem Drawn.scan (drawn : Drawn sid) (read : readInt text = some v) :
    scanInt64 text = some sid ↔ (sid.toNat : Int) = v := by
  obtain ⟨low, high, small, large, size⟩ := drawn
  have converted : scanInt64 text = some (UInt64.ofNat ((clampInt64 v) % 2 ^ 64).toNat) := by
    rw [scanInt64, read, Option.map_some]
  rw [converted, Option.some.injEq, ← UInt64.toNat_inj, UInt64.toNat_ofNat', clampInt64]
  omega

end Sids

section Announced
variable {Iks : Type}

def Server.sidOf (s : Server Iks) : ClientId → Option UInt64 :=
  Option.map JabberClient.sid ∘ s.clients

structure Announced (s : Server Iks) : Prop where
  drawn : ∀ c sid, s.sidOf c = some sid → Drawn sid
  told : ∀ c sid host sock, .newSession c sid host sock ∈ s.history →
    ∀ sid', s.sidOf c = some sid' →
    sid' = sid
  below : ∀ c sid host sock, .newSession c sid host sock ∈ s.history → c < s.nextClient

theorem Announced.keep {s s' : Server Iks} (h : Announced s)
    (sids : ∀ c sid, s'.sidOf c = some sid → s.sidOf c = some sid)
    (next : s'.nextClient = s.nextClient)
    (old : ∀ c sid host sock, .newSession c sid host sock ∈ s'.history →
      .newSession c sid host sock ∈ s.history) : Announced s' where
  drawn c sid here := h.drawn c sid (sids c sid here)
  told c sid host sock listed sid' here :=
    h.told c sid host sock (old _ _ _ _ listed) sid' (sids c sid' here)
  below c sid host sock listed := next ▸ h.below c sid host sock (old _ _ _ _ listed)

theorem Announced.announce {s s' : Server Iks} (h : Announced s) {sid : UInt64} (drawn : Drawn sid)
    {host : Bytes} {sock : SocketId}
    (sids : s'.sidOf = Function.update s.sidOf s.nextClient (some sid))
    (next : s'.nextClient = s.nextClient + 1)
    (history : s'.history = .newSession s.nextClient sid host sock :: s.history) :
    Announced s' where
  drawn c sid' here := by
    rw [sids] at here
    rcases Table.of_update here with ⟨-, new⟩ | ⟨-, old⟩
    · exact Option.some.inj new ▸ drawn
    · exact h.drawn c sid' old
  told c sid' host' sock' listed sid'' here := by
    rw [history, List.mem_cons] at listed
    rw [sids] at here
    rcases Table.of_update here with ⟨rfl, new⟩ | ⟨other, old⟩
    · rcases listed with same | earlier
      · cases same
        exact (Option.some.inj new).symm
      · exact absurd (h.below _ _ _ _ earlier) (Nat.lt_irrefl _)
    · rcases listed with same | earlier
      · cases same
        exact absurd rfl other
      · exact h.told c sid' host' sock' earlier sid'' old
  below c sid' host' sock' listed := by
    rw [history, List.mem_cons] at listed
    rw [next]
    rcases listed with same | earlier
    · cases same
      exact Nat.lt_succ_self _
    · exact Nat.lt_succ_of_lt (h.below _ _ _ _ earlier)

variable [Iksemel Iks] {a : Assumed} {p p' : Phase Iks} {s s' : Server Iks}

theorem Micro.announced (step : Micro a (p, s) (p', s')) (h : Announced s) : Announced s' := by
  have kept : ∀ {c client client'}, s.clients c = some client → client'.sid = client.sid →
      ∀ c' sid, (Option.map JabberClient.sid ∘ Function.update s.clients c (some client')) c' = some sid →
        s.sidOf c' = some sid := fun here same c' sid there => by
    rw [Table.map_update_same here same] at there
    exact there
  cases step with
  | openSession _ _ drawn => exact h.announce drawn (Function.comp_update _ _ _ _) rfl rfl
  | stamp here => exact h.keep (kept here rfl) rfl fun _ _ _ _ => id
  | stanza _ here => exact h.keep (kept here rfl) rfl (by simp)
  | kill _ here => exact h.keep (kept here rfl) rfl fun _ _ _ _ => id
  | deleteHeld _ _ _ here => exact h.keep (kept here rfl) rfl (by simp)
  | drop here => exact h.keep (kept here rfl) rfl (by simp [Server.answered])
  | flush here => exact h.keep (kept here rfl) rfl (by simp [Server.answered])
  | hold _ _ _ _ _ here => exact h.keep (kept here rfl) rfl (by simp)
  | forget =>
    refine h.keep (fun c sid here => ?_) rfl (by simp)
    simp only [Server.sidOf, Function.comp_update] at here
    exact (Table.of_update_none here).2
  | create | receive | request | answer | delete =>
    exact h.keep (fun _ _ => id) rfl (by simp [Server.answered])
  | _ => exact h.keep (fun _ _ => id) rfl fun _ _ _ _ => id

theorem announced_invariant (a : Assumed) :
    Invariant a fun q : Phase Iks × Server Iks => Announced q.2 where
  initial s initial := by
    have nobody : s.sidOf = fun _ => none := by
      funext c
      simp [Server.sidOf, initial.clients]
    exact ⟨by simp [nobody], by simp [nobody], by simp [initial.history]⟩
  hear _ _ h := h.keep (fun _ _ => id) rfl fun _ _ _ _ => id
  micro _ _ _ _ step _ h := step.announced h

end Announced

section Routing
variable {Iks : Type} [Iksemel Iks]

/-- What `jb_handle_http_post` does for the session that a request names. -/
def jbServe (c : ClientId) (connection : ConnectionId) (rid : CString) (message : Iks) :
    ServerM Iks Unit := do
  jcSetHttp c connection (scanInt64 rid.bytes)
  let client ← getClient c
  jbForward client.sock (Iksemel.tags message)
  if isTerminate message then jbCloseClient c

variable {s : Server Iks} {request : HttpRequest} {message : Iks} {text rid : CString}
  {c : ClientId}

theorem jbHandleHttpPost_serves
    (parsed : iksTree request.data request.dataSize = .ok (some message))
    (sid : Iksemel.findAttrib message "sid" = some text)
    (hasRid : Iksemel.findAttrib message "rid" = some rid)
    (found : (scanInt64 text.bytes).bind s.sids.find = some c) :
    jbHandleHttpPost request s = jbServe c request.connection rid message s := by
  obtain ⟨value, scanned, found⟩ := Option.bind_eq_some_iff.mp found
  unfold jbHandleHttpPost
  rw [run_bind_ok (run_checked parsed)]
  simp only [sid, scanned, hasRid]
  rw [run_get]
  simp only [found]
  rfl

omit [Iksemel Iks] in
theorem jbOpenSession_announces (connection : ConnectionId) (host : CString) (wait : Int)
    (sock : SocketId) (s : Server Iks) :
    Ensures (jbOpenSession connection host wait sock s)
      (fun _ s' => ∃ sid, s'.sidOf s.nextClient = some sid ∧
        s'.history = .answer connection .request (sessionResponse sid) ::
          .newSession s.nextClient sid host.bytes sock :: s.history) fun _ => True := by
  unfold jbOpenSession
  simp only [ensures_bind, ensures_get]
  refine (pickSid_spec _ s).mono ?_ fun _ _ => trivial
  rintro sid _ ⟨-, -, oracle, rfl⟩
  refine (getTime_spec _).mono ?_ fun _ => False.elim
  rintro timestamp _ ⟨-, ticks, rfl⟩
  unfold newNode
  simp only [ensures_bind, ensures_get, ensures_set, ensures_pure]
  cases s.sids.insert sid s.nextClient with
  | none => trivial
  | some sids =>
    simp only [ensures_bind, ensures_set, ensures_modify]
    refine (onNet_frame _ _).mono ?_ fun _ => id
    rintro _ _ ⟨n₁, rfl⟩
    refine (onNet_frame _ _).mono ?_ fun _ => id
    rintro _ _ ⟨n₂, rfl⟩
    refine (onNet_frame _ _).mono ?_ fun _ => id
    rintro _ _ ⟨n₃, rfl⟩
    refine (onNet_frame _ _).mono ?_ fun _ => id
    rintro _ _ ⟨n₄, rfl⟩
    refine (hsAnswerRequest_spec _ _ _ _).mono ?_ fun _ _ => trivial
    rintro _ _ ⟨-, net, -, -, rfl⟩
    refine ⟨sid, ?_, rfl⟩
    simp [Server.sidOf, Server.answered]

variable {config : Configuration Iks}

omit [Iksemel Iks] in
/-- A session is found under each text that reads as its sid, and under no other. -/
theorem find_scan_iff (store : s.directory.Coherent) (told : Announced s) {text : Bytes} {v : Int}
    (read : readInt text = some v) (c : ClientId) :
    (scanInt64 text).bind s.sids.find = some c ↔
      ∃ client, s.clients c = some client ∧ (client.sid.toNat : Int) = v := by
  constructor
  · intro found
    obtain ⟨sid, scanned, found⟩ := Option.bind_eq_some_iff.mp found
    have stored := (store.hashed sid c).mp ((HashTable.find_eq_some_iff store.distinct).mp found)
    simp only [Server.directory, Function.comp_apply, Option.map_map] at stored
    obtain ⟨client, here, rfl⟩ := Option.map_eq_some_iff.mp stored
    have drawn := told.drawn c client.sid (by simp [Server.sidOf, here])
    exact ⟨client, here, (drawn.scan read).mp scanned⟩
  · rintro ⟨client, here, same⟩
    have drawn := told.drawn c client.sid (by simp [Server.sidOf, here])
    have stored := (store.hashed client.sid c).mpr (by simp [Server.directory, here])
    rw [(drawn.scan read).mpr same]
    exact (HashTable.find_eq_some_iff store.distinct).mpr stored

/-- `s` is the state in which `hc_process` hands a request over: the sessions are as they were
before the callback. -/
theorem sid_routing (run : Reachable config) (sessions : s.clients = config.server.clients)
    (sids : s.sids = config.server.sids) :
    (∀ connection host wait sock (before after : Server Iks),
      jbOpenSession connection host wait sock before = .ok ((), after) →
        ∃ sid, after.sidOf before.nextClient = some sid ∧
          after.history = .answer connection .request (sessionResponse sid) ::
            .newSession before.nextClient sid host.bytes sock :: before.history) ∧
    (∀ c sid host sock, .newSession c sid host sock ∈ config.server.history →
      (s.clients c).isSome → ∀ (request : HttpRequest) (message : Iks) (text rid : CString),
        iksTree request.data request.dataSize = .ok (some message) →
        Iksemel.findAttrib message "sid" = some text → text.bytes = announced sid →
        Iksemel.findAttrib message "rid" = some rid →
        jbHandleHttpPost request s = jbServe c request.connection rid message s) ∧
      ∀ text v, readInt text = some v → ∀ c, (scanInt64 text).bind s.sids.find = some c ↔
        ∃ client, s.clients c = some client ∧ (client.sid.toNat : Int) = v := by
  obtain ⟨sound, told⟩ := (announced_invariant (Assumed.of False False)).reaches
    (fun _ _ _ => .always) run
  have route : ∀ text v, readInt text = some v → ∀ c, (scanInt64 text).bind s.sids.find = some c ↔
      ∃ client, s.clients c = some client ∧ (client.sid.toNat : Int) = v := fun text v read c => by
    rw [sessions, sids]
    exact find_scan_iff sound.directory told read c
  refine ⟨fun connection host wait sock before after done =>
    (jbOpenSession_announces connection host wait sock before).of_ok done,
    fun c sid host sock made live request message text rid parsed named answer hasRid => ?_, route⟩
  obtain ⟨client, here⟩ := Option.isSome_iff_exists.mp live
  have own : config.server.sidOf c = some client.sid := by
    rw [sessions] at here
    simp [Server.sidOf, here]
  have drawn := told.drawn c client.sid own
  obtain rfl := told.told c sid host sock made client.sid own
  apply jbHandleHttpPost_serves parsed named hasRid
  rw [answer]
  exact (route _ _ drawn.read c).mpr ⟨client, here, rfl⟩

end Routing

theorem Sample.zero_terminated : 0 ∉ ascii "0" := by decide

def Sample.zero : CString := ⟨ascii "0", Sample.zero_terminated⟩

theorem sid_routing_held :
    jbHandleHttpPost ⟨1, ⟨ascii "POST", ascii "/", []⟩, ascii "message", 7⟩
        (Sample.reached (fun _ _ => True) Sample.held Sample.held_works).server =
      jbServe 0 1 Sample.zero Sample.message
        (Sample.reached (fun _ _ => True) Sample.held Sample.held_works).server :=
  (sid_routing Sample.reaches_reached rfl rfl).2.1 0 0 (ascii "9") 2 (by decide +kernel)
    (by decide +kernel) _ .message Sample.zero Sample.zero rfl rfl (by decide) rfl

end Bosh
