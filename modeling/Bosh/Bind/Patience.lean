import Bosh.Bind.Holding

/-! How long a session may let its requests wait: the time that it asked for. -/
namespace Bosh
open Effect Text

section Asked
variable {Iks : Type}

def Server.waitOf (s : Server Iks) : ClientId → Option Int :=
  Option.map JabberClient.wait ∘ s.clients

def Asked (c : ClientId) (wait : Int) (s : Server Iks) : Prop := ∀ w, s.waitOf c = some w → w = wait

/-- The session has been created, and its requests may wait this long. -/
structure Granted (c : ClientId) (wait : Int) (s : Server Iks) : Prop where
  known : c < s.nextClient
  asked : Asked c wait s

variable {c : ClientId} {wait : Int}

theorem Asked.client {s : Server Iks} (asked : Asked c wait s) {client : JabberClient Iks}
    (here : s.clients c = some client) : client.wait = wait :=
  asked _ (by simp [Server.waitOf, here])

theorem Asked.keep {s s' : Server Iks} (asked : Asked c wait s)
    (same : ∀ w, s'.waitOf c = some w → s.waitOf c = some w) : Asked c wait s' := fun w here =>
  asked w (same w here)

theorem waitOf_update {s : Server Iks} {c : ClientId} {client client' : JabberClient Iks}
    (here : s.clients c = some client) (same : client'.wait = client.wait) :
    (s.setClient c (some client')).waitOf = s.waitOf := Table.map_update_same here same

end Asked

section Runs
variable {Iks : Type} [Iksemel Iks] {a : Assumed} {p p' : Phase Iks} {s s' : Server Iks}
  {c : ClientId} {wait : Int}

theorem Micro.granted (step : Micro a (p, s) (p', s')) (h : Granted c wait s) :
    Granted c wait s' := by
  have kept : ∀ {k client client'}, s.clients k = some client → client'.wait = client.wait →
      ∀ w, (Option.map JabberClient.wait ∘ Function.update s.clients k (some client')) c = some w →
        s.waitOf c = some w := fun here same w there =>
    (congrFun (waitOf_update here same) c).symm.trans there
  cases step with
  | openSession =>
    refine ⟨Nat.lt_succ_of_lt h.known, h.asked.keep fun w here => ?_⟩
    simp only [Server.waitOf, Function.comp_apply, Function.update_of_ne h.known.ne] at here
    exact here
  | stamp here => exact ⟨h.known, h.asked.keep (kept here rfl)⟩
  | stanza _ here => exact ⟨h.known, h.asked.keep (kept here rfl)⟩
  | kill _ here => exact ⟨h.known, h.asked.keep (kept here rfl)⟩
  | deleteHeld _ _ _ here => exact ⟨h.known, h.asked.keep (kept here rfl)⟩
  | drop here => exact ⟨h.known, h.asked.keep (kept here rfl)⟩
  | flush here => exact ⟨h.known, h.asked.keep (kept here rfl)⟩
  | hold _ _ _ _ _ here => exact ⟨h.known, h.asked.keep (kept here rfl)⟩
  | forget =>
    refine ⟨h.known, h.asked.keep fun w here => ?_⟩
    simp only [Server.waitOf, Function.comp_update] at here
    exact (Table.of_update_none here).2
  | _ => exact ⟨h.known, h.asked.keep fun _ => id⟩

theorem Steps.granted {q q' : Phase Iks × Server Iks} (steps : Steps a q q')
    (h : Granted c wait q.2) : Granted c wait q'.2 := by
  induction steps with
  | refl => exact h
  | tail _ last ih => exact Micro.granted last ih

def Configuration.Later : Configuration Iks → Configuration Iks → Prop :=
  Relation.ReflTransGen fun r r' => ∃ input, step input r = .ok r'

variable {r r' : Configuration Iks}

theorem step_granted {input : Input Iks} (sound : Sound r.server) (done : step input r = .ok r')
    (h : Granted c wait r.server) : Granted c wait r'.server := by
  have stepped : Stepped (Assumed.of False False) r input (step input r) := step_stepped sound .always
  rw [done] at stepped
  exact stepped.1.granted ⟨h.known, h.asked⟩

theorem Configuration.Later.granted (later : r.Later r') (run : Reachable r)
    (h : Granted c wait r.server) : Reachable r' ∧ Granted c wait r'.server := by
  induction later with
  | refl => exact ⟨run, h⟩
  | tail _ last ih =>
    obtain ⟨input, done⟩ := last
    exact ⟨ih.1.step trivial done, step_granted ih.1.sound done ih.2⟩

end Runs

section Creation
variable {Iks : Type} {c : ClientId} {wait : Int}

def Grants (c : ClientId) (wait : Int) (s : Server Iks) : Prop := c < s.nextClient → Asked c wait s

theorem grants_indifferent {c' : ClientId} (other : c' ≠ c) :
    Indifferent (Grants c wait : Server Iks → Prop) c' where
  frame s s' h _ next clients _ known := by
    have before : c < s.nextClient := next ▸ known
    refine (h before).keep fun w here => ?_
    rwa [Server.waitOf, Function.comp_apply, clients c before (Ne.symm other)] at here
  record _ _ h _ := h

theorem modifyClient_grants (k : ClientId) {f : JabberClient Iks → JabberClient Iks}
    (same : ∀ client, (f client).wait = client.wait) :
    Keeps (Grants c wait) (modifyClient k f : ServerM Iks Unit) := by
  intro s h
  unfold modifyClient getClient
  rw [ensures_bind, ensures_demand]
  refine ⟨fun client here known => (h known).keep fun w there => ?_, fun _ => trivial⟩
  rwa [waitOf_update here (same client)] at there

theorem hcDelete_grants (h : ConnectionId) :
    Keeps (Grants c wait) (hcDelete h : ServerM Iks Unit) := by
  have indifferent : Indifferent (Grants c wait : Server Iks → Prop) (c + 1) :=
    grants_indifferent (later_session c)
  refine .bind (getConnection_durable h) fun connection => ?_
  extract_lets rest
  have later (u : Unit) : Keeps (Grants c wait) (rest u) :=
    indifferent.hcDelete_rest h connection fun _ kept => kept
  cases connection.closeCallback with
  | none => exact later ()
  | some clears =>
    obtain ⟨k⟩ := clears
    have cleared : Keeps (Grants c wait) (jcClearHttp k : ServerM Iks Unit) :=
      .bind (modifyClient_grants k fun _ => rfl) fun _ =>
        .bind indifferent.getTime_keeps fun _ => modifyClient_grants k fun _ => rfl
    exact .bind cleared later

theorem hcReadRest_grants (h : ConnectionId) (length : Nat) :
    Keeps (Grants c wait) (hcReadRest h length : ServerM Iks Unit) := by
  refine .bind ((grants_indifferent (later_session c)).modifyConnection_keeps h fun connection =>
    .inl (consume_callback connection)) fun _ => ?_
  refine .bind (getConnection_durable h) fun connection =>
    .bind (getSocket_durable _) fun sock => ?_
  split
  · exact hcDelete_grants h
  · exact .pure _

variable [Iksemel Iks]

/-- The new session may wait for as long as the message says, in milliseconds and in an `int`. -/
theorem jbConnectClient_grants (h : ConnectionId) {message : Iks} {text : CString}
    (asks : Iksemel.findAttrib message "wait" = some text) :
    Keeps (Grants c (toInt32 (atoi text.bytes * 1000))) (jbConnectClient h message) := by
  have indifferent : Indifferent (Grants c (toInt32 (atoi text.bytes * 1000)) : Server Iks → Prop) (c + 1) :=
    grants_indifferent (later_session c)
  have refused : ∀ code,
      Keeps (Grants c (toInt32 (atoi text.bytes * 1000))) (jcReportError h code : ServerM Iks Unit) :=
    fun code => indifferent.hsAnswerRequest_keeps h (fun _ same => by cases same) _ _
  unfold jbConnectClient
  rw [asks]
  dsimp only
  split
  · exact refused _
  · split
    · exact refused _
    · refine .read fun s _ => ?_
      split
      · exact refused _
      · refine .bind (indifferent.onNet_keeps _) fun sock =>
          .bind (indifferent.onNet_keeps _) fun connected => ?_
        split
        · refine indifferent.jbOpenSession_keeps h _ sock fun s s' client granted _ next clients _ waits known => ?_
          intro w here
          obtain ⟨client', found, rfl⟩ := Option.map_eq_some_iff.mp here
          rw [clients] at found
          rcases Table.of_update found with ⟨-, new⟩ | ⟨other, old⟩
          · exact Option.some.inj new ▸ waits
          · have before : c < s.nextClient + 1 := next ▸ known
            exact (granted (Nat.lt_of_le_of_ne (Nat.le_of_lt_succ before) other)).client old
        · exact .bind (indifferent.onNet_keeps _) fun _ => refused _

variable {r r' : Configuration Iks} {input : Input Iks} {request : HttpRequest} {s : Server Iks}
  {message : Iks} {text : CString}

/-- The input completes a request that is to create a session, and whose requests are to wait for so
long. -/
structure Asks (r : Configuration Iks) (input : Input Iks) (request : HttpRequest) (message : Iks)
    (text : CString) : Prop where
  completes : r.request input = some request
  post : request.header.type = ascii "POST"
  parsed : iksTree request.data request.dataSize = .ok (some message)
  newcomer : Iksemel.findAttrib message "sid" = none
  wait : Iksemel.findAttrib message "wait" = some text

theorem step_grants (run : Reachable r) (asks : Asks r input request message text)
    (done : step input r = .ok r') :
    Grants r.server.nextClient (toInt32 (atoi text.bytes * 1000)) r'.server := by
  obtain ⟨s, brings, -, -, next⟩ := request_brings asks.completes
  have connects : jbHandleRequest request s = jbConnectClient request.connection message s := by
    unfold jbHandleRequest jbHandleHttpPost
    rw [if_pos asks.post, run_bind_ok (run_checked asks.parsed)]
    simp only [asks.newcomer]
  have nobody : Grants r.server.nextClient (toInt32 (atoi text.bytes * 1000)) s := fun known =>
    absurd (next ▸ known) (Nat.lt_irrefl _)
  refine step_ensures run.upright brings ?_ (hcReadRest_grants request.connection) done
  rw [connects]
  exact jbConnectClient_grants request.connection asks.wait s nobody

end Creation

section Holding
variable {Iks : Type} [Iksemel Iks] {r r' : Configuration Iks} {input : Input Iks}
  {request : HttpRequest} {c : ClientId} {message : Iks} {s s' : Server Iks}

def HoldsNow (c : ClientId) (h : ConnectionId) (s : Server Iks) : Prop :=
  ∃ client, s.clients c = some client ∧ client.connection = some h ∧ client.timestamp = s.clock ∧
    client.outputQueue = []

def BeginsToHold (c : ClientId) (h : ConnectionId) (s : Server Iks) : Prop :=
  s.holding c = some h → HoldsNow c h s ∧ s.registered h = some (.jcClearHttp c)

variable {h : ConnectionId} {rid : Option UInt64}

theorem SetsHttp.begins (sets : SetsHttp c h rid s s') : BeginsToHold c h s' := by
  intro held
  obtain ⟨-, -, takes, -, here₂, flushes⟩ := sets
  obtain ⟨client, connection, clock, oracle, here, unheld, found, -⟩ := takes
  cases (Function.update_self ..).symm.trans here₂
  cases flushes with
  | nothing none =>
    have empty : client.outputQueue = [] := by simpa using none
    exact ⟨⟨_, Function.update_self .., rfl, rfl, empty⟩, by simp [Server.registered]⟩
  | emptied _ emptied =>
    obtain ⟨_, _, _, _, _, _, _, -⟩ := emptied
    simp [Server.holding] at held

theorem Serves.begins (serves : Serves c h rid message s s') : BeginsToHold c h s' := by
  intro held
  obtain ⟨sets, -, -, -, -, ends⟩ := serves
  split at ends
  · have gone : s'.clients c = none := by
      rcases ends with ⟨-, -, gone⟩ | ⟨-, gone⟩
      · exact gone.clients_self
      · exact gone.clients_self
    simp [Server.holding, gone] at held
  · subst ends
    exact sets.begins held

omit [Iksemel Iks] in
theorem hcReadRest_begins (length : Nat) : Leads (BeginsToHold c h)
    (fun s : Server Iks => s.holding c = some h → HoldsNow c h s) (hcReadRest h length) := by
  have consumed : Keeps (BeginsToHold c h : Server Iks → Prop)
      (modifyConnection h (HttpConnection.consume length)) := by
    intro s begins
    unfold modifyConnection getConnection
    rw [ensures_bind, ensures_demand]
    refine ⟨fun connection here held => ?_, fun _ => trivial⟩
    obtain ⟨now, calls⟩ := begins held
    refine ⟨now, ?_⟩
    simpa [Server.registered, here, consume_callback] using calls
  refine .bind consumed fun _ => .bind (getConnection_durable h) fun connection => ?_
  refine .bind (getSocket_durable _) fun sock => ?_
  split
  · intro s begins
    refine (hcDelete_holding h).mono (fun _ s' deleted held => ?_) fun _ => id
    rw [deleted] at held
    dsimp only at held
    split at held
    · cases held
    · rename_i other
      exact absurd (begins held).2 other
  · exact fun s begins held => (begins held).1

theorem step_holds (run : Reachable r) (completes : r.request input = some request)
    (who : named r.server request = some (c, message)) (done : step input r = .ok r')
    (held : r'.server.holding c = some request.connection) :
    HoldsNow c request.connection r'.server := by
  obtain ⟨s, brings, sids, -, -⟩ := request_brings completes
  obtain ⟨-, connection, -, computed⟩ := brings_eq_some.mp brings
  have upright : Upright s := (handedOver_of computed).upright run
  have who : named s request = some (c, message) := by
    rw [← who, named, named, sids]
  have serves := (jbHandleRequest_serves upright who).mono
    (fun _ s' serves => Serves.begins serves) fun _ => id
  exact step_ensures run.upright brings serves hcReadRest_begins done held

end Holding

section Sessions
variable {Iks : Type} [Iksemel Iks] {r r₀ : Configuration Iks} {input : Input Iks}
  {request : HttpRequest} {message : Iks} {text : CString}

def Configuration.checkTime (r : Configuration Iks) (oracle : Oracle Iks) : Int :=
  (r.server.hear oracle).now

/-- Whatever request the session holds later, and however long nothing disturbs it and no check
finds that its time has come: it is held, and the next check answers it if and only if it has waited
for so long. -/
def Configuration.HoldsFor (r₀ : Configuration Iks) (c : ClientId) (wait : Int) : Prop :=
  ∀ (r₁ r₂ r₃ : Configuration Iks) (input : Input Iks) (request : HttpRequest) (message : Iks),
    r₀.Later r₁ → r₁.request input = some request → named r₁.server request = some (c, message) →
    step input r₁ = .ok r₂ → r₂.server.holding c = some request.connection →
    -- the clock still shows when `jc_set_http` took the request up
    Hold.Waiting ⟨c, request.connection, r₂.server.clock, wait⟩ r₂ r₃ →
    r₃.server.holding c = some request.connection ∧
    (∀ h body, .answer h (.dropRequest c) body ∉ r₂.server.since r₃.server) ∧
    ∀ oracle, (r₃.control = .dispatching [] → r₃.server.HoldsLive →
        ∃ r₄, step (.timeout oracle) r₃ = .ok r₄) ∧
      ∀ r₄, step (.timeout oracle) r₃ = .ok r₄ →
        (.answer request.connection (.dropRequest c) emptyResponse ∈ r₃.server.since r₄.server ↔
          r₂.server.clock + wait ≤ r₃.checkTime oracle)

theorem holdsFor_of_granted (run : Reachable r₀) {c : ClientId} {wait : Int}
    (granted : Granted c wait r₀.server) : r₀.HoldsFor c wait := by
  intro r₁ r₂ r₃ input request message later completes who done held waiting
  obtain ⟨run₁, granted₁⟩ := later.granted run granted
  have run₂ := run₁.step trivial done
  have granted₂ := step_granted run₁.sound done granted₁
  obtain ⟨client, here, mine, since, empty⟩ := step_holds run₁ completes who done held
  have waits := Hold.waits_of_reachable (q := ⟨c, request.connection, r₂.server.clock, wait⟩) run₂
    ⟨client, here, mine, since, granted₂.asked.client here, empty⟩
  obtain ⟨run₃, waits₃, news, same, spared⟩ := waiting.undisturbed run₂ waits
  obtain ⟨client₃, here₃, mine₃, -⟩ := waits₃.held
  refine ⟨by simp [Server.holding, here₃, mine₃], fun h body listed => ?_,
    fun oracle => ⟨fun turn live => ?_, ?_⟩⟩
  · rw [Server.since_eq same] at listed
    exact spared _ listed rfl
  · exact step_check_returns run₃ turn live oracle
  · exact fun r₄ checks => (step_timeout run₃ waits₃ checks).1

theorem granted_of_created {client : JabberClient Iks} (run : Reachable r)
    (asks : Asks r input request message text) (done : step input r = .ok r₀)
    (created : r₀.server.clients r.server.nextClient = some client) :
    Granted r.server.nextClient (toInt32 (atoi text.bytes * 1000)) r₀.server := by
  have known : r.server.nextClient < r₀.server.nextClient :=
    (run.step trivial done).sound.directory.below _ (by simp [Server.directory, created])
  exact ⟨known, step_grants run asks done known⟩

/-- A session that asks for some seconds has them stored as milliseconds, and its requests held for
so long, if and only if the milliseconds fit an `int`. -/
theorem wait_kept_iff {client : JabberClient Iks} (run : Reachable r)
    (asks : Asks r input request message text) (done : step input r = .ok r₀)
    (created : r₀.server.clients r.server.nextClient = some client)
    (natural : 0 ≤ atoi text.bytes) :
    (client.wait = 1000 * atoi text.bytes ∧
        r₀.HoldsFor r.server.nextClient (1000 * atoi text.bytes)) ↔
      atoi text.bytes ≤ 2147483 := by
  have granted := granted_of_created run asks done created
  constructor
  · rintro ⟨same, -⟩
    have stored : client.wait = toInt32 (atoi text.bytes * 1000) := granted.asked.client created
    have bound := (toInt32_bounds (atoi text.bytes * 1000)).2
    omega
  · intro small
    have whole : toInt32 (atoi text.bytes * 1000) = 1000 * atoi text.bytes := by
      rw [toInt32_of_lt (by omega) (by omega), Int.mul_comm]
    rw [whole] at granted
    exact ⟨granted.asked.client created, holdsFor_of_granted (run.step trivial done) granted⟩

end Sessions

/-- The sample library, but that `wait` has this value where it is given. -/
structure Asking (text : CString) where
  document : Sample
  deriving DecidableEq

namespace Asking
variable {text : CString}

instance : Iksemel (Asking text) where
  tree body := (Iksemel.tree body).map Asking.mk
  find x name := (Iksemel.find x.document name).map Asking.mk
  findAttrib x name :=
    if name = "wait" then (Iksemel.findAttrib x.document name).map fun _ => text
    else Iksemel.findAttrib x.document name
  string x := Iksemel.string x.document
  tags x := (Iksemel.tags x.document).map Asking.mk
  string_fits x := Iksemel.string_fits x.document

def boot : Boot (Asking text) where
  openFds _ := false
  clock := 0
  config := ⟨.config⟩
  oracle := { listen := { socket := some 3 } }

def polled : List (Input (Asking text)) :=
  [.wait {} [(3, .epollIn)], .event { accept := some 4, address := 1 }, .timeout {},
    .wait {} [(4, .epollIn)]]

def creates : Input (Asking text) := .event {
  arrivals := [{ result := .data (Sample.post "create") }]
  random := [0, 0]
  connect := { socket := some 9 } }

theorem exists_asks (text : CString)
    (found : (replay (fun _ _ => True) (boot : Boot (Asking text)) polled).any fun r =>
      r.server.nextClient = 0 ∧
        (step creates r).toOption.any (fun r₀ => (r₀.server.clients 0).isSome) ∧
        (r.request creates).any fun request => request.header.type = ascii "POST" ∧
          (iksTree request.data request.dataSize).toOption = some (some (⟨.create⟩ : Asking text))) :
    ∃ (r r₀ : Configuration (Asking text)) (request : HttpRequest)
        (client : JabberClient (Asking text)),
      Reachable r ∧ Asks r creates request ⟨.create⟩ text ∧ step creates r = .ok r₀ ∧
        r.server.nextClient = 0 ∧
        r₀.server.clients 0 = some client := by
  obtain ⟨r, done, holds⟩ := (Option.any_eq_true _ _).mp found
  obtain ⟨next, steps, requests⟩ := of_decide_eq_true holds
  obtain ⟨r₀, stepped, created⟩ := (Option.any_eq_true _ _).mp steps
  obtain ⟨request, completes, facts⟩ := (Option.any_eq_true _ _).mp requests
  obtain ⟨post, parsed⟩ := of_decide_eq_true facts
  obtain ⟨client, created⟩ := Option.isSome_iff_exists.mp created
  exact ⟨r, r₀, request, client, reaches_of_replay (fun _ _ _ => id) done,
    ⟨completes, post, ok_of_toOption parsed, rfl, rfl⟩, ok_of_toOption stepped, next, created⟩

def short : CString := ⟨ascii "30", by decide⟩

def long : CString := ⟨ascii "2147484", by decide⟩

end Asking

theorem wait_kept_iff_short :
    ∃ (r : Configuration (Asking Asking.short)) (client : JabberClient (Asking Asking.short)),
    r.server.clients 0 = some client ∧ client.wait = 30000 ∧ r.HoldsFor 0 30000 := by
  obtain ⟨r, r₀, request, client, run, asks, done, next, created⟩ :=
    Asking.exists_asks Asking.short (by decide +kernel)
  have seconds : atoi Asking.short.bytes = 30 := by decide +kernel
  have kept := (wait_kept_iff run asks done (next ▸ created) (by omega)).mpr (by omega)
  rw [next, seconds] at kept
  exact ⟨r₀, client, created, kept⟩

/-- The product wraps to a negative number. -/
theorem wait_kept_long :
    ¬ ∀ (r r₀ : Configuration (Asking Asking.long)) (input : Input (Asking Asking.long))
    (request : HttpRequest) (message : Asking Asking.long) (text : CString)
    (client : JabberClient (Asking Asking.long)),
    Reachable r → Asks r input request message text → step input r = .ok r₀ →
    r₀.server.clients r.server.nextClient = some client → 0 ≤ atoi text.bytes →
    client.wait = 1000 * atoi text.bytes ∧
      r₀.HoldsFor r.server.nextClient (1000 * atoi text.bytes) := fun claim => by
  obtain ⟨r, r₀, request, client, run, asks, done, next, created⟩ :=
    Asking.exists_asks Asking.long (by decide +kernel)
  have seconds : atoi Asking.long.bytes = 2147484 := by decide +kernel
  have same := (claim r r₀ _ request _ _ client run asks done (next ▸ created) (by omega)).1
  have stored := (granted_of_created run asks done (next ▸ created)).asked.client (next ▸ created)
  have bound := (toInt32_bounds (atoi Asking.long.bytes * 1000)).2
  omega

end Bosh
