import Bosh.Bind.Handling
import Bosh.Bind.Timeout
import Bosh.Server.Indifferent

/-! How long a session holds a request that nothing else takes from it. -/
namespace Bosh
open Effect Text

variable {Iks : Type}

/-- A request that a session holds, and since when; `wait` is the time it may be held. -/
structure Hold where
  session : ClientId
  connection : ConnectionId
  since : Int
  wait : Int

namespace Hold
variable (q : Hold)

def due : Int := q.since + q.wait

/-- A stanza, a newer request, the end of the session or that of the connection. -/
def Disturbs : Record Iks → Prop
  | .stanza c _ | .hold c _ | .closeSession c => c = q.session
  | .hcDelete h => h = q.connection
  | _ => False

def Drops : Record Iks → Prop
  | .answer _ (.dropRequest c) _ => c = q.session
  | _ => False

structure Waits (s : Server Iks) : Prop where
  held : ∃ client, s.clients q.session = some client ∧ client.connection = some q.connection ∧
    client.timestamp = q.since ∧ client.wait = q.wait ∧ client.outputQueue = []
  registered : ∀ h, s.registered h = some (.jcClearHttp q.session) → h = q.connection
  known : q.session < s.nextClient

def Disturbed (base : List (Record Iks)) (s : Server Iks) : Prop :=
  ∃ entry older, base <:+ older ∧ q.Disturbs entry ∧ entry :: older <:+ s.history

def Spared (base : List (Record Iks)) (s : Server Iks) : Prop :=
  ∃ news, s.history = news ++ base ∧ ∀ entry ∈ news, ¬ q.Drops entry

def Undisturbed (base : List (Record Iks)) (s : Server Iks) : Prop := q.Waits s ∧ q.Spared base s

def Kept (base : List (Record Iks)) (s : Server Iks) : Prop :=
  q.Disturbed base s ∨ q.Undisturbed base s

end Hold

section Kept
variable {q : Hold} {base : List (Record Iks)}

theorem grows_indifferent (base : List (Record Iks)) (c : ClientId) :
    Indifferent (fun s : Server Iks => base <:+ s.history) c where
  frame _ _ h same _ _ _ := same ▸ h
  record _ entry h _ := h.trans (List.suffix_cons entry _)

theorem disturbed_indifferent (q : Hold) (base : List (Record Iks)) (c : ClientId) :
    Indifferent (q.Disturbed base) c where
  frame _ _ h same _ _ _ := by
    obtain ⟨entry, older, grown, disturbs, listed⟩ := h
    exact ⟨entry, older, grown, disturbs, same ▸ listed⟩
  record _ new h _ := by
    obtain ⟨entry, older, grown, disturbs, listed⟩ := h
    exact ⟨entry, older, grown, disturbs, listed.trans (List.suffix_cons new _)⟩

theorem Hold.Disturbed.record {s : Server Iks} {entry : Record Iks} (grown : base <:+ s.history)
    (disturbs : q.Disturbs entry) : q.Disturbed base (s.record entry) :=
  ⟨entry, s.history, grown, disturbs, List.suffix_rfl⟩

theorem Hold.Kept.grown {s : Server Iks} (kept : q.Kept base s) : base <:+ s.history := by
  rcases kept with ⟨entry, older, grown, -, listed⟩ | ⟨-, news, same, -⟩
  · exact (grown.trans (List.suffix_cons entry older)).trans listed
  · exact ⟨news, same.symm⟩

theorem kept_indifferent {c : ClientId} (other : c ≠ q.session) : Indifferent (q.Kept base) c where
  frame s s' kept history later clients registered := by
    rcases kept with disturbed | ⟨waits, news, same, quiet⟩
    · exact .inl ((disturbed_indifferent q base c).frame s s' disturbed history later clients registered)
    · have mine : s'.clients q.session = s.clients q.session :=
        clients _ waits.known (Ne.symm other)
      refine .inr ⟨⟨mine ▸ waits.held, fun h calls => ?_, later ▸ waits.known⟩, news,
        history.trans same, quiet⟩
      rcases registered h with still | none | his
      · exact waits.registered h (still ▸ calls)
      · rw [none] at calls
        cases calls
      · rw [his, Option.some.injEq, CloseCallback.jcClearHttp.injEq] at calls
        exact absurd calls other
  record s entry kept drops := by
    rcases kept with disturbed | ⟨waits, news, same, quiet⟩
    · exact .inl ((disturbed_indifferent q base c).record s entry disturbed drops)
    · refine .inr ⟨⟨waits.held, waits.registered, waits.known⟩, entry :: news, by simp [same], ?_⟩
      refine List.forall_mem_cons.mpr ⟨fun dropped => ?_, quiet⟩
      unfold Hold.Drops at dropped
      split at dropped
      · exact other ((drops _ _ _ rfl).symm.trans dropped)
      · exact dropped

theorem Hold.Kept.opened {s s' : Server Iks} {client : JabberClient Iks} (kept : q.Kept base s)
    (history : s'.history = s.history) (next : s'.nextClient = s.nextClient + 1)
    (clients : s'.clients = Function.update s.clients s.nextClient (some client))
    (connections : s'.connections = s.connections) : q.Kept base s' := by
  rcases kept with ⟨entry, older, grown, disturbs, listed⟩ | ⟨waits, news, same, quiet⟩
  · exact .inl ⟨entry, older, grown, disturbs, history ▸ listed⟩
  · have mine : s'.clients q.session = s.clients q.session := by
      rw [clients, Function.update_of_ne waits.known.ne]
    refine .inr ⟨⟨mine ▸ waits.held, fun h calls => waits.registered h ?_,
      next ▸ Nat.lt_succ_of_lt waits.known⟩, news, history.trans same, quiet⟩
    rwa [Server.registered, connections] at calls

theorem kept_elsewhere : Indifferent (q.Kept base : Server Iks → Prop) (q.session + 1) :=
  kept_indifferent (later_session q.session)

variable [Iksemel Iks]

theorem jcFlushMessages_kept (c : ClientId) :
    Keeps (q.Kept base) (jcFlushMessages c : ServerM Iks Unit) := by
  by_cases mine : c = q.session
  · subst mine
    rintro s (disturbed | ⟨waits, quiet⟩)
    · refine ((disturbed_indifferent q base _).jcFlushMessages_keeps s disturbed).mono ?_ fun _ =>
        id
      exact fun _ _ => .inl
    · obtain ⟨client, here, held, -, -, empty⟩ := waits.held
      have nothing : jcFlushMessages q.session s = .ok ((), s) := by
        unfold jcFlushMessages
        rw [run_bind_ok (getClient_run here), held]
        dsimp only
        rw [empty, if_neg (by simp)]
        rfl
      rw [nothing]
      exact .inr ⟨waits, quiet⟩
  · exact (kept_indifferent mine).jcFlushMessages_keeps

omit [Iksemel Iks] in
theorem jbCloseClient_kept (c : ClientId) :
    Keeps (q.Kept base) (jbCloseClient c : ServerM Iks Unit) := by
  by_cases mine : c = q.session
  · subst mine
    exact ((grows_indifferent base _).jbCloseClient_leads fun s grown =>
      Hold.Disturbed.record grown rfl).mono (fun _ => Hold.Kept.grown) fun _ => .inl
  · exact (kept_indifferent mine).jbCloseClient_leads fun s kept =>
      (kept_indifferent mine).record s _ kept nofun

theorem jcSetHttp_kept (c : ClientId) (h : ConnectionId) (rid : Option UInt64) :
    Keeps (q.Kept base) (jcSetHttp c h rid : ServerM Iks Unit) := by
  by_cases mine : c = q.session
  · subst mine
    exact ((grows_indifferent base _).jcSetHttp_leads h rid
      (fun s grown => Hold.Disturbed.record grown rfl) (disturbed_indifferent q base _)).mono
      (fun _ => Hold.Kept.grown) fun _ => .inl
  · exact (kept_indifferent mine).jcSetHttp_leads h rid
      (fun s kept => (kept_indifferent mine).record s _ kept nofun) (kept_indifferent mine)

omit [Iksemel Iks] in
theorem jcHandleStanza_kept (c : ClientId) (type : IksType) (stanza : Option Iks) :
    Keeps (q.Kept base) (jcHandleStanza c type stanza) := by
  by_cases mine : c = q.session
  · subst mine
    have killed : Keeps (q.Kept base) (modifyClient q.session fun client : JabberClient Iks =>
        { client with alive := false }) := by
      rintro s (disturbed | ⟨waits, quiet⟩)
      · exact ((disturbed_indifferent q base _).modifyClient_keeps _ s disturbed).mono
          (fun _ _ => .inl) fun _ => id
      · obtain ⟨client, here, rest⟩ := waits.held
        rw [modifyClient_run here]
        exact .inr ⟨⟨⟨_, Function.update_self .., rest⟩, waits.registered, waits.known⟩, quiet⟩
    have queued (stanza : Iks) : Leads (fun s => base <:+ s.history) (q.Disturbed base)
        (jcHandleStanza q.session .normal (some stanza)) :=
      .bind ((grows_indifferent base _).modifyClient_keeps _) fun _ =>
        .modify fun _ grown => Hold.Disturbed.record grown rfl
    cases stanza with
    | none => exact .pure _
    | some stanza =>
      cases type with
      | normal => exact (queued stanza).mono (fun _ => Hold.Kept.grown) fun _ => .inl
      | error | stop => exact killed
      | start => exact .pure _
  · exact (kept_indifferent mine).jcHandleStanza_keeps type stanza

omit [Iksemel Iks] in
theorem hcDelete_kept (h : ConnectionId) : Keeps (q.Kept base) (hcDelete h : ServerM Iks Unit) := by
  refine Leads.demand fun connection => ?_
  extract_lets rest
  rintro s ⟨kept, here⟩
  have later {before after : Server Iks → Prop} {c : ClientId} (indifferent : Indifferent before c)
      (deleted : ∀ s, before s → after (s.record (.hcDelete h))) (u : Unit) : Leads before after (rest u) :=
    indifferent.hcDelete_rest h connection deleted
  have elsewhere {c : ClientId} (other : c ≠ q.session) (s : Server Iks) (kept : q.Kept base s) :
      q.Kept base (s.record (.hcDelete h)) := (kept_indifferent other).record s _ kept nofun
  cases callback : connection.closeCallback with
  | none => exact later kept_elsewhere (elsewhere (later_session q.session)) () s kept
  | some clears =>
    obtain ⟨c⟩ := clears
    by_cases mine : c = q.session
    · subst mine
      have finished : Leads (q.Disturbed base) (q.Disturbed base) (jcClearHttp q.session >>= rest) :=
        .bind (disturbed_indifferent q base _).jcClearHttp_keeps fun u =>
          later (disturbed_indifferent q base q.session)
            (fun s disturbed => (disturbed_indifferent q base q.session).record s _ disturbed nofun) u
      rcases kept with disturbed | ⟨waits, quiet⟩
      · exact finished.mono (fun _ => id) (fun _ => .inl) s disturbed
      · obtain rfl : h = q.connection :=
          waits.registered h (by simp [Server.registered, here, callback])
        have ended : Leads (fun s => base <:+ s.history) (q.Disturbed base) (jcClearHttp q.session >>= rest) :=
          .bind (grows_indifferent base _).jcClearHttp_keeps fun u =>
            later (grows_indifferent base q.session) (fun s grown => Hold.Disturbed.record grown rfl) u
        exact ended.mono (fun _ => id) (fun _ => .inl) s (Hold.Kept.grown (.inr ⟨waits, quiet⟩))
    · exact Leads.bind (kept_indifferent mine).jcClearHttp_keeps
        (fun u => later (kept_indifferent mine) (elsewhere mine) u) s kept

theorem kept_durable (q : Hold) (base : List (Record Iks)) :
    Durable (q.Kept base : Server Iks → Prop) where
  accept _ _ := kept_elsewhere.onNet_keeps _
  connect _ _ _ := kept_elsewhere.onNet_keeps _
  receive _ _ _ := kept_elsewhere.onNet_keeps _
  send _ _ _ := kept_elsewhere.onNet_keeps _
  writable _ _ := kept_elsewhere.onNet_keeps _
  ignore _ := kept_elsewhere.onNet_keeps _
  close _ := kept_elsewhere.onNet_keeps _
  delete _ := kept_elsewhere.onNet_keeps _
  time := kept_elsewhere.getTime_keeps
  flush := jcFlushMessages_kept
  closeSession := jbCloseClient_kept
  stanza := jcHandleStanza_kept
  setHttp := jcSetHttp_kept
  openSession h host _ sock := kept_elsewhere.jbOpenSession_keeps h host sock
    fun _ _ _ kept history next clients connections _ =>
      kept.opened history next clients connections
  create := kept_elsewhere.hcCreate_keeps
  change _ _ same := kept_elsewhere.modifyConnection_keeps _ fun connection =>
    .inl (same connection)
  received s _ _ kept := kept_elsewhere.record s _ kept nofun
  request s _ _ kept := kept_elsewhere.record s _ kept nofun
  answer _ _ _ := kept_elsewhere.hsAnswerRequest_keeps _ (fun _ same => by cases same) _ _
  deleteConnection := hcDelete_kept

end Kept

section Steps
variable [Iksemel Iks] {q : Hold} {r r' : Configuration Iks} {input : Input Iks}

def Hold.Quiet (q : Hold) (s s' : Server Iks) : Prop := ∀ entry ∈ s.since s', ¬ q.Disturbs entry

omit [Iksemel Iks] in
theorem Hold.Kept.undisturbed {s s' : Server Iks} (kept : q.Kept s.history s')
    (quiet : q.Quiet s s') : q.Undisturbed s.history s' := by
  rcases kept with ⟨entry, older, ⟨between, rfl⟩, disturbs, before, same⟩ | undisturbed
  · have since : s.since s' = before ++ entry :: between := Server.since_eq (by rw [← same]; simp)
    exact absurd disturbs (quiet entry (by simp [since]))
  · exact undisturbed

theorem step_quiet (waits : q.Waits r.server) (other : ∀ oracle, input ≠ .timeout oracle)
    (done : step input r = .ok r') (quiet : q.Quiet r.server r'.server) :
    q.Undisturbed r.server.history r'.server := by
  have heard (oracle : Oracle Iks) : q.Kept r.server.history (r.server.hear oracle) :=
    .inr ⟨⟨waits.held, waits.registered, waits.known⟩, [], rfl, nofun⟩
  have kept := (kept_durable q r.server.history).step_keeps heard (fun _ => (absurd · (other _))) done
  exact kept.undisturbed quiet

theorem Hold.waits_of_reachable (run : Reachable r)
    (held : ∃ client, r.server.clients q.session = some client ∧
    client.connection = some q.connection ∧ client.timestamp = q.since ∧ client.wait = q.wait ∧
    client.outputQueue = []) : q.Waits r.server := by
  obtain ⟨client, here, mine, rest⟩ := held
  obtain ⟨sound, registered⟩ := (registered_invariant (Assumed.of False False)).reaches
    (fun _ _ _ => .always) run
  have holding : r.server.holding q.session = some q.connection := by
    simp [Server.holding, here, mine]
  refine ⟨⟨client, here, mine, rest⟩, fun h calls => ?_, ?_⟩
  · exact Option.some.inj ((registered h q.session calls).symm.trans holding)
  · exact sound.directory.below q.session (by simp [Server.directory, here])

theorem step_check {oracle : Oracle Iks} (done : step (.timeout oracle) r = .ok r') :
    jbCheckTimeout (r.server.hear oracle) = .ok ((), r'.server) := by
  obtain ⟨s, control⟩ := r
  cases control with
  | polling => cases done
  | finished => cases done
  | dispatching events =>
    cases events with
    | cons event events => cases done
    | nil =>
      have outcome : (jbCheckTimeout (s.hear oracle)).map (fun result =>
          ({ server := result.2, control := .polling } : Configuration Iks)) = .ok r' := done
      cases ran : jbCheckTimeout (s.hear oracle) with
      | error fault =>
        rw [ran] at outcome
        cases outcome
      | ok result =>
        rw [ran] at outcome
        cases outcome
        rfl

theorem step_check_returns (run : Reachable r) (turn : r.control = .dispatching [])
    (live : r.server.HoldsLive) (oracle : Oracle Iks) :
    ∃ r', step (.timeout oracle) r = .ok r' := by
  obtain ⟨s', done⟩ := jbCheckTimeout_returns (run.upright.hear oracle) (live.hear oracle).overdueLive
  obtain ⟨s, control⟩ := r
  subst turn
  exact ⟨⟨s', .polling⟩, congrArg (Except.map fun result : Unit × Server Iks =>
    ({ server := result.2, control := .polling } : Configuration Iks)) done⟩

/-- A check answers the request if and only if its time has come, and before that leaves it
alone. -/
theorem step_timeout (run : Reachable r) (waits : q.Waits r.server) {oracle : Oracle Iks}
    (done : step (.timeout oracle) r = .ok r') :
    (.answer q.connection (.dropRequest q.session) emptyResponse ∈ r.server.since r'.server ↔
      q.due ≤ (r.server.hear oracle).now) ∧
    ((r.server.hear oracle).now < q.due → q.Undisturbed r.server.history r'.server) := by
  have upright := run.upright.hear oracle
  have checked := checked_of upright (step_check done)
  obtain ⟨client, here, held, since, wait, empty⟩ := waits.held
  have found : (r.server.hear oracle).clients q.session = some client := here
  have holding : (r.server.hear oracle).holding q.session = some q.connection := by
    simp [Server.holding, here, held]
  have overdue : (r.server.hear oracle).overdue (r.server.hear oracle).now q.session = true ↔
      q.due ≤ (r.server.hear oracle).now := by
    rw [Server.overdue, found, Option.any_some, held]
    simp only [Option.isSome_some, Bool.true_and, decide_eq_true_eq, Hold.due]
    omega
  have answered : ∀ h body, .answer h (.dropRequest q.session) body ∈ r.server.since r'.server ↔
      body = emptyResponse ∧ (r.server.hear oracle).holding q.session = some h ∧
        q.due ≤ (r.server.hear oracle).now := fun h body => by
    rw [← overdue]
    exact checked.answer_iff upright
  refine ⟨?_, fun early => ⟨Hold.waits_of_reachable (run.step trivial done) ?_, ?_⟩⟩
  · rw [answered]
    simp only [holding, true_and]
  · have still : r'.server.clients q.session = some client := by
      refine checked.kept q.session client found ?_
      rw [JabberClient.deadline, held, Option.isSome_some, if_pos rfl, since, wait]
      exact early
    exact ⟨client, still, held, since, wait, empty⟩
  · refine ⟨_, checked.history, fun entry listed drops => ?_⟩
    rw [← Server.since_eq checked.history] at listed
    unfold Hold.Drops at drops
    split at drops
    · subst drops
      have passed := ((answered _ _).mp listed).2.2
      omega
    · exact drops

end Steps

section Runs
variable [Iksemel Iks] {q : Hold} {r r' : Configuration Iks}

omit [Iksemel Iks] in
theorem Hold.Spared.trans {base : List (Record Iks)} {s s' : Server Iks} (first : q.Spared base s)
    (second : q.Spared s.history s') : q.Spared base s' := by
  obtain ⟨news, same, none⟩ := first
  obtain ⟨later, same', none'⟩ := second
  refine ⟨later ++ news, by rw [same', same, List.append_assoc], fun entry listed => ?_⟩
  exact (List.mem_append.mp listed).elim (none' entry) (none entry)

/-- Nothing disturbs the request, and no check finds that its time has come. -/
inductive Hold.Waiting (q : Hold) (r : Configuration Iks) : Configuration Iks → Prop where
  | refl : Waiting q r r
  | quiet {r₁ r₂ : Configuration Iks} {input : Input Iks} : Waiting q r r₁ →
    (∀ oracle, input ≠ .timeout oracle) →
      step input r₁ = .ok r₂ → q.Quiet r₁.server r₂.server → Waiting q r r₂
  | check {r₁ r₂ : Configuration Iks} {oracle : Oracle Iks} : Waiting q r r₁ →
      (r₁.server.hear oracle).now < q.due → step (.timeout oracle) r₁ = .ok r₂ → Waiting q r r₂

theorem Hold.Waiting.undisturbed (waiting : q.Waiting r r') (run : Reachable r)
    (waits : q.Waits r.server) : Reachable r' ∧ q.Undisturbed r.server.history r'.server := by
  induction waiting with
  | refl => exact ⟨run, waits, [], rfl, nofun⟩
  | quiet _ other done quiet ih =>
    obtain ⟨run₁, waits₁, spared⟩ := ih
    obtain ⟨waits₂, spared₂⟩ := step_quiet waits₁ other done quiet
    exact ⟨run₁.step trivial done, waits₂, spared.trans spared₂⟩
  | check _ early done ih =>
    obtain ⟨run₁, waits₁, spared⟩ := ih
    obtain ⟨waits₂, spared₂⟩ := (step_timeout run₁ waits₁ done).2 early
    exact ⟨run₁.step trivial done, waits₂, spared.trans spared₂⟩

end Runs

end Bosh
