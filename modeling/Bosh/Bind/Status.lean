import Mathlib.Data.Finset.Card
import Bosh.Bind.Handling
import Bosh.Bind.Store
import Bosh.Server.Descriptors
import Bosh.Server.Orderly

/-! What the status page says is so. -/
namespace Bosh
open Effect Text

def statusPage (elapsed clients maximum : Nat) : Bytes :=
  statusHtml (decimal (elapsed / 86400000) ++ ascii " days, " ++
    decimalPadded (elapsed / 3600000 % 24 : Nat) ++ ascii ":" ++
    decimalPadded (elapsed / 60000 % 60 : Nat) ++ ascii ":" ++
    decimalPadded (elapsed / 1000 % 60 : Nat)) clients maximum

theorem decimalInt_natCast (n : Nat) : decimalInt n = decimal n := by
  unfold decimalInt
  rw [if_neg (by omega), Int.toNat_natCast]

theorem uptimeString_elapsed (elapsed : Nat) :
    uptimeString ((elapsed : Int).tdiv 1000) =
      decimal (elapsed / 86400000) ++ ascii " days, " ++
        decimalPadded (elapsed / 3600000 % 24 : Nat) ++ ascii ":" ++
        decimalPadded (elapsed / 60000 % 60 : Nat) ++ ascii ":" ++
        decimalPadded (elapsed / 1000 % 60 : Nat) := by
  have seconds : (elapsed : Int).tdiv 1000 = (elapsed / 1000 : Nat) := by
    rw [Int.tdiv_eq_ediv_of_nonneg (by omega)]
    rfl
  have minutes : ((elapsed / 1000 : Nat) : Int).tdiv 60 = (elapsed / 60000 : Nat) := by
    rw [Int.tdiv_eq_ediv_of_nonneg (by omega)]
    omega
  have hours : ((elapsed / 60000 : Nat) : Int).tdiv 60 = (elapsed / 3600000 : Nat) := by
    rw [Int.tdiv_eq_ediv_of_nonneg (by omega)]
    omega
  have days : ((elapsed / 3600000 : Nat) : Int).tdiv 24 = (elapsed / 86400000 : Nat) := by
    rw [Int.tdiv_eq_ediv_of_nonneg (by omega)]
    omega
  have left : ∀ n m : Nat, (n : Int).tmod m = (n % m : Nat) := fun n m => by
    rw [Int.tmod_eq_emod_of_nonneg (by omega)]
    rfl
  unfold uptimeString
  simp only [seconds, minutes, hours, days, decimalInt_natCast]
  exact congrArg₂ _ (congrArg₂ _ (congrArg₂ _ (congrArg₂ _ (congrArg₂ _ rfl
    (congrArg _ (left _ 24))) rfl) (congrArg _ (left _ 60))) rfl) (congrArg _ (left _ 60))

section Clock
variable {Iks : Type} [Iksemel Iks] {boot : Boot Iks} {c c₀ : Configuration Iks}

theorem start_time (began : start boot = .ok (some c)) : c.server.startTime = c.server.clock := by
  obtain ⟨httpConfig, jabberPort, sessionTimeout, s, ran, rfl⟩ := start_began began
  rfl

theorem Micro.time {a : Assumed} {p p' : Phase Iks} {s s' : Server Iks}
    (step : Micro a (p, s) (p', s')) : s'.startTime = s.startTime ∧ s.clock ≤ s'.clock := by
  cases step with
  | tick later => exact ⟨rfl, later⟩
  | _ => exact ⟨rfl, le_rfl⟩

theorem Configuration.Later.time (later : c₀.Later c) (began : start boot = .ok (some c₀)) :
    c.server.startTime = c₀.server.clock ∧ c₀.server.clock ≤ c.server.clock := by
  induction later with
  | refl => exact ⟨start_time began, le_rfl⟩
  | tail before last ih =>
    obtain ⟨input, done⟩ := last
    have run := Configuration.Later.reachable before began
    have step := step_relates
      (R := fun s s' => s'.startTime = s.startTime ∧ s.clock ≤ s'.clock) (fun _ => ⟨rfl, le_rfl⟩)
      (fun _ _ _ first second => ⟨second.1.trans first.1, first.2.trans second.2⟩)
      (fun _ _ => ⟨rfl, le_rfl⟩) (fun _ _ _ _ => Micro.time) run.sound done
    exact ⟨step.1.trans ih.1, ih.2.trans step.2⟩

end Clock

section Page
variable {Iks : Type} [Iksemel Iks] {boot : Boot Iks} {c₀ r : Configuration Iks}
  {oracle : Oracle Iks} {request : HttpRequest} {s : Server Iks}

/-- A status request is answered with the number of sessions there are, the largest number of
sessions there ever were at once, and the time since the server started; and it leaves every
session as it is. -/
theorem status_page_true (began : start boot = .ok (some c₀)) (later : c₀.Later r)
    (handed : HandedOver r oracle request s) (get : request.header.type = ascii "GET") :
    ∃ (s' : Server Iks) (live : Finset ClientId) (most elapsed : Nat),
      jbHandleRequest request s = .ok ((), s') ∧ s'.clients = r.server.clients ∧
      s'.history = .answer request.connection .request (statusPage elapsed live.card most) ::
        s.history ∧
      (∀ c, c ∈ live ↔ (r.server.clients c).isSome) ∧
      IsGreatest {n | ∃ past, past <:+ r.server.history ∧ openCount past = n} most ∧
      c₀.server.clock + elapsed = s.now := by
  have run := later.reachable began
  have upright := handed.upright run
  obtain ⟨connection, found⟩ := handed.connection
  have store := run.sound.directory.store fun _ _ here => run.alive here
  have times := later.time began
  have now : r.server.clock ≤ s.now := by
    cases handed
    exact Int.le_add_of_nonneg_right (Int.natCast_nonneg _)
  obtain ⟨elapsed, since⟩ : ∃ elapsed : Nat, s.now - c₀.server.clock = elapsed :=
    Int.eq_ofNat_of_zero_le (by omega)
  have started : s.startTime = c₀.server.clock := by
    cases handed
    exact times.1
  have counts : s.clientCount = (Chain.values r.server.jabberConnections).toFinset.card := by
    rw [List.toFinset_card_of_nodup store.once, Chain.values, List.length_map]
    cases handed
    exact store.counted
  obtain ⟨most, highest⟩ : ∃ most : Nat, r.server.maxClientCount = most :=
    Int.eq_ofNat_of_zero_le (store.highest.2 ⟨[], List.nil_suffix, rfl⟩)
  have same : s.maxClientCount = most := by
    cases handed
    exact highest
  have page : statusHtml (uptimeString ((s.now - s.startTime).tdiv 1000)) s.clientCount
      s.maxClientCount =
      statusPage elapsed (Chain.values r.server.jabberConnections).toFinset.card most := by
    rw [started, since, uptimeString_elapsed, counts, same]
    rfl
  have answers : Ensures (hsAnswerRequest request.connection .request
      (statusHtml (uptimeString ((s.now - s.startTime).tdiv 1000)) s.clientCount s.maxClientCount)
      httpHtmlContent s.ticked) _ fun _ => False :=
    (hsAnswerRequest_exact (s := s.ticked) upright.tidy (fun _ => upright.socket_connection) .request
      _ _).mono
      (fun _ _ => id) fun _ missing => by cases found.symm.trans missing
  obtain ⟨_, s', done, connection', net, -, -, after⟩ := answers.returns
  refine ⟨s', (Chain.values r.server.jabberConnections).toFinset, most, elapsed, ?_, ?_, ?_, ?_,
    highest ▸ store.highest, by omega⟩
  · unfold jbHandleRequest jbHandleHttpGet
    rw [if_neg (by rw [get]; decide), if_pos get, run_bind_ok (getTime_run s), run_get]
    exact done
  · rw [after]
    cases handed
    rfl
  · rw [after, ← page]
    rfl
  · intro c
    rw [List.mem_toFinset]
    exact run.sound.mem_jabberConnections

end Page

theorem status_page_true_held : ∃ (request : HttpRequest) (s s' : Server Sample)
    (live : Finset ClientId) (most elapsed : Nat), 0 ∈ live ∧
      jbHandleRequest request s = .ok ((), s') ∧
      s'.history = .answer request.connection .request (statusPage elapsed live.card most) ::
        s.history := by
  have found : (replay (fun _ _ => True) Sample.boot Sample.held).any fun r =>
      (r.server.clients 0).isSome ∧
        (handOver 1 Sample.get {} r).any fun handed => handed.1.header.type = ascii "GET" := by
    decide +kernel
  obtain ⟨r, done, holds⟩ := (Option.any_eq_true _ _).mp found
  obtain ⟨there, asked⟩ := of_decide_eq_true holds
  obtain ⟨⟨request, s⟩, handed, get⟩ := (Option.any_eq_true _ _).mp asked
  obtain ⟨c₀, began, later⟩ := later_of_replay done
  obtain ⟨s', live, most, elapsed, ran, -, history, members, -⟩ :=
    status_page_true began later (handedOver_of handed) (of_decide_eq_true get)
  exact ⟨request, s, s', live, most, elapsed, (members 0).mpr there, ran, history⟩

end Bosh
