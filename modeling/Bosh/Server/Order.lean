import Bosh.Server.Accounts

/-! The order of the answers on one connection. -/
namespace Bosh
open Effect Text

section History
variable {Iks : Type}

def heldRequest (c : ClientId) (h : ConnectionId) : List (Record Iks) → Option Nat
  | [] => none
  | .hcCreate k :: older => if k = h then none else heldRequest c h older
  | .hold c' k :: older =>
    if c' = c then if k = h then some (requestsOn h older) else none else heldRequest c h older
  | _ :: older => heldRequest c h older

/-- The number of the request that an answer is for, the first one of a connection being 1:
the last that was handed over, or the one that the session holds. -/
def respondsTo (h : ConnectionId) (answerer : Answerer Iks) (older : List (Record Iks)) :
    Option Nat :=
  match answerer with
  | .request => some (requestsOn h older)
  | .dropRequest c | .flushMessages c _ => heldRequest c h older

def InOrder : List (Record Iks) → Prop
  | [] => True
  | .answer h answerer _ :: older =>
    respondsTo h answerer older = some (answersOn h older + 1) ∧ InOrder older
  | _ :: older => InOrder older

theorem inOrder_iff {history : List (Record Iks)} :
    InOrder history ↔ ∀ h answerer body older, .answer h answerer body :: older <:+ history →
      respondsTo h answerer older = some (answersOn h older + 1) := by
  induction history with
  | nil => simp [InOrder]
  | cons entry history ih =>
    have step : ∀ {P : Prop}, (InOrder (entry :: history) ↔ P ∧ InOrder history) →
        (P ↔ ∀ h answerer body, entry = .answer h answerer body →
          respondsTo h answerer history = some (answersOn h history + 1)) →
        (InOrder (entry :: history) ↔
          ∀ h answerer body older, .answer h answerer body :: older <:+ entry :: history →
            respondsTo h answerer older = some (answersOn h older + 1)) := by
      intro P unfolded here
      rw [unfolded, here, ih]
      constructor
      · rintro ⟨now, before⟩ h answerer body older suffix
        rcases List.suffix_cons_iff.mp suffix with same | earlier
        · cases same
          exact now h answerer body rfl
        · exact before h answerer body older earlier
      · intro all
        refine ⟨fun h answerer body same => ?_, fun h answerer body older earlier => ?_⟩
        · exact all h answerer body history (same ▸ List.suffix_rfl)
        · exact all h answerer body older (earlier.trans (List.suffix_cons _ _))
    cases entry with
    | answer h answerer body => exact step Iff.rfl (by simp)
    | _ => exact step (P := True) (by simp [InOrder]) (by simp)

end History

section Steps
variable {Iks : Type} [Iksemel Iks] {a : Assumed} {p p' : Phase Iks} {s s' : Server Iks}

def Next (holding : ClientId → Option ConnectionId) (history : List (Record Iks)) : Prop :=
  ∀ c h, holding c = some h → heldRequest c h history = some (answersOn h history + 1)

structure OrderSound (q : Phase Iks × Server Iks) : Prop where
  links : LinksSound q
  balanced : (accounts q).Balanced
  inOrder : InOrder q.2.history
  next : Next q.2.holding q.2.history

omit [Iksemel Iks] in
theorem OrderSound.latest (order : OrderSound (p, s)) {h : ConnectionId} (owed : p.owed = some h)
    (unheld : ∀ c, s.holding c ≠ some h) : requestsOn h s.history = answersOn h s.history + 1 := by
  have balance := order.balanced h (order.links.inHand h (.inl owed))
  have nobody : s.holders h = 0 := List.countP_eq_zero.mpr fun c _ => by simpa using unheld c
  simpa [accounts, owed, nobody] using balance

omit [Iksemel Iks] in
/-- An answer that a session gives is in order, and nothing else that is held has waited
for it. -/
theorem OrderSound.release (order : OrderSound (p, s)) {c : ClientId} {h : ConnectionId}
    {answerer : Answerer Iks} {body : Bytes} {holding : ClientId → Option ConnectionId}
    (held : s.holding c = some h)
    (responds : respondsTo h answerer s.history = heldRequest c h s.history)
    (same : holding = Function.update s.holding c none) :
    InOrder (.answer h answerer body :: s.history) ∧
      Next holding (.answer h answerer body :: s.history) := by
  refine ⟨⟨responds.trans (order.next c h held), order.inOrder⟩, fun c' k holds => ?_⟩
  rw [same] at holds
  obtain ⟨other, holds⟩ := Table.of_update_none holds
  have different : h ≠ k := by
    rintro rfl
    have linked := order.links.linked.linked
    have same := (linked c' h holds).symm.trans (linked c h held)
    cases same
    exact other rfl
  simpa [heldRequest, answersOn, different] using order.next c' k holds

omit [Iksemel Iks] in
theorem Next.clear (next : Next s.holding s.history) {c : ClientId}
    {holding : ClientId → Option ConnectionId} (same : holding = Function.update s.holding c none) :
    Next holding s.history := fun c' k holds => by
  rw [same] at holds
  exact next c' k (Table.of_update_none holds).2

omit [Iksemel Iks] in
theorem Next.hold (next : Next s.holding s.history) {c : ClientId} {h : ConnectionId}
    {holding : ClientId → Option ConnectionId}
    (latest : requestsOn h s.history = answersOn h s.history + 1)
    (same : holding = Function.update s.holding c (some h)) :
    Next holding (.hold c h :: s.history) := fun c' k holds => by
  rw [same] at holds
  rcases Table.of_update holds with ⟨rfl, new⟩ | ⟨other, holds⟩
  · cases new
    simpa [heldRequest, answersOn] using latest
  · simpa [heldRequest, answersOn, Ne.symm other] using next c' k holds

theorem Micro.orderSound (step : Micro a (p, s) (p', s')) (alone : a.alone) (sound : Sound s)
    (order : OrderSound (p, s)) : OrderSound (p', s') := by
  have linked := order.links.linked
  have unheld : ∀ h, s.connections h = none → ∀ c, s.holding c ≠ some h := fun h gone c holds => by
    have registered := linked.linked c h holds
    simp [links, Server.registered, gone] at registered
  suffices answers : InOrder s'.history ∧ Next s'.holding s'.history by
    refine ⟨(links_invariant alone).micro _ _ _ _ step sound order.links, ?_, answers.1, answers.2⟩
    refine order.balanced.change (step.accounts_change sound order.links.registered
      order.links.inHand fun h gone _ => ?_)
    exact List.countP_eq_zero.mpr fun c _ => by simpa using unheld h gone c
  have inOrder := order.inOrder
  have next := order.next
  have still : ∀ {holding}, holding = s.holding → Next holding s.history := fun same => same ▸ next
  cases step with
  | stamp here => exact ⟨inOrder, still (holding_same here rfl)⟩
  | kill _ here => exact ⟨inOrder, still (holding_same here rfl)⟩
  | stanza _ here => exact ⟨inOrder, still (holding_same here rfl)⟩
  | @create _ _ h _ _ _ gone =>
    refine ⟨inOrder, fun c k holds => ?_⟩
    have other : h ≠ k := by
      rintro rfl
      exact unheld h gone c holds
    simpa [heldRequest, answersOn, other] using next c k holds
  | @answer _ _ h _ _ _ _ owed free =>
    have alone : ∀ c, s.holding c ≠ some h := fun c holds => by
      have target := linked.owed c h owed holds
      simp [links, free] at target
    refine ⟨⟨congrArg some (order.latest owed alone), inOrder⟩, fun c k holds => ?_⟩
    have other : h ≠ k := by
      rintro rfl
      exact alone c holds
    simpa [Server.answered, heldRequest, answersOn, other] using next c k holds
  | drop here held =>
    exact order.release (by simp [Server.holding, here, held]) rfl Table.bind_update
  | flush here held =>
    exact order.release (by simp [Server.holding, here, held]) rfl Table.bind_update
  | deleteHeld _ _ _ here => exact ⟨inOrder, next.clear Table.bind_update⟩
  | @hold _ _ c _ client h _ _ _ owed target _ here free =>
    have alone : ∀ c', s.holding c' ≠ some h := fun c' holds => by
      have same := linked.owed c' h owed holds
      simp only [links, target, Option.map_some, Option.some.injEq] at same
      simp [Server.holding, ← same, here, free] at holds
    exact ⟨inOrder, next.hold (order.latest owed alone) Table.bind_update⟩
  | openSession => exact ⟨inOrder, still (holding_new sound rfl)⟩
  | forget here free => exact ⟨inOrder, still (holding_gone here free)⟩
  | _ => exact ⟨inOrder, next⟩

theorem order_invariant {a : Assumed} (alone : a.alone) :
    Invariant a (OrderSound : Phase Iks × Server Iks → Prop) where
  initial s initial := by
    refine ⟨(links_invariant alone).initial s initial, fun h live => ?_, ?_, ?_⟩
    · simp [accounts, initial.connections] at live
    · rw [show (({} : Phase Iks), s).2.history = [] from initial.history]
      trivial
    · exact fun c h holds => by simp [Server.holding, initial.clients] at holds
  hear s oracle h := ⟨(links_invariant alone).hear s oracle h.links, h.balanced, h.inOrder, h.next⟩
  micro _ _ _ _ step sound h := step.orderSound alone sound h

/-- While no request arrives on a connection that holds one for another session, the answers
on a connection are the answers to its requests, in their order. -/
theorem responses_in_order {c : Configuration Iks} (run : Reaches NoOverlap c) {h : ConnectionId}
    {answerer : Answerer Iks} {body : Bytes} {older : List (Record Iks)}
    (given : .answer h answerer body :: older <:+ c.server.history) :
    respondsTo h answerer older = some (answersOn h older + 1) := by
  have invariant : Invariant (Assumed.of True False) (OrderSound : Phase Iks × Server Iks → Prop) :=
    order_invariant trivial
  obtain ⟨-, order⟩ := invariant.reaches
    (fun c input allowed => ⟨fun _ _ _ _ _ => trivial, fun _ => allowed, nofun⟩) run
  exact inOrder_iff.mp order.inOrder h answerer body older given

end Steps

theorem responses_in_order_held :
    respondsTo 1 (.request : Answerer Sample)
        ((Sample.reached NoOverlap Sample.held Sample.held_apart).server.history.drop 4) =
      some (answersOn 1
        ((Sample.reached NoOverlap Sample.held Sample.held_apart).server.history.drop 4) + 1) :=
  have here : (Sample.reached NoOverlap Sample.held Sample.held_apart).server.history[3]? =
      some (.answer 1 .request (sessionResponse 0)) := by decide +kernel
  responses_in_order Sample.reaches_reached (suffix_of_getElem here)

/-- The status request is the third one, and its answer the second. -/
theorem responses_in_order_overlapped :
    ¬ ∀ c : Configuration Sample, Reachable c → ∀ h answerer body older,
      .answer h answerer body :: older <:+ c.server.history →
        respondsTo h answerer older = some (answersOn h older + 1) := fun claim =>
  have here : (Sample.reached (fun _ _ => True) Sample.overlapped
      Sample.overlapped_works).server.history[0]? =
      some (.answer 1 .request (statusHtml (uptimeString 0) 1 1)) := by decide +kernel
  absurd (claim _ Sample.reaches_reached _ _ _ _ (suffix_of_getElem here)) (by decide +kernel)

end Bosh
