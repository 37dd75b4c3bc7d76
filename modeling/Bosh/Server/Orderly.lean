import Bosh.Server.Effects

/-! What is in order throughout a run: the lists, the sockets and the links, and the server's own
socket belongs to nobody else. -/
namespace Bosh
open Effect

structure Estate.Free (e : Estate) (i : SocketId) : Prop where
  made : i < e.wire.nextSocket
  unowned : ∀ o, e.sock o ≠ some i

theorem Estate.Free.change {e e' : Estate} {i : SocketId} (free : e.Free i)
    (change : Change e e') : e'.Free i := by
  obtain ⟨made, unowned⟩ := free
  cases change with
  | keep keeps same => exact ⟨keeps.nextSocket ▸ made, same ▸ unowned⟩
  | abandon wire same => exact ⟨wire ▸ Nat.lt_succ_of_lt made, same ▸ unowned⟩
  | acquire _ _ _ _ wire same =>
    refine ⟨wire ▸ Nat.lt_succ_of_lt made, fun o mine => ?_⟩
    rw [same] at mine
    rcases Table.of_update mine with ⟨-, new⟩ | ⟨-, old⟩
    · cases new
      exact lt_irrefl _ made
    · exact unowned o old
  | release _ wire same =>
    refine ⟨wire ▸ made, fun o mine => ?_⟩
    rw [same] at mine
    exact unowned o (Table.of_update_none mine).2
  | discard _ wire same => exact ⟨wire ▸ made, same ▸ unowned⟩

section Order
variable {Iks : Type} [Iksemel Iks] {a : Assumed} {p p' : Phase Iks} {s s' : Server Iks}

theorem Micro.serverSock (step : Micro a (p, s) (p', s')) : s'.serverSock = s.serverSock := by
  cases step <;> rfl

/-- What does not depend on the phase, and what the monitor's table looks like. -/
structure Orderly (s : Server Iks) : Prop extends Upright s where
  registered : (links ({}, s)).Registered
  free : s.estate.Free s.serverSock

theorem Orderly.micro (orderly : Orderly s) (step : Micro (Assumed.of False False) (p, s) (p', s'))
    (tidy : s'.Tidy) : Orderly s' := by
  have before : (links (p, s)).Registered := orderly.registered
  have after : (links (p', s')).Registered := before.change (step.links_change orderly.sound)
  exact ⟨⟨step.sound orderly.sound, tidy⟩, after,
    step.serverSock ▸ orderly.free.change (step.estate orderly.sound)⟩

theorem Orderly.of_sim {α : Type} {program : ServerM Iks α}
    {post : α → Phase Iks → Server Iks → Prop} (orderly : Orderly s)
    (sim : Sim (Assumed.of False False) (p, s) (program s) post)
    (tidy : Keeps Server.Tidy program) :
    Ensures (program s) (fun _ s' => Orderly s') fun _ => True := by
  have kept : ∀ q q' : Phase Iks × Server Iks, Micro (Assumed.of False False) q q' →
      (Sound q.2 ∧ (links q).Registered ∧ q.2.estate.Free q.2.serverSock) →
      Sound q'.2 ∧ (links q').Registered ∧ q'.2.estate.Free q'.2.serverSock := by
    rintro ⟨p, s⟩ ⟨p', s'⟩ step ⟨sound, registered, free⟩
    exact ⟨step.sound sound, registered.change (step.links_change sound),
      step.serverSock ▸ free.change (step.estate sound)⟩
  have ends := sim.invariant kept ⟨orderly.sound, orderly.registered, orderly.free⟩
  apply (ends.both (tidy s orderly.tidy)).mono
  · rintro _ s' ⟨⟨_, ⟨sound, registered, free⟩, -⟩, tidy'⟩
    exact ⟨⟨sound, tidy'⟩, registered, free⟩
  · exact fun _ _ => trivial

theorem serverSock_of_sim {α : Type} {program : ServerM Iks α}
    {post : α → Phase Iks → Server Iks → Prop}
    (sim : Sim (Assumed.of False False) (p, s) (program s) post) :
    Ensures (program s) (fun _ s' => s'.serverSock = s.serverSock) fun _ => True := by
  have kept : ∀ q q' : Phase Iks × Server Iks, Micro (Assumed.of False False) q q' →
      q.2.serverSock = s.serverSock → q'.2.serverSock = s.serverSock :=
    fun _ _ step same => (Micro.serverSock step).trans same
  exact (sim.invariant kept rfl).mono (fun _ _ ends => ends.choose_spec.1) fun _ _ => trivial

omit [Iksemel Iks] in
theorem Orderly.hear (orderly : Orderly s) (oracle : Oracle Iks) : Orderly (s.hear oracle) where
  toUpright := orderly.toUpright.hear oracle
  registered := orderly.registered
  free := ⟨orderly.free.made, orderly.free.unowned⟩

def Server.Listens (s : Server Iks) : Prop := (s.net.sockets s.serverSock).isSome

end Order

section Runs
variable {Iks : Type} [Iksemel Iks] {c : Configuration Iks}

theorem hsNew_sock (config : Iks) (s : Server Iks) :
    Ensures (hsNew config s) (fun started s' => started = true → s'.serverSock = s.net.nextSocket)
      fun _ => True := by
  unfold hsNew
  rw [run_bind_ok (onNet_run sockNew_run), run_get, ensures_bind]
  refine (onNet_frame _ _).mono ?_ fun _ => id
  rintro listening _ ⟨n₁, rfl⟩
  split
  · rw [run_modify, ensures_bind]
    refine (onNet_frame _ _).mono ?_ fun _ => id
    rintro _ _ ⟨n₂, rfl⟩
    exact fun _ => rfl
  · exact nofun

theorem start_sock {boot : Boot Iks} (began : start boot = .ok (some c)) : c.server.serverSock = 0 := by
  obtain ⟨httpConfig, jabberPort, sessionTimeout, s, ran, rfl⟩ := start_began began
  exact (hsNew_sock _ _).of_ok ran rfl

theorem start_listens {boot : Boot Iks} (began : start boot = .ok (some c)) : c.server.Listens := by
  obtain ⟨sends, sock, -, -, wire⟩ := (start_initial began).wire
  rw [Server.Listens, start_sock began, ← Net.wire_sockets, wire, Wire.sockets_push_self]
  rfl

/-- What every state change relates, a step relates. -/
theorem step_relates {c' : Configuration Iks} {input : Input Iks}
    {R : Server Iks → Server Iks → Prop} (refl : ∀ s, R s s)
    (trans : ∀ s₁ s₂ s₃, R s₁ s₂ → R s₂ s₃ → R s₁ s₃) (hear : ∀ s oracle, R s (s.hear oracle))
    (micro : ∀ p s p' s', Micro (Assumed.of False False) (p, s) (p', s') → R s s')
    (sound : Sound c.server) (done : step input c = .ok c') : R c.server c'.server := by
  have stepped : Stepped (Assumed.of False False) c input (step input c) :=
    step_stepped sound .always
  rw [done] at stepped
  have kept : ∀ q q' : Phase Iks × Server Iks, Steps (Assumed.of False False) q q' → R q.2 q'.2 :=
    fun q q' steps => by
      induction steps with
      | refl => exact refl _
      | tail _ last before => exact trans _ _ _ before (micro _ _ _ _ last)
  exact trans _ _ _ (hear _ _) (kept _ _ stepped.1)

theorem Reaches.serverSock {admitted : Configuration Iks → Input Iks → Prop}
    (run : Reaches admitted c) : c.server.serverSock = 0 := by
  induction run with
  | start began => exact start_sock began
  | step before _ done ih =>
    have same := step_relates (R := fun s s' => s'.serverSock = s.serverSock) (fun _ => rfl)
      (fun _ _ _ first second => second.trans first) (fun _ _ => rfl)
      (fun _ _ _ _ step => step.serverSock) before.sound done
    exact same.trans ih

theorem free_invariant : Invariant (Assumed.of False False)
    fun q : Phase Iks × Server Iks => q.2.estate.Free 0 where
  initial s initial := by
    obtain ⟨sends, sock, -, -, wire⟩ := initial.wire
    refine ⟨?_, fun o => ?_⟩
    · change 0 < s.net.wire.nextSocket
      rw [wire]
      exact Nat.one_pos
    · cases o <;> simp [Server.estate, ownerSocks, initial.clients, initial.connections]
  hear _ _ free := ⟨free.made, free.unowned⟩
  micro _ _ _ _ step sound free := free.change (step.estate sound)

theorem Reaches.orderly {admitted : Configuration Iks → Input Iks → Prop}
    (run : Reaches admitted c) : Orderly c.server where
  toUpright := run.upright
  registered := ((registered_invariant _).reaches (fun _ _ _ => .always) run).2
  free := by
    rw [run.serverSock]
    exact (free_invariant.reaches (fun _ _ _ => .always) run).2

end Runs

end Bosh
