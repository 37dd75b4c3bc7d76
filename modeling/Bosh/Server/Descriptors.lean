import Bosh.Bind.Patience
import Bosh.Socket.Descriptors

/-! Every descriptor that the server has opened belongs to one socket. -/
namespace Bosh
open Effect Text

/-- The sockets and the descriptors agree, those apart that were open before. -/
structure Net.Accounted (inherited : Int → Bool) (n : Net) : Prop where
  tidy : n.Tidy none
  balanced : Ledger.Balanced inherited n.ledger

section Calls
variable {inherited : Int → Bool} {n : Net} {α : Type} {program : NetM α}

theorem Net.Accounted.trades {post : α → Net → Prop} (accounted : n.Accounted inherited)
    (tidy : Ensures (program n) (fun value n' => post value n' → n'.Tidy none) fun _ => True)
    (trades : Ensures (program n) (fun value n' => post value n' → n.Trades n') fun _ => True) :
    Ensures (program n) (fun value n' => post value n' → n'.Accounted inherited) fun _ => True :=
  (tidy.both trades).mono (fun _ _ both holds =>
    ⟨both.1 holds, accounted.balanced.steps (both.2 holds)⟩) fun _ => And.left

theorem accounted_keeps (tidy : Keeps (Net.Tidy none) program)
    (trades : ∀ {n : Net}, n.Tidy none → Ensures (program n) (fun _ n' => n.Trades n') fun _ => True) :
    Keeps (Net.Accounted inherited) program := fun n accounted =>
  ((tidy n accounted.tidy).both (trades accounted.tidy)).mono
    (fun _ _ both => ⟨both.1, accounted.balanced.steps both.2⟩) fun _ => And.left

theorem accounted_same (tidy : Keeps (Net.Tidy none) program)
    (same : ∀ l, Keeps (fun n => n.ledger = l) program) :
    Keeps (Net.Accounted inherited) program :=
  accounted_keeps tidy fun {n} _ =>
    (same n.ledger n rfl).mono (fun _ _ same => .of_eq same) fun _ => id

theorem accounted_enduring : Enduring (Net.Accounted inherited) where
  hear _ sends accounted := ⟨tidy_lasting.hear _ sends accounted.tidy, accounted.balanced⟩
  serve n port answers accounted :=
    accounted.trades (tidy_lasting.serve n port answers accounted.tidy)
      (sockServe_trades accounted.tidy port answers)
  accept i answer :=
    accounted_keeps (tidy_lasting.accept i answer) fun tidy => sockAccept_trades tidy i answer
  connect host port answers :=
    accounted_keeps (tidy_lasting.connect host port answers) fun tidy =>
      sockOpen_trades tidy host port answers
  receive i len answer :=
    accounted_keeps (tidy_lasting.receive i len answer) fun tidy => sockRecv_trades tidy i len answer
  send i last buffers :=
    accounted_keeps (tidy_lasting.send i last buffers) fun tidy =>
      sockSends_trades tidy (only_none i) last buffers
  writable i errorCode :=
    accounted_keeps (tidy_lasting.writable i errorCode) fun tidy =>
      sockWritable_trades tidy i errorCode
  ignore i := accounted_same (tidy_lasting.ignore i) fun l => sockIgnore_ledger l i
  close i := accounted_keeps (tidy_lasting.close i) fun tidy => sockClose_trades tidy i
  delete i := accounted_keeps (tidy_lasting.delete i) fun tidy => sockDelete_trades tidy i
  dataCallback i callback :=
    accounted_same (tidy_lasting.dataCallback i callback) fun l =>
      sockSetDataCallback_ledger l i callback
  acceptCallback i callback :=
    accounted_same (tidy_lasting.acceptCallback i callback) fun l =>
      sockSetAcceptCallback_ledger l i callback
  connectCallback i callback :=
    accounted_same (tidy_lasting.connectCallback i callback) fun l =>
      modifySocket_ledger l i fun _ => rfl
  errorCallback i callback :=
    accounted_same (tidy_lasting.errorCallback i callback) fun l =>
      modifySocket_ledger l i fun _ => rfl

theorem Net.blank_accounted (openFds : Int → Bool) (sends : SocketId → List SendResult) :
    (Net.blank openFds sends).Accounted openFds :=
  ⟨Net.blank_tidy openFds sends, Ledger.balanced_start openFds⟩

end Calls

section Runs
variable {Iks : Type} [Iksemel Iks] {boot : Boot Iks} {c c₀ : Configuration Iks}

theorem Configuration.Later.reachable (later : c₀.Later c) (began : start boot = .ok (some c₀)) :
    Reachable c := by
  induction later with
  | refl => exact .start began
  | tail _ last ih =>
    obtain ⟨input, done⟩ := last
    exact ih.step trivial done

theorem accounted_run (began : start boot = .ok (some c₀)) (later : c₀.Later c) :
    c.server.net.Accounted boot.openFds := by
  induction later with
  | refl => exact start_keeps accounted_enduring began (Net.blank_accounted _ _)
  | tail _ last ih =>
    obtain ⟨input, done⟩ := last
    have enduring : Enduring (Net.Accounted boot.openFds) := accounted_enduring
    exact enduring.durable.step_keeps (fun oracle => enduring.hear _ oracle.sends ih)
      (fun _ _ => jbCheckTimeout_keeps enduring.toPersistent) done

/-- At any time the descriptors that are open are those that were before `jb_new`, that of epoll
among them, and those of the sockets: each socket's own, and nobody else's. The log file, which is
in no socket, is left apart. -/
theorem descriptors_accounted (began : start boot = .ok (some c₀)) (later : c₀.Later c) :
    (∀ fd, c.server.net.openFds fd = true ↔ boot.openFds fd = true ∨
      ∃ i sock, c.server.net.sockets i = some sock ∧ sock.fd ≠ -1 ∧ sock.fd = fd) ∧
    ∀ i sock, c.server.net.sockets i = some sock → sock.fd ≠ -1 → boot.openFds sock.fd = false ∧
      ∀ j other, c.server.net.sockets j = some other → other.fd = sock.fd → j = i := by
  have balanced := (accounted_run began later).balanced
  have held : ∀ i fd, c.server.net.ledger.held i = some fd ↔
      ∃ sock, c.server.net.sockets i = some sock ∧ sock.fd ≠ -1 ∧ sock.fd = fd := fun i fd => by
    simp [Net.ledger, Option.bind_eq_some_iff, Socket.descriptor]
  refine ⟨fun fd => ?_, fun i sock here real => ⟨?_, fun j other there same => ?_⟩⟩
  · exact (balanced.taken fd).trans (or_congr_right (exists_congr fun i => held i fd))
  · exact balanced.own i sock.fd ((held i _).mpr ⟨sock, here, real, rfl⟩)
  · exact balanced.apart j i sock.fd ((held j _).mpr ⟨other, there, same ▸ real, same⟩)
      ((held i _).mpr ⟨sock, here, real, rfl⟩)

theorem later_of_follow {admitted : Configuration Iks → Input Iks → Prop}
    [∀ c input, Decidable (admitted c input)] {inputs : List (Input Iks)}
    (done : follow admitted inputs c₀ = some c) : c₀.Later c := by
  induction inputs generalizing c₀ with
  | nil =>
    cases done
    exact .refl
  | cons input inputs ih =>
    unfold follow at done
    split at done
    · split at done
      · rename_i next stepped
        exact .head ⟨input, stepped⟩ (ih done)
      · cases done
    · cases done

theorem later_of_replay {admitted : Configuration Iks → Input Iks → Prop}
    [∀ c input, Decidable (admitted c input)] {inputs : List (Input Iks)}
    (done : replay admitted boot inputs = some c) :
    ∃ c₀, start boot = .ok (some c₀) ∧ c₀.Later c := by
  unfold replay at done
  split at done
  · rename_i c₀ began
    exact ⟨c₀, began, later_of_follow done⟩
  · cases done

end Runs

def Sample.inheriting : Boot Sample :=
  { Sample.boot with openFds := fun fd => decide (0 ≤ fd) && decide (fd < 3) }

theorem descriptors_accounted_held : ∃ c : Configuration Sample,
    replay (fun _ _ => True) Sample.inheriting Sample.held = some c ∧ ∀ fd,
      c.server.net.openFds fd = true ↔ Sample.inheriting.openFds fd = true ∨
        ∃ i sock, c.server.net.sockets i = some sock ∧ sock.fd ≠ -1 ∧ sock.fd = fd := by
  obtain ⟨c, done⟩ := Option.isSome_iff_exists.mp
    (by decide +kernel : (replay (fun _ _ => True) Sample.inheriting Sample.held).isSome)
  obtain ⟨c₀, began, later⟩ := later_of_replay done
  exact ⟨c, done, (descriptors_accounted began later).1⟩

end Bosh
