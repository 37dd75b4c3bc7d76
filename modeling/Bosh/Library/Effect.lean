import Mathlib.Logic.Relation

/-! Imperative programs that change a state and may fault, and what their runs ensure:
a rule for each primitive takes the statement about a `do` block apart, one line at a
time, as a weakest precondition does. -/
namespace Effect

/-- A program over `State` that returns a value or stops with a fault. -/
abbrev Program (State Fault Value : Type) := StateT State (Except Fault) Value

variable {σ τ ε α β : Type}

/-- The run ends in a state with `post`, or with a fault of which `bad` holds. -/
def Ensures (run : Except ε (α × σ)) (post : α → σ → Prop) (bad : ε → Prop) : Prop :=
  match run with
  | .ok (value, s) => post value s
  | .error fault => bad fault

section Rules
variable {s : σ} {post : α → σ → Prop} {bad : ε → Prop}

theorem Ensures.mono {run : Except ε (α × σ)} {post' : α → σ → Prop} {bad' : ε → Prop}
    (h : Ensures run post bad) (hpost : ∀ v s, post v s → post' v s)
    (hbad : ∀ fault, bad fault → bad' fault) : Ensures run post' bad' := by
  cases run with
  | error fault => exact hbad _ h
  | ok result => exact hpost _ _ h

theorem Ensures.self (run : Except ε (α × σ)) :
    Ensures run (fun value s => run = .ok (value, s)) fun fault => run = .error fault := by
  cases run with
  | error fault => exact rfl
  | ok result => exact rfl

theorem Ensures.both {run : Except ε (α × σ)} {post' : α → σ → Prop} {bad' : ε → Prop}
    (h : Ensures run post bad) (h' : Ensures run post' bad') :
    Ensures run (fun v s => post v s ∧ post' v s) fun fault => bad fault ∧ bad' fault := by
  cases run with
  | error fault => exact ⟨h, h'⟩
  | ok result => exact ⟨h, h'⟩

theorem Ensures.returns {run : Except ε (α × σ)} (h : Ensures run post fun _ => False) :
    ∃ value s, run = .ok (value, s) ∧ post value s := by
  cases run with
  | error fault => exact h.elim
  | ok result => exact ⟨result.1, result.2, rfl, h⟩

theorem Ensures.of_ok {run : Except ε (α × σ)} {value : α} (h : Ensures run post bad)
    (ran : run = .ok (value, s)) : post value s := by
  rw [ran] at h
  exact h

theorem Ensures.of_error {run : Except ε (α × σ)} {fault : ε} (h : Ensures run post bad)
    (ran : run = .error fault) : bad fault := by
  rw [ran] at h
  exact h

@[simp] theorem ensures_bind {program : Program σ ε β} {next : β → Program σ ε α} :
    Ensures ((program >>= next) s) post bad ↔
      Ensures (program s) (fun value middle => Ensures (next value middle) post bad) bad := by
  change Ensures (program s >>= fun p => next p.1 p.2) post bad ↔ _
  cases program s with
  | error fault => exact Iff.rfl
  | ok p => exact Iff.rfl

@[simp] theorem ensures_map {f : β → α} {program : Program σ ε β} :
    Ensures ((f <$> program) s) post bad ↔
      Ensures (program s) (fun value middle => post (f value) middle) bad := by
  rw [map_eq_pure_bind]
  exact ensures_bind

@[simp] theorem ensures_pure {value : α} :
    Ensures ((pure value : Program σ ε α) s) post bad ↔ post value s := Iff.rfl

@[simp] theorem ensures_get {post : σ → σ → Prop} :
    Ensures ((get : Program σ ε σ) s) post bad ↔ post s s := Iff.rfl

@[simp] theorem ensures_set {new : σ} {post : PUnit → σ → Prop} :
    Ensures ((set new : Program σ ε PUnit) s) post bad ↔ post ⟨⟩ new := Iff.rfl

@[simp] theorem ensures_modify {f : σ → σ} {post : PUnit → σ → Prop} :
    Ensures ((modify f : Program σ ε PUnit) s) post bad ↔ post ⟨⟩ (f s) := Iff.rfl

@[simp] theorem ensures_throw {fault : ε} :
    Ensures ((throw fault : Program σ ε α) s) post bad ↔ bad fault := Iff.rfl

end Rules

def part (get : σ → τ) (put : τ → σ → σ) (program : Program τ ε α) : Program σ ε α :=
  fun s => match program (get s) with
    | .ok (value, t) => .ok (value, put t s)
    | .error fault => .error fault

@[simp] theorem ensures_part {get : σ → τ} {put : τ → σ → σ} {program : Program τ ε α} {s : σ}
    {post : α → σ → Prop} {bad : ε → Prop} :
    Ensures (part get put program s) post bad ↔
      Ensures (program (get s)) (fun value t => post value (put t s)) bad := by
  unfold part
  cases program (get s) with
  | error fault => exact Iff.rfl
  | ok p => exact Iff.rfl

def checked (result : Except ε α) : Program σ ε α := fun s =>
  match result with
  | .ok value => .ok (value, s)
  | .error fault => .error fault

@[simp] theorem ensures_checked {result : Except ε α} {s : σ} {post : α → σ → Prop}
    {bad : ε → Prop} :
    Ensures (checked result s) post bad ↔
      (∀ value, result = .ok value → post value s) ∧ ∀ fault, result = .error fault →
        bad fault := by
  unfold checked
  cases result <;> simp [Ensures]

/-- Read a partial component of the state, or stop with `fault`. -/
def demand (read : σ → Option α) (fault : ε) : Program σ ε α := fun s =>
  match read s with
  | some value => .ok (value, s)
  | none => .error fault

@[simp] theorem ensures_demand {read : σ → Option α} {fault : ε} {s : σ} {post : α → σ → Prop}
    {bad : ε → Prop} :
    Ensures (demand read fault s) post bad ↔
      (∀ value, read s = some value → post value s) ∧ (read s = none → bad fault) := by
  unfold demand
  cases read s <;> simp [Ensures]

section Evaluation
variable {program : Program σ ε β} {next : β → Program σ ε α} {s s' : σ}

theorem run_bind_ok {value : β} (ran : program s = .ok (value, s')) :
    (program >>= next) s = next value s' := by
  change (program s >>= fun p => next p.1 p.2) = _
  rw [ran]
  rfl

theorem run_bind_error {fault : ε} (failed : program s = .error fault) :
    (program >>= next) s = .error fault := by
  change (program s >>= fun p => next p.1 p.2) = _
  rw [failed]
  rfl

/-- A run that returns has run its first part, and then the rest. -/
theorem bind_run {result : α × σ} (ran : (program >>= next) s = .ok result) :
    ∃ value middle, program s = .ok (value, middle) ∧ next value middle = .ok result := by
  cases first : program s with
  | error fault =>
    rw [run_bind_error first] at ran
    cases ran
  | ok p => exact ⟨p.1, p.2, rfl, (run_bind_ok first).symm.trans ran⟩

theorem run_map {f : β → α} {value : β} (ran : program s = .ok (value, s')) :
    (f <$> program) s = .ok (f value, s') := by
  rw [map_eq_pure_bind, run_bind_ok ran]
  rfl

theorem run_get {next : σ → Program σ ε α} : ((get : Program σ ε σ) >>= next) s = next s s := rfl

theorem run_set {new : σ} {next : PUnit → Program σ ε α} :
    ((set new : Program σ ε PUnit) >>= next) s = next ⟨⟩ new := rfl

theorem run_modify {f : σ → σ} {next : PUnit → Program σ ε α} :
    ((modify f : Program σ ε PUnit) >>= next) s = next ⟨⟩ (f s) := rfl

theorem run_checked {result : Except ε α} {value : α} (done : result = .ok value) :
    checked result s = .ok (value, s) := by
  subst done
  rfl

theorem run_demand {read : σ → Option α} {fault : ε} {value : α} (there : read s = some value) :
    demand read fault s = .ok (value, s) := by
  unfold demand
  rw [there]

theorem run_demand_none {read : σ → Option α} {fault : ε} (missing : read s = none) :
    demand read fault s = .error fault := by
  unfold demand
  rw [missing]

theorem run_part {get : σ → τ} {put : τ → σ → σ} {program : Program τ ε α} {value : α} {t : τ}
    (ran : program (get s) = .ok (value, t)) : part get put program s = .ok (value, put t s) := by
  unfold part
  rw [ran]

theorem run_part_error {get : σ → τ} {put : τ → σ → σ} {program : Program τ ε α} {fault : ε}
    (failed : program (get s) = .error fault) : part get put program s = .error fault := by
  unfold part
  rw [failed]

theorem ok_of_toOption {run : Except ε α} {result : α} (given : run.toOption = some result) :
    run = .ok result := by
  cases run with
  | error fault => cases given
  | ok value =>
    cases given
    rfl

end Evaluation

theorem mapM_error {f : α → Except ε β} {fault : ε} {xs : List α}
    (failed : xs.mapM f = .error fault) : ∃ x, f x = .error fault := by
  induction xs with
  | nil => cases failed
  | cons x xs ih =>
    rw [List.mapM_cons] at failed
    cases first : f x with
    | error other =>
      rw [first] at failed
      cases failed
      exact ⟨x, first⟩
    | ok y =>
      rw [first] at failed
      cases rest : xs.mapM f with
      | error other =>
        simp only [rest, Except.bind, bind] at failed
        cases failed
        exact ih rest
      | ok ys =>
        simp only [rest, Except.bind, bind] at failed
        cases failed

theorem mapM_ok {f : α → Except ε β} {xs : List α} {ys : List β} (done : xs.mapM f = .ok ys) :
    ∀ y ∈ ys, ∃ x, f x = .ok y := by
  induction xs generalizing ys with
  | nil =>
    cases done
    exact nofun
  | cons x xs ih =>
    rw [List.mapM_cons] at done
    cases first : f x with
    | error other =>
      rw [first] at done
      cases done
    | ok y =>
      rw [first] at done
      cases rest : xs.mapM f with
      | error other =>
        simp only [rest, Except.bind, bind] at done
        cases done
      | ok ys' =>
        simp only [rest, Except.bind, bind] at done
        cases done
        exact List.forall_mem_cons.mpr ⟨⟨x, first⟩, ih rest⟩

/-- A loop that only runs for its effect keeps whatever each of its turns keeps. -/
theorem ensures_forM {turn : β → Program σ ε PUnit} {invariant : σ → Prop} {bad : ε → Prop}
    (keeps : ∀ x s, invariant s → Ensures (turn x s) (fun _ s' => invariant s') bad) :
    ∀ (xs : List β) (s : σ), invariant s → Ensures (xs.forM turn s) (fun _ s' => invariant s') bad
  | [], _, h => h
  | x :: xs, s, h => by
    rw [List.forM_eq_forM, List.forM_cons, ensures_bind]
    exact (keeps x s h).mono (fun _ s' h' => ensures_forM keeps xs s' h') fun _ => id

def Keeps (invariant : σ → Prop) (program : Program σ ε α) : Prop :=
  ∀ s, invariant s → Ensures (program s) (fun _ s' => invariant s') fun _ => True

namespace Keeps
variable {invariant : σ → Prop}

theorem bind {program : Program σ ε β} {next : β → Program σ ε α} (first : Keeps invariant program)
    (second : ∀ value, Keeps invariant (next value)) : Keeps invariant (program >>= next) := by
  intro s h
  rw [ensures_bind]
  exact (first s h).mono (fun value s' h' => second value s' h') fun _ => id

theorem maybe {first : Program σ ε PUnit} {next : PUnit → Program σ ε α} {condition : Prop}
    [Decidable condition] (here : Keeps invariant first) (later : ∀ u, Keeps invariant (next u)) :
    Keeps invariant (if condition then first >>= next else next ⟨⟩) := by
  split
  · exact here.bind later
  · exact later ⟨⟩

theorem pure (value : α) : Keeps invariant (pure value : Program σ ε α) := fun _ h => h

theorem throw (fault : ε) : Keeps invariant (throw fault : Program σ ε α) := fun _ _ => trivial

theorem read {next : σ → Program σ ε α} (h : ∀ s, invariant s → Keeps invariant (next s)) :
    Keeps invariant (get >>= next) := fun s here => h s here s here

theorem set {new : σ} (h : invariant new) : Keeps invariant (set new : Program σ ε PUnit) :=
  fun _ _ => h

theorem modify {f : σ → σ} (h : ∀ s, invariant s → invariant (f s)) :
    Keeps invariant (modify f : Program σ ε PUnit) := h

theorem demand (read : σ → Option α) (fault : ε) : Keeps invariant (demand read fault) :=
  fun s h => by
  rw [ensures_demand]
  exact ⟨fun _ _ => h, fun _ => trivial⟩

theorem checked (result : Except ε α) : Keeps invariant (checked result) := fun s h => by
  rw [ensures_checked]
  exact ⟨fun _ _ => h, fun _ _ => trivial⟩

theorem loop {turn : β → Program σ ε PUnit} (keeps : ∀ x, Keeps invariant (turn x)) (xs : List β) :
    Keeps invariant (xs.forM turn) := ensures_forM keeps xs

end Keeps

def Leads (pre post : σ → Prop) (program : Program σ ε α) : Prop :=
  ∀ s, pre s → Ensures (program s) (fun _ s' => post s') fun _ => True

namespace Leads
variable {pre mid post : σ → Prop}

theorem mono {pre' post' : σ → Prop} {program : Program σ ε α} (leads : Leads pre post program)
    (before : ∀ s, pre' s → pre s) (after : ∀ s, post s → post' s) : Leads pre' post' program :=
  fun s h =>
  (leads s (before s h)).mono (fun _ s' h' => after s' h') fun _ => id

theorem bind {program : Program σ ε β} {next : β → Program σ ε α} (first : Leads pre mid program)
    (second : ∀ value, Leads mid post (next value)) : Leads pre post (program >>= next) := by
  intro s h
  rw [ensures_bind]
  exact (first s h).mono (fun value s' h' => second value s' h') fun _ => id

theorem maybe {first : Program σ ε PUnit} {next : PUnit → Program σ ε α} {condition : Prop}
    [Decidable condition] (here : Keeps pre first) (later : ∀ u, Leads pre post (next u)) :
    Leads pre post (if condition then first >>= next else next ⟨⟩) := by
  split
  · exact bind here later
  · exact later ⟨⟩

theorem throw (fault : ε) : Leads pre post (throw fault : Program σ ε α) := fun _ _ => trivial

theorem read {next : σ → Program σ ε α} (h : ∀ s, pre s → Leads pre post (next s)) :
    Leads pre post (get >>= next) := fun s here => h s here s here

theorem demand {read : σ → Option β} {fault : ε} {next : β → Program σ ε α}
    (h : ∀ value, Leads (fun s => pre s ∧ read s = some value) post (next value)) :
    Leads pre post (demand read fault >>= next) := by
  intro s here
  rw [ensures_bind, ensures_demand]
  exact ⟨fun value there => h value s ⟨here, there⟩, fun _ => trivial⟩

theorem modify {f : σ → σ} (h : ∀ s, pre s → post (f s)) :
    Leads pre post (modify f : Program σ ε PUnit) := h

end Leads

end Effect
