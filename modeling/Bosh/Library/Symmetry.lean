import Bosh.Library.Effect

/-! Changes of the state that a program does not notice: from the changed state it does what it
does from the other one, and the change is still there when it returns. -/
namespace Effect

variable {σ τ ε α β : Type}

/-- The program makes no difference between a state and the changed one. -/
def Blind (φ : σ → σ) (program : Program σ ε α) : Prop :=
  ∀ s, program (φ s) = (program s).map (Prod.map id φ)

namespace Blind
variable {φ : σ → σ}

theorem bind {program : Program σ ε β} {next : β → Program σ ε α} (first : Blind φ program)
    (second : ∀ value, Blind φ (next value)) : Blind φ (program >>= next) := fun s => by
  cases ran : program s with
  | error fault =>
    have ran' : program (φ s) = .error fault := by rw [first s, ran]; rfl
    rw [run_bind_error ran, run_bind_error ran']
    rfl
  | ok result =>
    have ran' : program (φ s) = .ok (result.1, φ result.2) := by rw [first s, ran]; rfl
    rw [run_bind_ok ran, run_bind_ok ran', second]

theorem maybe {first : Program σ ε PUnit} {next : PUnit → Program σ ε α} {condition : Prop}
    [Decidable condition] (here : Blind φ first) (later : ∀ u, Blind φ (next u)) :
    Blind φ (if condition then first >>= next else next ⟨⟩) := by
  split
  · exact here.bind later
  · exact later ⟨⟩

theorem pure (value : α) : Blind φ (pure value : Program σ ε α) := fun _ => rfl

theorem throw (fault : ε) : Blind φ (throw fault : Program σ ε α) := fun _ => rfl

theorem read {next : σ → Program σ ε α} (same : ∀ s, next (φ s) = next s)
    (later : ∀ s, Blind φ (next s)) :
    Blind φ (get >>= next) := fun s => by
  rw [run_get, run_get, same, later]

theorem modify {f : σ → σ} (commutes : ∀ s, f (φ s) = φ (f s)) :
    Blind φ (modify f : Program σ ε PUnit) := fun s => by
  change Except.ok (PUnit.unit, f (φ s)) = Except.ok (PUnit.unit, φ (f s))
  rw [commutes]

theorem demand {read : σ → Option α} (same : ∀ s, read (φ s) = read s) (fault : ε) :
    Blind φ (demand read fault) := fun s => by
  cases found : read s with
  | none => rw [run_demand_none found, run_demand_none ((same s).trans found)]; rfl
  | some value => rw [run_demand found, run_demand ((same s).trans found)]; rfl

theorem demand_bind {read : σ → Option β} {change : β → β} {fault : ε} {next : β → Program σ ε α}
    (changed : ∀ s, read (φ s) = (read s).map change)
    (same : ∀ value, next (change value) = next value) (later : ∀ value, Blind φ (next value)) :
    Blind φ (Effect.demand read fault >>= next) := fun s => by
  cases found : read s with
  | none =>
    have missing : read (φ s) = none := by rw [changed, found]; rfl
    rw [run_bind_error (run_demand_none found), run_bind_error (run_demand_none missing)]
    rfl
  | some value =>
    have found' : read (φ s) = some (change value) := by rw [changed, found]; rfl
    rw [run_bind_ok (run_demand found), run_bind_ok (run_demand found'), same, later]

theorem checked (result : Except ε α) : Blind φ (checked result) := fun s => by
  cases result with
  | error fault => rfl
  | ok value => rfl

theorem part {get : σ → τ} {put : τ → σ → σ} (same : ∀ s, get (φ s) = get s)
    (commutes : ∀ t s, put t (φ s) = φ (put t s)) (program : Program τ ε α) :
    Blind φ (part get put program) := fun s => by
  cases ran : program (get s) with
  | error fault =>
    rw [run_part_error ran, run_part_error (by rwa [same])]
    rfl
  | ok result =>
    obtain ⟨value, t⟩ := result
    rw [run_part ran, run_part (by rwa [same]), commutes]
    rfl

end Blind

end Effect
