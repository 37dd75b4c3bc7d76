import Bosh.Library.Effect

/-! Programs that run through the steps of a transition relation. The relation speaks about
the program's state and a phase that only the proof knows; a fault must be excused in
something the steps lead to. -/
namespace Effect

section Follows
variable {σ τ φ ε α β : Type} {micro : φ × σ → φ × σ → Prop} {excuse : ε → φ × σ → Prop}

/-- From `q` the run passes through the steps, to a value, phase and state with `post`. -/
def Follows (micro : φ × σ → φ × σ → Prop) (excuse : ε → φ × σ → Prop) (q : φ × σ)
    (run : Except ε (α × σ)) (post : α → φ → σ → Prop) : Prop :=
  Ensures run (fun value s' => ∃ p', Relation.ReflTransGen micro q (p', s') ∧ post value p' s')
    fun fault => ∃ q', Relation.ReflTransGen micro q q' ∧ excuse fault q'

variable {q : φ × σ} {p : φ} {s : σ} {run : Except ε (α × σ)} {post post' : α → φ → σ → Prop}

namespace Follows

theorem mono (follows : Follows micro excuse q run post)
    (weaker : ∀ v p s, post v p s → post' v p s) : Follows micro excuse q run post' :=
  Ensures.mono follows (fun v s ⟨p, steps, h⟩ => ⟨p, steps, weaker v p s h⟩) fun _ => id

theorem after {middle : α → φ → σ → Prop} (follows : Follows micro excuse q run middle)
    (steps : ∀ v p s, middle v p s →
      ∃ p', Relation.ReflTransGen micro (p, s) (p', s) ∧ post v p' s) :
    Follows micro excuse q run post :=
  Ensures.mono follows (fun v s ⟨p, first, h⟩ =>
    have ⟨p', rest, h'⟩ := steps v p s h
    ⟨p', first.trans rest, h'⟩) fun _ => id

theorem before (steps : Relation.ReflTransGen micro q (p, s))
    (follows : Follows micro excuse (p, s) run post) : Follows micro excuse q run post :=
  Ensures.mono follows (fun _ _ ⟨p', steps', h⟩ => ⟨p', steps.trans steps', h⟩)
    fun _ ⟨q', steps', h⟩ => ⟨q', steps.trans steps', h⟩

theorem step {program : Program σ ε α} (first : micro q (p, s))
    (follows : Follows micro excuse (p, s) (program s) post) :
    Follows micro excuse q (program s) post :=
  before (.single first) follows

theorem stepsTo {program : Program σ ε α} {s' : σ} (steps : Relation.ReflTransGen micro q (p, s'))
    (same : s = s') (follows : Follows micro excuse (p, s') (program s') post) :
    Follows micro excuse q (program s) post :=
  same ▸ before steps follows

theorem stepTo {program : Program σ ε α} {s' : σ} (first : micro q (p, s')) (same : s = s')
    (follows : Follows micro excuse (p, s') (program s') post) :
    Follows micro excuse q (program s) post :=
  stepsTo (.single first) same follows

theorem bind {program : Program σ ε β} {next : β → Program σ ε α} {middle : β → φ → σ → Prop}
    (first : Follows micro excuse q (program s) middle)
    (second : ∀ v p' s', middle v p' s' → Follows micro excuse (p', s') (next v s') post) :
    Follows micro excuse q ((program >>= next) s) post := by
  unfold Follows
  rw [ensures_bind]
  exact Ensures.mono first
    (fun v s' ⟨p', steps, h⟩ => before steps (second v p' s' h)) fun _ => id

theorem pure {value : α} (h : post value p s) :
    Follows micro excuse (p, s) ((Pure.pure value : Program σ ε α) s) post :=
  ⟨p, .refl, h⟩

theorem last {program : Program σ ε α}
    (follows : Follows micro excuse q ((program >>= Pure.pure) s) post) :
    Follows micro excuse q (program s) post := by
  rwa [bind_pure] at follows

theorem read {next : σ → Program σ ε α} (h : Follows micro excuse q (next s s) post) :
    Follows micro excuse q (((get : Program σ ε σ) >>= next) s) post := h

theorem changed {f : σ → σ} {next : PUnit → Program σ ε α}
    (h : Follows micro excuse q (next ⟨⟩ (f s)) post) :
    Follows micro excuse q (((modify f : Program σ ε PUnit) >>= next) s) post := h

theorem replaced {new : σ} {next : PUnit → Program σ ε α}
    (h : Follows micro excuse q (next ⟨⟩ new) post) :
    Follows micro excuse q (((set new : Program σ ε PUnit) >>= next) s) post := h

theorem fault {fault : ε} (h : excuse fault q) :
    Follows micro excuse q ((throw fault : Program σ ε α) s) post :=
  ⟨q, .refl, h⟩

/-- A program that has been described by itself, all of it one stretch between two steps. -/
theorem ensured {program : Program σ ε β} {next : β → Program σ ε α} {spec : β → σ → Prop}
    {bad : ε → Prop} (first : Ensures (program s) spec bad)
    (second : ∀ v s', spec v s' → Follows micro excuse q (next v s') post)
    (excused : ∀ fault, bad fault → excuse fault q) :
    Follows micro excuse q ((program >>= next) s) post := by
  unfold Follows
  rw [ensures_bind]
  exact first.mono second fun fault h => ⟨q, .refl, excused fault h⟩

theorem onPart {get : σ → τ} {put : τ → σ → σ} {program : Program τ ε β}
    {next : β → Program σ ε α} {spec : β → τ → Prop} {bad : ε → Prop}
    (first : Ensures (program (get s)) spec bad)
    (second : ∀ v t, spec v t → Follows micro excuse q (next v (put t s)) post)
    (excused : ∀ fault, bad fault → excuse fault q) :
    Follows micro excuse q ((part get put program >>= next) s) post := by
  unfold Follows
  rw [ensures_bind, ensures_part]
  exact first.mono second fun fault h => ⟨q, .refl, excused fault h⟩

theorem demanded {read : σ → Option β} {missing : ε} {next : β → Program σ ε α}
    (h : ∀ v, read s = some v → Follows micro excuse q (next v s) post)
    (excused : read s = none → excuse missing q) :
    Follows micro excuse q ((demand read missing >>= next) s) post := by
  unfold Follows
  rw [ensures_bind, ensures_demand]
  exact ⟨h, fun absent => ⟨q, .refl, excused absent⟩⟩

theorem computed {result : Except ε β} {next : β → Program σ ε α}
    (h : ∀ v, result = .ok v → Follows micro excuse q (next v s) post)
    (excused : ∀ fault, result = .error fault → excuse fault q) :
    Follows micro excuse q ((checked result >>= next) s) post := by
  unfold Follows
  rw [ensures_bind, ensures_checked]
  exact ⟨h, fun fault failed => ⟨q, .refl, excused fault failed⟩⟩

theorem branch {b : Prop} [Decidable b] {yes no : Program σ ε α}
    (taken : b → Follows micro excuse q (yes s) post)
    (other : ¬ b → Follows micro excuse q (no s) post) :
    Follows micro excuse q ((if b then yes else no) s) post := by
  split
  · exact taken ‹_›
  · exact other ‹_›

theorem optional {b : Prop} [Decidable b] {first : Program σ ε Unit} {next : Unit → Program σ ε α}
    (middle : φ → σ → Prop) (yes : b → Follows micro excuse (p, s) (first s) fun _ => middle)
    (no : ¬ b → middle p s)
    (rest : ∀ p' s', middle p' s' → Follows micro excuse (p', s') (next () s') post) :
    Follows micro excuse (p, s) ((if b then first >>= next else next ()) s) post := by
  split
  · rename_i holds
    exact bind (yes holds) fun _ => rest
  · rename_i fails
    exact rest p s (no fails)

theorem forM {turn : β → Program σ ε PUnit} (invariant : φ → σ → Prop)
    (keeps : ∀ x p s, invariant p s →
      Follows micro excuse (p, s) (turn x s) fun _ p' s' => invariant p' s') :
    ∀ (xs : List β) (p : φ) (s : σ), invariant p s →
      Follows micro excuse (p, s) (xs.forM turn s) fun _ p' s' => invariant p' s'
  | [], _, _, h => ⟨_, .refl, h⟩
  | x :: xs, p, s, h => by
    rw [List.forM_eq_forM, List.forM_cons]
    exact bind (keeps x p s h) fun _ p' s' h' => forM invariant keeps xs p' s' h'

end Follows

/-- What every step keeps still holds where a run ends. -/
theorem Follows.invariant {kept : φ × σ → Prop} (follows : Follows micro excuse q run post)
    (keeps : ∀ q q', micro q q' → kept q → kept q') (h : kept q) :
    Ensures run (fun value s' => ∃ p', kept (p', s') ∧ post value p' s')
      fun fault => ∃ q', kept q' ∧ excuse fault q' := by
  have all : ∀ q', Relation.ReflTransGen micro q q' → kept q' := fun q' steps => by
    induction steps with
    | refl => exact h
    | tail _ last ih => exact keeps _ _ last ih
  exact Ensures.mono follows (fun _ _ ⟨p', steps, hpost⟩ => ⟨p', all _ steps, hpost⟩)
    fun _ ⟨q', steps, hexcuse⟩ => ⟨q', all _ steps, hexcuse⟩

end Follows

end Effect
