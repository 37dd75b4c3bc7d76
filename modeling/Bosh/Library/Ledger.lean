import Mathlib.Logic.Relation
import Bosh.Library.Table

/-! Holders who take resources that are free and give back what they hold. Some of the resources
were taken before, by others. -/
namespace Ledger

structure State (Holder Resource : Type) where
  held : Holder → Option Resource
  taken : Resource → Bool

section Rules
variable {Holder Resource : Type} [DecidableEq Holder] [DecidableEq Resource]

inductive Step (l : State Holder Resource) : State Holder Resource → Prop where
  | take {k : Holder} {r : Resource} : l.held k = none → l.taken r = false →
      Step l ⟨Function.update l.held k (some r), Function.update l.taken r true⟩
  | give {k : Holder} {r : Resource} : l.held k = some r →
      Step l ⟨Function.update l.held k none, Function.update l.taken r false⟩

abbrev Steps : State Holder Resource → State Holder Resource → Prop :=
  Relation.ReflTransGen Step

/-- The resources that are taken are the inherited ones and those that are held, each of them by
one holder. -/
structure Balanced (inherited : Resource → Bool) (l : State Holder Resource) : Prop where
  taken : ∀ r, l.taken r = true ↔ inherited r = true ∨ ∃ k, l.held k = some r
  own : ∀ k r, l.held k = some r → inherited r = false
  apart : ∀ k k' r, l.held k = some r → l.held k' = some r → k = k'

variable {inherited : Resource → Bool} {l l' : State Holder Resource}

omit [DecidableEq Holder] [DecidableEq Resource] in
theorem balanced_start (taken : Resource → Bool) :
    Balanced taken (⟨fun _ => none, taken⟩ : State Holder Resource) where
  taken r := by simp
  own _ _ := nofun
  apart _ _ _ := nofun

namespace Balanced

theorem take (balanced : Balanced inherited l) {k : Holder} {r : Resource} (idle : l.held k = none)
    (free : l.taken r = false) :
    Balanced inherited ⟨Function.update l.held k (some r), Function.update l.taken r true⟩ := by
  have unheld : ∀ k', l.held k' ≠ some r := fun k' mine => by
    have := (balanced.taken r).mpr (.inr ⟨k', mine⟩)
    simp [free] at this
  have foreign : inherited r = false := by
    by_contra old
    have := (balanced.taken r).mpr (.inl (by simpa using old))
    simp [free] at this
  refine ⟨fun r' => ?_, fun k' r' mine => ?_, fun k₁ k₂ r' one two => ?_⟩
  · by_cases same : r' = r
    · subst same
      simpa using .inr ⟨k, Function.update_self ..⟩
    · simp only [Function.update_of_ne same, balanced.taken r']
      refine or_congr_right (exists_congr fun k' => ?_)
      by_cases mine : k' = k
      · subst mine
        simp [idle, Ne.symm same]
      · simp [mine]
  · rcases Table.of_update mine with ⟨-, new⟩ | ⟨-, old⟩
    · cases new
      exact foreign
    · exact balanced.own k' r' old
  · rcases Table.of_update one with ⟨rfl, new⟩ | ⟨-, old⟩
    · cases new
      rcases Table.of_update two with ⟨rfl, -⟩ | ⟨-, old⟩
      · rfl
      · exact absurd old (unheld k₂)
    · rcases Table.of_update two with ⟨rfl, new⟩ | ⟨-, old'⟩
      · cases new
        exact absurd old (unheld k₁)
      · exact balanced.apart k₁ k₂ r' old old'

theorem give (balanced : Balanced inherited l) {k : Holder} {r : Resource} (mine : l.held k = some r) :
    Balanced inherited ⟨Function.update l.held k none, Function.update l.taken r false⟩ := by
  refine ⟨fun r' => ?_, fun k' r' held => ?_, fun k₁ k₂ r' one two => ?_⟩
  · by_cases same : r' = r
    · subst same
      have foreign := balanced.own k r' mine
      have gone : ∀ k', Function.update l.held k none k' ≠ some r' := fun k' held => by
        obtain ⟨other, held⟩ := Table.of_update_none held
        exact other (balanced.apart k' k r' held mine)
      simpa [foreign] using gone
    · simp only [Function.update_of_ne same, balanced.taken r']
      refine or_congr_right (exists_congr fun k' => ?_)
      by_cases equal : k' = k
      · subst equal
        simp [mine, Ne.symm same]
      · simp [equal]
  · exact balanced.own k' r' (Table.of_update_none held).2
  · exact balanced.apart k₁ k₂ r' (Table.of_update_none one).2 (Table.of_update_none two).2

theorem step (balanced : Balanced inherited l) (step : Step l l') : Balanced inherited l' := by
  cases step with
  | take idle free => exact balanced.take idle free
  | give mine => exact balanced.give mine

theorem steps (balanced : Balanced inherited l) (steps : Steps l l') : Balanced inherited l' := by
  induction steps with
  | refl => exact balanced
  | tail _ last ih => exact ih.step last

omit [DecidableEq Holder] [DecidableEq Resource] in
/-- When nobody holds anything, what was inherited is left. -/
theorem nobody (balanced : Balanced inherited l) (none : ∀ k, l.held k = none) :
    l.taken = inherited := by
  funext r
  have := balanced.taken r
  simp only [none, reduceCtorEq, exists_false, or_false] at this
  exact Bool.eq_iff_iff.mpr this

end Balanced

end Rules

end Ledger
