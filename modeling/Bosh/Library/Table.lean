import Mathlib.Data.List.Nodup
import Mathlib.Logic.Function.Basic

/-! Tables: partial functions that are changed at one key at a time. -/
namespace Table

variable {κ ν β : Type} [DecidableEq κ] {table : κ → Option ν} {k j : κ} {v w : ν}

theorem of_update {value : Option ν} (found : Function.update table k value j = some w) :
    j = k ∧ value = some w ∨ j ≠ k ∧ table j = some w := by
  by_cases same : j = k
  · subst same
    exact .inl ⟨rfl, by simpa using found⟩
  · exact .inr ⟨same, by simpa [same] using found⟩

theorem of_update_none (found : Function.update table k none j = some w) :
    j ≠ k ∧ table j = some w := by
  rcases of_update found with ⟨_, absurd⟩ | other
  · cases absurd
  · exact other

theorem isSome_update (here : (table j).isSome) : (Function.update table k (some v) j).isSome := by
  by_cases same : j = k
  · simp [same]
  · rwa [Function.update_of_ne same]

theorem map_update_same {field : ν → β} (here : table k = some v) (same : field w = field v) :
    Option.map field ∘ Function.update table k (some w) = Option.map field ∘ table := by
  rw [Function.comp_update, Function.update_eq_self_iff]
  simp [here, same]

theorem bind_update {field : ν → Option β} {value : Option ν} :
    (fun j => (Function.update table k value j).bind field) =
      Function.update (fun j => (table j).bind field) k (value.bind field) :=
  Function.comp_update (fun value : Option ν => value.bind field) table k value

theorem bind_update_same {field : ν → Option β} {value : Option ν}
    (same : value.bind field = (table k).bind field) :
    (fun j => (Function.update table k value j).bind field) = fun j => (table j).bind field := by
  rw [bind_update, Function.update_eq_self_iff, same]

/-- How a count over distinct keys changes when the value at one of them does. -/
theorem countP_update {f : κ → β} {b : β} {keys : List κ} (distinct : keys.Nodup)
    (listed : k ∈ keys) (P : β → Prop) [DecidablePred P] :
    keys.countP (fun j => P (Function.update f k b j)) + (if P (f k) then 1 else 0) =
      keys.countP (fun j => P (f j)) + if P b then 1 else 0 := by
  have perm := List.perm_cons_erase listed
  have rest : (keys.erase k).countP (fun j => P (Function.update f k b j)) =
      (keys.erase k).countP fun j => P (f j) := by
    apply List.countP_congr
    intro j there
    have other : j ≠ k := by
      rintro rfl
      exact distinct.not_mem_erase there
    rw [Function.update_of_ne other]
  rw [perm.countP_eq, perm.countP_eq, List.countP_cons, List.countP_cons, rest,
    Function.update_self]
  simp only [decide_eq_true_eq]
  omega

end Table
