import Mathlib.Data.List.Nodup
import Mathlib.Logic.Function.Basic
import Mathlib.Data.List.Perm.Lattice

/-! A sequence whose positions have an identity of their own, as the nodes of a
linked list do: a position handed out once still designates its value after
other positions are inserted or erased. -/
namespace Chain

/-- Values in order, each with the identity of its cell. -/
abbrev Cells (α : Type) := List (Nat × α)

variable {α : Type}

def nodes (chain : Cells α) : List Nat := chain.map Prod.fst

def values (chain : Cells α) : List α := chain.map Prod.snd

def pushBack (node : Nat) (value : α) (chain : Cells α) : Cells α := chain ++ [(node, value)]

/-- Unlink one cell, named by its identity alone; `none` when no cell has it. -/
def erase (node : Nat) (chain : Cells α) : Option (Cells α) :=
  if node ∈ nodes chain then some (chain.eraseP fun cell => cell.1 == node) else none

@[simp] theorem nodes_pushBack (node : Nat) (value : α) (chain : Cells α) :
    nodes (pushBack node value chain) = nodes chain ++ [node] := by
  simp [nodes, pushBack]

@[simp] theorem values_pushBack (node : Nat) (value : α) (chain : Cells α) :
    values (pushBack node value chain) = values chain ++ [value] := by
  simp [values, pushBack]

@[simp] theorem mem_pushBack {cell : Nat × α} {node : Nat} {value : α} {chain : Cells α} :
    cell ∈ pushBack node value chain ↔ cell ∈ chain ∨ cell = (node, value) := by
  simp [pushBack]

/-- Erasing takes out the one cell with that identity and nothing else. -/
theorem perm_of_erase {node : Nat} {value : α} {chain rest : Cells α}
    (distinct : (nodes chain).Nodup) (here : (node, value) ∈ chain)
    (erased : erase node chain = some rest) : chain.Perm ((node, value) :: rest) := by
  unfold erase at erased
  split at erased
  · cases erased
    induction chain with
    | nil => cases here
    | cons cell chain ih =>
      simp only [nodes, List.map_cons, List.nodup_cons] at distinct
      by_cases same : cell.1 = node
      · have : cell = (node, value) := by
          rcases List.mem_cons.mp here with rfl | later
          · rfl
          · exact absurd (same ▸ List.mem_map_of_mem (f := Prod.fst) later) distinct.1
        simp [this]
      · have later : (node, value) ∈ chain := by
          rcases List.mem_cons.mp here with rfl | later
          · exact absurd rfl same
          · exact later
        rw [List.eraseP_cons_of_neg (by simpa using same)]
        exact ((ih distinct.2 later (by
          simpa [nodes] using ⟨value, later⟩)).cons cell).trans (.swap _ _ _)
  · cases erased

theorem erase_filter {node : Nat} {chain rest : Cells α} (distinct : (nodes chain).Nodup)
    (erased : erase node chain = some rest) : rest = chain.filter fun cell => cell.1 != node := by
  unfold erase at erased
  split at erased
  · cases erased
    induction chain with
    | nil => rfl
    | cons cell chain ih =>
      simp only [nodes, List.map_cons, List.nodup_cons] at distinct
      by_cases same : cell.1 = node
      · have others : ∀ later ∈ chain, later.1 ≠ node := fun later listed equal =>
          distinct.1 (same ▸ equal ▸ List.mem_map_of_mem (f := Prod.fst) listed)
        rw [List.eraseP_cons_of_pos (by simpa using same),
          List.filter_cons_of_neg (by simpa using same), List.filter_eq_self.mpr (by simpa using others)]
      · rw [List.eraseP_cons_of_neg (by simpa using same),
          List.filter_cons_of_pos (by simpa using same)]
        by_cases listed : node ∈ nodes chain
        · rw [ih distinct.2 listed]
        · have others : ∀ later ∈ chain, later.1 ≠ node := fun later here equal =>
            listed (equal ▸ List.mem_map_of_mem (f := Prod.fst) here)
          rw [List.eraseP_of_forall_not (by simpa using others),
            List.filter_eq_self.mpr (by simpa using others)]
  · cases erased

theorem erase_isSome {node : Nat} {value : α} {chain : Cells α} (here : (node, value) ∈ chain) :
    ∃ rest, erase node chain = some rest := by
  have listed : node ∈ nodes chain := List.mem_map_of_mem (f := Prod.fst) here
  exact ⟨_, if_pos listed⟩

theorem erase_head (node : Nat) (value : α) (chain : Cells α) :
    erase node ((node, value) :: chain) = some chain := by
  simp [erase, nodes]

theorem erase_tail {cell : Nat × α} {node : Nat} {chain : Cells α} (other : cell.1 ≠ node) :
    erase node (cell :: chain) = (erase node chain).map (cell :: ·) := by
  have member : node ∈ nodes (cell :: chain) ↔ node ∈ nodes chain := by
    simp [nodes, Ne.symm other]
  unfold erase
  by_cases listed : node ∈ nodes chain
  · rw [if_pos (member.mpr listed), if_pos listed, List.eraseP_cons_of_neg (by simpa using other)]
    rfl
  · rw [if_neg (mt member.mp listed), if_neg listed]
    rfl

variable {κ : Type} {nodeOf : κ → Option Nat} {chain : Cells κ} {next : Nat}

/-- The chain lists exactly the live objects, each in the cell it remembers, and the cells
have been handed out in order. -/
structure Indexes (nodeOf : κ → Option Nat) (chain : Cells κ) (next : Nat) : Prop where
  mem_iff : ∀ node k, (node, k) ∈ chain ↔ nodeOf k = some node
  nodup : (nodes chain).Nodup
  below : ∀ node ∈ nodes chain, node < next

namespace Indexes

theorem empty (next : Nat) : Indexes (fun _ : κ => none) [] next :=
  ⟨by simp, List.nodup_nil, by simp [nodes]⟩

theorem mono {later : Nat} (h : Indexes nodeOf chain next) (le : next ≤ later) :
    Indexes nodeOf chain later :=
  ⟨h.mem_iff, h.nodup, fun node listed => Nat.lt_of_lt_of_le (h.below node listed) le⟩

theorem mem_values (h : Indexes nodeOf chain next) {k : κ} :
    k ∈ values chain ↔ (nodeOf k).isSome := by
  simp only [values, List.mem_map, Prod.exists, h.mem_iff, Option.isSome_iff_exists]
  exact ⟨fun ⟨node, _, found, same⟩ => ⟨node, same ▸ found⟩,
    fun ⟨node, found⟩ => ⟨node, k, found, rfl⟩⟩

theorem eq_none_of_nil (h : Indexes nodeOf [] next) (k : κ) : nodeOf k = none :=
  Option.eq_none_iff_forall_not_mem.mpr fun node found =>
    List.not_mem_nil ((h.mem_iff node k).mpr found)

theorem nodup_values (h : Indexes nodeOf chain next) : (values chain).Nodup := by
  apply (List.Nodup.of_map Prod.fst h.nodup).map_on
  rintro ⟨node, k⟩ here ⟨node', k'⟩ here' (rfl : k = k')
  have := (h.mem_iff node k).mp here
  rw [(h.mem_iff node' k).mp here', Option.some.injEq] at this
  rw [this]

variable [DecidableEq κ]

theorem add (h : Indexes nodeOf chain next) {k : κ} (fresh : nodeOf k = none) :
    Indexes (Function.update nodeOf k (some next)) (pushBack next k chain) (next + 1) where
  mem_iff node j := by
    rw [mem_pushBack, h.mem_iff, Prod.mk.injEq]
    by_cases same : j = k
    · subst same
      simp [fresh, eq_comm]
    · simp [same]
  nodup := by
    rw [nodes_pushBack, List.nodup_append]
    refine ⟨h.nodup, by simp, fun node listed other last => ?_⟩
    rw [List.mem_singleton.mp last]
    exact Nat.ne_of_lt (h.below node listed)
  below node listed := by
    rw [nodes_pushBack, List.mem_append, List.mem_singleton] at listed
    rcases listed with old | rfl
    · exact Nat.lt_succ_of_lt (h.below node old)
    · exact Nat.lt_succ_self _

theorem remove (h : Indexes nodeOf chain next) {k : κ} {node : Nat} {rest : Cells κ}
    (here : nodeOf k = some node) (erased : erase node chain = some rest) :
    Indexes (Function.update nodeOf k none) rest next := by
  have perm := perm_of_erase h.nodup ((h.mem_iff node k).mpr here) erased
  have names : (nodes chain).Perm (node :: nodes rest) := perm.map Prod.fst
  have distinct : (node :: nodes rest).Nodup := names.nodup_iff.mp h.nodup
  refine ⟨fun node' j => ?_, (List.nodup_cons.mp distinct).2, fun node' listed =>
    h.below node' (names.mem_iff.mpr (.tail _ listed))⟩
  have old := h.mem_iff node' j
  rw [perm.mem_iff, List.mem_cons, Prod.mk.injEq] at old
  by_cases same : j = k
  · subst same
    simp only [Function.update_self, reduceCtorEq, iff_false]
    intro still
    have : node' = node := by simpa [here] using (old.mp (.inr still)).symm
    subst this
    exact (List.nodup_cons.mp distinct).1 (List.mem_map_of_mem (f := Prod.fst) still)
  · simpa [same] using old

theorem erase_eq_filter (h : Indexes nodeOf chain next) {k : κ} {node : Nat} {rest : Cells κ}
    (here : nodeOf k = some node) (erased : erase node chain = some rest) :
    rest = chain.filter fun cell => cell.2 ≠ k := by
  have alike : ∀ cell ∈ chain, (cell.1 != node) = decide (cell.2 ≠ k) := by
    rintro ⟨node', k'⟩ listed
    have there := (h.mem_iff node' k').mp listed
    have same : node' = node ↔ k' = k := by
      constructor
      · rintro rfl
        have listed' := (h.mem_iff node' k).mpr here
        exact congrArg Prod.snd (List.inj_on_of_nodup_map h.nodup listed listed' rfl)
      · rintro rfl
        exact Option.some.inj (there.symm.trans here)
    rw [Bool.eq_iff_iff]
    simpa using not_congr same
  rw [erase_filter h.nodup erased]
  exact List.filter_congr alike

omit [DecidableEq κ] in
theorem length_erase (h : Indexes nodeOf chain next) {k : κ} {node : Nat} {rest : Cells κ}
    (here : nodeOf k = some node) (erased : erase node chain = some rest) :
    chain.length = rest.length + 1 :=
  (perm_of_erase h.nodup ((h.mem_iff node k).mpr here) erased).length_eq

end Indexes

end Chain
