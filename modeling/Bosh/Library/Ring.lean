import Mathlib.Data.List.Chain
import Mathlib.Data.List.Cycle

/-! Circular doubly linked structures. Two partial functions give the links of a cell; a ring is
a cycle of distinct cells in which the links of each two neighbours meet. -/
namespace Ring
variable {α : Type}

def Joined (next prev : α → Option α) (a b : α) : Prop := next a = some b ∧ prev b = some a

/-- The cells of the cycle are linked in its order, and in no other. -/
structure Linked (next prev : α → Option α) (ring : Cycle α) : Prop where
  nodup : ring.Nodup
  chain : ring.Chain (Joined next prev)

section Lists
variable {next prev next' prev' : α → Option α} {a b : α} {cells front back : List α}

theorem linked_cons_iff : Linked next prev (a :: cells : List α) ↔
    (a :: cells).Nodup ∧ List.IsChain (Joined next prev) (a :: cells ++ [a]) := by
  constructor
  · rintro ⟨nodup, chain⟩
    exact ⟨Cycle.nodup_coe_iff.mp nodup, (Cycle.chain_coe_cons ..).mp chain⟩
  · rintro ⟨nodup, chain⟩
    exact ⟨Cycle.nodup_coe_iff.mpr nodup, (Cycle.chain_coe_cons ..).mpr chain⟩

/-- A ring may be read from any of its cells. -/
theorem linked_append_comm : Linked next prev (front ++ back : List α) ↔
    Linked next prev (back ++ front : List α) := by
  rw [Cycle.coe_eq_coe.mpr List.isRotated_append]

theorem linked_single_iff : Linked next prev [a] ↔ Joined next prev a a := by
  rw [linked_cons_iff]
  simp

theorem isChain_transport (chain : List.IsChain (Joined next prev) cells)
    (sameNext : ∀ x ∈ cells.dropLast, next' x = next x)
    (samePrev : ∀ x ∈ cells.tail, prev' x = prev x) : List.IsChain (Joined next' prev') cells := by
  induction cells with
  | nil => exact .nil
  | cons a cells ih =>
    cases cells with
    | nil => exact .singleton a
    | cons b cells =>
      obtain ⟨⟨forth, back⟩, chain⟩ := List.isChain_cons_cons.mp chain
      rw [List.dropLast_cons_cons, List.forall_mem_cons] at sameNext
      rw [List.tail_cons, List.forall_mem_cons] at samePrev
      exact List.isChain_cons_cons.mpr ⟨⟨sameNext.1.trans forth, samePrev.1.trans back⟩,
        ih chain sameNext.2 samePrev.2⟩

theorem Linked.transport (ring : Linked next prev (cells : List α))
    (sameNext : ∀ x ∈ cells, next' x = next x) (samePrev : ∀ x ∈ cells, prev' x = prev x) :
    Linked next' prev' (cells : List α) := by
  cases cells with
  | nil => exact ⟨Cycle.nodup_nil, Cycle.Chain.nil _⟩
  | cons a cells =>
    obtain ⟨nodup, chain⟩ := linked_cons_iff.mp ring
    refine linked_cons_iff.mpr ⟨nodup, isChain_transport chain (fun x listed => sameNext x ?_)
      fun x listed => samePrev x ?_⟩
    · rwa [List.dropLast_concat] at listed
    · rw [List.cons_append, List.tail_cons, List.mem_append, List.mem_singleton] at listed
      rcases listed with later | rfl
      · exact .tail _ later
      · exact .head _

theorem Linked.first (ring : Linked next prev (a :: b :: cells : List α)) : Joined next prev a b :=
  (List.isChain_cons_cons.mp (linked_cons_iff.mp ring).2).1

theorem Linked.joined (ring : Linked next prev (front ++ a :: b :: back : List α)) :
    Joined next prev a b := by
  rw [linked_append_comm] at ring
  exact ring.first

theorem Linked.closed (ring : Linked next prev (a :: cells : List α))
    (last : (a :: cells).getLast? = some b) : Joined next prev b a := by
  obtain ⟨front, split⟩ := List.getLast?_eq_some_iff.mp last
  have chain := (linked_cons_iff.mp ring).2
  rw [split, List.append_assoc, List.singleton_append] at chain
  exact (List.isChain_append_cons_cons.mp chain).2.1

theorem Linked.next_isSome (ring : Linked next prev (cells : List α)) (listed : a ∈ cells) :
    (next a).isSome := by
  obtain ⟨front, back, rfl⟩ := List.append_of_mem listed
  rw [linked_append_comm, List.cons_append] at ring
  cases rest : back ++ front with
  | nil =>
    rw [rest] at ring
    simp [(linked_single_iff.mp ring).1]
  | cons b cells =>
    rw [rest] at ring
    simp [ring.first.1]

theorem ne_of_mem_dropLast (nodup : cells.Nodup) (last : cells.getLast? = some b) {x : α}
    (listed : x ∈ cells.dropLast) : x ≠ b := by
  obtain ⟨front, rfl⟩ := List.getLast?_eq_some_iff.mp last
  rw [List.dropLast_concat] at listed
  rw [List.nodup_append] at nodup
  exact nodup.2.2 x listed b (List.mem_singleton.mpr rfl)

theorem ne_of_mem_tail (nodup : (a :: cells).Nodup) {x : α} (listed : x ∈ cells) : x ≠ a := by
  rintro rfl
  exact (List.nodup_cons.mp nodup).1 listed

theorem isChain_concat (chain : List.IsChain (Joined next prev) cells)
    (last : cells.getLast? = some b) (joined : Joined next prev b a) :
    List.IsChain (Joined next prev) (cells ++ [a]) := by
  refine List.isChain_append.mpr ⟨chain, .singleton _, fun x listed y single => ?_⟩
  rw [last, Option.mem_some_iff] at listed
  rw [List.head?_cons, Option.mem_some_iff] at single
  exact listed ▸ single ▸ joined

end Lists

section Edits
variable {next prev next' prev' : α → Option α} {pos last cell first : α} {cells : List α}

/-- The cells of a ring, as the chain they are without the closing link. -/
theorem Linked.open (ring : Linked next prev (first :: cells : List α))
    (before : prev first = some last) :
    (first :: cells).Nodup ∧ List.IsChain (Joined next prev) (first :: cells) ∧
      (first :: cells).getLast? = some last := by
  obtain ⟨nodup, chain⟩ := linked_cons_iff.mp ring
  obtain ⟨end_, ends⟩ : ∃ x, (first :: cells).getLast? = some x :=
    ⟨_, List.getLast?_eq_some_getLast (by simp)⟩
  obtain rfl : end_ = last := Option.some.inj ((ring.closed ends).2.symm.trans before)
  exact ⟨nodup, (List.isChain_append.mp chain).1, ends⟩

/-- A new cell between the last and the first one. -/
theorem Linked.link (ring : Linked next prev (pos :: cells : List α))
    (before : prev pos = some last) (fresh : cell ∉ pos :: cells) (forth : next' cell = some pos)
    (back : prev' cell = some last) (here : prev' pos = some cell) (there : next' last = some cell)
    (sameNext : ∀ x, x ≠ cell → x ≠ last → next' x = next x)
    (samePrev : ∀ x, x ≠ cell → x ≠ pos → prev' x = prev x) :
    Linked next' prev' (cell :: pos :: cells : List α) := by
  obtain ⟨nodup, chain, ends⟩ := ring.open before
  have other : ∀ x ∈ pos :: cells, x ≠ cell := fun x listed same => fresh (same ▸ listed)
  have inner : List.IsChain (Joined next' prev') (pos :: cells) :=
    isChain_transport chain
      (fun x listed => sameNext x (other x (List.mem_of_mem_dropLast listed)) (ne_of_mem_dropLast nodup ends listed))
      (fun x listed => samePrev x (other x (List.mem_of_mem_tail listed)) (ne_of_mem_tail nodup listed))
  refine linked_cons_iff.mpr ⟨List.nodup_cons.mpr ⟨fresh, nodup⟩, ?_⟩
  rw [List.cons_append, List.cons_append, List.isChain_cons_cons, ← List.cons_append]
  exact ⟨⟨forth, here⟩, isChain_concat inner ends ⟨there, back⟩⟩

/-- The first cell is taken out, its neighbours linked to each other. -/
theorem Linked.unlink (ring : Linked next prev (cell :: first :: cells : List α))
    (before : prev cell = some last) (there : next' last = some first)
    (here : prev' first = some last) (sameNext : ∀ x, x ≠ cell → x ≠ last → next' x = next x)
    (samePrev : ∀ x, x ≠ cell → x ≠ first → prev' x = prev x) :
    Linked next' prev' (first :: cells : List α) := by
  obtain ⟨nodup, chain, ends⟩ := ring.open before
  rw [List.getLast?_cons_cons] at ends
  have rest := (List.nodup_cons.mp nodup).2
  have inner : List.IsChain (Joined next' prev') (first :: cells) :=
    isChain_transport (List.isChain_cons_cons.mp chain).2
      (fun x listed => sameNext x (ne_of_mem_tail nodup (List.mem_of_mem_dropLast listed))
        (ne_of_mem_dropLast rest ends listed))
      (fun x listed => samePrev x (ne_of_mem_tail nodup (.tail _ listed)) (ne_of_mem_tail rest listed))
  exact linked_cons_iff.mpr ⟨rest, isChain_concat inner ends ⟨there, here⟩⟩

end Edits

end Ring
