import Mathlib.Data.List.Perm.Lattice
import Mathlib.Data.List.Flatten

/-! The chained hash table of `hash.h`. A table carries the facts every operation
rests on: each node lies in the bucket its key hashes to, and the element count
is the number of nodes. `pairs` is the abstract content, up to order. -/
namespace Bosh

def primeNumbers : List Nat := [
  53, 97, 193, 389, 769,
  1543, 3079, 6151, 12289, 24593,
  49157, 98317, 196613, 393241, 786433,
  1572869, 3145739, 6291469, 12582917, 25165843,
  50331653, 100663319, 201326611, 402653189, 805306457,
  1610612741, 3221225473, 4294967291]

/-- The chains of a table, by bucket. The source's head nodes hold no pair. -/
abbrev Buckets (κ ν : Type) := List (List (κ × ν))

section Buckets
variable {κ ν : Type} (hash : κ → UInt32)

def hashPos (key : κ) (table : Buckets κ ν) : Nat := (hash key).toNat % table.length

def Placed (table : Buckets κ ν) : Prop :=
  ∀ i, ∀ chain, table[i]? = some chain → ∀ p ∈ chain, hashPos hash p.1 table = i

def hashInsertNoresize (table : Buckets κ ν) (node : κ × ν) : Buckets κ ν :=
  table.modify (hashPos hash node.1 table) (node :: ·)

/-- `hash_resize`: relink every node, chain by chain, into a table of the first prime
that is large enough; `none` when the search runs past the primes. -/
def hashResize (table : Buckets κ ν) (elementCount : Nat) : Option (Buckets κ ν) :=
  if table.length < elementCount then
    (primeNumbers.find? (elementCount ≤ ·)).map fun size =>
      table.flatten.foldl (hashInsertNoresize hash) (List.replicate size [])
  else some table

theorem flatten_modify {table : Buckets κ ν} {i : Nat} {chain : List (κ × ν)}
    (f : List (κ × ν) → List (κ × ν)) (here : table[i]? = some chain) :
    ∃ before after, table.flatten = before ++ chain ++ after ∧
      (table.modify i f).flatten = before ++ f chain ++ after := by
  induction table generalizing i with
  | nil => simp at here
  | cons first table ih =>
    cases i with
    | zero =>
      simp only [List.getElem?_cons_zero, Option.some.injEq] at here
      subst here
      exact ⟨[], table.flatten, by simp, by simp [List.modify]⟩
    | succ i =>
      obtain ⟨before, after, old, new⟩ := ih (by simpa using here)
      exact ⟨first ++ before, after, by simp [old], by simp [List.modify_succ_cons, new]⟩

theorem bucket_exists {table : Buckets κ ν} (nonempty : 0 < table.length) (key : κ) :
    ∃ chain, table[hashPos hash key table]? = some chain :=
  ⟨_, List.getElem?_eq_getElem (Nat.mod_lt _ nonempty)⟩

@[simp] theorem length_hashInsertNoresize (table : Buckets κ ν) (node : κ × ν) :
    (hashInsertNoresize hash table node).length = table.length := by
  simp [hashInsertNoresize]

theorem hashInsertNoresize_perm {table : Buckets κ ν} (nonempty : 0 < table.length)
    (node : κ × ν) : (hashInsertNoresize hash table node).flatten.Perm (node :: table.flatten) := by
  obtain ⟨chain, here⟩ := bucket_exists hash nonempty node.1
  obtain ⟨before, after, old, new⟩ := flatten_modify (node :: ·) here
  rw [hashInsertNoresize, new, old]
  simp only [List.append_assoc, List.cons_append]
  exact List.perm_middle

theorem hashInsertNoresize_placed {table : Buckets κ ν} (placed : Placed hash table)
    (node : κ × ν) : Placed hash (hashInsertNoresize hash table node) := by
  intro i chain here p hp
  rw [hashInsertNoresize, List.getElem?_modify] at here
  obtain ⟨chain', old, rfl⟩ := Option.map_eq_some_iff.mp here
  simp only [hashPos, length_hashInsertNoresize]
  split at hp
  · rename_i same
    rcases List.mem_cons.mp hp with rfl | hp
    · exact same
    · exact placed i chain' old p hp
  · exact placed i chain' old p hp

theorem placed_modify {table : Buckets κ ν} (placed : Placed hash table) {i : Nat}
    {f : List (κ × ν) → List (κ × ν)} (keys : ∀ chain, ∀ p ∈ f chain, p.1 ∈ chain.map Prod.fst) :
    Placed hash (table.modify i f) := by
  intro j chain here p hp
  rw [List.getElem?_modify] at here
  obtain ⟨chain', old, rfl⟩ := Option.map_eq_some_iff.mp here
  simp only [hashPos, List.length_modify]
  split at hp
  · obtain ⟨q, member, same⟩ := List.mem_map.mp (keys chain' p hp)
    exact same ▸ placed j chain' old q member
  · exact placed j chain' old p hp

theorem placed_replicate (size : Nat) :
    Placed hash (List.replicate size ([] : List (κ × ν))) := by
  intro i chain here p member
  rw [List.eq_of_mem_replicate (List.mem_of_getElem? here)] at member
  cases member

theorem relink (nodes : List (κ × ν)) {table : Buckets κ ν} (nonempty : 0 < table.length)
    (placed : Placed hash table) :
    (nodes.foldl (hashInsertNoresize hash) table).length = table.length ∧
      Placed hash (nodes.foldl (hashInsertNoresize hash) table) ∧
      (nodes.foldl (hashInsertNoresize hash) table).flatten.Perm (nodes ++ table.flatten) := by
  induction nodes generalizing table with
  | nil => exact ⟨rfl, placed, .refl _⟩
  | cons node nodes ih =>
    have nonempty' : 0 < (hashInsertNoresize hash table node).length := by simpa using nonempty
    obtain ⟨size, still, same⟩ := ih nonempty' (hashInsertNoresize_placed hash placed node)
    refine ⟨by simpa using size, still, same.trans ?_⟩
    exact ((hashInsertNoresize_perm hash nonempty node).append_left nodes).trans List.perm_middle

end Buckets

theorem primeNumbers_pos : ∀ size ∈ primeNumbers, 0 < size := by decide

structure HashTable {κ : Type} (hash : κ → UInt32) (ν : Type) where
  table : Buckets κ ν
  elementCount : Nat
  size_prime : table.length ∈ primeNumbers
  placed : Placed hash table
  counted : elementCount = table.flatten.length

namespace HashTable
variable {κ ν : Type} {hash : κ → UInt32}

def pairs (h : HashTable hash ν) : List (κ × ν) := h.table.flatten

theorem table_pos (h : HashTable hash ν) : 0 < h.table.length :=
  primeNumbers_pos _ h.size_prime

def new (hash : κ → UInt32) (ν : Type) : HashTable hash ν where
  table := List.replicate 53 []
  elementCount := 0
  size_prime := by simp [primeNumbers]
  placed := placed_replicate hash 53
  counted := by simp

@[simp] theorem pairs_new : (new hash ν).pairs = [] := by simp [pairs, new]

theorem resize_spec {table resized : Buckets κ ν} {count : Nat}
    (prime : table.length ∈ primeNumbers) (placed : Placed hash table)
    (done : hashResize hash table count = some resized) :
    resized.length ∈ primeNumbers ∧ Placed hash resized ∧ resized.flatten.Perm table.flatten := by
  unfold hashResize at done
  split at done
  · obtain ⟨size, found, rfl⟩ := Option.map_eq_some_iff.mp done
    have member := List.mem_of_find?_eq_some found
    obtain ⟨length, still, same⟩ := relink hash table.flatten
      (by simpa using primeNumbers_pos _ member) (placed_replicate hash size)
    exact ⟨by simpa [length] using member, still, by simpa using same⟩
  · cases done
    exact ⟨prime, placed, .refl _⟩

/-- `hash_insert`: no check for a repeated key. `none` when the table cannot grow. -/
def insert (h : HashTable hash ν) (key : κ) (value : ν) : Option (HashTable hash ν) :=
  let table := hashInsertNoresize hash h.table (key, value)
  match done : hashResize hash table (h.elementCount + 1) with
  | none => none
  | some resized =>
    have spec := resize_spec (by simpa [table] using h.size_prime)
      (hashInsertNoresize_placed hash h.placed _) done
    some {
      table := resized
      elementCount := h.elementCount + 1
      size_prime := spec.1
      placed := spec.2.1
      counted := by
        rw [spec.2.2.length_eq, (hashInsertNoresize_perm hash h.table_pos _).length_eq, h.counted,
          List.length_cons] }

theorem pairs_insert {h h' : HashTable hash ν} {key : κ} {value : ν}
    (done : h.insert key value = some h') : h'.pairs.Perm ((key, value) :: h.pairs) := by
  unfold insert at done
  dsimp only at done
  split at done
  · cases done
  · rename_i resized grown
    cases done
    exact (resize_spec (by simpa using h.size_prime) (hashInsertNoresize_placed hash h.placed _)
      grown).2.2.trans (hashInsertNoresize_perm hash h.table_pos _)

def bucket (h : HashTable hash ν) (key : κ) : List (κ × ν) :=
  (h.table[hashPos hash key h.table]?).getD []

theorem mem_bucket_iff (h : HashTable hash ν) {key : κ} {value : ν} :
    (key, value) ∈ h.bucket key ↔ (key, value) ∈ h.pairs := by
  obtain ⟨chain, here⟩ := bucket_exists hash h.table_pos key
  rw [bucket, here, Option.getD_some, pairs, List.mem_flatten]
  constructor
  · intro member
    exact ⟨chain, List.mem_of_getElem? here, member⟩
  · rintro ⟨other, listed, member⟩
    obtain ⟨i, hi⟩ := List.getElem?_of_mem listed
    have := h.placed i other hi _ member
    rw [← this, here] at hi
    cases hi
    exact member

variable [DecidableEq κ]

/-- `hash_find`: the value of the first node of the chain with that key. -/
def find (h : HashTable hash ν) (key : κ) : Option ν :=
  ((h.bucket key).find? fun node => node.1 = key).map Prod.snd

def hasKey (h : HashTable hash ν) (key : κ) : Bool := (h.find key).isSome

theorem find_mem {h : HashTable hash ν} {key : κ} {value : ν} (found : h.find key = some value) :
    (key, value) ∈ h.pairs := by
  obtain ⟨⟨key', value'⟩, first, rfl⟩ := Option.map_eq_some_iff.mp found
  have same : key' = key := by simpa using List.find?_some first
  subst same
  exact h.mem_bucket_iff.mp (List.mem_of_find?_eq_some first)

theorem find_eq_none_iff {h : HashTable hash ν} {key : κ} :
    h.find key = none ↔ ∀ value, (key, value) ∉ h.pairs := by
  simp only [find, Option.map_eq_none_iff, List.find?_eq_none, decide_eq_true_eq, Prod.forall]
  constructor
  · intro absent value member
    exact absent key value (h.mem_bucket_iff.mpr member) rfl
  · rintro absent key' value member rfl
    exact absent value (h.mem_bucket_iff.mp member)

theorem find_eq_some_iff {h : HashTable hash ν} {key : κ} {value : ν}
    (distinct : (h.pairs.map Prod.fst).Nodup) :
    h.find key = some value ↔ (key, value) ∈ h.pairs := by
  refine ⟨find_mem, fun member => ?_⟩
  cases found : h.find key with
  | none => exact absurd member (find_eq_none_iff.mp found value)
  | some other =>
    have := List.inj_on_of_nodup_map distinct (find_mem found) member rfl
    cases this
    rfl

def erase (h : HashTable hash ν) (key : κ) : HashTable hash ν :=
  match found : (h.bucket key).find? fun node => node.1 = key with
  | none => h
  | some node => {
      table := h.table.modify (hashPos hash key h.table) (List.eraseP fun node => node.1 = key)
      elementCount := h.elementCount - 1
      size_prime := by simpa using h.size_prime
      placed := placed_modify hash h.placed fun _ _ hp =>
        List.mem_map_of_mem (f := Prod.fst) (List.mem_of_mem_eraseP hp)
      counted := by
        obtain ⟨chain, here⟩ := bucket_exists hash h.table_pos key
        obtain ⟨before, after, old, shrunk⟩ := flatten_modify
          (List.eraseP fun node => decide (node.1 = key)) here
        have member := List.mem_of_find?_eq_some found
        rw [bucket, here, Option.getD_some] at member
        have := List.length_eraseP_of_mem member (List.find?_some found)
        have := List.length_pos_of_mem member
        rw [shrunk, h.counted, old]
        simp only [List.length_append]
        omega }

theorem pairs_erase {h : HashTable hash ν} {key : κ} {value : ν} (found : h.find key = some value) :
    h.pairs.Perm ((key, value) :: (h.erase key).pairs) := by
  obtain ⟨node, first, rfl⟩ := Option.map_eq_some_iff.mp found
  have same : node.1 = key := by simpa using List.find?_some first
  obtain ⟨chain, here⟩ := bucket_exists hash h.table_pos key
  obtain ⟨before, after, old, shrunk⟩ := flatten_modify
    (List.eraseP fun node => decide (node.1 = key)) here
  have unlinked : chain.Perm (node :: chain.eraseP fun node => decide (node.1 = key)) := by
    rw [bucket, here, Option.getD_some] at first
    obtain ⟨_, front, back, rfl, absent⟩ := List.find?_eq_some_iff_append.mp first
    rw [List.eraseP_append_right _ (by simpa using absent)]
    simp [same]
  unfold erase
  split
  · rename_i absent
    rw [first] at absent
    cases absent
  · have pair : (key, node.2) = node := by rw [← same]
    rw [pairs, pairs, shrunk, old, pair]
    apply ((unlinked.append_left before).append_right after).trans
    simp

end HashTable

end Bosh
