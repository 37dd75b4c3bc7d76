import Bosh.Hash
import Mathlib.Algebra.Group.Nat.Defs
import Mathlib.Data.List.Infix
import Mathlib.Data.List.Lookmap
import Mathlib.Data.Multiset.MapFold

/-! The hash table as a multiset of pairs: the operations of `hash.h` that only some tables use,
and what any sequence of operations does to the pairs. -/
namespace Bosh

section Buckets
variable {κ ν : Type}

/-- The inner loop of `hash_clear`: the first node is erased until there is none. -/
def clearChain : List (κ × ν) → Nat → List (κ × ν) × Nat
  | [], count => ([], count)
  | _ :: chain, count => clearChain chain (count - 1)

def hashClear : Buckets κ ν → Nat → Buckets κ ν × Nat
  | [], count => ([], count)
  | chain :: table, count =>
    let (chain, count) := clearChain chain count
    let (table, count) := hashClear table count
    (chain :: table, count)

theorem clearChain_eq (chain : List (κ × ν)) (count : Nat) :
    clearChain chain count = ([], count - chain.length) := by
  induction chain generalizing count with
  | nil => rfl
  | cons node chain ih => rw [clearChain, ih, List.length_cons, Nat.sub_sub, Nat.add_comm]

theorem hashClear_eq (table : Buckets κ ν) (count : Nat) :
    hashClear table count = (List.replicate table.length [], count - table.flatten.length) := by
  induction table generalizing count with
  | nil => rfl
  | cons chain table ih =>
    simp only [hashClear, clearChain_eq, ih, List.flatten_cons, List.length_append,
      List.length_cons, List.replicate_succ, Nat.sub_sub]

def hashIterate {σ : Type} (callback : κ → ν → σ → σ) (table : Buckets κ ν) (s : σ) : σ :=
  table.foldl (fun s chain => chain.foldl (fun s node => callback node.1 node.2 s) s) s

theorem hashIterate_eq {σ : Type} (callback : κ → ν → σ → σ) (table : Buckets κ ν) (s : σ) :
    hashIterate callback table s = table.flatten.foldl (fun s node => callback node.1 node.2 s) s :=
  List.foldl_flatten.symm

end Buckets

namespace HashTable
variable {κ ν : Type} {hash : κ → UInt32}

def size (h : HashTable hash ν) : Nat := h.elementCount

def iterate {σ : Type} (h : HashTable hash ν) (callback : κ → ν → σ → σ) (s : σ) : σ :=
  hashIterate callback h.table s

def calls (h : HashTable hash ν) : List (κ × ν) :=
  h.iterate (fun key value made => made ++ [(key, value)]) []

def clear (h : HashTable hash ν) : HashTable hash ν where
  table := (hashClear h.table h.elementCount).1
  elementCount := (hashClear h.table h.elementCount).2
  size_prime := by simpa [hashClear_eq] using h.size_prime
  placed := by
    simpa only [hashClear_eq] using placed_replicate hash h.table.length
  counted := by simp [hashClear_eq, h.counted]

@[simp] theorem pairs_clear (h : HashTable hash ν) : h.clear.pairs = [] := by
  simp [pairs, clear, hashClear_eq]

theorem calls_eq (h : HashTable hash ν) : h.calls = h.pairs := by
  have record : ∀ (made nodes : List (κ × ν)),
      nodes.foldl (fun made node => made ++ [(node.1, node.2)]) made = made ++ nodes := by
    intro made nodes
    induction nodes generalizing made with
    | nil => simp
    | cons node nodes ih => rw [List.foldl_cons, ih, List.append_assoc, List.singleton_append]
  rw [calls, iterate, hashIterate_eq, record, List.nil_append, pairs]

theorem iterate_eq {σ : Type} (h : HashTable hash ν) (callback : κ → ν → σ → σ) (s : σ) :
    h.iterate callback s = h.calls.foldl (fun s node => callback node.1 node.2 s) s := by
  rw [calls_eq, iterate, hashIterate_eq, pairs]

/-- A table of up to 1610612741 nodes finds a prime that is large enough, and that an `int` can
count to. -/
theorem prime_exists {count : Nat} (few : count ≤ 1610612741) :
    ∃ size, primeNumbers.find? (count ≤ ·) = some size ∧ count ≤ size ∧ size ≤ 1610612741 := by
  have split : primeNumbers = primeNumbers.take 26 ++ primeNumbers.drop 26 :=
    (List.take_append_drop ..).symm
  have small : ∀ size ∈ primeNumbers.take 26, size ≤ 1610612741 := by decide
  rw [split, List.find?_append]
  cases found : (primeNumbers.take 26).find? (count ≤ ·) with
  | none =>
    have none_larger := List.find?_eq_none.mp found 1610612741 (by decide)
    simp only [decide_eq_true_eq] at none_larger
    exact absurd few none_larger
  | some size =>
    exact ⟨size, rfl, by simpa using List.find?_some found, small size (List.mem_of_find?_eq_some found)⟩

theorem insert_returns {h : HashTable hash ν} {key : κ} {value : ν}
    (few : h.elementCount + 1 ≤ 1610612741) (small : h.table.length ≤ 1610612741) :
    ∃ h', h.insert key value = some h' ∧ h'.elementCount ≤ h'.table.length ∧
      h'.table.length ≤ 1610612741 := by
  have grows : ∃ resized, hashResize hash (hashInsertNoresize hash h.table (key, value)) (h.elementCount + 1) =
      some resized ∧ h.elementCount + 1 ≤ resized.length ∧ resized.length ≤ 1610612741 := by
    unfold hashResize
    split
    · obtain ⟨size, found, enough, countable⟩ := prime_exists few
      have positive := primeNumbers_pos _ (List.mem_of_find?_eq_some found)
      have length := (relink hash (hashInsertNoresize hash h.table (key, value)).flatten
        (by simpa using positive) (placed_replicate hash size)).1
      rw [List.length_replicate] at length
      rw [found]
      exact ⟨_, rfl, by rw [length]; exact enough, by rw [length]; exact countable⟩
    · rename_i fits
      rw [length_hashInsertNoresize] at fits
      exact ⟨_, rfl, by rw [length_hashInsertNoresize]; omega, by rwa [length_hashInsertNoresize]⟩
  obtain ⟨resized, grown, enough, countable⟩ := grows
  unfold insert
  dsimp only
  split
  · rename_i stuck
    rw [grown] at stuck
    cases stuck
  · rename_i resized' grown'
    rw [grown, Option.some.injEq] at grown'
    subst grown'
    exact ⟨_, rfl, enough, countable⟩

theorem modify_bucket (h : HashTable hash ν) (key : κ) (f : List (κ × ν) → List (κ × ν)) :
    ∃ before after, h.pairs = before ++ h.bucket key ++ after ∧
      (h.table.modify (hashPos hash key h.table) f).flatten = before ++ f (h.bucket key) ++ after := by
  obtain ⟨chain, here⟩ := bucket_exists hash h.table_pos key
  rw [bucket, here, Option.getD_some]
  exact flatten_modify f here

variable [DecidableEq κ]

/-- `hash_find_prev_node`: the node after the one it returns. -/
def findNode (h : HashTable hash ν) (key : κ) : Option (κ × ν) :=
  (h.bucket key).find? fun node => node.1 = key

def replaceValue (key : κ) (value : ν) : List (κ × ν) → List (κ × ν) :=
  List.lookmap fun node => if node.1 = key then some (node.1, value) else none

@[simp] theorem length_replaceValue (key : κ) (value : ν) (chain : List (κ × ν)) :
    (replaceValue key value chain).length = chain.length :=
  List.length_lookmap ..

theorem map_fst_replaceValue (key : κ) (value : ν) (chain : List (κ × ν)) :
    (replaceValue key value chain).map Prod.fst = chain.map Prod.fst := by
  apply List.lookmap_map_eq
  intro node replaced changed
  split at changed
  · cases changed
    rfl
  · cases changed

/-- `hash_insert_replace`: the node stays where it is. -/
def insertReplace (h : HashTable hash ν) (key : κ) (value : ν) :
    Option (Option ν × HashTable hash ν) :=
  match h.findNode key with
  | none => (h.insert key value).map fun h' => (none, h')
  | some node => some (some node.2, {
      table := h.table.modify (hashPos hash key h.table) (replaceValue key value)
      elementCount := h.elementCount
      size_prime := by simpa using h.size_prime
      placed := placed_modify hash h.placed fun chain p hp => by
        rw [← map_fst_replaceValue key value chain]
        exact List.mem_map_of_mem hp
      counted := by
        obtain ⟨before, after, old, new⟩ := h.modify_bucket key (replaceValue key value)
        rw [h.counted, new, ← pairs, old]
        simp })

theorem findNode_eq_some {h : HashTable hash ν} {key : κ} {node : κ × ν}
    (found : h.findNode key = some node) :
    node.1 = key ∧ ∃ front back, h.bucket key = front ++ node :: back ∧ ∀ p ∈ front, p.1 ≠ key := by
  obtain ⟨same, front, back, split, others⟩ := List.find?_eq_some_iff_append.mp found
  exact ⟨by simpa using same, front, back, split, by simpa using others⟩

theorem replaceValue_append {key : κ} {value : ν} {node : κ × ν} {front back : List (κ × ν)}
    (same : node.1 = key) (others : ∀ p ∈ front, p.1 ≠ key) :
    replaceValue key value (front ++ node :: back) = front ++ (key, value) :: back := by
  induction front with
  | nil => simp [replaceValue, same]
  | cons p front ih =>
    rw [List.forall_mem_cons] at others
    rw [List.cons_append, List.cons_append, ← ih others.2]
    exact List.lookmap_cons_none _ _ (if_neg others.1)

theorem find_eq (h : HashTable hash ν) (key : κ) : h.find key = (h.findNode key).map Prod.snd := rfl

theorem findNode_eq_none {h : HashTable hash ν} {key : κ} (found : h.findNode key = none) :
    ∀ value, (key, value) ∉ h.pairs :=
  find_eq_none_iff.mp (by rw [find_eq, found, Option.map_none])

end HashTable

inductive HashOp (κ ν : Type) where
  | insert (key : κ) (value : ν)
  | erase (key : κ)
  | find (key : κ)
  | hasKey (key : κ)
  | insertReplace (key : κ) (value : ν)
  | clear
  | size
  | iterate
  deriving DecidableEq, Repr

/-- What a call returns; of `hash_iterate`, the calls it makes. -/
inductive HashResult (κ ν : Type) where
  | nothing
  | value (found : Option ν)
  | flag (found : Bool)
  | count (size : Nat)
  | calls (pairs : List (κ × ν))
  deriving DecidableEq, Repr

section Specification
variable {κ ν : Type}

/-- What an operation may return and leave, of a multiset of pairs. -/
inductive Performs : Multiset (κ × ν) → HashOp κ ν → HashResult κ ν → Multiset (κ × ν) → Prop where
  | insert (m) (key : κ) (value : ν) : Performs m (.insert key value) .nothing ((key, value) ::ₘ m)
  | erase (m) (key : κ) (value : ν) : Performs ((key, value) ::ₘ m) (.erase key) (.value (some value)) m
  | eraseMissing {m} {key : κ} (missing : ∀ value, (key, value) ∉ m) :
      Performs m (.erase key) (.value none) m
  | find {m} {key : κ} {value : ν} (here : (key, value) ∈ m) :
      Performs m (.find key) (.value (some value)) m
  | findMissing {m} {key : κ} (missing : ∀ value, (key, value) ∉ m) :
      Performs m (.find key) (.value none) m
  | hasKey {m} {key : κ} {found : Bool} (exact : found = true ↔ ∃ value, (key, value) ∈ m) :
      Performs m (.hasKey key) (.flag found) m
  | replace (m) (key : κ) (old value : ν) :
      Performs ((key, old) ::ₘ m) (.insertReplace key value) (.value (some old)) ((key, value) ::ₘ m)
  | replaceMissing {m} {key : κ} (value : ν) (missing : ∀ old, (key, old) ∉ m) :
      Performs m (.insertReplace key value) (.value none) ((key, value) ::ₘ m)
  | clear (m) : Performs m .clear .nothing 0
  | size (m) : Performs m .size (.count m.card) m
  | iterate (pairs : List (κ × ν)) : Performs pairs .iterate (.calls pairs) pairs

theorem notMem_keys {m : Multiset (κ × ν)} {key : κ} (missing : ∀ value, (key, value) ∉ m) :
    key ∉ m.map Prod.fst := by
  intro listed
  obtain ⟨⟨_, value⟩, here, rfl⟩ := Multiset.mem_map.mp listed
  exact missing value here

variable [DecidableEq κ]

def HashOp.keys (keys : Multiset κ) : HashOp κ ν → Multiset κ
  | .insert key _ => key ::ₘ keys
  | .erase key => keys.erase key
  | .insertReplace key _ => if key ∈ keys then keys else key ::ₘ keys
  | .clear => 0
  | .find _ | .hasKey _ | .size | .iterate => keys

/-- The number of pairs does not depend on which of several pairs an operation takes. -/
theorem Performs.keys {m m' : Multiset (κ × ν)} {op : HashOp κ ν} {result : HashResult κ ν}
    (performs : Performs m op result m') : m'.map Prod.fst = op.keys (m.map Prod.fst) := by
  cases performs with
  | insert key value => simp [HashOp.keys]
  | erase key value => simp [HashOp.keys]
  | eraseMissing missing => rw [HashOp.keys, Multiset.erase_of_notMem (notMem_keys missing)]
  | find | findMissing | hasKey | size | iterate => rfl
  | replace m key old value => simp [HashOp.keys]
  | replaceMissing value missing => simp [HashOp.keys, if_neg (notMem_keys missing)]
  | clear => rfl

end Specification

namespace HashTable
variable {κ ν : Type} {hash : κ → UInt32}

def content (h : HashTable hash ν) : Multiset (κ × ν) := h.pairs

theorem content_clear (h : HashTable hash ν) : h.clear.content = 0 := by
  rw [content, pairs_clear, Multiset.coe_nil]

theorem card_content (h : HashTable hash ν) : h.content.card = h.size := by
  rw [content, Multiset.coe_card, pairs, size, h.counted]

theorem content_insert {h h' : HashTable hash ν} {key : κ} {value : ν}
    (done : h.insert key value = some h') : h'.content = (key, value) ::ₘ h.content := by
  rw [content, content, Multiset.cons_coe, Multiset.coe_eq_coe]
  exact pairs_insert done

variable [DecidableEq κ]

theorem content_erase {h : HashTable hash ν} {key : κ} {node : κ × ν}
    (found : h.findNode key = some node) : h.content = (key, node.2) ::ₘ (h.erase key).content := by
  rw [content, content, Multiset.cons_coe, Multiset.coe_eq_coe]
  exact pairs_erase (by rw [find_eq, found, Option.map_some])

theorem erase_missing {h : HashTable hash ν} {key : κ} (found : h.findNode key = none) :
    h.erase key = h := by
  unfold erase
  split
  · rfl
  · rename_i there
    rw [findNode, there] at found
    cases found

@[simp] theorem length_erase (h : HashTable hash ν) (key : κ) :
    (h.erase key).table.length = h.table.length := by
  unfold erase
  split
  · rfl
  · simp

theorem insertReplace_found {h : HashTable hash ν} {key : κ} {value : ν} {node : κ × ν}
    (found : h.findNode key = some node) :
    ∃ h' rest, h.insertReplace key value = some (some node.2, h') ∧
      h.content = (key, node.2) ::ₘ rest ∧ h'.content = (key, value) ::ₘ rest ∧
      h'.elementCount = h.elementCount ∧ h'.table.length = h.table.length := by
  obtain ⟨same, front, back, split, others⟩ := findNode_eq_some found
  obtain ⟨before, after, old, new⟩ := h.modify_bucket key (replaceValue key value)
  rw [split] at old new
  rw [replaceValue_append same others] at new
  have pair : (key, node.2) = node := by rw [← same]
  unfold insertReplace
  rw [found]
  refine ⟨_, ((before ++ front ++ back ++ after : List (κ × ν)) : Multiset (κ × ν)), rfl, ?_, ?_,
    rfl, by simp⟩
  · rw [content, old, pair, Multiset.cons_coe, Multiset.coe_eq_coe]
    simp only [List.append_assoc, List.cons_append]
    exact (List.perm_middle.append_left before).trans List.perm_middle
  · rw [content, pairs, new, Multiset.cons_coe, Multiset.coe_eq_coe]
    simp only [List.append_assoc, List.cons_append]
    exact (List.perm_middle.append_left before).trans List.perm_middle

/-- A call on a table: what it returns, and the table it leaves; `none` when the table cannot
grow. -/
def apply (h : HashTable hash ν) : HashOp κ ν → Option (HashResult κ ν × HashTable hash ν)
  | .insert key value => (h.insert key value).map fun h' => (.nothing, h')
  | .erase key => some (.value ((h.findNode key).map Prod.snd), h.erase key)
  | .find key => some (.value (h.find key), h)
  | .hasKey key => some (.flag (h.hasKey key), h)
  | .insertReplace key value => (h.insertReplace key value).map fun (old, h') => (.value old, h')
  | .clear => some (.nothing, h.clear)
  | .size => some (.count h.size, h)
  | .iterate => some (.calls h.calls, h)

/-- What holds of a table after every call. The loops of the source count chains with an `int`. -/
structure Sound (h : HashTable hash ν) : Prop where
  placed : ∀ i chain, h.table[i]? = some chain → ∀ node ∈ chain,
    (hash node.1).toNat % h.table.length = i
  counted : h.elementCount = h.table.flatten.length
  size_prime : h.table.length ∈ primeNumbers
  roomy : h.elementCount ≤ h.table.length
  countable : h.table.length < 2 ^ 31

omit [DecidableEq κ] in
theorem sound_of {h : HashTable hash ν} (roomy : h.elementCount ≤ h.table.length)
    (countable : h.table.length ≤ 1610612741) : Sound h :=
  ⟨h.placed, h.counted, h.size_prime, roomy, by omega⟩

theorem length_le_of_lt {size : Nat} (prime : size ∈ primeNumbers) (countable : size < 2 ^ 31) :
    size ≤ 1610612741 := by
  have gap : ∀ size ∈ primeNumbers, size < 2 ^ 31 → size ≤ 1610612741 := by decide
  exact gap size prime countable

omit [DecidableEq κ] in
theorem Sound.small {h : HashTable hash ν} (sound : Sound h) : h.table.length ≤ 1610612741 :=
  length_le_of_lt sound.size_prime sound.countable

/-- `hash_erase` returns what `hash_find` would, and `hash_iterate` makes its calls with any
callback. -/
def Reports (h : HashTable hash ν) (result : HashResult κ ν) : HashOp κ ν → Prop
  | .erase key => result = .value (h.find key)
  | .iterate => ∃ pairs, result = .calls pairs ∧ ∀ {σ : Type} (callback : κ → ν → σ → σ) (s : σ),
      h.iterate callback s = pairs.foldl (fun s node => callback node.1 node.2 s) s
  | .insert .. | .find _ | .hasKey _ | .insertReplace .. | .clear | .size => True

/-- A call that does to the pairs what the operation is for. -/
structure Meets (h : HashTable hash ν) (op : HashOp κ ν) (result : HashResult κ ν)
    (h' : HashTable hash ν) :
    Prop where
  performs : Performs h.content op result h'.content
  reports : h.Reports result op
  sound : Sound h'

omit [DecidableEq κ] in
theorem meets_insert {h : HashTable hash ν} (sound : Sound h) (key : κ) (value : ν)
    (few : h.size + 1 ≤ 1610612741) :
    ∃ h', h.insert key value = some h' ∧ h'.content = (key, value) ::ₘ h.content ∧ Sound h' := by
  obtain ⟨h', done, roomy, countable⟩ := insert_returns few sound.small
  exact ⟨h', done, content_insert done, sound_of roomy countable⟩

/-- Every operation that leaves few enough pairs returns, and does what it is for. -/
theorem apply_meets {h : HashTable hash ν} (sound : Sound h) (op : HashOp κ ν)
    (few : (op.keys (h.content.map Prod.fst)).card ≤ 1610612741) :
    ∃ result h', h.apply op = some (result, h') ∧ Meets h op result h' := by
  cases op with
  | insert key value =>
    rw [HashOp.keys, Multiset.card_cons, Multiset.card_map, card_content] at few
    obtain ⟨h', done, same, sound'⟩ := meets_insert sound key value few
    refine ⟨.nothing, h', by rw [apply, done, Option.map_some], ?_, trivial, sound'⟩
    rw [same]
    exact .insert ..
  | erase key =>
    refine ⟨_, _, rfl, ?_, rfl, ?_⟩
    · cases found : h.findNode key with
      | none =>
        rw [erase_missing found]
        exact .eraseMissing (findNode_eq_none found)
      | some node =>
        rw [content_erase found]
        exact .erase ..
    · cases found : h.findNode key with
      | none => exact (erase_missing found).symm ▸ sound
      | some node =>
        have fewer := congrArg Multiset.card (content_erase found)
        rw [Multiset.card_cons, card_content, card_content, size, size] at fewer
        have roomy := sound.roomy
        exact sound_of (by rw [length_erase]; omega) (by rw [length_erase]; exact sound.small)
  | find key =>
    refine ⟨_, _, rfl, ?_, trivial, sound⟩
    cases found : h.find key with
    | none => exact .findMissing (find_eq_none_iff.mp found)
    | some value => exact .find (find_mem found)
  | hasKey key =>
    refine ⟨_, _, rfl, .hasKey ?_, trivial, sound⟩
    rw [hasKey, Option.isSome_iff_exists]
    constructor
    · rintro ⟨value, found⟩
      exact ⟨value, find_mem found⟩
    · rintro ⟨value, here⟩
      cases found : h.find key with
      | none => exact absurd here (find_eq_none_iff.mp found value)
      | some value => exact ⟨value, rfl⟩
  | insertReplace key value =>
    cases found : h.findNode key with
    | none =>
      have missing := findNode_eq_none found
      rw [HashOp.keys, if_neg (notMem_keys missing), Multiset.card_cons, Multiset.card_map,
        card_content] at few
      obtain ⟨h', done, same, sound'⟩ := meets_insert sound key value few
      refine ⟨.value none, h', ?_, ?_, trivial, sound'⟩
      · rw [apply, insertReplace]
        simp [found, done]
      · rw [same]
        exact .replaceMissing value missing
    | some node =>
      obtain ⟨h', rest, done, old, new, count, size⟩ := insertReplace_found found
      refine ⟨.value (some node.2), h', by rw [apply, done, Option.map_some], ?_, trivial,
        sound_of (by rw [count, size]; exact sound.roomy) (by rw [size]; exact sound.small)⟩
      rw [old, new]
      exact .replace ..
  | clear =>
    refine ⟨_, _, rfl, ?_, trivial, sound_of ?_ ?_⟩
    · rw [content_clear]
      exact .clear _
    · simp [clear, hashClear_eq, h.counted]
    · simpa [clear, hashClear_eq] using sound.small
  | size =>
    refine ⟨_, _, rfl, ?_, trivial, sound⟩
    rw [← card_content]
    exact .size _
  | iterate =>
    refine ⟨_, _, rfl, ?_, ⟨_, rfl, h.iterate_eq⟩, sound⟩
    rw [calls_eq]
    exact .iterate _

inductive Runs : HashTable hash ν → List (HashOp κ ν) → HashTable hash ν → Prop where
  | nil (h : HashTable hash ν) : Runs h [] h
  | cons {h h₁ h' : HashTable hash ν} {op : HashOp κ ν} {ops : List (HashOp κ ν)} {result : HashResult κ ν} :
      h.apply op = some (result, h₁) → Meets h op result h₁ → Runs h₁ ops h' → Runs h (op :: ops) h'

theorem runs_of_few (ops : List (HashOp κ ν)) {h : HashTable hash ν} (sound : Sound h)
    (few : ∀ done, done <+: ops →
      (done.foldl HashOp.keys (h.content.map Prod.fst)).card ≤ 1610612741) :
    ∃ h', Runs h ops h' := by
  induction ops generalizing h with
  | nil => exact ⟨h, .nil h⟩
  | cons op ops ih =>
    have first := few [op] ⟨ops, rfl⟩
    obtain ⟨result, h₁, done, meets⟩ := apply_meets sound op first
    obtain ⟨h', runs⟩ := ih meets.sound fun rest before => by
      have all := few (op :: rest) (List.cons_prefix_cons.mpr ⟨rfl, before⟩)
      rwa [List.foldl_cons, ← meets.performs.keys] at all
    exact ⟨h', .cons done meets runs⟩

omit [DecidableEq κ] in
theorem sound_new : Sound (new hash ν) := sound_of (by simp [new]) (by simp [new])

omit [DecidableEq κ] in
@[simp] theorem content_new : (new hash ν).content = 0 := by
  rw [content, pairs_new, Multiset.coe_nil]

end HashTable

/-- Calls in any order, with any keys, make of a new table what they make of an empty multiset, as
long as they never store more than 1610612741 pairs. -/
theorem hash_refines {κ ν : Type} [DecidableEq κ] (hash : κ → UInt32) (ops : List (HashOp κ ν))
    (few : ∀ done, done <+: ops → (done.foldl HashOp.keys 0).card ≤ 1610612741) :
    (HashTable.new hash ν).Sound ∧ (HashTable.new hash ν).content = 0 ∧
      ∃ h, (HashTable.new hash ν).Runs ops h := by
  refine ⟨HashTable.sound_new, HashTable.content_new,
    HashTable.runs_of_few ops HashTable.sound_new ?_⟩
  simpa only [HashTable.content_new, Multiset.map_zero] using few

def Sample.hashCalls : List (HashOp Nat Bool) :=
  [.insert 1 true, .insert 1 false, .insertReplace 2 true, .erase 1, .find 1, .iterate, .clear]

theorem hash_refines_colliding :
    ∃ h, (HashTable.new (fun _ : Nat => 7) Bool).Runs Sample.hashCalls h := by
  have few : ∀ done ∈ Sample.hashCalls.inits, (done.foldl HashOp.keys 0).card ≤ 1610612741 := by
    decide
  exact (hash_refines _ Sample.hashCalls fun done before => few done ((List.mem_inits ..).mpr before)).2.2

end Bosh
