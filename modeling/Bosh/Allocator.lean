import Bosh.Library.Effect
import Bosh.Library.Ring
import Bosh.Library.Table
import Mathlib.Data.Multiset.Range
import Mathlib.Data.Multiset.Bind

/-! The object pools of `allocator.h`. What `malloc` has given to a pool is numbered in that order,
the buffer nodes and the objects apart; a pool never gives anything back. -/
namespace Bosh
open Effect

def allocatorBlockSize : Nat := 4096

def allocStep (size : Nat) : Nat :=
  if allocatorBlockSize < (size + 128 * 1024 - 1) / size then allocatorBlockSize
  else (size + 128 * 1024 - 1) / size

/-- The entries of `objs` from `size` on are not initialised. -/
structure AllocatorNode where
  next : Nat
  prev : Nat
  size : Nat
  objs : Nat → Nat

def AllocatorNode.stored (node : AllocatorNode) : List Nat := (List.range node.size).map node.objs

structure Allocator where
  buffer : Option Nat
  nodes : Nat → Option AllocatorNode
  nextNode : Nat
  nextObj : Nat

inductive MemoryFault where
  | nullPointer
  | useAfterFree
  | outOfBounds
  | uninitialised
  | diverges
  deriving DecidableEq

/-- What a pool is for its callers: the objects that are not in use lie on a stack. -/
structure Pool where
  fresh : Nat := 0
  stack : List Nat := []
  deriving DecidableEq

/-- The objects that one `malloc` brings, the last one first. -/
def freshObjs (first : Nat) : Nat → List Nat
  | 0 => []
  | n + 1 => (first + n) :: freshObjs first n

theorem reverse_freshObjs (first n : Nat) :
    ((List.range n).map (first + ·)).reverse = freshObjs first n := by
  induction n with
  | zero => rfl
  | succ n ih => rw [List.range_succ, List.map_append, List.map_singleton, List.reverse_concat, ih,
      freshObjs]

namespace Pool

def alloc (step : Nat) (pool : Pool) : Nat × Pool :=
  match pool.stack with
  | obj :: stack => (obj, { pool with stack })
  | [] => (pool.fresh + (step - 1), ⟨pool.fresh + step, freshObjs pool.fresh (step - 1)⟩)

def free (obj : Nat) (pool : Pool) : Pool := { pool with stack := obj :: pool.stack }

end Pool

namespace Allocator

def init : Allocator := { buffer := none, nodes := fun _ => none, nextNode := 0, nextObj := 0 }

def setNode (n : Nat) (node : AllocatorNode) (s : Allocator) : Allocator :=
  { s with nodes := Function.update s.nodes n (some node) }

def next (s : Allocator) (n : Nat) : Option Nat := (s.nodes n).map AllocatorNode.next

def prev (s : Allocator) (n : Nat) : Option Nat := (s.nodes n).map AllocatorNode.prev

def load (s : Allocator) (n : Nat) : Option (Nat × (Nat → Nat)) :=
  (s.nodes n).map fun node => (node.size, node.objs)

def held (s : Allocator) (n : Nat) : List Nat :=
  (s.nodes n).elim [] AllocatorNode.stored

end Allocator

def readBuffer : Program Allocator MemoryFault Nat := demand Allocator.buffer .nullPointer

def readNode (n : Nat) : Program Allocator MemoryFault AllocatorNode :=
  demand (fun s => s.nodes n) .useAfterFree

def modifyNode (n : Nat) (f : AllocatorNode → AllocatorNode) :
    Program Allocator MemoryFault PUnit := do
  let node ← readNode n
  modify (Allocator.setNode n (f node))

def setBuffer (n : Nat) : Program Allocator MemoryFault PUnit :=
  modify fun s => { s with buffer := some n }

def checkIndex (i : Nat) : Program Allocator MemoryFault PUnit :=
  if i < allocatorBlockSize then pure ⟨⟩ else throw .outOfBounds

def mallocNode : Program Allocator MemoryFault Nat := do
  let s ← get
  set { s with nextNode := s.nextNode + 1 }
  return s.nextNode

def mallocObjs (count : Nat) : Program Allocator MemoryFault Nat := do
  let s ← get
  set { s with nextObj := s.nextObj + count }
  return s.nextObj

def initBuffer : Program Allocator MemoryFault PUnit := do
  let s ← get
  if s.buffer = none then
    let n ← mallocNode
    modify (Allocator.setNode n { next := n, prev := n, size := 0, objs := fun _ => 0 })
    setBuffer n

def fillEntry (n objs i : Nat) : Program Allocator MemoryFault PUnit := do
  checkIndex i
  modifyNode n fun node => { node with objs := Function.update node.objs i (objs + i) }

def refill (step n : Nat) : Program Allocator MemoryFault PUnit := do
  let objs ← mallocObjs step
  forM (List.range step) (fillEntry n objs)
  modifyNode n fun node => { node with size := step }

/-- Go back on the stack if there is nothing here, and refill it if there is nothing there. -/
def findObj (step : Nat) : Program Allocator MemoryFault PUnit := do
  let node ← readNode (← readBuffer)
  if node.size = 0 then
    setBuffer node.prev
    let n ← readBuffer
    let node ← readNode n
    if node.size = 0 then refill step n

def takeObj : Program Allocator MemoryFault Nat := do
  let n ← readBuffer
  let node ← readNode n
  let size := (node.size + (2 ^ 64 - 1)) % 2 ^ 64
  modifyNode n fun node => { node with size }
  checkIndex size
  return node.objs size

def typeAlloc (step : Nat) : Program Allocator MemoryFault Nat := do
  initBuffer
  findObj step
  takeObj

def insertNode : Program Allocator MemoryFault PUnit := do
  let buffer ← readBuffer
  let first ← readNode buffer
  let n ← mallocNode
  modify (Allocator.setNode n { next := buffer, prev := first.prev, size := 0, objs := fun _ => 0 })
  modifyNode buffer fun node => { node with prev := n }
  modifyNode first.prev fun node => { node with next := n }
  setBuffer n

/-- Go forward on the stack if there is no room here, and make some if there is none there. -/
def findRoom : Program Allocator MemoryFault PUnit := do
  let node ← readNode (← readBuffer)
  if node.size = allocatorBlockSize then
    setBuffer node.next
    let node ← readNode node.next
    if node.size = allocatorBlockSize then insertNode

def putObj (obj : Nat) : Program Allocator MemoryFault PUnit := do
  let n ← readBuffer
  let node ← readNode n
  checkIndex node.size
  modifyNode n fun node =>
    { node with objs := Function.update node.objs node.size obj, size := (node.size + 1) % 2 ^ 64 }

def typeFree (obj : Nat) : Program Allocator MemoryFault PUnit := do
  findRoom
  putObj obj

theorem allocStep_bounds {size : Nat} (positive : 0 < size) :
    0 < allocStep size ∧ allocStep size ≤ allocatorBlockSize := by
  have enough : 0 < (size + 128 * 1024 - 1) / size := Nat.div_pos (by omega) positive
  unfold allocStep
  split
  · exact ⟨by decide, le_rfl⟩
  · exact ⟨enough, by omega⟩

namespace AllocatorNode

theorem stored_pop {node : AllocatorNode} (nonempty : 0 < node.size) :
    node.stored = AllocatorNode.stored { node with size := node.size - 1 } ++ [node.objs (node.size - 1)] := by
  obtain ⟨size, size_eq⟩ := Nat.exists_eq_succ_of_ne_zero (Nat.ne_of_gt nonempty)
  simp [stored, size_eq, List.range_succ]

theorem stored_push {node : AllocatorNode} {obj : Nat} :
    AllocatorNode.stored { node with objs := Function.update node.objs node.size obj, size := node.size + 1 } =
      node.stored ++ [obj] := by
  have kept : (List.range node.size).map (Function.update node.objs node.size obj) =
    node.stored := by
    refine List.map_congr_left fun i below => Function.update_of_ne ?_ ..
    exact Nat.ne_of_lt (List.mem_range.mp below)
  change (List.range (node.size + 1)).map (Function.update node.objs node.size obj) = _
  rw [List.range_succ, List.map_append, kept, List.map_singleton, Function.update_self]

theorem stored_of_empty {node : AllocatorNode} (empty : node.size = 0) : node.stored = [] := by
  simp [stored, empty]

end AllocatorNode

namespace Allocator

/-- All nodes form one ring. From some node on there come full ones, then the one that the buffer
points to, then empty ones. -/
structure Shaped (s : Allocator) (full : List Nat) (current : Nat) (empty : List Nat) : Prop where
  buffer : s.buffer = some current
  ring : Ring.Linked s.next s.prev (full ++ current :: empty : List Nat)
  listed : ∀ n, (s.nodes n).isSome ↔ n ∈ full ++ current :: empty
  below : ∀ n, (s.nodes n).isSome → n < s.nextNode
  bounded : ∀ n node, s.nodes n = some node → node.size ≤ allocatorBlockSize
  full : ∀ n ∈ full, ∀ node, s.nodes n = some node → node.size = allocatorBlockSize
  empty : ∀ n ∈ empty, ∀ node, s.nodes n = some node → node.size = 0

def stock (s : Allocator) (nodes : Multiset Nat) : Multiset Nat :=
  nodes.bind fun n => (s.held n : Multiset Nat)

/-- The unused objects, from the one that is handed out next on. -/
def stack (s : Allocator) (full : List Nat) (current : Nat) : List Nat :=
  ((full ++ [current]).flatMap s.held).reverse

def pool (s : Allocator) (full : List Nat) (current : Nat) : Pool :=
  ⟨s.nextObj, s.stack full current⟩

section Updates
variable {s : Allocator} {n m : Nat} {node : AllocatorNode} {nodes : Multiset Nat}

@[simp] theorem setNode_buffer : (s.setNode n node).buffer = s.buffer := rfl
@[simp] theorem setNode_nextNode : (s.setNode n node).nextNode = s.nextNode := rfl
@[simp] theorem setNode_nextObj : (s.setNode n node).nextObj = s.nextObj := rfl
@[simp] theorem setNode_nodes_self : (s.setNode n node).nodes n = some node :=
  Function.update_self ..

@[simp] theorem setNode_nodes_ne (other : m ≠ n) : (s.setNode n node).nodes m = s.nodes m :=
  Function.update_of_ne other ..

@[simp] theorem setNode_setNode {node' : AllocatorNode} :
    (s.setNode n node).setNode n node' = s.setNode n node' := by
  simp [setNode]

theorem next_setNode : (s.setNode n node).next = Function.update s.next n (some node.next) :=
  Function.comp_update (Option.map AllocatorNode.next) s.nodes n (some node)

theorem prev_setNode : (s.setNode n node).prev = Function.update s.prev n (some node.prev) :=
  Function.comp_update (Option.map AllocatorNode.prev) s.nodes n (some node)

theorem load_setNode :
    (s.setNode n node).load = Function.update s.load n (some (node.size, node.objs)) :=
  Function.comp_update (Option.map fun node : AllocatorNode => (node.size, node.objs)) s.nodes n (some node)

theorem setNode_next {old : AllocatorNode} (here : s.nodes n = some old)
    (same : node.next = old.next) :
    (s.setNode n node).next = s.next := Table.map_update_same here same

theorem setNode_prev {old : AllocatorNode} (here : s.nodes n = some old)
    (same : node.prev = old.prev) :
    (s.setNode n node).prev = s.prev := Table.map_update_same here same

theorem setNode_load {old : AllocatorNode} (here : s.nodes n = some old)
    (size : node.size = old.size) (objs : node.objs = old.objs) :
    (s.setNode n node).load = s.load :=
  Table.map_update_same here (Prod.ext size objs)

theorem of_load {s' : Allocator} (same : s'.load n = s.load n) (found : s'.nodes n = some node) :
    ∃ old, s.nodes n = some old ∧ old.size = node.size := by
  rw [load, found, Option.map_some] at same
  obtain ⟨old, here, equal⟩ := Option.map_eq_some_iff.mp same.symm
  exact ⟨old, here, congrArg Prod.fst equal⟩

theorem load_isSome : (s.load n).isSome = (s.nodes n).isSome := Option.isSome_map

theorem held_of_load {s' : Allocator} (same : s'.load n = s.load n) : s'.held n = s.held n := by
  have held : ∀ s : Allocator, s.held n = (s.load n).elim [] fun load =>
    (List.range load.1).map load.2 := by
    intro s
    unfold held load
    cases s.nodes n with
    | none => rfl
    | some node => rfl
  rw [held, held, same]

theorem setNode_isSome (here : (s.nodes n).isSome) :
    ((s.setNode n node).nodes m).isSome ↔ (s.nodes m).isSome := by
  by_cases self : m = n
  · subst self
    simp [here]
  · simp [self]

theorem held_of_some (here : s.nodes n = some node) : s.held n = node.stored := by
  rw [held, here, Option.elim_some]

theorem held_congr {s' : Allocator} (same : s'.nodes n = s.nodes n) : s'.held n = s.held n := by
  rw [held, held, same]

theorem held_of_empty (here : s.nodes n = some node) (nothing : node.size = 0) : s.held n = [] := by
  rw [held_of_some here, AllocatorNode.stored_of_empty nothing]

theorem stack_concat {full : List Nat} {current : Nat} :
    s.stack (full ++ [current]) n = (s.held n).reverse ++ s.stack full current := by
  simp [stack]

theorem stack_congr {s' : Allocator} {full : List Nat} {current : Nat}
    (same : ∀ n ∈ full ++ [current], s'.held n = s.held n) :
    s'.stack full current = s.stack full current :=
  congrArg List.reverse (List.flatMap_congr fun n listed => same n listed)

theorem stack_of_empty {full : List Nat} {current : Nat}
    (empties : ∀ n node, s.nodes n = some node → node.size = 0) : s.stack full current = [] := by
  have nothing : ∀ n, s.held n = [] := fun n => by
    cases here : s.nodes n with
    | none => rw [held, here, Option.elim_none]
    | some node => exact held_of_empty here (empties n node here)
  simp [stack, nothing]

end Updates

namespace Shaped
variable {s : Allocator} {full empty : List Nat} {current : Nat}

theorem nodup (shaped : Shaped s full current empty) : (full ++ current :: empty).Nodup :=
  Cycle.nodup_coe_iff.mp shaped.ring.nodup

theorem current_notMem (shaped : Shaped s full current empty) : current ∉ full ++ empty :=
  (List.nodup_cons.mp (List.nodup_middle.mp shaped.nodup)).1

theorem node (shaped : Shaped s full current empty) : ∃ node, s.nodes current = some node :=
  Option.isSome_iff_exists.mp ((shaped.listed current).mpr (by simp))

theorem setNode (shaped : Shaped s full current empty) {node node' : AllocatorNode}
    (here : s.nodes current = some node) (next : node'.next = node.next)
    (prev : node'.prev = node.prev) (fits : node'.size ≤ allocatorBlockSize) :
    Shaped (s.setNode current node') full current empty := by
  have there : (s.nodes current).isSome := by simp [here]
  have apart : ∀ n ∈ full ++ empty, n ≠ current := fun n listed same =>
    shaped.current_notMem (same ▸ listed)
  refine ⟨shaped.buffer, ?_, fun n => (setNode_isSome there).trans (shaped.listed n),
    fun n here' => shaped.below n ((setNode_isSome there).mp here'), fun n found there' => ?_,
    fun n listed found there' => ?_, fun n listed found there' => ?_⟩
  · rw [setNode_next here next, setNode_prev here prev]
    exact shaped.ring
  · by_cases self : n = current
    · subst self
      rw [setNode_nodes_self, Option.some.injEq] at there'
      exact there' ▸ fits
    · rw [setNode_nodes_ne self] at there'
      exact shaped.bounded n found there'
  · rw [setNode_nodes_ne (apart n (List.mem_append_left _ listed))] at there'
    exact shaped.full n listed found there'
  · rw [setNode_nodes_ne (apart n (List.mem_append_right _ listed))] at there'
    exact shaped.empty n listed found there'

theorem stock_eq (shaped : Shaped s full current empty) :
    s.stock (full ++ current :: empty : List Nat) = s.stack full current := by
  have nothing : empty.flatMap s.held = [] := List.flatMap_eq_nil_iff.mpr fun n listed => by
    obtain ⟨node, here⟩ := Option.isSome_iff_exists.mp ((shaped.listed n).mpr (by simp [listed]))
    exact held_of_empty here (shaped.empty n listed node here)
  rw [stock, Multiset.coe_bind, stack, List.append_cons, List.flatMap_append, nothing,
    List.append_nil]
  exact Multiset.coe_eq_coe.mpr (List.reverse_perm _).symm

theorem stack_setNode (shaped : Shaped s full current empty) {node : AllocatorNode} :
    (s.setNode current node).stack full current =
      node.stored.reverse ++ (full.flatMap s.held).reverse := by
  have kept : full.flatMap (s.setNode current node).held = full.flatMap s.held :=
    List.flatMap_congr fun n listed => held_congr (setNode_nodes_ne fun same =>
      shaped.current_notMem (same ▸ List.mem_append_left _ listed))
  rw [stack, List.flatMap_append, kept, List.flatMap_singleton, held_of_some setNode_nodes_self,
    List.reverse_append]

theorem stack_eq {node : AllocatorNode} (here : s.nodes current = some node) :
    s.stack full current = node.stored.reverse ++ (full.flatMap s.held).reverse := by
  rw [stack, List.flatMap_append, List.flatMap_singleton, held_of_some here, List.reverse_append]

theorem moved (shaped : Shaped s full current empty) {full' empty' : List Nat} {n : Nat}
    (rotated : (full' ++ n :: empty').IsRotated (full ++ current :: empty))
    (fulls : ∀ n ∈ full', ∀ node, s.nodes n = some node → node.size = allocatorBlockSize)
    (empties : ∀ n ∈ empty', ∀ node, s.nodes n = some node → node.size = 0) :
    Shaped { s with buffer := some n } full' n empty' where
  buffer := rfl
  ring := by
    rw [Cycle.coe_eq_coe.mpr rotated]
    exact shaped.ring
  listed n := (shaped.listed n).trans rotated.perm.mem_iff.symm
  below := shaped.below
  bounded := shaped.bounded
  full := fulls
  empty := empties

end Shaped

end Allocator

section Steps
variable {s : Allocator} {n : Nat} {node : AllocatorNode}

theorem run_readBuffer (buffer : s.buffer = some n) : readBuffer s = .ok (n, s) := run_demand buffer

theorem run_readNode (here : s.nodes n = some node) : readNode n s = .ok (node, s) :=
  run_demand here

theorem run_modifyNode {f : AllocatorNode → AllocatorNode} (here : s.nodes n = some node) :
    modifyNode n f s = .ok (⟨⟩, s.setNode n (f node)) := by
  rw [modifyNode, run_bind_ok (run_readNode here)]
  rfl

theorem run_checkIndex {i : Nat} (inside : i < allocatorBlockSize) :
    checkIndex i s = .ok (⟨⟩, s) := by
  rw [checkIndex, if_pos inside]
  rfl

open Allocator

theorem run_takeObj (buffer : s.buffer = some n) (here : s.nodes n = some node)
    (nonempty : 0 < node.size) (fits : node.size ≤ allocatorBlockSize) :
    takeObj s = .ok (node.objs (node.size - 1), s.setNode n { node with size := node.size - 1 }) := by
  have size : (node.size + (2 ^ 64 - 1)) % 2 ^ 64 = node.size - 1 := by
    unfold allocatorBlockSize at fits
    omega
  rw [takeObj, run_bind_ok (run_readBuffer buffer), run_bind_ok (run_readNode here)]
  simp only [size]
  rw [run_bind_ok (run_modifyNode here), run_bind_ok (run_checkIndex (by omega))]
  rfl

theorem run_putObj {obj : Nat} (buffer : s.buffer = some n) (here : s.nodes n = some node)
    (room : node.size < allocatorBlockSize) :
    putObj obj s = .ok (⟨⟩, s.setNode n
      { node with objs := Function.update node.objs node.size obj, size := node.size + 1 }) := by
  have size : (node.size + 1) % 2 ^ 64 = node.size + 1 := by
    unfold allocatorBlockSize at room
    omega
  rw [putObj, run_bind_ok (run_readBuffer buffer), run_bind_ok (run_readNode here),
    run_bind_ok (run_checkIndex room), run_modifyNode here, size]

variable {full empty : List Nat} {current : Nat}

theorem takeObj_ensures (shaped : Shaped s full current empty) (here : s.nodes current = some node)
    (nonempty : 0 < node.size) :
    Ensures (takeObj s) (fun obj s' => Shaped s' full current empty ∧ s'.nextObj = s.nextObj ∧
      s.stack full current = obj :: s'.stack full current) fun _ => False := by
  have fits := shaped.bounded current node here
  rw [run_takeObj shaped.buffer here nonempty fits]
  refine ⟨shaped.setNode here rfl rfl (by simp only; omega), rfl, ?_⟩
  rw [shaped.stack_setNode, Shaped.stack_eq here, AllocatorNode.stored_pop nonempty,
    List.reverse_concat, List.cons_append]

theorem putObj_ensures {obj : Nat} (shaped : Shaped s full current empty)
    (here : s.nodes current = some node) (room : node.size < allocatorBlockSize) :
    Ensures (putObj obj s) (fun _ s' => Shaped s' full current empty ∧ s'.nextObj = s.nextObj ∧
      s'.stack full current = obj :: s.stack full current) fun _ => False := by
  rw [run_putObj shaped.buffer here room]
  refine ⟨shaped.setNode here rfl rfl room, rfl, ?_⟩
  rw [shaped.stack_setNode, Shaped.stack_eq here, AllocatorNode.stored_push, List.reverse_concat,
    List.cons_append]

/-- Where the current node is empty, the one before it is full, or the whole pool is empty. -/
theorem Allocator.Shaped.back (shaped : Shaped s full current empty)
    (here : s.nodes current = some node) (nothing : node.size = 0) :
    ∃ full' empty', Shaped { s with buffer := some node.prev } full' node.prev empty' ∧
      s.stack full' node.prev = s.stack full current ∧
      ((∀ node', s.nodes node.prev = some node' → node'.size = allocatorBlockSize) ∨
        ∀ n node', s.nodes n = some node' → node'.size = 0) := by
  have prev : s.prev current = some node.prev := by rw [Allocator.prev, here, Option.map_some]
  rcases List.eq_nil_or_concat' full with rfl | ⟨front, n, rfl⟩
  · have empties : ∀ n node', s.nodes n = some node' → node'.size = 0 := fun n node' found => by
      have listed := (shaped.listed n).mp (Option.isSome_of_mem found)
      rcases List.mem_cons.mp listed with rfl | listed
      · rw [here, Option.some.injEq] at found
        exact found ▸ nothing
      · exact shaped.empty n listed node' found
    obtain ⟨-, -, last⟩ := shaped.ring.open prev
    obtain ⟨front, split⟩ := List.getLast?_eq_some_iff.mp last
    have rotated : ([] ++ node.prev :: front).IsRotated ([] ++ current :: empty) := by
      rw [List.nil_append, List.nil_append, split]
      exact List.isRotated_append (l := [node.prev])
    exact ⟨[], front, shaped.moved rotated nofun fun n _ => empties n,
      (stack_of_empty empties).trans (stack_of_empty empties).symm, .inr empties⟩
  · have split : front ++ [n] ++ current :: empty = front ++ n :: current :: empty := by simp
    have ring := shaped.ring
    rw [split] at ring
    obtain rfl : n = node.prev := Option.some.inj (ring.joined.2.symm.trans prev)
    have fulls := shaped.full
    refine ⟨front, current :: empty, shaped.moved (split ▸ .refl _)
      (fun n listed => fulls n (List.mem_append_left _ listed)) (fun n listed node' found => ?_),
      by rw [stack_concat, held_of_empty here nothing, List.reverse_nil, List.nil_append],
      .inl (fulls _ (by simp))⟩
    rcases List.mem_cons.mp listed with rfl | listed
    · rw [here, Option.some.injEq] at found
      exact found ▸ nothing
    · exact shaped.empty n listed node' found

/-- Where the current node is full, the one after it is empty, or the whole pool is full. -/
theorem Allocator.Shaped.forward (shaped : Shaped s full current empty)
    (here : s.nodes current = some node) (whole : node.size = allocatorBlockSize) :
    (∃ rest, empty = node.next :: rest ∧
        Shaped { s with buffer := some node.next } (full ++ [current]) node.next rest) ∨
      empty = [] ∧ ∃ rest, full ++ [current] = node.next :: rest ∧
        ∀ n ∈ full ++ [current], ∀ node', s.nodes n = some node' →
          node'.size = allocatorBlockSize := by
  have next : s.next current = some node.next := by rw [Allocator.next, here, Option.map_some]
  have fulls : ∀ n ∈ full ++ [current], ∀ node', s.nodes n = some node' →
    node'.size = allocatorBlockSize := by
    intro n listed node' found
    rcases List.mem_append.mp listed with listed | same
    · exact shaped.full n listed node' found
    · rw [List.mem_singleton.mp same, here, Option.some.injEq] at found
      exact found ▸ whole
  cases empty with
  | nil =>
    obtain ⟨first, rest, split⟩ := List.exists_cons_of_ne_nil
      (List.append_ne_nil_of_right_ne_nil full (List.cons_ne_nil current []))
    have ring := shaped.ring
    rw [split] at ring
    obtain rfl : first = node.next :=
      Option.some.inj ((ring.closed (b := current) (by rw [← split, List.getLast?_concat])).1.symm.trans next)
    exact .inr ⟨rfl, rest, split, fulls⟩
  | cons n rest =>
    obtain rfl : n = node.next := Option.some.inj (shaped.ring.joined.1.symm.trans next)
    refine .inl ⟨rest, rfl, shaped.moved ?_ fulls fun n listed => shaped.empty n (.tail _ listed)⟩
    rw [List.append_assoc, List.singleton_append]

/-- The writes of `insertNode`: the new node, and the links of its neighbours. -/
theorem insertNode_writes {first : AllocatorNode} (buffer : s.buffer = some n)
    (here : s.nodes n = some first) (before : (s.nodes first.prev).isSome) (old : n ≠ s.nextNode)
    (old' : first.prev ≠ s.nextNode) :
    Ensures (insertNode s) (fun _ s' => s'.buffer = some s.nextNode ∧ s'.nextNode = s.nextNode + 1 ∧
      s'.nextObj = s.nextObj ∧
      s'.next = Function.update (Function.update s.next s.nextNode (some n)) first.prev (some s.nextNode) ∧
      s'.prev = Function.update (Function.update s.prev s.nextNode (some first.prev)) n (some s.nextNode) ∧
      s'.load = Function.update s.load s.nextNode (some (0, fun _ => 0))) fun _ => False := by
  have malloc : mallocNode s = .ok (s.nextNode, { s with nextNode := s.nextNode + 1 }) := rfl
  rw [insertNode, run_bind_ok (run_readBuffer buffer), run_bind_ok (run_readNode here),
    run_bind_ok malloc, run_modify]
  generalize new : Allocator.setNode s.nextNode _ { s with nextNode := s.nextNode + 1 } = s₁
  have still : s₁.nodes n = some first := by
    rw [← new, setNode_nodes_ne old]
    exact here
  rw [run_bind_ok (run_modifyNode still)]
  generalize linked : s₁.setNode n { first with prev := s.nextNode } = s₂
  obtain ⟨last, there⟩ : ∃ last, s₂.nodes first.prev = some last := by
    rw [← Option.isSome_iff_exists, ← linked, setNode_isSome (Option.isSome_of_mem still), ← new,
      setNode_nodes_ne old']
    exact before
  rw [run_bind_ok (run_modifyNode there)]
  -- each of the three nodes changes one link at most of what was there before
  have next₂ : s₂.next = s₁.next := linked ▸ setNode_next still rfl
  have prev₂ : s₂.prev = Function.update s₁.prev n (some s.nextNode) := linked ▸ prev_setNode
  have load₂ : s₂.load = s₁.load := linked ▸ setNode_load still rfl rfl
  have next₁ : s₁.next = Function.update s.next s.nextNode (some n) := new ▸ next_setNode
  have prev₁ : s₁.prev = Function.update s.prev s.nextNode (some first.prev) := new ▸ prev_setNode
  have load₁ : s₁.load = Function.update s.load s.nextNode (some (0, fun _ => 0)) :=
    new ▸ load_setNode
  refine ⟨rfl, ?_, ?_, ?_, ?_, ?_⟩
  · subst linked new
    rfl
  · subst linked new
    rfl
  · rw [← next₁, ← next₂]
    exact next_setNode
  · rw [← prev₁, ← prev₂]
    exact setNode_prev there rfl
  · rw [← load₁, ← load₂]
    exact setNode_load there rfl rfl

theorem insertNode_ensures {rest : List Nat} (shaped : Shaped s full current [])
    (whole : ∀ n ∈ full ++ [current], ∀ node, s.nodes n = some node → node.size = allocatorBlockSize)
    (split : full ++ [current] = n :: rest) :
    Ensures (insertNode { s with buffer := some n }) (fun _ s' => ∃ m node,
      Shaped s' (full ++ [current]) m [] ∧ s'.nodes m = some node ∧ node.size = 0 ∧
      s'.nextObj = s.nextObj ∧ (∀ m ∈ full ++ [current], s'.held m = s.held m)) fun _ => False := by
  have ring := shaped.ring
  rw [split] at ring
  have listed : ∀ m, (s.nodes m).isSome ↔ m ∈ n :: rest := fun m => split ▸ shaped.listed m
  obtain ⟨first, here⟩ : ∃ first, s.nodes n = some first :=
    Option.isSome_iff_exists.mp ((listed n).mpr (.head _))
  have before : s.prev n = some first.prev := by rw [Allocator.prev, here, Option.map_some]
  have old : ∀ m ∈ n :: rest, m ≠ s.nextNode := fun m there =>
    Nat.ne_of_lt (shaped.below m ((listed m).mpr there))
  have ends : first.prev ∈ n :: rest := List.mem_of_getLast? (ring.open before).2.2
  refine (insertNode_writes (s := { s with buffer := some n }) rfl here ((listed _).mpr ends) (old n (.head _))
    (old _ ends)).mono (fun _ s' ⟨buffer, count, objs, next, prev, load⟩ => ?_) fun _ => id
  have loadNew : s'.load s.nextNode = some (0, fun _ => 0) := by rw [load, Function.update_self]
  have same : ∀ m, m ≠ s.nextNode → s'.load m = s.load m := fun m other => by
    rw [load, Function.update_of_ne other]
    rfl
  obtain ⟨node, new, size⟩ : ∃ node, s'.nodes s.nextNode = some node ∧ node.size = 0 := by
    obtain ⟨node, new, equal⟩ := Option.map_eq_some_iff.mp loadNew
    exact ⟨node, new, congrArg Prod.fst equal⟩
  have sizes : ∀ m node', s'.nodes m = some node' → m ≠ s.nextNode →
      ∃ node, s.nodes m = some node ∧ node.size = node'.size := fun m node' found other =>
    of_load (same m other) found
  have there : ∀ m, (s'.nodes m).isSome ↔ m = s.nextNode ∨ m ∈ full ++ [current] := fun m => by
    by_cases other : m = s.nextNode
    · simp [other, new]
    · rw [← load_isSome, same m other, load_isSome, shaped.listed]
      simp [other]
  refine ⟨s.nextNode, node, ⟨buffer, ?_, ?_, ?_, ?_, ?_, nofun⟩, new, size, objs,
    fun m there => held_of_load (same m (old m (split ▸ there)))⟩
  · rw [split, Ring.linked_append_comm]
    refine ring.link before (fun listed => old _ listed rfl) ?_ ?_ ?_ ?_ ?_ ?_
    · rw [next, Function.update_of_ne (old _ ends).symm, Function.update_self]
    · rw [prev, Function.update_of_ne (old n (.head _)).symm, Function.update_self]
    · rw [prev, Function.update_self]
    · rw [next, Function.update_self]
    · intro m other other'
      rw [next, Function.update_of_ne other', Function.update_of_ne other]
      rfl
    · intro m other other'
      rw [prev, Function.update_of_ne other', Function.update_of_ne other]
      rfl
  · intro m
    rw [there, or_comm, ← List.mem_singleton (a := m) (b := s.nextNode)]
    exact List.mem_append.symm
  · intro m here'
    rw [count]
    rcases (there m).mp here' with rfl | listed
    · exact Nat.lt_succ_self _
    · exact Nat.lt_succ_of_lt (shaped.below m ((shaped.listed m).mpr listed))
  · intro m node' found
    by_cases other : m = s.nextNode
    · subst other
      rw [new, Option.some.injEq] at found
      rw [← found, size]
      exact Nat.zero_le _
    · obtain ⟨node, found', equal⟩ := sizes m node' found other
      exact equal ▸ shaped.bounded m node found'
  · intro m there node' found
    obtain ⟨node, found', equal⟩ := sizes m node' found (old m (split ▸ there))
    exact equal ▸ whole m there node found'

theorem findRoom_ensures (shaped : Shaped s full current empty) :
    Ensures (findRoom s) (fun _ s' => ∃ full' current' empty' node, Shaped s' full' current' empty' ∧
      s'.nodes current' = some node ∧ node.size < allocatorBlockSize ∧ s'.nextObj = s.nextObj ∧
      s'.stack full' current' = s.stack full current) fun _ => False := by
  obtain ⟨node, here⟩ := shaped.node
  rw [findRoom, run_bind_ok (run_readBuffer shaped.buffer), run_bind_ok (run_readNode here)]
  by_cases whole : node.size = allocatorBlockSize
  · rw [if_pos whole, setBuffer, run_modify]
    rcases shaped.forward here whole with ⟨rest, rfl, moved⟩ | ⟨rfl, rest, split, fulls⟩
    · obtain ⟨next, there⟩ := moved.node
      have nothing : next.size = 0 := shaped.empty _ (.head _) next there
      rw [run_bind_ok (run_readNode there), if_neg (by rw [nothing]; decide)]
      refine ⟨full ++ [current], node.next, rest, next, moved, there,
        by rw [nothing]; decide, rfl, ?_⟩
      rw [stack_concat, held_of_empty there nothing]
      rfl
    · obtain ⟨next, there⟩ : ∃ next, s.nodes node.next = some next :=
        Option.isSome_iff_exists.mp ((shaped.listed _).mpr (split ▸ .head _))
      rw [run_bind_ok (run_readNode (s := { s with buffer := some node.next }) there),
        if_pos (fulls _ (split ▸ .head _) next there)]
      refine (insertNode_ensures shaped fulls split).mono
        (fun _ s' ⟨m, new, shaped', there', nothing, objs, held⟩ => ?_) fun _ => id
      refine ⟨full ++ [current], m, [], new, shaped', there', by rw [nothing]; decide, objs, ?_⟩
      rw [stack_concat, held_of_empty there' nothing]
      exact stack_congr held
  · rw [if_neg whole]
    have fits := shaped.bounded current node here
    exact ⟨full, current, empty, node, shaped, here, by omega, rfl, rfl⟩

theorem run_fill {objs k : Nat} (here : s.nodes n = some node) (fits : k ≤ allocatorBlockSize) :
    forM (List.range k) (fillEntry n objs) s =
      .ok (⟨⟩, s.setNode n { node with objs := fun i => if i < k then objs + i else node.objs i }) := by
  induction k with
  | zero =>
    simp only [List.range_zero, Nat.not_lt_zero, if_false]
    have same : s.setNode n node = s := by rw [setNode, Function.update_eq_self_iff.mpr here.symm]
    rw [same]
    rfl
  | succ k ih =>
    have filled : Function.update (fun i => if i < k then objs + i else node.objs i) k (objs + k) =
        fun i => if i < k + 1 then objs + i else node.objs i := by
      funext i
      by_cases last : i = k
      · simp [last]
      · rw [Function.update_of_ne last]
        exact if_congr (by omega) rfl rfl
    rw [List.range_succ, List.forM_append, run_bind_ok (ih (by omega)), List.forM_cons,
      fillEntry, bind_assoc, run_bind_ok (run_checkIndex (by omega)),
      run_bind_ok (run_modifyNode setNode_nodes_self), setNode_setNode, filled]
    rfl

theorem refill_ensures {step : Nat} (shaped : Shaped s full current empty)
    (here : s.nodes current = some node) (nothing : node.size = 0) (positive : 0 < step)
    (fits : step ≤ allocatorBlockSize) :
    Ensures (refill step current s) (fun _ s' => ∃ node', Shaped s' full current empty ∧
      s'.nodes current = some node' ∧ 0 < node'.size ∧ s'.nextObj = s.nextObj + step ∧
      s'.stack full current = freshObjs s.nextObj step ++ s.stack full current) fun _ => False := by
  have malloc : mallocObjs step s = .ok (s.nextObj, { s with nextObj := s.nextObj + step }) := rfl
  rw [refill, run_bind_ok malloc,
    run_bind_ok (run_fill (s := { s with nextObj := s.nextObj + step }) here fits),
    run_modifyNode setNode_nodes_self, setNode_setNode]
  have same : Shaped { s with nextObj := s.nextObj + step } full current empty :=
    ⟨shaped.buffer, shaped.ring, shaped.listed, shaped.below, shaped.bounded, shaped.full,
      shaped.empty⟩
  refine ⟨_, same.setNode here rfl rfl fits, setNode_nodes_self, positive, rfl, ?_⟩
  · have filled : (List.range step).map (fun i => if i < step then s.nextObj + i else node.objs i) =
        (List.range step).map (s.nextObj + ·) :=
      List.map_congr_left fun i below => if_pos (List.mem_range.mp below)
    rw [same.stack_setNode, Shaped.stack_eq here, AllocatorNode.stored_of_empty nothing,
      AllocatorNode.stored, filled, reverse_freshObjs]
    rfl

/-- `type_alloc` finds a node with an object. It asks for new ones only where none is left. -/
theorem findObj_ensures {step : Nat} (shaped : Shaped s full current empty) (positive : 0 < step)
    (fits : step ≤ allocatorBlockSize) :
    Ensures (findObj step s) (fun _ s' => ∃ full' current' empty' node,
      Shaped s' full' current' empty' ∧ s'.nodes current' = some node ∧ 0 < node.size ∧
      (s'.nextObj = s.nextObj ∧ s'.stack full' current' = s.stack full current ∨
        s.stack full current = [] ∧ s'.nextObj = s.nextObj + step ∧
          s'.stack full' current' = freshObjs s.nextObj step)) fun _ => False := by
  obtain ⟨node, here⟩ := shaped.node
  rw [findObj, run_bind_ok (run_readBuffer shaped.buffer), run_bind_ok (run_readNode here)]
  by_cases nothing : node.size = 0
  · rw [if_pos nothing, setBuffer, run_modify]
    obtain ⟨full', empty', moved, same, sizes⟩ := shaped.back here nothing
    obtain ⟨before, there⟩ := moved.node
    rw [run_bind_ok (run_readBuffer moved.buffer), run_bind_ok (run_readNode there)]
    by_cases nothing' : before.size = 0
    · rw [if_pos nothing']
      have empties : ∀ n node, s.nodes n = some node → node.size = 0 := by
        rcases sizes with whole | empties
        · have := (whole before there).symm.trans nothing'
          cases this
        · exact empties
      refine (refill_ensures moved there nothing' positive fits).mono
        (fun _ s' ⟨node', shaped', here', some_, count, new⟩ => ?_) fun _ => id
      have bare : stack { s with buffer := some node.prev } full' node.prev = [] :=
        stack_of_empty empties
      rw [bare, List.append_nil] at new
      exact ⟨full', node.prev, empty', node', shaped', here', some_,
        .inr ⟨stack_of_empty empties, count, new⟩⟩
    · rw [if_neg nothing']
      exact ⟨full', node.prev, empty', before, moved, there, Nat.pos_of_ne_zero nothing',
        .inl ⟨rfl, same⟩⟩
  · rw [if_neg nothing]
    exact ⟨full, current, empty, node, shaped, here, Nat.pos_of_ne_zero nothing, .inl ⟨rfl, rfl⟩⟩

theorem run_initBuffer (buffer : s.buffer = some n) : initBuffer s = .ok (⟨⟩, s) := by
  rw [initBuffer, run_get, if_neg (by rw [buffer]; nofun)]
  rfl

theorem initBuffer_init : ∃ s, initBuffer .init = .ok (⟨⟩, s) ∧ Shaped s [] 0 [] ∧
    s.pool [] 0 = {} := by
  refine ⟨_, rfl, ⟨rfl, ?_, fun n => ?_, fun n here => ?_, fun n node here => ?_, nofun, nofun⟩, ?_⟩
  · exact Ring.linked_single_iff.mpr ⟨rfl, rfl⟩
  · by_cases first : n = 0 <;> simp [Allocator.init, Allocator.setNode, first]
  · rcases Table.of_update (Option.isSome_iff_exists.mp here).choose_spec with ⟨rfl, -⟩ | ⟨-, none⟩
    · exact Nat.zero_lt_one
    · cases none
  · rcases Table.of_update here with ⟨-, same⟩ | ⟨-, none⟩
    · cases same
      exact Nat.zero_le _
    · cases none
  · rfl

theorem allocObj_ensures {step : Nat} (shaped : Shaped s full current empty) (positive : 0 < step)
    (fits : step ≤ allocatorBlockSize) :
    Ensures ((findObj step >>= fun _ => takeObj) s) (fun obj s' => ∃ full' current' empty',
      Shaped s' full' current' empty' ∧
      (s.pool full current).alloc step = (obj, s'.pool full' current')) fun _ => False := by
  rw [ensures_bind]
  refine (findObj_ensures shaped positive fits).mono
    (fun _ s₁ ⟨full', current', empty', node, shaped₁, here, some_, found⟩ => ?_) fun _ => id
  refine (takeObj_ensures shaped₁ here some_).mono (fun obj s' ⟨shaped', count, taken⟩ => ?_) fun _ => id
  refine ⟨full', current', empty', shaped', ?_⟩
  rcases found with ⟨count₁, same⟩ | ⟨nothing, count₁, new⟩
  · rw [taken] at same
    simp [pool, Pool.alloc, ← same, count, count₁]
  · rw [taken] at new
    obtain ⟨k, rfl⟩ := Nat.exists_eq_succ_of_ne_zero (Nat.ne_of_gt positive)
    obtain ⟨rfl, rest⟩ := List.cons.inj new
    simp [pool, Pool.alloc, nothing, rest, count, count₁]

end Steps

/-- The states of a pool after calls that only free what is outstanding. -/
inductive Allocator.Uses (size : Nat) : Allocator → List Nat → Prop where
  | init : Uses size .init []
  | alloc {s s' : Allocator} {outstanding : List Nat} {obj : Nat} : Uses size s outstanding →
      typeAlloc (allocStep size) s = .ok (obj, s') → Uses size s' (obj :: outstanding)
  | free {s s' : Allocator} {outstanding : List Nat} {obj : Nat} : Uses size s outstanding →
      obj ∈ outstanding → typeFree obj s = .ok (⟨⟩, s') → Uses size s' (outstanding.erase obj)

open Allocator

/-- Either no call has been made, or the nodes have their shape, and every object that `malloc` has
ever returned is in one node or outstanding, and that once. -/
def Allocator.Pooled (s : Allocator) (outstanding : List Nat) : Prop :=
  s = .init ∧ outstanding = [] ∨ ∃ full current empty, Shaped s full current empty ∧
    s.stock (full ++ current :: empty : List Nat) + (outstanding : Multiset Nat) =
      Multiset.range s.nextObj

def Allocator.Stacked (s : Allocator) (pool : Pool) : Prop :=
  s = .init ∧ pool = {} ∨ ∃ full current empty, Shaped s full current empty ∧
    s.pool full current = pool

section Stacked
variable {s : Allocator} {pool : Pool} {outstanding : List Nat} {step obj : Nat}

/-- `type_alloc` takes the object on top of the stack: the one freed last, if there is one. -/
theorem typeAlloc_stack (stacked : s.Stacked pool) (positive : 0 < step)
    (fits : step ≤ allocatorBlockSize) :
    Ensures (typeAlloc step s) (fun obj s' => ∃ pool', pool.alloc step = (obj, pool') ∧
      s'.Stacked pool') fun _ => False := by
  obtain ⟨s₁, full, current, empty, ran, shaped, same⟩ : ∃ s₁ full current empty,
      initBuffer s = .ok (⟨⟩, s₁) ∧ Shaped s₁ full current empty ∧ s₁.pool full current = pool := by
    rcases stacked with ⟨rfl, rfl⟩ | ⟨full, current, empty, shaped, same⟩
    · obtain ⟨s₁, ran, shaped, same⟩ := initBuffer_init
      exact ⟨s₁, [], 0, [], ran, shaped, same⟩
    · exact ⟨s, full, current, empty, run_initBuffer shaped.buffer, shaped, same⟩
  rw [typeAlloc, run_bind_ok ran]
  refine (allocObj_ensures shaped positive fits).mono
    (fun obj s' ⟨full', current', empty', shaped', taken⟩ => ?_) fun _ => id
  exact ⟨_, same ▸ taken, .inr ⟨full', current', empty', shaped', rfl⟩⟩

theorem typeFree_stack (stacked : s.Stacked pool) (used : pool.fresh ≠ 0) :
    Ensures (typeFree obj s) (fun _ s' => s'.Stacked (pool.free obj)) fun _ => False := by
  rcases stacked with ⟨-, rfl⟩ | ⟨full, current, empty, shaped, rfl⟩
  · exact absurd rfl used
  rw [typeFree, ensures_bind]
  refine (findRoom_ensures shaped).mono
    (fun _ s₁ ⟨full', current', empty', node, shaped₁, here, room, count, same⟩ => ?_) fun _ => id
  refine (putObj_ensures shaped₁ here room).mono (fun _ s' ⟨shaped', count', put⟩ => ?_) fun _ => id
  refine .inr ⟨full', current', empty', shaped', ?_⟩
  simp [Allocator.pool, Pool.free, count', count, put, same]

theorem Allocator.Stacked.nextObj (stacked : s.Stacked pool) : s.nextObj = pool.fresh := by
  rcases stacked with ⟨rfl, rfl⟩ | ⟨full, current, empty, shaped, rfl⟩
  · rfl
  · rfl

theorem Allocator.Stacked.empties (stacked : s.Stacked pool) (bare : pool.stack = []) (n : Nat)
    (node : AllocatorNode) (here : s.nodes n = some node) : node.size = 0 := by
  rcases stacked with ⟨rfl, rfl⟩ | ⟨full, current, empty, shaped, rfl⟩
  · cases here
  have listed := (shaped.listed n).mp (Option.isSome_of_mem here)
  rw [List.append_cons, List.mem_append] at listed
  rcases listed with listed | listed
  · have nothing := List.flatMap_eq_nil_iff.mp (List.reverse_eq_nil_iff.mp bare) n listed
    rw [held_of_some here, AllocatorNode.stored, List.map_eq_nil_iff, List.range_eq_nil] at nothing
    exact nothing
  · exact shaped.empty n listed node here

theorem Allocator.pooled_iff : s.Pooled outstanding ↔ ∃ pool, s.Stacked pool ∧
    (pool.stack : Multiset Nat) + (outstanding : Multiset Nat) = Multiset.range pool.fresh := by
  constructor
  · rintro (⟨rfl, rfl⟩ | ⟨full, current, empty, shaped, total⟩)
    · exact ⟨{}, .inl ⟨rfl, rfl⟩, rfl⟩
    · rw [shaped.stock_eq] at total
      exact ⟨_, .inr ⟨full, current, empty, shaped, rfl⟩, total⟩
  · rintro ⟨pool, ⟨rfl, rfl⟩ | ⟨full, current, empty, shaped, rfl⟩, total⟩
    · refine .inl ⟨rfl, ?_⟩
      simpa using total
    · refine .inr ⟨full, current, empty, shaped, ?_⟩
      rw [shaped.stock_eq]
      exact total

theorem Pool.alloc_total {pool' : Pool} (positive : 0 < step)
    (taken : pool.alloc step = (obj, pool'))
    (total : (pool.stack : Multiset Nat) + (outstanding : Multiset Nat) =
      Multiset.range pool.fresh) :
    (pool'.stack : Multiset Nat) + ((obj :: outstanding : List Nat) : Multiset Nat) =
        Multiset.range pool'.fresh ∧
      (pool'.fresh ≠ pool.fresh → pool.stack = []) := by
  obtain ⟨fresh, stack⟩ := pool
  cases stack with
  | cons top stack =>
    obtain ⟨rfl, rfl⟩ := Prod.mk.inj taken
    refine ⟨?_, fun more => absurd rfl more⟩
    rw [← total, ← Multiset.cons_coe, ← Multiset.cons_coe, Multiset.add_cons, Multiset.cons_add]
  | nil =>
    obtain ⟨rfl, rfl⟩ := Prod.mk.inj taken
    refine ⟨?_, fun _ => rfl⟩
    obtain ⟨k, rfl⟩ := Nat.exists_eq_succ_of_ne_zero (Nat.ne_of_gt positive)
    have block : (freshObjs fresh (k + 1) : Multiset Nat) =
        (Multiset.range (k + 1)).map (fresh + ·) := by
      rw [← reverse_freshObjs]
      exact Multiset.coe_eq_coe.mpr (List.reverse_perm _)
    rw [Multiset.range_add, ← total, ← block, Multiset.coe_nil, zero_add, ← Multiset.cons_coe,
      Multiset.add_cons, ← Multiset.cons_add, Multiset.cons_coe, add_comm]
    rfl

theorem typeAlloc_ensures (pooled : s.Pooled outstanding) (positive : 0 < step)
    (fits : step ≤ allocatorBlockSize) :
    Ensures (typeAlloc step s) (fun obj s' => s'.Pooled (obj :: outstanding) ∧
      (s'.nextObj ≠ s.nextObj → ∀ n node, s.nodes n = some node → node.size = 0)) fun _ => False := by
  obtain ⟨pool, stacked, total⟩ := pooled_iff.mp pooled
  refine (typeAlloc_stack stacked positive fits).mono (fun obj s' ⟨pool', taken, stacked'⟩ => ?_)
    fun _ => id
  obtain ⟨total', grown⟩ := Pool.alloc_total positive taken total
  refine ⟨pooled_iff.mpr ⟨pool', stacked', total'⟩, fun more => ?_⟩
  rw [stacked.nextObj, stacked'.nextObj] at more
  exact stacked.empties (grown more)

theorem typeFree_ensures (pooled : s.Pooled outstanding) (out : obj ∈ outstanding) :
    Ensures (typeFree obj s) (fun _ s' => s'.Pooled (outstanding.erase obj)) fun _ => False := by
  obtain ⟨pool, stacked, total⟩ := pooled_iff.mp pooled
  have used : pool.fresh ≠ 0 := fun none => by
    have member : obj ∈ (pool.stack : Multiset Nat) + (outstanding : Multiset Nat) :=
      Multiset.mem_add.mpr (.inr out)
    rw [total, none] at member
    cases member
  refine (typeFree_stack stacked used).mono (fun _ s' stacked' => ?_) fun _ => id
  refine pooled_iff.mpr ⟨_, stacked', ?_⟩
  rw [Pool.free, ← total, ← Multiset.cons_coe, Multiset.cons_add, ← Multiset.add_cons,
    ← Multiset.coe_erase, Multiset.cons_erase (Multiset.mem_coe.mpr out)]

end Stacked

theorem Allocator.Uses.pooled {size : Nat} (positive : 0 < size) {s : Allocator}
    {outstanding : List Nat} (uses : Uses size s outstanding) : s.Pooled outstanding := by
  obtain ⟨some_, fits⟩ := allocStep_bounds positive
  induction uses with
  | init => exact .inl ⟨rfl, rfl⟩
  | alloc _ ran ih => exact ((typeAlloc_ensures ih some_ fits).of_ok ran).1
  | free _ out ran ih => exact (typeFree_ensures ih out).of_ok ran

theorem Allocator.Pooled.nodup {s : Allocator} {outstanding : List Nat}
    (pooled : s.Pooled outstanding) : outstanding.Nodup := by
  rcases pooled with ⟨-, rfl⟩ | ⟨full, current, empty, -, total⟩
  · exact List.nodup_nil
  · have distinct := Multiset.nodup_range s.nextObj
    rw [← total] at distinct
    exact Multiset.coe_nodup.mp (Multiset.nodup_add.mp distinct).2.1

theorem typeAlloc_returns {s : Allocator} {outstanding : List Nat} {step : Nat}
    (pooled : s.Pooled outstanding) (bounds : 0 < step ∧ step ≤ allocatorBlockSize) :
    ∃ obj s', typeAlloc step s = .ok (obj, s') ∧ obj ∉ outstanding ∧
      s'.Pooled (obj :: outstanding) ∧
      (s'.nextObj ≠ s.nextObj → ∀ n node, s.nodes n = some node → node.size = 0) := by
  obtain ⟨obj, s', ran, pooled', empties⟩ := (typeAlloc_ensures pooled bounds.1 bounds.2).returns
  exact ⟨obj, s', ran, (List.nodup_cons.mp pooled'.nodup).1, pooled', empties⟩

theorem typeFree_returns {s : Allocator} {outstanding : List Nat} {obj : Nat}
    (pooled : s.Pooled outstanding) (out : obj ∈ outstanding) :
    ∃ s', typeFree obj s = .ok (⟨⟩, s') ∧ s'.Pooled (outstanding.erase obj) := by
  obtain ⟨_, s', ran, pooled'⟩ := (typeFree_ensures pooled out).returns
  exact ⟨s', ran, pooled'⟩

/-- No object is handed out twice, none is lost, and `malloc` is called for more only where none is
left. -/
theorem pool_exact {size : Nat} (positive : 0 < size) {s : Allocator} {outstanding : List Nat}
    (uses : Uses size s outstanding) :
    s.Pooled outstanding ∧
      (∃ obj s', typeAlloc (allocStep size) s = .ok (obj, s') ∧ obj ∉ outstanding ∧
        (s'.nextObj ≠ s.nextObj → ∀ n node, s.nodes n = some node → node.size = 0)) ∧
      ∀ obj ∈ outstanding, ∃ s', typeFree obj s = .ok (⟨⟩, s') := by
  have pooled := uses.pooled positive
  refine ⟨pooled, ?_, fun obj out => ?_⟩
  · obtain ⟨obj, s', ran, new, -, empties⟩ := typeAlloc_returns pooled (allocStep_bounds positive)
    exact ⟨obj, s', ran, new, empties⟩
  · obtain ⟨s', ran, -⟩ := typeFree_returns pooled out
    exact ⟨s', ran⟩

theorem Allocator.Stacked.alloc {s : Allocator} {pool : Pool} (stacked : s.Stacked pool)
    {size obj : Nat} {pool' : Pool} (positive : 0 < size)
    (taken : pool.alloc (allocStep size) = (obj, pool')) :
    ∃ s', typeAlloc (allocStep size) s = .ok (obj, s') ∧ s'.Stacked pool' := by
  obtain ⟨some_, fits⟩ := allocStep_bounds positive
  obtain ⟨obj', s', ran, pool'', taken', stacked'⟩ := (typeAlloc_stack stacked some_ fits).returns
  obtain ⟨rfl, rfl⟩ := Prod.mk.inj (taken.symm.trans taken')
  exact ⟨s', ran, stacked'⟩

theorem Allocator.Stacked.free {s : Allocator} {pool : Pool} (stacked : s.Stacked pool)
    (used : pool.fresh ≠ 0) (obj : Nat) :
    ∃ s', typeFree obj s = .ok (⟨⟩, s') ∧ s'.Stacked (pool.free obj) := by
  obtain ⟨_, s', ran, stacked'⟩ := (typeFree_stack stacked used).returns
  exact ⟨s', ran, stacked'⟩

/-- One `malloc` brings two of these objects. Both are handed out, the first is freed and handed
out again, and the next one comes from a new block. -/
theorem pool_exact_refilled : ∃ s obj s', Uses 100000 s [1, 0] ∧ s.nextObj = 2 ∧
    typeAlloc (allocStep 100000) s = .ok (obj, s') ∧ obj ∉ [1, 0] ∧ s'.nextObj = 4 ∧
      s'.Pooled [obj, 1, 0] ∧ ∃ s'', typeFree 1 s = .ok (⟨⟩, s'') := by
  have positive : 0 < 100000 := by decide
  obtain ⟨s₁, ran₁, stacked₁⟩ := Stacked.alloc (.inl ⟨rfl, rfl⟩) positive
    (show Pool.alloc (allocStep 100000) {} = (1, ⟨2, [0]⟩) by decide)
  obtain ⟨s₂, ran₂, stacked₂⟩ := stacked₁.alloc positive
    (show Pool.alloc (allocStep 100000) ⟨2, [0]⟩ = (0, ⟨2, []⟩) by decide)
  obtain ⟨s₃, ran₃, stacked₃⟩ := stacked₂.free (by decide) 1
  obtain ⟨s, ran, stacked⟩ := stacked₃.alloc positive
    (show Pool.alloc (allocStep 100000) ⟨2, [1]⟩ = (1, ⟨2, []⟩) by decide)
  have uses : Uses 100000 s [1, 0] :=
    .alloc (.free (.alloc (.alloc .init ran₁) ran₂) (.tail _ (.head _)) ran₃) ran
  obtain ⟨pooled, ⟨obj, s', ran', new, -⟩, frees⟩ := pool_exact positive uses
  obtain ⟨s'', ran'', stacked''⟩ := stacked.alloc positive
    (show Pool.alloc (allocStep 100000) ⟨2, []⟩ = (3, ⟨4, [2]⟩) by decide)
  obtain ⟨rfl, rfl⟩ : obj = 3 ∧ s' = s'' := by simpa using ran'.symm.trans ran''
  exact ⟨s, 3, s', uses, stacked.nextObj, ran', new, stacked''.nextObj,
    (pool_exact positive (.alloc uses ran')).1, frees 1 (.head _)⟩

end Bosh
