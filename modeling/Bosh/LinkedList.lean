import Bosh.Allocator

/-! The lists of `list.h`, on a memory of cells. An iterator is the address of a cell: of a node, or
of the head that a list carries in itself. -/
namespace Bosh
open Effect

inductive ListCell where
  | head (list : Nat)
  | node (node : Nat)
  deriving DecidableEq

/-- `_list_node`; the value of a head is never written. -/
structure ListNode (ν : Type) where
  next : ListCell
  prev : ListCell
  value : Option ν

/-- The cells in use, and the pools that nodes and lists come from. -/
structure ListHeap (ν : Type) where
  cells : ListCell → Option (ListNode ν)
  nodePool : Allocator
  listPool : Allocator

/-- Three pointers of eight bytes; a `list` is its head. -/
def listNodeSize : Nat := 24

namespace ListHeap
variable {ν : Type}

def init : ListHeap ν := { cells := fun _ => none, nodePool := .init, listPool := .init }

def setCell (c : ListCell) (cell : ListNode ν) (s : ListHeap ν) : ListHeap ν :=
  { s with cells := Function.update s.cells c (some cell) }

def next (s : ListHeap ν) (c : ListCell) : Option ListCell := (s.cells c).map ListNode.next

def prev (s : ListHeap ν) (c : ListCell) : Option ListCell := (s.cells c).map ListNode.prev

def value (s : ListHeap ν) (c : ListCell) : Option ν := (s.cells c).bind ListNode.value

end ListHeap

abbrev ListProgram (ν α : Type) := Program (ListHeap ν) MemoryFault α

section Code
variable {ν : Type}

def onNodePool {α : Type} : Program Allocator MemoryFault α → ListProgram ν α :=
  part ListHeap.nodePool fun pool s => { s with nodePool := pool }

def onListPool {α : Type} : Program Allocator MemoryFault α → ListProgram ν α :=
  part ListHeap.listPool fun pool s => { s with listPool := pool }

def readCell (c : ListCell) : ListProgram ν (ListNode ν) :=
  demand (fun s => s.cells c) .useAfterFree

def modifyCell (c : ListCell) (f : ListNode ν → ListNode ν) : ListProgram ν PUnit := do
  let cell ← readCell c
  modify (ListHeap.setCell c (f cell))

def readValue (c : ListCell) : ListProgram ν ν := do
  let cell ← readCell c
  checked (cell.value.elim (.error .uninitialised) .ok)

def listNew : ListProgram ν Nat := do
  let l ← onListPool (typeAlloc (allocStep listNodeSize))
  modify (ListHeap.setCell (.head l) { next := .head l, prev := .head l, value := none })
  return l

def listEmpty (l : Nat) : ListProgram ν Bool := do
  let head ← readCell (.head l)
  return head.next = .head l

def listSingle (l : Nat) : ListProgram ν Bool := do
  let head ← readCell (.head l)
  let first ← readCell head.next
  return first.next = .head l

def listInsert (pos : ListCell) (value : ν) : ListProgram ν ListCell := do
  let node ← ListCell.node <$> onNodePool (typeAlloc (allocStep listNodeSize))
  let after ← readCell pos
  modify (ListHeap.setCell node { next := pos, prev := after.prev, value := none })
  modifyCell pos fun cell => { cell with prev := node }
  modifyCell after.prev fun cell => { cell with next := node }
  modifyCell node fun cell => { cell with value := some value }
  return node

/-- `_list_node_free`, which no head may be given to. -/
def freeCell : ListCell → ListProgram ν PUnit
  | .node n => do
    modify fun s => { s with cells := Function.update s.cells (.node n) none }
    onNodePool (typeFree n)
  | .head _ => throw .useAfterFree

def listErase (iterator : ListCell) : ListProgram ν ν := do
  let value ← readValue iterator
  let cell ← readCell iterator
  modifyCell cell.prev fun before => { before with next := cell.next }
  let cell ← readCell iterator
  modifyCell cell.next fun after => { after with prev := cell.prev }
  freeCell iterator
  return value

def listPushBack (l : Nat) (value : ν) : ListProgram ν ListCell := listInsert (.head l) value

def listPopBack (l : Nat) : ListProgram ν ν := do
  let head ← readCell (.head l)
  listErase head.prev

def listPushFront (l : Nat) (value : ν) : ListProgram ν ListCell := do
  let head ← readCell (.head l)
  listInsert head.next value

def listPopFront (l : Nat) : ListProgram ν ν := do
  let head ← readCell (.head l)
  listErase head.next

/-- `list_clear`: the values that are given to `delete_function`, in order. -/
def listClear (l : Nat) : Nat → ListProgram ν (List ν)
  | 0 => throw .diverges
  | fuel + 1 => do
    if ← listEmpty l then return []
    let value ← listPopFront l
    return value :: (← listClear l fuel)

def listFindFrom (l : Nat) (func : ν → Bool) : Nat → ListCell → ListProgram ν ListCell
  | 0, _ => throw .diverges
  | fuel + 1, it => do
    if it = .head l then return .head l
    let value ← readValue it
    if func value then return it
    let cell ← readCell it
    listFindFrom l func fuel cell.next

def listFind (fuel l : Nat) (func : ν → Bool) : ListProgram ν ListCell := do
  let head ← readCell (.head l)
  listFindFrom l func fuel head.next

/-- `list_foreach` with a body that works on the value at the iterator. -/
def listForeachFrom {σ : Type} (l : Nat) (body : ListCell → ν → σ → σ) :
    Nat → ListCell → σ → ListProgram ν σ
  | 0, _, _ => throw .diverges
  | fuel + 1, it, s => do
    if it = .head l then return s
    let value ← readValue it
    let cell ← readCell it
    listForeachFrom l body fuel cell.next (body it value s)

def listForeach {σ : Type} (fuel l : Nat) (body : ListCell → ν → σ → σ) (s : σ) :
    ListProgram ν σ := do
  let head ← readCell (.head l)
  listForeachFrom l body fuel head.next s

end Code

abbrev Sequences (ν : Type) := Nat → Option (List (Nat × ν))

section Sequences
variable {ν : Type}

def cellsOf (l : Nat) (seq : List (Nat × ν)) : List ListCell :=
  .head l :: seq.map fun p => .node p.1

/-- The iterator to the first of these elements of the list, which is its end if there is none. -/
def entry (l : Nat) (seq : List (Nat × ν)) : ListCell :=
  (seq.head?).elim (.head l) fun p => .node p.1

@[simp] theorem entry_nil (l : Nat) : entry l ([] : List (Nat × ν)) = .head l := rfl

@[simp] theorem entry_cons (l : Nat) (p : Nat × ν) (seq : List (Nat × ν)) :
    entry l (p :: seq) = .node p.1 := rfl

def ringFrom (l : Nat) (front back : List (Nat × ν)) : List ListCell :=
  back.map (fun p => .node p.1) ++ cellsOf l front

theorem ringFrom_cons (l : Nat) (front : List (Nat × ν)) (p : Nat × ν) (back : List (Nat × ν)) :
    ringFrom l front (p :: back) = .node p.1 :: ringFrom l front back := rfl

theorem exists_ringFrom (l : Nat) (front back : List (Nat × ν)) :
    ∃ rest, ringFrom l front back = entry l back :: rest := by
  cases back with
  | nil => exact ⟨_, rfl⟩
  | cons p back => exact ⟨_, rfl⟩

theorem linked_ringFrom {next prev : ListCell → Option ListCell} {l : Nat}
    {front back : List (Nat × ν)} :
    Ring.Linked next prev (ringFrom l front back : List ListCell) ↔
      Ring.Linked next prev (cellsOf l (front ++ back) : List ListCell) := by
  rw [ringFrom, Ring.linked_append_comm, cellsOf, cellsOf, List.map_append, List.cons_append]

theorem mem_cellsOf {l : Nat} {seq : List (Nat × ν)} {c : ListCell} :
    c ∈ cellsOf l seq ↔ c = .head l ∨ ∃ p ∈ seq, c = .node p.1 := by
  simp [cellsOf, eq_comm]

theorem mem_ringFrom {l : Nat} {front back : List (Nat × ν)} {c : ListCell} :
    c ∈ ringFrom l front back ↔ c ∈ cellsOf l (front ++ back) := by
  simp only [ringFrom, List.mem_append, mem_cellsOf, List.mem_map]
  constructor
  · rintro (⟨p, listed, rfl⟩ | same | ⟨p, listed, rfl⟩)
    · exact .inr ⟨p, .inr listed, rfl⟩
    · exact .inl same
    · exact .inr ⟨p, .inl listed, rfl⟩
  · rintro (same | ⟨p, listed | listed, rfl⟩)
    · exact .inr (.inl same)
    · exact .inr (.inr ⟨p, listed, rfl⟩)
    · exact .inl ⟨p, listed, rfl⟩

/-- The memory holds these lists: a ring for each, no cell in two of them, and nothing else. -/
structure Represents (s : ListHeap ν) (lists : Sequences ν) : Prop where
  ring : ∀ l seq, lists l = some seq → Ring.Linked s.next s.prev (cellsOf l seq : List ListCell)
  value : ∀ l seq, lists l = some seq → ∀ p ∈ seq, s.value (.node p.1) = some p.2
  apart : ∀ l l' seq seq' c, lists l = some seq → lists l' = some seq' →
    c ∈ cellsOf l seq → c ∈ cellsOf l' seq' → l = l'
  live : ∀ c, (s.cells c).isSome ↔ ∃ l seq, lists l = some seq ∧ c ∈ cellsOf l seq
  nodes : ∃ outstanding, s.nodePool.Pooled outstanding ∧ ∀ n, n ∈ outstanding ↔
    (s.cells (.node n)).isSome
  heads : ∃ outstanding, s.listPool.Pooled outstanding ∧ ∀ l, l ∈ outstanding ↔
    (s.cells (.head l)).isSome

end Sequences

namespace ListHeap
variable {ν : Type} {s : ListHeap ν} {c : ListCell} {cell : ListNode ν}

theorem next_setCell : (s.setCell c cell).next = Function.update s.next c (some cell.next) :=
  Function.comp_update (Option.map ListNode.next) s.cells c (some cell)

theorem prev_setCell : (s.setCell c cell).prev = Function.update s.prev c (some cell.prev) :=
  Function.comp_update (Option.map ListNode.prev) s.cells c (some cell)

theorem value_setCell : (s.setCell c cell).value = Function.update s.value c cell.value :=
  Function.comp_update (fun cell : Option (ListNode ν) => cell.bind ListNode.value) s.cells c (some cell)

theorem setCell_next {old : ListNode ν} (here : s.cells c = some old)
    (same : cell.next = old.next) :
    (s.setCell c cell).next = s.next := Table.map_update_same here same

theorem setCell_prev {old : ListNode ν} (here : s.cells c = some old)
    (same : cell.prev = old.prev) :
    (s.setCell c cell).prev = s.prev := Table.map_update_same here same

theorem setCell_value {old : ListNode ν} (here : s.cells c = some old)
    (same : cell.value = old.value) : (s.setCell c cell).value = s.value := by
  rw [value_setCell, Function.update_eq_self_iff, same, value, here, Option.bind_some]

@[simp] theorem setCell_cells_self : (s.setCell c cell).cells c = some cell :=
  Function.update_self ..

@[simp] theorem setCell_cells_ne {c' : ListCell} (other : c' ≠ c) :
    (s.setCell c cell).cells c' = s.cells c' :=
  Function.update_of_ne other ..

theorem next_isSome : (s.next c).isSome = (s.cells c).isSome := Option.isSome_map

theorem isSome_setCell {c' : ListCell} (here : (s.cells c').isSome) :
    ((s.setCell c cell).cells c').isSome :=
  Table.isSome_update here

end ListHeap

section Steps
variable {ν : Type} {s : ListHeap ν} {c : ListCell} {cell : ListNode ν}

theorem run_readCell (here : s.cells c = some cell) : readCell c s = .ok (cell, s) :=
  run_demand here

theorem run_modifyCell {f : ListNode ν → ListNode ν} (here : s.cells c = some cell) :
    modifyCell c f s = .ok (⟨⟩, s.setCell c (f cell)) := by
  rw [modifyCell, run_bind_ok (run_readCell here)]
  rfl

theorem run_nodeAlloc {n : Nat} {pool : Allocator}
    (alloc : typeAlloc (allocStep listNodeSize) s.nodePool = .ok (n, pool)) :
    onNodePool (typeAlloc (allocStep listNodeSize)) s = .ok (n, { s with nodePool := pool }) :=
  run_part alloc

open ListHeap

/-- The writes of `list_insert`: the new node, and one link of each of its neighbours. -/
theorem listInsert_writes {pos : ListCell} {after : ListNode ν} {n : Nat} {pool : Allocator}
    {value : ν} (alloc : typeAlloc (allocStep listNodeSize) s.nodePool = .ok (n, pool))
    (here : s.cells pos = some after) (before : (s.cells after.prev).isSome)
    (fresh : s.cells (.node n) = none) :
    Ensures (listInsert pos value s) (fun c s' => c = .node n ∧ s'.nodePool = pool ∧ s'.listPool = s.listPool ∧
      s'.next = Function.update (Function.update s.next (.node n) (some pos)) after.prev (some (.node n)) ∧
      s'.prev = Function.update (Function.update s.prev (.node n) (some after.prev)) pos (some (.node n)) ∧
      s'.value = Function.update s.value (.node n) (some value)) fun _ => False := by
  have old : pos ≠ .node n := by
    rintro rfl
    rw [fresh] at here
    cases here
  have old' : after.prev ≠ .node n := by
    intro same
    rw [same, fresh] at before
    cases before
  have node : (ListCell.node <$> onNodePool (typeAlloc (allocStep listNodeSize))) s =
      .ok (ListCell.node n, { s with nodePool := pool }) := by
    rw [map_eq_pure_bind, run_bind_ok (run_nodeAlloc alloc)]
    rfl
  rw [listInsert, run_bind_ok node,
    run_bind_ok (run_readCell (s := { s with nodePool := pool }) here), run_modify]
  generalize new : ListHeap.setCell (.node n) { next := pos, prev := after.prev, value := none }
    { s with nodePool := pool } = s₁
  have still : s₁.cells pos = some after := new ▸ (setCell_cells_ne old).trans here
  rw [run_bind_ok (run_modifyCell still)]
  generalize linked : s₁.setCell pos { after with prev := .node n } = s₂
  obtain ⟨last, there⟩ : ∃ last, s₂.cells after.prev = some last := by
    rw [← Option.isSome_iff_exists, ← linked, ← new]
    exact isSome_setCell (isSome_setCell before)
  rw [run_bind_ok (run_modifyCell there)]
  generalize closed : s₂.setCell after.prev { last with next := .node n } = s₃
  have cell : s₃.cells (.node n) = some { next := pos, prev := after.prev, value := none } := by
    rw [← closed, setCell_cells_ne old'.symm, ← linked, setCell_cells_ne old.symm, ← new,
      setCell_cells_self]
  rw [run_bind_ok (run_modifyCell cell)]
  have next₁ : s₁.next = Function.update s.next (.node n) (some pos) := new ▸ next_setCell
  have prev₁ : s₁.prev = Function.update s.prev (.node n) (some after.prev) := new ▸ prev_setCell
  have value₁ : s₁.value = s.value := by
    rw [← new, value_setCell]
    exact Function.update_eq_self_iff.mpr (by rw [ListHeap.value, fresh, Option.bind_none])
  have next₂ : s₂.next = s₁.next := linked ▸ setCell_next still rfl
  have prev₂ : s₂.prev = Function.update s₁.prev pos (some (.node n)) := linked ▸ prev_setCell
  have value₂ : s₂.value = s₁.value := linked ▸ setCell_value still rfl
  have next₃ : s₃.next = Function.update s₂.next after.prev (some (.node n)) :=
    closed ▸ next_setCell
  have prev₃ : s₃.prev = s₂.prev := closed ▸ setCell_prev there rfl
  have value₃ : s₃.value = s₂.value := closed ▸ setCell_value there rfl
  refine ⟨rfl, ?_, ?_, ?_, ?_, ?_⟩
  · subst closed linked new
    rfl
  · subst closed linked new
    rfl
  · rw [← next₁, ← next₂, ← next₃]
    exact setCell_next cell rfl
  · rw [← prev₁, ← prev₂, ← prev₃]
    exact setCell_prev cell rfl
  · rw [← value₁, ← value₂, ← value₃]
    exact value_setCell

/-- The writes of `list_erase`: one link of each neighbour, and the node is given back. -/
theorem listErase_writes {n : Nat} {pool : Allocator} {value : ν}
    (here : s.cells (.node n) = some cell) (valued : cell.value = some value)
    (before : (s.cells cell.prev).isSome) (after : (s.cells cell.next).isSome)
    (old : cell.prev ≠ .node n) (free : typeFree n s.nodePool = .ok (⟨⟩, pool)) :
    Ensures (listErase (.node n) s) (fun v s' => v = value ∧ s'.nodePool = pool ∧ s'.listPool = s.listPool ∧
      s'.next = Function.update (Function.update s.next cell.prev (some cell.next)) (.node n) none ∧
      s'.prev = Function.update (Function.update s.prev cell.next (some cell.prev)) (.node n) none ∧
      s'.value = Function.update s.value (.node n) none) fun _ => False := by
  have read : readValue (.node n) s = .ok (value, s) := by
    rw [readValue, run_bind_ok (run_readCell here)]
    exact run_checked (by rw [valued]; rfl)
  obtain ⟨last, there⟩ := Option.isSome_iff_exists.mp before
  rw [listErase, run_bind_ok read, run_bind_ok (run_readCell here),
    run_bind_ok (run_modifyCell there)]
  generalize linked : s.setCell cell.prev { last with next := cell.next } = s₁
  have still : s₁.cells (.node n) = some cell := linked ▸ (setCell_cells_ne old.symm).trans here
  obtain ⟨first, there'⟩ : ∃ first, s₁.cells cell.next = some first := by
    rw [← Option.isSome_iff_exists, ← linked]
    exact isSome_setCell after
  rw [run_bind_ok (run_readCell still), run_bind_ok (run_modifyCell there')]
  generalize closed : s₁.setCell cell.next { first with prev := cell.prev } = s₂
  have next₁ : s₁.next = Function.update s.next cell.prev (some cell.next) := linked ▸ next_setCell
  have prev₁ : s₁.prev = s.prev := linked ▸ setCell_prev there rfl
  have value₁ : s₁.value = s.value := linked ▸ setCell_value there rfl
  have next₂ : s₂.next = s₁.next := closed ▸ setCell_next there' rfl
  have prev₂ : s₂.prev = Function.update s₁.prev cell.next (some cell.prev) := closed ▸ prev_setCell
  have value₂ : s₂.value = s₁.value := closed ▸ setCell_value there' rfl
  have pools : s₂.nodePool = s.nodePool ∧ s₂.listPool = s.listPool := by
    subst closed linked
    exact ⟨rfl, rfl⟩
  have given : freeCell (.node n) s₂ = .ok (⟨⟩, { s₂ with
      cells := Function.update s₂.cells (.node n) none, nodePool := pool }) := by
    rw [freeCell, run_modify]
    exact run_part ((congrArg (typeFree n) pools.1).trans free)
  rw [run_bind_ok given]
  refine ⟨rfl, rfl, pools.2, ?_, ?_, ?_⟩
  · rw [← next₁, ← next₂]
    exact Function.comp_update (Option.map ListNode.next) s₂.cells (.node n) none
  · rw [← prev₁, ← prev₂]
    exact Function.comp_update (Option.map ListNode.prev) s₂.cells (.node n) none
  · rw [← value₁, ← value₂]
    exact Function.comp_update (fun cell : Option (ListNode ν) => cell.bind ListNode.value) s₂.cells (.node n) none

end Steps

namespace Represents
variable {ν : Type} {s s' : ListHeap ν} {lists : Sequences ν} {l : Nat} {seq seq' : List (Nat × ν)}

theorem cell (rep : Represents s lists) (here : lists l = some seq) {c : ListCell}
    (listed : c ∈ cellsOf l seq) : ∃ cell, s.cells c = some cell :=
  Option.isSome_iff_exists.mp ((rep.live c).mpr ⟨l, seq, here, listed⟩)

theorem other (rep : Represents s lists) {l' : Nat} (here : lists l = some seq)
    (here' : lists l' = some seq') (different : l' ≠ l) {c : ListCell}
    (listed : c ∈ cellsOf l' seq') : c ∉ cellsOf l seq := fun listed' =>
  different (rep.apart l' l seq' seq c here' here listed listed')

theorem update (rep : Represents s lists)
    (old : ∀ seq, lists l = some seq → ∀ c ∈ cellsOf l seq, c ∈ cellsOf l seq' ∨ s'.next c = none)
    (fresh : ∀ c ∈ cellsOf l seq', (∃ seq, lists l = some seq ∧ c ∈ cellsOf l seq) ∨ s.cells c = none)
    (ring : Ring.Linked s'.next s'.prev (cellsOf l seq' : List ListCell))
    (value : ∀ p ∈ seq', s'.value (.node p.1) = some p.2)
    (same : ∀ c, c ∉ cellsOf l seq' → (∀ seq, lists l = some seq → c ∉ cellsOf l seq) →
      s'.next c = s.next c ∧ s'.prev c = s.prev c ∧ s'.value c = s.value c)
    (nodes : ∃ outstanding, s'.nodePool.Pooled outstanding ∧
      ∀ n, n ∈ outstanding ↔ (s'.cells (.node n)).isSome)
    (heads : ∃ outstanding, s'.listPool.Pooled outstanding ∧
      ∀ l, l ∈ outstanding ↔ (s'.cells (.head l)).isSome) :
    Represents s' (Function.update lists l (some seq')) := by
  have elsewhere : ∀ {l' seq'' c}, l' ≠ l → lists l' = some seq'' → c ∈ cellsOf l' seq'' →
      c ∉ cellsOf l seq' ∧ ∀ seq, lists l = some seq → c ∉ cellsOf l seq := by
    intro l' seq'' c different here' listed
    have others : ∀ seq, lists l = some seq → c ∉ cellsOf l seq := fun seq here =>
      rep.other here here' different listed
    refine ⟨fun mine => ?_, others⟩
    rcases fresh c mine with ⟨seq, here, listed'⟩ | free
    · exact others seq here listed'
    · obtain ⟨cell, there⟩ := rep.cell here' listed
      rw [free] at there
      cases there
  have kept : ∀ {l' seq'' c}, l' ≠ l → lists l' = some seq'' → c ∈ cellsOf l' seq'' →
      s'.next c = s.next c ∧ s'.prev c = s.prev c ∧ s'.value c = s.value c := by
    intro l' seq'' c different here' listed
    obtain ⟨notMine, notOld⟩ := elsewhere different here' listed
    exact same c notMine notOld
  refine ⟨fun l' seq'' here' => ?_, fun l' seq'' here' p listed => ?_, ?_, fun c => ?_, nodes,
    heads⟩
  · rcases Table.of_update here' with ⟨rfl, new⟩ | ⟨different, here'⟩
    · exact Option.some.inj new ▸ ring
    · exact (rep.ring l' seq'' here').transport (fun c listed => (kept different here' listed).1)
        fun c listed => (kept different here' listed).2.1
  · rcases Table.of_update here' with ⟨rfl, new⟩ | ⟨different, here'⟩
    · exact value p (Option.some.inj new ▸ listed)
    · have cell : ListCell.node p.1 ∈ cellsOf l' seq'' := mem_cellsOf.mpr (.inr ⟨p, listed, rfl⟩)
      rw [(kept different here' cell).2.2]
      exact rep.value l' seq'' here' p listed
  · intro l₁ l₂ seq₁ seq₂ c here₁ here₂ listed₁ listed₂
    rcases Table.of_update here₁ with ⟨rfl, new₁⟩ | ⟨different₁, old₁⟩ <;>
      rcases Table.of_update here₂ with ⟨rfl, new₂⟩ | ⟨different₂, old₂⟩
    · rfl
    · exact absurd (Option.some.inj new₁ ▸ listed₁) (elsewhere different₂ old₂ listed₂).1
    · exact absurd (Option.some.inj new₂ ▸ listed₂) (elsewhere different₁ old₁ listed₁).1
    · exact rep.apart l₁ l₂ seq₁ seq₂ c old₁ old₂ listed₁ listed₂
  · rw [← ListHeap.next_isSome]
    constructor
    · intro there
      by_cases mine : c ∈ cellsOf l seq'
      · exact ⟨l, seq', Function.update_self .., mine⟩
      have notOld : ∀ seq, lists l = some seq → c ∉ cellsOf l seq := fun seq here listed => by
        rcases old seq here c listed with still | gone
        · exact mine still
        · rw [gone] at there
          cases there
      rw [(same c mine notOld).1, ListHeap.next_isSome, rep.live] at there
      obtain ⟨l', seq'', here', listed⟩ := there
      have different : l' ≠ l := by
        rintro rfl
        exact notOld seq'' here' listed
      exact ⟨l', seq'', (Function.update_of_ne different ..).trans here', listed⟩
    · rintro ⟨l', seq'', here', listed⟩
      rcases Table.of_update here' with ⟨rfl, new⟩ | ⟨different, here'⟩
      · exact ring.next_isSome (Option.some.inj new ▸ listed)
      · rw [(kept different here' listed).1, ListHeap.next_isSome, rep.live]
        exact ⟨l', seq'', here', listed⟩

end Represents

theorem represents_init {ν : Type} : Represents (.init : ListHeap ν) fun _ => none :=
  ⟨nofun, nofun, nofun, fun c => ⟨nofun, fun ⟨_, _, missing, _⟩ => by cases missing⟩,
    ⟨[], .inl ⟨rfl, rfl⟩, fun _ => ⟨nofun, nofun⟩⟩,
    ⟨[], .inl ⟨rfl, rfl⟩, fun _ => ⟨nofun, nofun⟩⟩⟩

section Operations
variable {ν : Type} {s : ListHeap ν} {lists : Sequences ν} {l : Nat}
  {seq front back : List (Nat × ν)}

theorem allocStep_listNode : 0 < allocStep listNodeSize ∧
    allocStep listNodeSize ≤ allocatorBlockSize :=
  allocStep_bounds (by decide)

theorem listInsert_ensures (rep : Represents s lists) (front back : List (Nat × ν))
    (here : lists l = some (front ++ back)) (value : ν) :
    Ensures (listInsert (entry l back) value s) (fun c s' => ∃ n, c = .node n ∧ s.cells c = none ∧
      Represents s' (Function.update lists l (some (front ++ (n, value) :: back)))) fun _ => False := by
  obtain ⟨outstanding, pooled, exact⟩ := rep.nodes
  obtain ⟨n, pool, alloc, new, pooled', -⟩ := typeAlloc_returns pooled allocStep_listNode
  have fresh : s.cells (.node n) = none := by
    rw [← Option.not_isSome_iff_eq_none, ← exact]
    exact new
  obtain ⟨rest, read⟩ := exists_ringFrom l front back
  have ring : Ring.Linked s.next s.prev (entry l back :: rest : List ListCell) := by
    rw [← read, linked_ringFrom]
    exact rep.ring l _ here
  have listed : ∀ {c}, c ∈ entry l back :: rest ↔ c ∈ cellsOf l (front ++ back) := by
    intro c
    rw [← read, mem_ringFrom]
  obtain ⟨after, there⟩ := rep.cell here (listed.mp (.head _))
  have before : s.prev (entry l back) = some after.prev := by
    rw [ListHeap.prev, there, Option.map_some]
  have ends : after.prev ∈ cellsOf l (front ++ back) :=
    listed.mp (List.mem_of_getLast? (ring.open before).2.2)
  obtain ⟨last, there'⟩ := rep.cell here ends
  have old : ∀ {c}, (s.cells c).isSome → c ≠ .node n := by
    rintro c live rfl
    rw [fresh] at live
    cases live
  have grown : ∀ {c}, c ∈ cellsOf l (front ++ (n, value) :: back) ↔ c = .node n ∨
    c ∈ cellsOf l (front ++ back) := by
    intro c
    rw [← mem_ringFrom, ringFrom_cons, List.mem_cons, mem_ringFrom]
  refine (listInsert_writes alloc there (Option.isSome_of_mem there') fresh).mono
    (fun c s' ⟨same, nodes, heads, next, prev, values⟩ => ⟨n, same, same ▸ fresh, ?_⟩) fun _ => id
  have live : ∀ c, (s'.cells c).isSome ↔ c = .node n ∨ (s.cells c).isSome := fun c => by
    rw [← ListHeap.next_isSome, ← ListHeap.next_isSome, next]
    by_cases last : c = after.prev
    · subst last
      rw [Function.update_self, ListHeap.next_isSome, there']
      simp
    · rw [Function.update_of_ne last]
      by_cases new : c = .node n
      · subst new
        simp
      · simp [new]
  refine rep.update (fun seq here' c mine => ?_) (fun c mine => ?_) ?_ (fun p mine => ?_) (fun c notMine notOld => ?_)
    ⟨n :: outstanding, nodes ▸ pooled', fun m => ?_⟩ ?_
  · cases here.symm.trans here'
    exact .inl (grown.mpr (.inr mine))
  · rcases grown.mp mine with rfl | mine
    · exact .inr fresh
    · exact .inl ⟨_, here, mine⟩
  · rw [← linked_ringFrom, ringFrom_cons, read]
    refine ring.link before (fun mine => ?_) ?_ ?_ ?_ ?_ (fun c other other' => ?_) fun c other other' => ?_
    · obtain ⟨cell, live⟩ := rep.cell here (listed.mp mine)
      exact old (Option.isSome_of_mem live) rfl
    · rw [next, Function.update_of_ne (old (Option.isSome_of_mem there')).symm,
        Function.update_self]
    · rw [prev, Function.update_of_ne (old (Option.isSome_of_mem there)).symm, Function.update_self]
    · rw [prev, Function.update_self]
    · rw [next, Function.update_self]
    · rw [next, Function.update_of_ne other', Function.update_of_ne other]
    · rw [prev, Function.update_of_ne other', Function.update_of_ne other]
  · rw [values]
    rcases List.mem_cons.mp (List.perm_middle.mem_iff.mp mine) with rfl | mine
    · rw [Function.update_self]
    · obtain ⟨cell, live⟩ := rep.cell here (mem_cellsOf.mpr (.inr ⟨p, mine, rfl⟩))
      rw [Function.update_of_ne (old (Option.isSome_of_mem live))]
      exact rep.value l _ here p mine
  · rw [grown, not_or] at notMine
    have notLast : c ≠ after.prev := fun same => notMine.2 (same ▸ ends)
    have notPos : c ≠ entry l back := fun same => notMine.2 (same ▸ listed.mp (.head _))
    rw [next, prev, values, Function.update_of_ne notLast, Function.update_of_ne notMine.1,
      Function.update_of_ne notPos, Function.update_of_ne notMine.1, Function.update_of_ne notMine.1]
    exact ⟨rfl, rfl, rfl⟩
  · rw [live, List.mem_cons, exact, ListCell.node.injEq]
  · rw [heads]
    obtain ⟨outstanding, pooled, exact⟩ := rep.heads
    exact ⟨outstanding, pooled, fun l => by rw [live, exact]; simp⟩

theorem listErase_ensures (rep : Represents s lists) {n : Nat} {value : ν}
    (front back : List (Nat × ν)) (here : lists l = some (front ++ (n, value) :: back)) :
    Ensures (listErase (.node n) s) (fun v s' => v = value ∧
      Represents s' (Function.update lists l (some (front ++ back)))) fun _ => False := by
  obtain ⟨outstanding, pooled, exact⟩ := rep.nodes
  obtain ⟨rest, read⟩ := exists_ringFrom l front back
  have ring : Ring.Linked s.next s.prev (.node n :: entry l back :: rest : List ListCell) := by
    rw [← read, ← ringFrom_cons l front (n, value), linked_ringFrom]
    exact rep.ring l _ here
  have listed : ∀ {c}, c ∈ entry l back :: rest ↔ c ∈ cellsOf l (front ++ back) := by
    intro c
    rw [← read, mem_ringFrom]
  have shrunk : ∀ {c}, c ∈ cellsOf l (front ++ (n, value) :: back) ↔ c = .node n ∨
    c ∈ cellsOf l (front ++ back) := by
    intro c
    rw [← mem_ringFrom, ringFrom_cons, List.mem_cons, mem_ringFrom]
  obtain ⟨cell, there⟩ := rep.cell here (shrunk.mpr (.inl rfl))
  have before : s.prev (.node n) = some cell.prev := by rw [ListHeap.prev, there, Option.map_some]
  have after : cell.next = entry l back := by
    have joined := ring.first.1
    rw [ListHeap.next, there, Option.map_some] at joined
    exact Option.some.inj joined
  obtain ⟨nodup, -, last⟩ := ring.open before
  rw [List.getLast?_cons_cons] at last
  have ends : cell.prev ∈ entry l back :: rest := List.mem_of_getLast? last
  have others : ∀ c ∈ entry l back :: rest, c ≠ .node n :=
    fun c mine => Ring.ne_of_mem_tail nodup mine
  have valued : cell.value = some value := by
    have value := rep.value l _ here (n, value) (by simp)
    rwa [ListHeap.value, there, Option.bind_some] at value
  obtain ⟨pool, free, pooled'⟩ :=
    typeFree_returns pooled ((exact n).mpr (Option.isSome_of_mem there))
  obtain ⟨_, there'⟩ := rep.cell here (shrunk.mpr (.inr (listed.mp ends)))
  obtain ⟨_, there''⟩ := rep.cell here (shrunk.mpr (.inr (listed.mp (.head _))))
  refine (listErase_writes there valued (Option.isSome_of_mem there') (after ▸ Option.isSome_of_mem there'')
    (others _ ends) free).mono (fun v s' ⟨same, nodes, heads, next, prev, values⟩ =>
      ⟨same, ?_⟩) fun _ => id
  rw [after] at next prev
  have live : ∀ c, (s'.cells c).isSome ↔ c ≠ .node n ∧ (s.cells c).isSome := fun c => by
    rw [← ListHeap.next_isSome, ← ListHeap.next_isSome, next]
    by_cases gone : c = .node n
    · subst gone
      simp
    · rw [Function.update_of_ne gone]
      by_cases last : c = cell.prev
      · subst last
        rw [Function.update_self, ListHeap.next_isSome, there']
        simp [gone]
      · simp [last, gone]
  refine rep.update (fun seq here' c mine => ?_) (fun c mine => .inl ⟨_, here, shrunk.mpr (.inr mine)⟩) ?_
    (fun p mine => ?_) (fun c notMine notOld => ?_) ⟨outstanding.erase n, nodes ▸ pooled',
      fun m => ?_⟩ ?_
  · cases here.symm.trans here'
    rcases shrunk.mp mine with rfl | mine
    · exact .inr (by rw [next, Function.update_self])
    · exact .inl mine
  · rw [← linked_ringFrom, read]
    refine ring.unlink before ?_ ?_ (fun c other other' => ?_) fun c other other' => ?_
    · rw [next, Function.update_of_ne (others _ ends), Function.update_self]
    · rw [prev, Function.update_of_ne (others _ (.head _)), Function.update_self]
    · rw [next, Function.update_of_ne other, Function.update_of_ne other']
    · rw [prev, Function.update_of_ne other, Function.update_of_ne other']
  · rw [values, Function.update_of_ne (others _ (listed.mpr (mem_cellsOf.mpr (.inr ⟨p, mine, rfl⟩))))]
    exact rep.value l _ here p (List.perm_middle.mem_iff.mpr (.tail _ mine))
  · have notNode : c ≠ .node n := fun same => notOld _ here (shrunk.mpr (.inl same))
    have notLast : c ≠ cell.prev := fun same => notMine (listed.mp (same ▸ ends))
    have notNext : c ≠ entry l back := fun same => notMine (listed.mp (same ▸ .head _))
    rw [next, prev, values, Function.update_of_ne notNode, Function.update_of_ne notLast,
      Function.update_of_ne notNode, Function.update_of_ne notNext, Function.update_of_ne notNode]
    exact ⟨rfl, rfl, rfl⟩
  · rw [live, pooled.nodup.mem_erase_iff, exact, ne_eq, ne_eq, ListCell.node.injEq]
  · rw [heads]
    obtain ⟨outstanding, pooled, exact⟩ := rep.heads
    exact ⟨outstanding, pooled, fun l => by rw [live, exact]; simp⟩

theorem listNew_ensures (rep : Represents s lists) :
    Ensures (listNew s) (fun l s' => lists l = none ∧
      Represents s' (Function.update lists l (some []))) fun _ => False := by
  obtain ⟨outstanding, pooled, exact⟩ := rep.heads
  obtain ⟨l, pool, alloc, new, pooled', -⟩ := typeAlloc_returns pooled allocStep_listNode
  have fresh : s.cells (.head l) = none := by
    rw [← Option.not_isSome_iff_eq_none, ← exact]
    exact new
  have missing : lists l = none := by
    refine Option.eq_none_iff_forall_ne_some.mpr fun seq here => ?_
    obtain ⟨cell, there⟩ := rep.cell here (.head _)
    rw [fresh] at there
    cases there
  have none_ : ∀ seq, lists l ≠ some seq := fun seq here => by
    rw [missing] at here
    cases here
  have ran : onListPool (typeAlloc (allocStep listNodeSize)) s =
    .ok (l, { s with listPool := pool }) :=
    run_part alloc
  rw [listNew, run_bind_ok ran, run_modify]
  refine ⟨missing, rep.update (fun seq here => absurd here (none_ seq)) (fun c mine => ?_) ?_ nofun
    (fun c notMine _ => ?_) ?_ ⟨l :: outstanding, pooled', fun m => ?_⟩⟩
  · rw [cellsOf, List.map_nil, List.mem_singleton] at mine
    exact .inr (mine ▸ fresh)
  · rw [cellsOf, List.map_nil, Ring.linked_single_iff, ListHeap.next_setCell, ListHeap.prev_setCell]
    exact ⟨Function.update_self .., Function.update_self ..⟩
  · have other : c ≠ .head l := fun same => notMine (same ▸ .head _)
    rw [ListHeap.next_setCell, ListHeap.prev_setCell, ListHeap.value_setCell,
      Function.update_of_ne other, Function.update_of_ne other, Function.update_of_ne other]
    exact ⟨rfl, rfl, rfl⟩
  · obtain ⟨outstanding, pooled, exact⟩ := rep.nodes
    refine ⟨outstanding, pooled, fun n => ?_⟩
    rw [exact, ListHeap.setCell_cells_ne (by simp)]
  · by_cases same : m = l
    · subst same
      simp
    · rw [List.mem_cons, exact, ListHeap.setCell_cells_ne (by simpa using same)]
      simp [same]

theorem next_head (rep : Represents s lists) (here : lists l = some seq) :
    s.next (.head l) = some (entry l seq) := by
  have ring := rep.ring l seq here
  cases seq with
  | nil => exact (Ring.linked_single_iff.mp ring).1
  | cons p seq => exact ring.first.1

theorem next_node (rep : Represents s lists) {p : Nat × ν}
    (here : lists l = some (front ++ p :: back)) : s.next (.node p.1) = some (entry l back) := by
  obtain ⟨rest, read⟩ := exists_ringFrom l front back
  have ring := rep.ring l _ here
  rw [← linked_ringFrom, ringFrom_cons, read] at ring
  exact ring.first.1

theorem prev_head (rep : Represents s lists) {p : Nat × ν} (here : lists l = some (front ++ [p])) :
    s.prev (.head l) = some (.node p.1) := by
  have ring := rep.ring l _ here
  rw [← linked_ringFrom, ringFrom_cons] at ring
  exact ring.first.2

theorem run_readHead (rep : Represents s lists) (here : lists l = some seq) :
    ∃ head, readCell (.head l) s = .ok (head, s) ∧ s.cells (.head l) = some head ∧
      head.next = entry l seq := by
  obtain ⟨head, there⟩ := rep.cell here (.head _)
  have next := next_head rep here
  rw [ListHeap.next, there, Option.map_some] at next
  exact ⟨head, run_readCell there, there, Option.some.inj next⟩

theorem run_readAt (rep : Represents s lists) {p : Nat × ν} (front : List (Nat × ν))
    (here : lists l = some (front ++ p :: back)) :
    readValue (.node p.1) s = .ok (p.2, s) ∧
      ∃ cell, readCell (.node p.1) s = .ok (cell, s) ∧ cell.next = entry l back := by
  obtain ⟨cell, there⟩ := rep.cell here (c := .node p.1) (mem_cellsOf.mpr (.inr ⟨p, by simp, rfl⟩))
  have next := next_node rep here
  have value := rep.value l _ here p (by simp)
  rw [ListHeap.next, there, Option.map_some] at next
  rw [ListHeap.value, there, Option.bind_some] at value
  refine ⟨?_, cell, run_readCell there, Option.some.inj next⟩
  rw [readValue, run_bind_ok (run_readCell there)]
  exact run_checked (by rw [value]; rfl)

theorem entry_eq_head_iff : entry l seq = .head l ↔ seq = [] := by
  cases seq with
  | nil => simp
  | cons p seq => simp

theorem listEmpty_eq (rep : Represents s lists) (here : lists l = some seq) :
    listEmpty l s = .ok (decide (seq = []), s) := by
  obtain ⟨head, read, -, next⟩ := run_readHead rep here
  rw [listEmpty, run_bind_ok read, next]
  simp only [entry_eq_head_iff]
  rfl

theorem listSingle_eq (rep : Represents s lists) (here : lists l = some seq) :
    listSingle l s = .ok (decide (seq.length ≤ 1), s) := by
  obtain ⟨head, read, there, next⟩ := run_readHead rep here
  rw [listSingle, run_bind_ok read, next]
  cases seq with
  | nil =>
    rw [entry_nil, run_bind_ok read, next, entry_nil, decide_eq_true rfl]
    rfl
  | cons p seq =>
    have single : entry l seq = .head l ↔ (p :: seq).length ≤ 1 := by
      rw [entry_eq_head_iff, List.length_cons, ← List.length_eq_zero_iff]
      omega
    obtain ⟨-, first, read', next'⟩ := run_readAt rep [] here
    rw [entry_cons, run_bind_ok read', next']
    simp only [single]
    rfl

theorem listFindFrom_eq (rep : Represents s lists) (func : ν → Bool) {fuel : Nat}
    (front : List (Nat × ν)) (here : lists l = some (front ++ back)) (enough : back.length < fuel) :
    listFindFrom l func fuel (entry l back) s =
      .ok (((back.find? fun p => func p.2).elim (.head l) fun p => .node p.1), s) := by
  induction back generalizing front fuel with
  | nil =>
    obtain ⟨fuel, rfl⟩ := Nat.exists_eq_succ_of_ne_zero (Nat.ne_of_gt enough)
    rw [listFindFrom, entry_nil, if_pos rfl]
    rfl
  | cons p back ih =>
    obtain ⟨fuel, rfl⟩ := Nat.exists_eq_succ_of_ne_zero (Nat.ne_of_gt (Nat.zero_lt_of_lt enough))
    obtain ⟨value, cell, read, next⟩ := run_readAt rep front here
    rw [listFindFrom, entry_cons, if_neg nofun, run_bind_ok value, List.find?_cons]
    cases accepted : func p.2 with
    | true => rfl
    | false =>
      simp only [Bool.false_eq_true, if_false]
      rw [run_bind_ok read, next]
      exact ih (front ++ [p]) (by simpa using here) (Nat.lt_of_succ_lt_succ enough)

theorem listFind_eq (rep : Represents s lists) (func : ν → Bool) {fuel : Nat}
    (here : lists l = some seq) (enough : seq.length < fuel) :
    listFind fuel l func s = .ok (((seq.find? fun p => func p.2).elim (.head l) fun p => .node p.1), s) := by
  obtain ⟨head, read, -, next⟩ := run_readHead rep here
  rw [listFind, run_bind_ok read, next]
  exact listFindFrom_eq rep func [] here enough

theorem listForeachFrom_eq {σ : Type} (rep : Represents s lists) (body : ListCell → ν → σ → σ)
    {fuel : Nat} (front : List (Nat × ν)) (here : lists l = some (front ++ back))
    (enough : back.length < fuel) (start : σ) :
    listForeachFrom l body fuel (entry l back) start s =
      .ok (back.foldl (fun acc p => body (.node p.1) p.2 acc) start, s) := by
  induction back generalizing front fuel start with
  | nil =>
    obtain ⟨fuel, rfl⟩ := Nat.exists_eq_succ_of_ne_zero (Nat.ne_of_gt enough)
    rw [listForeachFrom, entry_nil, if_pos rfl]
    rfl
  | cons p back ih =>
    obtain ⟨fuel, rfl⟩ := Nat.exists_eq_succ_of_ne_zero (Nat.ne_of_gt (Nat.zero_lt_of_lt enough))
    obtain ⟨value, cell, read, next⟩ := run_readAt rep front here
    rw [listForeachFrom, entry_cons, if_neg nofun, run_bind_ok value, run_bind_ok read, next]
    exact ih (front ++ [p]) (by simpa using here) (Nat.lt_of_succ_lt_succ enough) _

theorem listForeach_eq {σ : Type} (rep : Represents s lists) (body : ListCell → ν → σ → σ)
    {fuel : Nat} (here : lists l = some seq) (enough : seq.length < fuel) (start : σ) :
    listForeach fuel l body start s = .ok (seq.foldl (fun acc p => body (.node p.1) p.2 acc) start, s) := by
  obtain ⟨head, read, -, next⟩ := run_readHead rep here
  rw [listForeach, run_bind_ok read, next]
  exact listForeachFrom_eq rep body [] here enough start

theorem listPushFront_ensures (rep : Represents s lists) (here : lists l = some seq) (value : ν) :
    Ensures (listPushFront l value s) (fun c s' => ∃ n, c = .node n ∧ s.cells c = none ∧
      Represents s' (Function.update lists l (some ((n, value) :: seq)))) fun _ => False := by
  obtain ⟨head, read, -, next⟩ := run_readHead rep here
  rw [listPushFront, run_bind_ok read, next]
  exact listInsert_ensures rep [] seq here value

theorem listPushBack_ensures (rep : Represents s lists) (here : lists l = some seq) (value : ν) :
    Ensures (listPushBack l value s) (fun c s' => ∃ n, c = .node n ∧ s.cells c = none ∧
      Represents s' (Function.update lists l (some (seq ++ [(n, value)])))) fun _ => False :=
  listInsert_ensures rep seq [] (by rwa [List.append_nil]) value

theorem listPopFront_ensures (rep : Represents s lists) {p : Nat × ν}
    (here : lists l = some (p :: seq)) :
    Ensures (listPopFront l s) (fun v s' => v = p.2 ∧ Represents s' (Function.update lists l (some seq)))
      fun _ => False := by
  obtain ⟨head, read, -, next⟩ := run_readHead rep here
  rw [listPopFront, run_bind_ok read, next]
  exact listErase_ensures rep [] seq here

theorem listPopBack_ensures (rep : Represents s lists) {p : Nat × ν}
    (here : lists l = some (seq ++ [p])) :
    Ensures (listPopBack l s) (fun v s' => v = p.2 ∧ Represents s' (Function.update lists l (some seq)))
      fun _ => False := by
  obtain ⟨head, read, there, -⟩ := run_readHead rep here
  have prev := prev_head rep here
  rw [ListHeap.prev, there, Option.map_some, Option.some.injEq] at prev
  have erased := listErase_ensures rep seq [] here
  rw [List.append_nil] at erased
  rwa [listPopBack, run_bind_ok read, prev]

theorem listClear_ensures (rep : Represents s lists) {fuel : Nat} (here : lists l = some seq) :
    Ensures (listClear l fuel s) (fun values s' => values = seq.map Prod.snd ∧
      Represents s' (Function.update lists l (some []))) fun _ => fuel ≤ seq.length := by
  induction seq generalizing s lists fuel with
  | nil =>
    cases fuel with
    | zero => exact le_rfl
    | succ fuel =>
      rw [listClear, run_bind_ok (listEmpty_eq rep here)]
      exact ⟨rfl, by rwa [Function.update_eq_self_iff.mpr here.symm]⟩
  | cons p seq ih =>
    cases fuel with
    | zero => exact Nat.zero_le _
    | succ fuel =>
      rw [listClear, run_bind_ok (listEmpty_eq rep here)]
      simp only [List.cons_ne_nil, decide_false, Bool.false_eq_true, if_false]
      rw [ensures_bind]
      refine (listPopFront_ensures rep here).mono (fun value s₁ ⟨first, rep₁⟩ => ?_) fun _ => False.elim
      rw [ensures_bind]
      refine (ih rep₁ (Function.update_self ..)).mono (fun values s' ⟨later, rep'⟩ => ?_)
        fun _ short => Nat.succ_le_succ short
      rw [Function.update_idem] at rep'
      exact ⟨by rw [first, later, List.map_cons], rep'⟩

theorem modifyCell_pool {c : ListCell} {f : ListNode ν → ListNode ν} :
    Ensures (modifyCell c f s) (fun _ s' => s'.nodePool = s.nodePool) fun _ => True := by
  rw [modifyCell, readCell, ensures_bind, ensures_demand]
  exact ⟨fun _ _ => rfl, fun _ => trivial⟩

theorem listErase_pool {n : Nat} : Ensures (listErase (.node n) s)
    (fun _ s' => typeFree n s.nodePool = .ok (⟨⟩, s'.nodePool)) fun _ => True := by
  have free : ∀ s₁ : ListHeap ν, s₁.nodePool = s.nodePool → ∀ value : ν,
      Ensures ((freeCell (.node n) >>= fun _ => pure value : ListProgram ν ν) s₁)
        (fun _ s' => typeFree n s.nodePool = .ok (⟨⟩, s'.nodePool)) fun _ => True := by
    intro s₁ same value
    rw [freeCell, bind_assoc, run_modify, onNodePool, ensures_bind, ensures_part]
    refine (Ensures.self _).mono (fun _ pool ran => ?_) fun _ _ => trivial
    exact same ▸ ran
  rw [listErase, readValue, readCell, bind_assoc, ensures_bind, ensures_demand]
  refine ⟨fun cell _ => ?_, fun _ => trivial⟩
  rw [ensures_bind, ensures_checked]
  refine ⟨fun value _ => ?_, fun _ _ => trivial⟩
  rw [ensures_bind, ensures_demand]
  refine ⟨fun before _ => ?_, fun _ => trivial⟩
  rw [ensures_bind]
  refine modifyCell_pool.mono (fun _ s₁ same₁ => ?_) fun _ => id
  rw [ensures_bind, ensures_demand]
  refine ⟨fun after _ => ?_, fun _ => trivial⟩
  rw [ensures_bind]
  exact modifyCell_pool.mono (fun _ s₂ same₂ => free s₂ (same₂.trans same₁) value) fun _ => id

theorem listInsert_pool {pos : ListCell} {value : ν} : Ensures (listInsert pos value s)
    (fun c _ => ∃ n pool, c = .node n ∧
      typeAlloc (allocStep listNodeSize) s.nodePool = .ok (n, pool)) fun _ => True := by
  rw [listInsert, onNodePool, ensures_bind, ensures_map, ensures_part]
  refine (Ensures.self _).mono (fun n pool ran => ?_) fun _ _ => trivial
  simp only [modifyCell, readCell, ensures_bind, ensures_demand, ensures_modify, ensures_pure]
  exact ⟨fun _ _ => ⟨fun _ _ => ⟨fun _ _ => ⟨fun _ _ => ⟨n, pool, rfl, ran⟩, fun _ => trivial⟩,
    fun _ => trivial⟩, fun _ => trivial⟩, fun _ => trivial⟩

theorem listInsert_reuses {s' s'' : ListHeap ν} {n : Nat} {pos c : ListCell} {value value' : ν}
    (rep : Represents s lists) (live : (s.cells (.node n)).isSome)
    (erased : listErase (.node n) s = .ok (value, s'))
    (inserted : listInsert pos value' s' = .ok (c, s'')) : c = .node n := by
  obtain ⟨outstanding, pooled, exact⟩ := rep.nodes
  obtain ⟨pool, stacked, total⟩ := Allocator.pooled_iff.mp pooled
  have used : pool.fresh ≠ 0 := fun none => by
    have member : n ∈ (pool.stack : Multiset Nat) + (outstanding : Multiset Nat) :=
      Multiset.mem_add.mpr (.inr ((exact n).mpr live))
    rw [total, none] at member
    cases member
  have stacked' := (typeFree_stack stacked used).of_ok (listErase_pool.of_ok erased)
  obtain ⟨m, pool', rfl, ran⟩ := listInsert_pool.of_ok inserted
  obtain ⟨some_, fits⟩ := allocStep_listNode
  obtain ⟨_, taken, -⟩ := (typeAlloc_stack stacked' some_ fits).of_ok ran
  cases taken
  rfl

end Operations

inductive ListOp (ν : Type) where
  | new
  | insert (pos : ListCell) (value : ν)
  | erase (iterator : ListCell)
  | pushFront (l : Nat) (value : ν)
  | pushBack (l : Nat) (value : ν)
  | popFront (l : Nat)
  | popBack (l : Nat)
  | clear (l : Nat)

inductive ListResult (ν : Type) where
  | list (l : Nat)
  | iterator (it : ListCell)
  | value (v : ν)
  | values (vs : List ν)

section Runs
variable {ν : Type}

def ListOp.perform (fuel : Nat) : ListOp ν → ListProgram ν (ListResult ν)
  | .new => .list <$> listNew
  | .insert pos value => .iterator <$> listInsert pos value
  | .erase it => .value <$> listErase it
  | .pushFront l value => .iterator <$> listPushFront l value
  | .pushBack l value => .iterator <$> listPushBack l value
  | .popFront l => .value <$> listPopFront l
  | .popBack l => .value <$> listPopBack l
  | .clear l => .values <$> listClear l fuel

/-- The calls that `list.h` is made for: with lists and iterators that are there, and no end of a
list erased. -/
def ListOp.Allowed (s : ListHeap ν) : ListOp ν → Prop
  | .new => True
  | .insert pos _ => (s.cells pos).isSome
  | .erase it => (s.cells it).isSome ∧ ∃ n, it = .node n
  | .pushFront l _ | .pushBack l _ | .clear l => (s.cells (.head l)).isSome
  | .popFront l | .popBack l => (s.cells (.head l)).isSome ∧ s.next (.head l) ≠ some (.head l)

def NotListed (lists : Sequences ν) (n : Nat) : Prop :=
  ∀ l seq, lists l = some seq → ∀ p ∈ seq, p.1 ≠ n

/-- What a call is to return, and to do to the sequences. -/
inductive Alters (lists : Sequences ν) : ListOp ν → ListResult ν → Sequences ν → Prop where
  | new {l : Nat} (fresh : lists l = none) : Alters lists .new (.list l) (Function.update lists l (some []))
  | insert {l n : Nat} {front back : List (Nat × ν)} (value : ν) (here : lists l = some (front ++ back))
      (fresh : NotListed lists n) : Alters lists (.insert (entry l back) value) (.iterator (.node n))
        (Function.update lists l (some (front ++ (n, value) :: back)))
  | erase {l n : Nat} {value : ν} {front back : List (Nat × ν)}
      (here : lists l = some (front ++ (n, value) :: back)) : Alters lists (.erase (.node n)) (.value value)
        (Function.update lists l (some (front ++ back)))
  | pushFront {l n : Nat} {seq : List (Nat × ν)} (value : ν) (here : lists l = some seq)
      (fresh : NotListed lists n) : Alters lists (.pushFront l value) (.iterator (.node n))
        (Function.update lists l (some ((n, value) :: seq)))
  | pushBack {l n : Nat} {seq : List (Nat × ν)} (value : ν) (here : lists l = some seq)
      (fresh : NotListed lists n) : Alters lists (.pushBack l value) (.iterator (.node n))
        (Function.update lists l (some (seq ++ [(n, value)])))
  | popFront {l : Nat} {p : Nat × ν} {seq : List (Nat × ν)} (here : lists l = some (p :: seq)) :
      Alters lists (.popFront l) (.value p.2) (Function.update lists l (some seq))
  | popBack {l : Nat} {p : Nat × ν} {seq : List (Nat × ν)} (here : lists l = some (seq ++ [p])) :
      Alters lists (.popBack l) (.value p.2) (Function.update lists l (some seq))
  | clear {l : Nat} {seq : List (Nat × ν)} (here : lists l = some seq) :
      Alters lists (.clear l) (.values (seq.map Prod.snd)) (Function.update lists l (some []))

variable {s : ListHeap ν} {lists : Sequences ν}

theorem Represents.notListed (rep : Represents s lists) {n : Nat}
    (free : s.cells (.node n) = none) : NotListed lists n := by
  rintro l seq here p listed rfl
  obtain ⟨cell, there⟩ := rep.cell here (mem_cellsOf.mpr (.inr ⟨p, listed, rfl⟩))
  rw [free] at there
  cases there

theorem Represents.list (rep : Represents s lists) {l : Nat} (live : (s.cells (.head l)).isSome) :
    ∃ seq, lists l = some seq := by
  obtain ⟨l', seq, here, listed⟩ := (rep.live _).mp live
  rcases mem_cellsOf.mp listed with same | ⟨p, -, other⟩
  · cases same
    exact ⟨seq, here⟩
  · cases other

theorem Represents.element (rep : Represents s lists) {n : Nat}
    (live : (s.cells (.node n)).isSome) :
    ∃ l front value back, lists l = some (front ++ (n, value) :: back) := by
  obtain ⟨l, seq, here, listed⟩ := (rep.live _).mp live
  rcases mem_cellsOf.mp listed with other | ⟨p, mem, same⟩
  · cases other
  · cases same
    obtain ⟨front, back, rfl⟩ := List.append_of_mem mem
    exact ⟨l, front, p.2, back, here⟩

theorem Represents.position (rep : Represents s lists) {c : ListCell} (live : (s.cells c).isSome) :
    ∃ l front back, lists l = some (front ++ back) ∧ c = entry l back := by
  cases c with
  | head l =>
    obtain ⟨seq, here⟩ := rep.list live
    exact ⟨l, seq, [], by rwa [List.append_nil], rfl⟩
  | node n =>
    obtain ⟨l, front, value, back, here⟩ := rep.element live
    exact ⟨l, front, (n, value) :: back, here, rfl⟩

theorem Represents.nonempty (rep : Represents s lists) {l : Nat} (live : (s.cells (.head l)).isSome)
    (some_ : s.next (.head l) ≠ some (.head l)) : ∃ seq, lists l = some seq ∧ seq ≠ [] := by
  obtain ⟨seq, here⟩ := rep.list live
  refine ⟨seq, here, fun none => some_ ?_⟩
  rw [next_head rep here, none, entry_nil]

/-- A call returns what it is to return and leaves a memory that holds the sequences it is to leave,
if its loop may turn often enough. -/
theorem perform_ensures (rep : Represents s lists) {fuel : Nat} {op : ListOp ν}
    (allowed : op.Allowed s) :
    Ensures (op.perform fuel s) (fun result s' => ∃ lists', Alters lists op result lists' ∧ Represents s' lists')
      fun _ => ∃ l seq, lists l = some seq ∧ fuel ≤ seq.length := by
  cases op with
  | new =>
    rw [ListOp.perform, ensures_map]
    exact (listNew_ensures rep).mono (fun l s' ⟨fresh, rep'⟩ => ⟨_, .new fresh, rep'⟩) fun _ => False.elim
  | insert pos value =>
    obtain ⟨l, front, back, here, rfl⟩ := rep.position allowed
    rw [ListOp.perform, ensures_map]
    refine (listInsert_ensures rep front back here value).mono
      (fun c s' ⟨n, same, free, rep'⟩ => ?_) fun _ => False.elim
    subst same
    exact ⟨_, .insert value here (rep.notListed free), rep'⟩
  | erase it =>
    obtain ⟨live, n, rfl⟩ := allowed
    obtain ⟨l, front, value, back, here⟩ := rep.element live
    rw [ListOp.perform, ensures_map]
    refine (listErase_ensures rep front back here).mono (fun v s' ⟨same, rep'⟩ => ?_) fun _ => False.elim
    exact ⟨_, same ▸ .erase here, rep'⟩
  | pushFront l value =>
    obtain ⟨seq, here⟩ := rep.list allowed
    rw [ListOp.perform, ensures_map]
    refine (listPushFront_ensures rep here value).mono
      (fun c s' ⟨n, same, free, rep'⟩ => ?_) fun _ => False.elim
    subst same
    exact ⟨_, .pushFront value here (rep.notListed free), rep'⟩
  | pushBack l value =>
    obtain ⟨seq, here⟩ := rep.list allowed
    rw [ListOp.perform, ensures_map]
    refine (listPushBack_ensures rep here value).mono
      (fun c s' ⟨n, same, free, rep'⟩ => ?_) fun _ => False.elim
    subst same
    exact ⟨_, .pushBack value here (rep.notListed free), rep'⟩
  | popFront l =>
    obtain ⟨seq, here, some_⟩ := rep.nonempty allowed.1 allowed.2
    obtain ⟨p, seq, rfl⟩ := List.exists_cons_of_ne_nil some_
    rw [ListOp.perform, ensures_map]
    refine (listPopFront_ensures rep here).mono (fun v s' ⟨same, rep'⟩ => ?_) fun _ => False.elim
    exact ⟨_, same ▸ .popFront here, rep'⟩
  | popBack l =>
    obtain ⟨seq, here, some_⟩ := rep.nonempty allowed.1 allowed.2
    obtain ⟨p, seq, rfl⟩ : ∃ p front, seq = front ++ [p] := by
      rcases List.eq_nil_or_concat' seq with none | ⟨front, p, split⟩
      · exact absurd none some_
      · exact ⟨p, front, split⟩
    rw [ListOp.perform, ensures_map]
    refine (listPopBack_ensures rep here).mono (fun v s' ⟨same, rep'⟩ => ?_) fun _ => False.elim
    exact ⟨_, same ▸ .popBack here, rep'⟩
  | clear l =>
    obtain ⟨seq, here⟩ := rep.list allowed
    rw [ListOp.perform, ensures_map]
    refine (listClear_ensures rep here).mono (fun vs s' ⟨same, rep'⟩ => ?_) fun _ short => ⟨l, seq,
      here, short⟩
    exact ⟨_, same ▸ .clear here, rep'⟩

def ListOp.Erases (lists : Sequences ν) (n : Nat) : ListOp ν → Prop
  | .erase it => it = .node n
  | .popFront l => ∃ value seq, lists l = some ((n, value) :: seq)
  | .popBack l => ∃ value seq, lists l = some (seq ++ [(n, value)])
  | .clear l => ∃ value seq, lists l = some seq ∧ (n, value) ∈ seq
  | .new | .insert .. | .pushFront .. | .pushBack .. => False

theorem mem_update_of_keeps {l l₀ : Nat} {seq seq' : List (Nat × ν)} {p : Nat × ν}
    (here : lists l = some seq) (listed : p ∈ seq) (keeps : lists l₀ = some seq → p ∈ seq') :
    ∃ seq'', Function.update lists l₀ (some seq') l = some seq'' ∧ p ∈ seq'' := by
  by_cases same : l = l₀
  · subst same
    exact ⟨seq', Function.update_self .., keeps here⟩
  · exact ⟨seq, (Function.update_of_ne same ..).trans here, listed⟩

/-- Every other iterator stays in its list, with its value. -/
theorem Alters.stable {op : ListOp ν} {result : ListResult ν} {lists' : Sequences ν}
    (alters : Alters lists op result lists') {l : Nat} {seq : List (Nat × ν)}
    (here : lists l = some seq) {p : Nat × ν} (listed : p ∈ seq) (kept : ¬ op.Erases lists p.1) :
    ∃ seq', lists' l = some seq' ∧ p ∈ seq' := by
  cases alters with
  | new fresh =>
    refine mem_update_of_keeps here listed fun here' => ?_
    rw [fresh] at here'
    cases here'
  | insert value here₀ =>
    refine mem_update_of_keeps here listed fun here' => ?_
    cases here₀.symm.trans here'
    exact List.perm_middle.mem_iff.mpr (.tail _ listed)
  | @erase l₀ n value front back here₀ =>
    refine mem_update_of_keeps here listed fun here' => ?_
    cases here₀.symm.trans here'
    rcases List.mem_cons.mp (List.perm_middle.mem_iff.mp listed) with rfl | other
    · exact absurd rfl kept
    · exact other
  | pushFront value here₀ =>
    refine mem_update_of_keeps here listed fun here' => ?_
    cases here₀.symm.trans here'
    exact .tail _ listed
  | pushBack value here₀ =>
    refine mem_update_of_keeps here listed fun here' => ?_
    cases here₀.symm.trans here'
    exact List.mem_append_left _ listed
  | @popFront l₀ q seq₀ here₀ =>
    refine mem_update_of_keeps here listed fun here' => ?_
    cases here₀.symm.trans here'
    rcases List.mem_cons.mp listed with rfl | other
    · exact absurd ⟨p.2, seq₀, here₀⟩ kept
    · exact other
  | @popBack l₀ q seq₀ here₀ =>
    refine mem_update_of_keeps here listed fun here' => ?_
    cases here₀.symm.trans here'
    rcases List.mem_append.mp listed with other | same
    · exact other
    · rw [List.mem_singleton] at same
      subst same
      exact absurd ⟨p.2, seq₀, here₀⟩ kept
  | clear here₀ =>
    refine mem_update_of_keeps here listed fun here' => ?_
    exact absurd ⟨p.2, seq, here', listed⟩ kept

/-- Calls one after the other, the last one first, and the memory that they leave. -/
inductive ListRun : List (ListOp ν × ListResult ν) → ListHeap ν → Prop where
  | init : ListRun [] .init
  | call {trace : List (ListOp ν × ListResult ν)} {s s' : ListHeap ν} {op : ListOp ν} {result : ListResult ν}
      {fuel : Nat} : ListRun trace s → op.Allowed s → op.perform fuel s = .ok (result, s') →
      ListRun ((op, result) :: trace) s'

inductive SequenceRun : List (ListOp ν × ListResult ν) → Sequences ν → Prop where
  | init : SequenceRun [] fun _ => none
  | call {trace : List (ListOp ν × ListResult ν)} {lists lists' : Sequences ν} {op : ListOp ν}
      {result : ListResult ν} : SequenceRun trace lists → Alters lists op result lists' →
      SequenceRun ((op, result) :: trace) lists'

/-- The memory of a run holds the sequences that its results describe. -/
theorem ListRun.represents {trace : List (ListOp ν × ListResult ν)} (run : ListRun trace s) :
    ∃ lists, SequenceRun trace lists ∧ Represents s lists := by
  induction run with
  | init => exact ⟨_, .init, represents_init⟩
  | @call trace s s' op result fuel _ allowed ran ih =>
    obtain ⟨lists, sequences, rep⟩ := ih
    obtain ⟨lists', alters, rep'⟩ := (perform_ensures rep allowed).of_ok ran
    exact ⟨lists', .call sequences alters, rep'⟩

end Runs

/-- The lists are the sequences they stand for: every call returns, with the result that the
sequences demand, the rings are as they should be afterwards, and no iterator is disturbed. -/
theorem lists_refine {ν : Type} {trace : List (ListOp ν × ListResult ν)} {s : ListHeap ν}
    (run : ListRun trace s) :
    ∃ lists, SequenceRun trace lists ∧ Represents s lists ∧
      (∀ fuel, (∀ l seq, lists l = some seq → seq.length < fuel) → ∀ op : ListOp ν, op.Allowed s →
        ∃ result s' lists', op.perform fuel s = .ok (result, s') ∧ Alters lists op result lists' ∧
          Represents s' lists' ∧ ∀ l seq, lists l = some seq → ∀ p ∈ seq, ¬ op.Erases lists p.1 →
            ∃ seq', lists' l = some seq' ∧ p ∈ seq') ∧
      ∀ l seq, lists l = some seq →
        listEmpty l s = .ok (decide (seq.length = 0), s) ∧
          listSingle l s = .ok (decide (seq.length ≤ 1), s) ∧
        ∀ fuel, seq.length < fuel →
          (∀ func : ν → Bool, listFind fuel l func s =
            .ok (((seq.find? fun p => func p.2).elim (.head l) fun p => .node p.1), s)) ∧
          ∀ {σ : Type} (body : ListCell → ν → σ → σ) (start : σ), listForeach fuel l body start s =
            .ok (seq.foldl (fun acc p => body (.node p.1) p.2 acc) start, s) := by
  obtain ⟨lists, sequences, rep⟩ := run.represents
  refine ⟨lists, sequences, rep, fun fuel enough op allowed => ?_,
    fun l seq here => ⟨?_, ?_, fun fuel enough => ⟨?_, ?_⟩⟩⟩
  · have performs : Ensures (op.perform fuel s) (fun result s' => ∃ lists', Alters lists op result lists' ∧
        Represents s' lists') fun _ => False :=
      (perform_ensures rep allowed).mono (fun _ _ => id) fun _ ⟨l, seq, here, short⟩ =>
        absurd (enough l seq here) (not_lt.mpr short)
    obtain ⟨result, s', ran, lists', alters, rep'⟩ := performs.returns
    exact ⟨result, s', lists', ran, alters, rep',
      fun l seq here p listed => alters.stable here listed⟩
  · simpa only [List.length_eq_zero_iff] using listEmpty_eq rep here
  · exact listSingle_eq rep here
  · exact fun func => listFind_eq rep func here enough
  · exact fun body start => listForeach_eq rep body here enough start

theorem Represents.cell_live {ν : Type} {s : ListHeap ν} {lists : Sequences ν} {l : Nat}
    {seq : List (Nat × ν)} {c : ListCell} (rep : Represents s lists) (here : lists l = some seq)
    (listed : c ∈ cellsOf l seq) : (s.cells c).isSome := (rep.live c).mpr ⟨l, seq, here, listed⟩

theorem exists_listRun : ∃ l n₁ n₂ n₃ s, ListRun
    [((.erase (.node n₁) : ListOp Nat), .value 1),
      (.insert (.node n₂) 3, .iterator (.node n₃)), (.pushBack l 2, .iterator (.node n₂)),
      (.pushBack l 1, .iterator (.node n₁)), (.new, .list l)] s ∧
    Represents s (Function.update (fun _ => none) l (some [(n₃, 3), (n₂, 2)])) := by
  obtain ⟨s₀, run₀, rep₀⟩ : ∃ s₀ : ListHeap Nat, ListRun [] s₀ ∧ Represents s₀ fun _ => none :=
    ⟨_, .init, represents_init⟩
  obtain ⟨l, s₁, ran₁, -, rep₁⟩ := (listNew_ensures rep₀).returns
  have call₁ : ListOp.perform 0 .new s₀ = .ok (.list l, s₁) := run_map ran₁
  have here : ∀ seq : List (Nat × Nat), Function.update (fun _ => none) l (some seq) l = some seq :=
    fun seq => by rw [Function.update_self]
  obtain ⟨_, s₂, ran₂, n₁, rfl, -, rep₂⟩ := (listPushBack_ensures rep₁ (here _) 1).returns
  have call₂ : ListOp.perform 0 (.pushBack l 1) s₁ = .ok (.iterator (.node n₁), s₂) := run_map ran₂
  rw [Function.update_idem] at rep₂
  obtain ⟨_, s₃, ran₃, n₂, rfl, -, rep₃⟩ := (listPushBack_ensures rep₂ (here _) 2).returns
  have call₃ : ListOp.perform 0 (.pushBack l 2) s₂ = .ok (.iterator (.node n₂), s₃) := run_map ran₃
  rw [Function.update_idem] at rep₃
  obtain ⟨_, s₄, ran₄, n₃, rfl, -, rep₄⟩ :=
    (listInsert_ensures rep₃ [(n₁, 1)] [(n₂, 2)] (here _) 3).returns
  have call₄ : ListOp.perform 0 (.insert (.node n₂) 3) s₃ = .ok (.iterator (.node n₃), s₄) :=
    run_map ran₄
  rw [Function.update_idem] at rep₄
  obtain ⟨_, s₅, ran₅, rfl, rep₅⟩ := (listErase_ensures rep₄ [] [(n₃, 3), (n₂, 2)] (here _)).returns
  have call₅ : ListOp.perform 0 (.erase (.node n₁)) s₄ = .ok (.value 1, s₅) := run_map ran₅
  rw [Function.update_idem] at rep₅
  refine ⟨l, n₁, n₂, n₃, s₅, ?_, rep₅⟩
  exact .call (.call (.call (.call (.call run₀ trivial call₁)
    (rep₁.cell_live (here _) (.head _)) call₂) (rep₂.cell_live (here _) (.head _)) call₃)
    (rep₃.cell_live (here _) (.tail _ (.tail _ (.head _)))) call₄)
    ⟨rep₄.cell_live (here _) (.tail _ (.head _)), n₁, rfl⟩ call₅

/-- What is left then is given to the callback of `list_clear`. -/
theorem lists_refine_cleared : ∃ l n₁ n₂ n₃ s, ListRun
    [((.clear l : ListOp Nat), .values [3, 2]), (.erase (.node n₁), .value 1),
      (.insert (.node n₂) 3, .iterator (.node n₃)), (.pushBack l 2, .iterator (.node n₂)),
      (.pushBack l 1, .iterator (.node n₁)), (.new, .list l)] s ∧
    listEmpty l s = .ok (true, s) := by
  obtain ⟨l, n₁, n₂, n₃, s, run, rep⟩ := exists_listRun
  have here := Function.update_self l (some [(n₃, 3), (n₂, 2)]) fun _ => none
  obtain ⟨_, s', ran, rfl, rep'⟩ : ∃ values s', listClear l 3 s = .ok (values, s') ∧
      values = [3, 2] ∧ Represents s' (Function.update (fun _ => none) l (some [])) := by
    cases ran : listClear l 3 s with
    | error fault =>
      have short : 3 ≤ 2 := (listClear_ensures rep here).of_error ran
      omega
    | ok result =>
      obtain ⟨same, rep'⟩ := (listClear_ensures rep here).of_ok ran
      rw [Function.update_idem] at rep'
      exact ⟨_, _, rfl, same, rep'⟩
  have here' := Function.update_self l (some ([] : List (Nat × Nat))) fun _ => none
  have call : ListOp.perform 3 (.clear l) s = .ok (.values [3, 2], s') := run_map ran
  have allowed : ListOp.Allowed s (.clear l) := rep.cell_live here (.head _)
  have whole := run.call allowed call
  refine ⟨l, n₁, n₂, n₃, s', whole, ?_⟩
  obtain ⟨lists, -, known, -, looks⟩ := lists_refine whole
  obtain ⟨seq, there⟩ := known.list (rep'.cell_live here' (.head _))
  cases seq with
  | nil => exact (looks l [] there).1
  | cons p seq =>
    -- a node that is there would be in one of the lists
    obtain ⟨l', seq', found, listed⟩ :=
      (rep'.live (.node p.1)).mp (known.cell_live there (.tail _ (.head _)))
    rcases Table.of_update found with ⟨-, bare⟩ | ⟨-, absent⟩
    · cases bare
      rcases mem_cellsOf.mp listed with absurd | ⟨_, none, -⟩
      · cases absurd
      · cases none
    · cases absent

end Bosh
