import Mathlib.Order.Bounds.Basic
import Bosh.Library.Table
import Bosh.Server.Steps

/-! The session store: the list of sessions, the hash of their sids and the counters are
updated together. -/
namespace Bosh
open Effect Text

section History
variable {Iks : Type}

def openCount : List (Record Iks) → Int
  | [] => 0
  | .newSession .. :: older => openCount older + 1
  | .closeSession _ :: older => openCount older - 1
  | _ :: older => openCount older

def peak : List (Record Iks) → Int
  | [] => 0
  | .newSession .. :: older => max (peak older) (openCount older + 1)
  | _ :: older => peak older

def closings (c : ClientId) : List (Record Iks) → Nat
  | [] => 0
  | .closeSession c' :: older => closings c older + if c' = c then 1 else 0
  | _ :: older => closings c older

theorem closings_closeSession (c : ClientId) (older : List (Record Iks)) :
    (fun c' => closings c' (.closeSession c :: older)) =
      Function.update (fun c' => closings c' older) c (closings c older + 1) := by
  funext c'
  by_cases same : c' = c
  · simp [same, closings]
  · simp [same, closings, Ne.symm same]

theorem openCount_le_peak (history : List (Record Iks)) : openCount history ≤ peak history := by
  induction history with
  | nil => exact le_rfl
  | cons entry older ih =>
    cases entry with
    | newSession => exact le_max_right _ _
    | closeSession =>
      simp only [openCount, peak]
      omega
    | _ => exact ih

theorem peak_le_peak_cons (entry : Record Iks) (older : List (Record Iks)) :
    peak older ≤ peak (entry :: older) := by
  cases entry with
  | newSession => exact le_max_left _ _
  | _ => exact le_rfl

/-- `peak` is the maximum over all moments of the past. -/
theorem isGreatest_peak (history : List (Record Iks)) :
    IsGreatest {n | ∃ past, past <:+ history ∧ openCount past = n} (peak history) := by
  induction history with
  | nil =>
    refine ⟨⟨[], List.suffix_rfl, rfl⟩, ?_⟩
    rintro _ ⟨past, suffix, rfl⟩
    exact openCount_le_peak past |>.trans (List.suffix_nil.mp suffix ▸ le_rfl)
  | cons entry older ih =>
    obtain ⟨⟨past, early, most⟩, bound⟩ := ih
    constructor
    · have still : ∃ past, past <:+ entry :: older ∧ openCount past = peak older :=
        ⟨past, early.trans (List.suffix_cons _ _), most⟩
      cases entry with
      | newSession c sid host sock =>
        rcases le_total (peak older) (openCount older + 1) with new | old
        · exact ⟨_, List.suffix_rfl, (max_eq_right new).symm⟩
        · rw [peak, max_eq_left old]
          exact still
      | _ => exact still
    · rintro _ ⟨past', late, rfl⟩
      rcases List.suffix_cons_iff.mp late with rfl | early'
      · exact openCount_le_peak _
      · exact (bound ⟨past', early', rfl⟩).trans (peak_le_peak_cons _ _)

end History

abbrev SidTable := HashTable (fun sid : UInt64 => UInt32.ofNat (sid.toNat % 4294967291)) ClientId

/-- What the store says about the sessions: each one's list node and sid. -/
structure Directory where
  entry : ClientId → Option (Nat × UInt64)
  order : Chain.Cells ClientId
  sids : SidTable
  nextClient : ClientId
  nextNode : Nat
  count : Int
  maximum : Int
  openCount : Int
  peak : Int
  closings : ClientId → Nat

def Server.directory {Iks : Type} (s : Server Iks) : Directory where
  entry := Option.map (fun client => (client.it, client.sid)) ∘ s.clients
  order := s.jabberConnections
  sids := s.sids
  nextClient := s.nextClient
  nextNode := s.nextNode
  count := s.clientCount
  maximum := s.maxClientCount
  openCount := Bosh.openCount s.history
  peak := Bosh.peak s.history
  closings c := Bosh.closings c s.history

namespace Directory

def add (sid : UInt64) (sids : SidTable) (d : Directory) : Directory :=
  { d with
    entry := Function.update d.entry d.nextClient (some (d.nextNode, sid))
    order := Chain.pushBack d.nextNode d.nextClient d.order
    sids
    nextClient := d.nextClient + 1
    nextNode := d.nextNode + 1
    count := d.count + 1
    maximum := max d.maximum (d.count + 1)
    openCount := d.openCount + 1
    peak := max d.peak (d.openCount + 1) }

def remove (c : ClientId) (sid : UInt64) (rest : Chain.Cells ClientId) (d : Directory) :
    Directory :=
  { d with
    entry := Function.update d.entry c none
    order := rest
    sids := d.sids.erase sid
    count := d.count - 1
    openCount := d.openCount - 1
    closings := Function.update d.closings c (d.closings c + 1) }

inductive Change (d d' : Directory) : Prop where
  | same {later : Nat} : d.nextNode ≤ later → d' = { d with nextNode := later } → Change d d'
  | add {sid : UInt64} {sids : SidTable} : d.sids.hasKey sid = false →
      d.sids.insert sid d.nextClient = some sids → d' = d.add sid sids → Change d d'
  | remove {c : ClientId} {node : Nat} {sid : UInt64} {rest : Chain.Cells ClientId} :
      d.entry c = some (node, sid) → Chain.erase node d.order = some rest →
      d' = d.remove c sid rest → Change d d'

structure Coherent (d : Directory) : Prop where
  listed : Chain.Indexes (Option.map Prod.fst ∘ d.entry) d.order d.nextNode
  below : ∀ c, (d.entry c).isSome → c < d.nextClient
  hashed : ∀ sid c, (sid, c) ∈ d.sids.pairs ↔ (d.entry c).map Prod.snd = some sid
  distinct : (d.sids.pairs.map Prod.fst).Nodup
  counted : d.count = d.order.length
  history : d.count = d.openCount
  highest : d.maximum = d.peak
  closed : ∀ c, d.closings c = if c < d.nextClient ∧ d.entry c = none then 1 else 0

variable {d : Directory}

theorem Coherent.entry_next (h : d.Coherent) : d.entry d.nextClient = none := by
  by_contra live
  exact Nat.lt_irrefl _ (h.below _ (Option.isSome_iff_ne_none.mpr live))

theorem Coherent.add (h : d.Coherent) {sid : UInt64} {sids : SidTable}
    (unused : d.sids.hasKey sid = false) (inserted : d.sids.insert sid d.nextClient = some sids) :
    (d.add sid sids).Coherent := by
  have fresh := h.entry_next
  have perm := HashTable.pairs_insert inserted
  have absent : ∀ c, (sid, c) ∉ d.sids.pairs := HashTable.find_eq_none_iff.mp
    (Option.not_isSome_iff_eq_none.mp (by simpa [HashTable.hasKey] using unused))
  refine ⟨?_, fun c live => ?_, fun sid' c => ?_, ?_, ?_, ?_, ?_, fun c => ?_⟩
  · have listed := h.listed.add (k := d.nextClient) (by simp [fresh])
    rwa [← Option.map_some (f := Prod.fst) (a := (d.nextNode, sid)),
      ← Function.comp_update] at listed
  · by_cases new : c = d.nextClient
    · exact new ▸ Nat.lt_succ_self _
    · simp only [Directory.add, Function.update_of_ne new] at live
      exact Nat.lt_succ_of_lt (h.below c live)
  · have pairs : (sid', c) ∈ sids.pairs ↔ (sid', c) = (sid, d.nextClient) ∨
      (sid', c) ∈ d.sids.pairs :=
      perm.mem_iff.trans List.mem_cons
    apply pairs.trans
    rw [Prod.mk.injEq, h.hashed]
    by_cases new : c = d.nextClient
    · subst new
      simp [Directory.add, fresh, eq_comm]
    · simp [Directory.add, new]
  · refine ((perm.map Prod.fst).nodup_iff).mpr (List.nodup_cons.mpr ⟨fun listed => ?_, h.distinct⟩)
    obtain ⟨⟨sid', c⟩, member, rfl⟩ := List.mem_map.mp listed
    exact absent c member
  · simp [Directory.add, Chain.pushBack, h.counted]
  · simp [Directory.add, h.history]
  · simp [Directory.add, h.highest, h.history]
  · have closed := h.closed c
    by_cases new : c = d.nextClient
    · subst new
      simpa [Directory.add] using closed
    · have older : c < d.nextClient + 1 ↔ c < d.nextClient :=
        Nat.lt_succ_iff_lt_or_eq.trans (or_iff_left new)
      simpa [Directory.add, new, older] using closed

theorem Coherent.remove (h : d.Coherent) {c : ClientId} {node : Nat} {sid : UInt64}
    {rest : Chain.Cells ClientId} (live : d.entry c = some (node, sid))
    (erased : Chain.erase node d.order = some rest) : (d.remove c sid rest).Coherent := by
  have here : (d.entry c).map Prod.fst = some node := by simp [live]
  have known : (sid, c) ∈ d.sids.pairs := (h.hashed sid c).mpr (by simp [live])
  have perm := HashTable.pairs_erase (HashTable.find_eq_some_iff h.distinct |>.mpr known)
  have names : (sid :: (d.sids.erase sid).pairs.map Prod.fst).Nodup :=
    (perm.map Prod.fst).nodup_iff.mp h.distinct
  have length := h.listed.length_erase here erased
  refine ⟨?_, fun c' live' => ?_, fun sid' c' => ?_, (List.nodup_cons.mp names).2, ?_, ?_,
    h.highest, fun c' => ?_⟩
  · have listed := h.listed.remove here erased
    rwa [← Option.map_none (f := Prod.fst) (α := Nat × UInt64), ← Function.comp_update] at listed
  · by_cases gone : c' = c
    · simp [Directory.remove, gone] at live'
    · simp only [Directory.remove, Function.update_of_ne gone] at live'
      exact h.below c' live'
  · have old : (sid', c') ∈ d.sids.pairs ↔ _ := perm.mem_iff
    rw [List.mem_cons, Prod.mk.injEq, h.hashed] at old
    by_cases gone : c' = c
    · subst gone
      simp only [Directory.remove, Function.update_self, Option.map_none, reduceCtorEq, iff_false]
      intro still
      have same : sid = sid' := by simpa [live] using old.mpr (.inr still)
      exact (List.nodup_cons.mp names).1 (same ▸ List.mem_map_of_mem (f := Prod.fst) still)
    · simpa [Directory.remove, gone] using old.symm
  · simp only [Directory.remove, h.counted]
    omega
  · simp [Directory.remove, h.history]
  · have closed := h.closed c'
    by_cases gone : c' = c
    · subst gone
      have old : c' < d.nextClient := h.below c' (by simp [live])
      simp [Directory.remove, closed, live, old]
    · simpa [Directory.remove, gone] using closed

theorem Coherent.change {d' : Directory} (h : d.Coherent) (change : Change d d') : d'.Coherent := by
  cases change with
  | same later same => exact same ▸ { h with listed := h.listed.mono later }
  | add unused inserted same => exact same ▸ h.add unused inserted
  | remove live erased same => exact same ▸ h.remove live erased

end Directory

section Steps
variable {Iks : Type} [Iksemel Iks] {a : Assumed} {p p' : Phase Iks} {s s' : Server Iks}

theorem Micro.directory (step : Micro a (p, s) (p', s')) :
    Directory.Change s.directory s'.directory := by
  have same : Directory.Change s.directory s.directory := .same le_rfl rfl
  have kept : ∀ {c client client'}, s.clients c = some client →
      (client'.it, client'.sid) = (client.it, client.sid) → Directory.Change s.directory
        { s.directory with entry := Option.map (fun client => (client.it, client.sid)) ∘
            Function.update s.clients c (some client') } := fun here same' => by
    rw [Table.map_update_same here same']
    exact same
  cases step with
  | openSession _ _ _ unused inserted =>
    refine .add unused inserted ?_
    simp only [Server.directory, Directory.add, Function.comp_update]
    rfl
  | @forget _ _ c client _ _ here _ _ _ erased =>
    have live : s.directory.entry c = some (client.it, client.sid) := by
      simp [Server.directory, here]
    refine .remove live erased ?_
    simp only [Server.directory, Directory.remove, Function.comp_update, closings_closeSession]
    rfl
  | create => exact .same (Nat.le_succ _) rfl
  | stamp here => exact kept here rfl
  | stanza _ here => exact kept here rfl
  | kill _ here => exact kept here rfl
  | deleteHeld _ _ _ here => exact kept here rfl
  | drop here => exact kept here rfl
  | flush here => exact kept here rfl
  | hold _ _ _ _ _ here => exact kept here rfl
  | _ => exact same

/-- A session is only dead while its own data is being read. -/
def Server.aliveness (s : Server Iks) : ClientId → Option Bool :=
  Option.map JabberClient.alive ∘ s.clients

def Alive (q : Phase Iks × Server Iks) : Prop :=
  ∀ c, q.2.aliveness c = some false → q.1.busy = some (c, true)

theorem Micro.alive (step : Micro a (p, s) (p', s')) (h : Alive (p, s)) : Alive (p', s') := by
  have kept : ∀ {c client client'}, s.clients c = some client → client'.alive = client.alive →
      ∀ c', (Option.map JabberClient.alive ∘ Function.update s.clients c (some client')) c' =
        some false → p.busy = some (c', true) := fun here same c' dead => by
    rw [Table.map_update_same here same] at dead
    exact h c' dead
  cases step with
  | stamp here => exact kept here rfl
  | stanza _ here => exact kept here rfl
  | deleteHeld _ _ _ here => exact kept here rfl
  | drop here => exact kept here rfl
  | flush here => exact kept here rfl
  | hold _ _ _ _ idle here =>
    intro c' dead
    dsimp only [Server.aliveness] at dead
    rw [Table.map_update_same here (by rfl)] at dead
    exact absurd (h c' dead) (by simp [idle])
  | @kill _ _ c _ _ busy _ =>
    intro c' dead
    by_cases same : c' = c
    · rw [same]
    · have old := h c' (by simpa [Server.aliveness, same] using dead)
      rw [busy] at old
      cases old
      exact absurd rfl same
  | wake _ idle => exact fun c' dead => absurd (h c' dead) (by simp [idle])
  | settle busy here _ alive =>
    intro c' dead
    have old := h c' dead
    rw [busy] at old
    cases old
    simp [Server.aliveness, here, alive rfl] at dead
  | openSession =>
    intro c' dead
    by_cases new : c' = s.nextClient
    · simp [Server.aliveness, new] at dead
    · exact h c' (by simpa [Server.aliveness, new] using dead)
  | @forget _ _ c _ _ _ _ _ _ busy _ _ =>
    intro c' dead
    by_cases gone : c' = c
    · simp [Server.aliveness, gone] at dead
    · have old := h c' (by simpa [Server.aliveness, gone] using dead)
      rcases busy with idle | ⟨_, busy⟩
      · simp [idle] at old
      · rw [busy] at old
        cases old
        exact absurd rfl gone
  | _ => exact h

end Steps

end Bosh
