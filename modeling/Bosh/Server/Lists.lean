import Bosh.LinkedList
import Bosh.Server.Accounts

/-! The lists of the server on the memory of `list.h`: what the server does with its lists can be
done there, with the iterators that it keeps. -/
namespace Bosh
open Effect

section Chains
variable {α β : Type} {place : α → ListCell} {wrap : α → β} {chain rest : Chain.Cells α}
  {seq : List (Nat × β)}

/-- The elements of a list are those of the chain, and each has its iterator at its place. -/
def Laid (place : α → ListCell) (wrap : α → β) : Chain.Cells α → List (Nat × β) → Prop :=
  List.Forall₂ fun cell p => p.2 = wrap cell.2 ∧ place cell.2 = .node p.1

theorem Laid.congr {place' : α → ListCell} (laid : Laid place wrap chain seq)
    (same : ∀ k ∈ Chain.values chain, place' k = place k) : Laid place' wrap chain seq := by
  induction laid with
  | nil => exact .nil
  | @cons cell p chain seq here _ ih =>
    have first : place' cell.2 = place cell.2 := same _ (by simp [Chain.values])
    refine .cons ⟨here.1, first.trans here.2⟩ (ih fun k listed => same k ?_)
    exact List.mem_cons_of_mem _ listed

theorem Laid.pushBack [DecidableEq α] (laid : Laid place wrap chain seq) {node n : Nat} {k : α}
    (new : k ∉ Chain.values chain) :
    Laid (Function.update place k (.node n)) wrap (Chain.pushBack node k chain)
      (seq ++ [(n, wrap k)]) := by
  refine List.rel_append (laid.congr fun k' listed => ?_) (.cons ⟨rfl, by simp⟩ .nil)
  exact Function.update_of_ne (ne_of_mem_of_not_mem listed new) ..

theorem Laid.erase (laid : Laid place wrap chain seq) (distinct : (Chain.nodes chain).Nodup)
    {node : Nat} {k : α} (here : (node, k) ∈ chain) (erased : Chain.erase node chain = some rest) :
    ∃ front n back, seq = front ++ (n, wrap k) :: back ∧ place k = .node n ∧
      Laid place wrap rest (front ++ back) := by
  induction laid generalizing rest with
  | nil => cases here
  | @cons cell p chain seq first later ih =>
    obtain ⟨node', k'⟩ := cell
    simp only [Chain.nodes, List.map_cons, List.nodup_cons] at distinct
    by_cases same : node' = node
    · subst same
      have value : k' = k := by
        rcases List.mem_cons.mp here with equal | listed
        · exact (congrArg Prod.snd equal).symm
        · exact absurd (List.mem_map_of_mem (f := Prod.fst) listed) distinct.1
      subst value
      rw [Chain.erase_head] at erased
      cases erased
      exact ⟨[], p.1, seq, by simp [← first.1], first.2, later⟩
    · have listed : (node, k) ∈ chain := by
        rcases List.mem_cons.mp here with equal | listed
        · exact absurd (congrArg Prod.fst equal).symm same
        · exact listed
      obtain ⟨rest', erased'⟩ := Chain.erase_isSome listed
      obtain ⟨front, n, back, rfl, at_, others⟩ := ih distinct.2 listed erased'
      rw [Chain.erase_tail same, erased', Option.map_some] at erased
      cases erased
      exact ⟨p :: front, n, back, rfl, at_, .cons first others⟩

end Chains

inductive Listed where
  | connection (h : ConnectionId)
  | session (c : ClientId)
  deriving DecidableEq

structure Places where
  connections : ConnectionId → ListCell
  sessions : ClientId → ListCell

section Calls
variable {Iks : Type}

/-- The calls of `list.h` that a history comes with, on these two lists. -/
def listCalls (http jabber : Nat) : List (Record Iks) → ListProgram Listed Places
  | [] => return { connections := fun _ => .head http, sessions := fun _ => .head jabber }
  | .hcCreate h :: older => do
    let places ← listCalls http jabber older
    let it ← listPushBack http (.connection h)
    return { places with connections := Function.update places.connections h it }
  | .hcDelete h :: older => do
    let places ← listCalls http jabber older
    let _ ← listErase (places.connections h)
    return places
  | .newSession c _ _ _ :: older => do
    let places ← listCalls http jabber older
    let it ← listPushBack jabber (.session c)
    return { places with sessions := Function.update places.sessions c it }
  | .closeSession c :: older => do
    let places ← listCalls http jabber older
    let _ ← listErase (places.sessions c)
    return places
  | _ :: older => listCalls http jabber older

def serverLists (history : List (Record Iks)) : ListProgram Listed (Nat × Nat × Places) := do
  let http ← listNew
  let jabber ← listNew
  let places ← listCalls http jabber history
  return (http, jabber, places)

variable {http jabber : Nat} {places : Places} {heap heap₀ : ListHeap Listed} {s s' : Server Iks}

/-- The memory has the lists of the server, and they are where their iterators say. -/
structure Backed (http jabber : Nat) (places : Places) (heap : ListHeap Listed)
    (connections : Chain.Cells ConnectionId) (sessions : Chain.Cells ClientId) : Prop where
  lists : ∃ lists seqH seqJ, Represents heap lists ∧ lists http = some seqH ∧
    lists jabber = some seqJ ∧ Laid places.connections .connection connections seqH ∧
    Laid places.sessions .session sessions seqJ

def Backs (http jabber : Nat) (heap₀ : ListHeap Listed) (s : Server Iks) : Prop :=
  Ensures (listCalls http jabber s.history heap₀)
    (fun places heap => Backed http jabber places heap s.httpConnections s.jabberConnections)
    fun _ => False

namespace Backed
variable {connections : Chain.Cells ConnectionId} {sessions : Chain.Cells ClientId}

theorem pushConnection (apart : http ≠ jabber)
    (backed : Backed http jabber places heap connections sessions) {node : Nat} {h : ConnectionId}
    (new : h ∉ Chain.values connections) :
    Ensures (listPushBack http (.connection h) heap) (fun it heap' => Backed http jabber
      { places with connections := Function.update places.connections h it } heap'
      (Chain.pushBack node h connections) sessions) fun _ => False := by
  obtain ⟨lists, seqH, seqJ, rep, onHttp, onJabber, laidH, laidJ⟩ := backed.lists
  refine (listPushBack_ensures rep onHttp _).mono ?_ fun _ => id
  rintro _ heap' ⟨n, rfl, -, rep'⟩
  refine ⟨_, _, seqJ, rep', Function.update_self .., ?_, laidH.pushBack new, laidJ⟩
  rwa [Function.update_of_ne apart.symm]

theorem pushSession (apart : http ≠ jabber)
    (backed : Backed http jabber places heap connections sessions) {node : Nat} {c : ClientId}
    (new : c ∉ Chain.values sessions) :
    Ensures (listPushBack jabber (.session c) heap) (fun it heap' => Backed http jabber
      { places with sessions := Function.update places.sessions c it } heap'
      connections (Chain.pushBack node c sessions)) fun _ => False := by
  obtain ⟨lists, seqH, seqJ, rep, onHttp, onJabber, laidH, laidJ⟩ := backed.lists
  refine (listPushBack_ensures rep onJabber _).mono ?_ fun _ => id
  rintro _ heap' ⟨n, rfl, -, rep'⟩
  refine ⟨_, seqH, _, rep', ?_, Function.update_self .., laidH, laidJ.pushBack new⟩
  rwa [Function.update_of_ne apart]

theorem eraseConnection (apart : http ≠ jabber)
    (backed : Backed http jabber places heap connections sessions)
    (distinct : (Chain.nodes connections).Nodup) {node : Nat} {h : ConnectionId}
    {rest : Chain.Cells ConnectionId} (here : (node, h) ∈ connections)
    (erased : Chain.erase node connections = some rest) :
    Ensures (listErase (places.connections h) heap)
      (fun v heap' => v = .connection h ∧ Backed http jabber places heap' rest sessions)
      fun _ => False := by
  obtain ⟨lists, seqH, seqJ, rep, onHttp, onJabber, laidH, laidJ⟩ := backed.lists
  obtain ⟨front, n, back, rfl, place, laid⟩ := laidH.erase distinct here erased
  rw [place]
  refine (listErase_ensures rep front back onHttp).mono ?_ fun _ => id
  rintro v heap' ⟨value, rep'⟩
  refine ⟨value, _, _, seqJ, rep', Function.update_self .., ?_, laid, laidJ⟩
  rwa [Function.update_of_ne apart.symm]

theorem eraseSession (apart : http ≠ jabber)
    (backed : Backed http jabber places heap connections sessions)
    (distinct : (Chain.nodes sessions).Nodup) {node : Nat} {c : ClientId}
    {rest : Chain.Cells ClientId} (here : (node, c) ∈ sessions)
    (erased : Chain.erase node sessions = some rest) :
    Ensures (listErase (places.sessions c) heap)
      (fun v heap' => v = .session c ∧ Backed http jabber places heap' connections rest)
      fun _ => False := by
  obtain ⟨lists, seqH, seqJ, rep, onHttp, onJabber, laidH, laidJ⟩ := backed.lists
  obtain ⟨front, n, back, rfl, place, laid⟩ := laidJ.erase distinct here erased
  rw [place]
  refine (listErase_ensures rep front back onJabber).mono ?_ fun _ => id
  rintro v heap' ⟨value, rep'⟩
  refine ⟨value, _, seqH, _, rep', ?_, Function.update_self .., laidH, laid⟩
  rwa [Function.update_of_ne apart]

end Backed

theorem Backs.same (backs : Backs http jabber heap₀ s)
    (history : ∀ heap, listCalls http jabber s'.history heap = listCalls http jabber s.history heap)
    (connections : s'.httpConnections = s.httpConnections)
    (sessions : s'.jabberConnections = s.jabberConnections) : Backs http jabber heap₀ s' := by
  unfold Backs
  rw [history, connections, sessions]
  exact backs

theorem Backs.call (backs : Backs http jabber heap₀ s) {calls : Places → ListProgram Listed Places}
    (history : listCalls http jabber s'.history = listCalls http jabber s.history >>= calls)
    (serves : ∀ places heap, Backed http jabber places heap s.httpConnections s.jabberConnections →
      Ensures (calls places heap) (fun places heap =>
        Backed http jabber places heap s'.httpConnections s'.jabberConnections) fun _ => False) :
    Backs http jabber heap₀ s' := by
  unfold Backs
  rw [history, ensures_bind]
  exact backs.mono serves fun _ => id

variable [Iksemel Iks]

theorem Micro.backs {a : Assumed} {p p' : Phase Iks} (step : Micro a (p, s) (p', s'))
    (sound : Sound s) (apart : http ≠ jabber) (backs : Backs http jabber heap₀ s) :
    Backs http jabber heap₀ s' := by
  have listedH := sound.roster
  have listedJ := sound.directory.listed
  have node : ∀ {h connection}, s.connections h = some connection →
      (connection.it, h) ∈ s.httpConnections := fun here => (listedH.mem_iff _ _).mpr (by simp [here])
  cases step with
  | @create _ _ h _ _ _ gone =>
    have new : h ∉ Chain.values s.httpConnections := by
      simp [sound.mem_httpConnections, gone]
    refine backs.call rfl fun places heap backed => ?_
    rw [ensures_bind]
    exact backed.pushConnection apart new
  | @delete _ _ h _ rest _ here _ _ _ _ _ erased =>
    refine backs.call rfl fun places heap backed => ?_
    rw [ensures_bind]
    exact (backed.eraseConnection apart listedH.nodup (node here) erased).mono
      (fun _ _ => And.right) fun _ => id
  | @deleteHeld _ _ h _ _ _ rest _ _ here _ _ _ _ _ _ erased =>
    refine backs.call rfl fun places heap backed => ?_
    rw [ensures_bind]
    exact (backed.eraseConnection apart listedH.nodup (node here) erased).mono
      (fun _ _ => And.right) fun _ => id
  | @openSession =>
    have new : s.nextClient ∉ Chain.values s.jabberConnections := by
      simp [sound.mem_jabberConnections, sound.unused]
    refine backs.call rfl fun places heap backed => ?_
    rw [ensures_bind]
    exact backed.pushSession apart new
  | @forget _ _ c client rest _ here _ _ _ erased =>
    have listed : (client.it, c) ∈ s.jabberConnections :=
      (listedJ.mem_iff _ _).mpr (by simp [Server.directory, here])
    refine backs.call rfl fun places heap backed => ?_
    rw [ensures_bind]
    exact (backed.eraseSession apart listedJ.nodup listed erased).mono
      (fun _ _ => And.right) fun _ => id
  | _ => exact backs.same (fun _ => rfl) rfl rfl

end Calls

section Runs
variable {Iks : Type} [Iksemel Iks] {c : Configuration Iks}

theorem backs_invariant {http jabber : Nat} {heap₀ : ListHeap Listed} (apart : http ≠ jabber)
    {lists : Sequences Listed} (rep : Represents heap₀ lists) (onHttp : lists http = some [])
    (onJabber : lists jabber = some []) : Invariant (Assumed.of False False)
      fun q : Phase Iks × Server Iks => Backs http jabber heap₀ q.2 where
  initial s initial := by
    unfold Backs
    rw [initial.history, initial.httpConnections, initial.jabberConnections]
    exact ⟨lists, [], [], rep, onHttp, onJabber, .nil, .nil⟩
  hear _ _ backs := backs
  micro _ _ _ _ step sound backs := step.backs sound apart backs

theorem serverLists_ensures (run : Reachable c) {heap : ListHeap Listed}
    (empty : Represents heap fun _ => none) :
    Ensures (serverLists c.server.history heap) (fun result heap' =>
      Backed result.1 result.2.1 result.2.2 heap' c.server.httpConnections
        c.server.jabberConnections) fun _ => False := by
  unfold serverLists
  rw [ensures_bind]
  refine (listNew_ensures empty).mono ?_ fun _ => id
  rintro http heap₁ ⟨-, rep₁⟩
  rw [ensures_bind]
  refine (listNew_ensures rep₁).mono ?_ fun _ => id
  rintro jabber heap₂ ⟨fresh, rep₂⟩
  have apart : http ≠ jabber := by
    rintro rfl
    simp at fresh
  have onHttp : Function.update (Function.update (fun _ => none) http (some [])) jabber
      (some ([] : List (Nat × Listed))) http = some [] := by
    rw [Function.update_of_ne apart, Function.update_self]
  have backs := ((backs_invariant apart rep₂ onHttp (Function.update_self ..)).reaches
    (fun _ _ _ => .always) run).2
  rw [ensures_bind]
  exact backs

/-- Every list call of a run can be made in the memory of `list.h`, where nodes are used again, with
the iterators that the connections and the sessions keep; and then the two lists have what the
server's have, in the same order. -/
theorem lists_backed (run : Reachable c) : ∃ http jabber places heap,
    serverLists c.server.history .init = .ok ((http, jabber, places), heap) ∧
      Backed http jabber places heap c.server.httpConnections c.server.jabberConnections := by
  have empty : Represents (.init : ListHeap Listed) fun _ => none := represents_init
  generalize (.init : ListHeap Listed) = heap at empty ⊢
  obtain ⟨⟨http, jabber, places⟩, heap', done, backed⟩ := (serverLists_ensures run empty).returns
  exact ⟨http, jabber, places, heap', done, backed⟩

end Runs

/-- A connection goes, and the next one gets its node. -/
theorem lists_backed_reused : ∃ c : Configuration Sample, Reachable c ∧
    c.server.history = [.hcCreate 2, .hcDelete 1, .hcCreate 1] ∧ ∃ http jabber places heap,
      serverLists c.server.history .init = .ok ((http, jabber, places), heap) ∧
        Backed http jabber places heap c.server.httpConnections c.server.jabberConnections ∧
        places.connections 2 = places.connections 1 := by
  obtain ⟨c, run, history⟩ : ∃ c : Configuration Sample, Reachable c ∧
      c.server.history = [.hcCreate 2, .hcDelete 1, .hcCreate 1] :=
    Sample.exists_reached (show (replay _ Sample.boot
      (Sample.accept 4 1 ++ Sample.arrive 4 [] ++ Sample.accept 4 2)).any _ by decide +kernel)
  obtain ⟨http, jabber, places, heap, done, backed⟩ := lists_backed run
  refine ⟨c, run, history, http, jabber, places, heap, done, backed, ?_⟩
  have empty : Represents (.init : ListHeap Listed) fun _ => none := represents_init
  rw [history] at done
  generalize (.init : ListHeap Listed) = heap₀ at empty done
  obtain ⟨_, s₁, ran₁, done⟩ := bind_run done
  obtain ⟨_, s₂, ran₂, done⟩ := bind_run done
  obtain ⟨_, s₃, calls, done⟩ := bind_run done
  cases done
  obtain ⟨-, rep₁⟩ := (listNew_ensures empty).of_ok ran₁
  obtain ⟨other, rep₂⟩ := (listNew_ensures rep₁).of_ok ran₂
  obtain ⟨_, s₄, calls₂, returned₂⟩ := bind_run calls
  obtain ⟨it₂, _, pushed₂, returned₂⟩ := bind_run returned₂
  cases returned₂
  obtain ⟨_, s₅, calls₁, returned₁⟩ := bind_run calls₂
  obtain ⟨_, _, erased, returned₁⟩ := bind_run returned₁
  cases returned₁
  obtain ⟨_, _, none, returned₀⟩ := bind_run calls₁
  cases none
  obtain ⟨it₁, _, pushed₁, returned₀⟩ := bind_run returned₀
  cases returned₀
  have here : Function.update (Function.update (fun _ => none) http (some [])) jabber (some []) http =
      some ([] : List (Nat × Listed)) := by
    rw [Function.update_of_ne, Function.update_self]
    rintro rfl
    simp at other
  obtain ⟨n, rfl, -, rep₃⟩ := (listPushBack_ensures rep₂ here _).of_ok pushed₁
  dsimp only at erased
  rw [Function.update_self] at erased
  have live := rep₃.cell_live (Function.update_self ..) (.tail _ (.head _))
  have same := listInsert_reuses rep₃ live erased pushed₂
  simp [same]

end Bosh
