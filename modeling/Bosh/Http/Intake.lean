import Bosh.Http.Serving
import Bosh.Server.Run

/-! What the connections of a running server have received and handed over. -/
namespace Bosh
open Effect Text HttpConnection RequestText

section History
variable {Iks : Type}

def receivedOn (h : ConnectionId) : List (Record Iks) → List Bytes
  | [] => []
  | .hcCreate k :: older => if k = h then [] else receivedOn h older
  | .received k bytes :: older => receivedOn h older ++ if k = h then [bytes] else []
  | _ :: older => receivedOn h older

def handedOn (h : ConnectionId) : List (Record Iks) → List HttpRequest
  | [] => []
  | .hcCreate k :: older => if k = h then [] else handedOn h older
  | .request k request :: older => handedOn h older ++ if k = h then [request] else []
  | _ :: older => handedOn h older

end History

inductive Stage where
  | idle
  | arrived
  /-- A request has been handed over and still lies in the buffer. -/
  | taken (length : Nat)

structure Intake where
  connection : Option HttpConnection
  received : List Bytes
  handed : List HttpRequest
  stage : Stage

namespace Intake

inductive Change (h : ConnectionId) (v v' : Intake) : Prop where
  | same : v' = v → Change h v v'
  | create : v.connection = none →
    v' = { v with connection := some empty, received := [], handed := [] } →
      Change h v v'
  | remove : v.stage = .idle → v' = { v with connection := none } → Change h v v'
  | receive (connection : HttpConnection) (bytes : Bytes) : v.stage = .idle →
      v.connection = some connection → v' = { v with
        connection := some (connection.receive bytes)
        received := v.received ++ [bytes]
        stage := .arrived } → Change h v v'
  | examined (connection : HttpConnection) : v.stage = .arrived → v.connection = some connection →
      (∀ request length, connection.frame h ≠ .ok (.complete request length)) →
      v' = { v with stage := .idle } → Change h v v'
  | request (connection : HttpConnection) (request : HttpRequest) (length : Nat) : v.stage =
    .arrived →
      v.connection = some connection → connection.frame h = .ok (.complete request length) →
      v' = { v with handed := v.handed ++ [request], stage := .taken length } → Change h v v'
  | consume (connection : HttpConnection) (length : Nat) : v.stage = .taken length →
      v.connection = some connection →
      v' = { v with connection := some (connection.consume length), stage := .idle } → Change h v v'

/-- The buffer and the requests are what reading the chunks one by one makes of them. -/
def Sound (h : ConnectionId) (v : Intake) : Prop :=
  match v.stage, v.connection with
  | .idle, none => (empty.serve h v.received).2 = v.handed
  | .idle, some connection => empty.serve h v.received = (connection, v.handed)
  | .arrived, some connection => ∃ past bytes before, v.received = past ++ [bytes] ∧
      empty.serve h past = (before, v.handed) ∧ connection = before.receive bytes
  | .taken length, some connection =>
    empty.serve h v.received = (connection.consume length, v.handed)
  | .arrived, none | .taken _, none => False

theorem Sound.change {h : ConnectionId} {v v' : Intake} (sound : v.Sound h)
    (change : Change h v v') : v'.Sound h := by
  obtain ⟨connection, received, handed, stage⟩ := v
  cases change with
  | same same => exact same ▸ sound
  | create missing same =>
    subst same
    obtain rfl : connection = none := missing
    cases stage with
    | idle => rfl
    | arrived | taken => exact sound.elim
  | remove idle same =>
    subst same
    obtain rfl : stage = .idle := idle
    cases connection with
    | none => exact sound
    | some connection => exact congrArg Prod.snd sound
  | receive before bytes idle here same =>
    subst same
    obtain rfl : stage = .idle := idle
    obtain rfl : connection = some before := here
    exact ⟨received, bytes, before, rfl, sound, rfl⟩
  | examined _ arrived here unframed same =>
    subst same
    obtain rfl : stage = .arrived := arrived
    obtain rfl := here
    obtain ⟨past, bytes, before, rfl, served, rfl⟩ := sound
    change empty.serve h (past ++ [bytes]) = _
    rw [serve_append, served, read_unframed unframed]
    simp
  | request _ request length arrived here framed same =>
    subst same
    obtain rfl : stage = .arrived := arrived
    obtain rfl := here
    obtain ⟨past, bytes, before, rfl, served, rfl⟩ := sound
    change empty.serve h (past ++ [bytes]) = _
    rw [serve_append, served, read_framed framed]
    rfl
  | consume _ _ taken here same =>
    subst same
    obtain rfl : stage = _ := taken
    obtain rfl := here
    exact sound

end Intake

@[simp] theorem HttpConnection.bare_receive (bytes : Bytes) (connection : HttpConnection) :
    (connection.receive bytes).bare = connection.bare.receive bytes := rfl

@[simp] theorem HttpConnection.bare_consume (length : Nat) (connection : HttpConnection) :
    (connection.consume length).bare = connection.bare.consume length := by
  by_cases more : connection.bufferSize > length
  · simp [consume, bare, more]
  · simp [consume, bare, more]

section Steps
variable {Iks : Type} [Iksemel Iks] {a : Assumed} {p p' : Phase Iks} {s s' : Server Iks}
  {h k : ConnectionId}

def Phase.stage (h : ConnectionId) (p : Phase Iks) : Stage :=
  if p.arrived = some h then .arrived
  else match p.unconsumed with
    | some (k, length) => if k = h then .taken length else .idle
    | none => .idle

omit [Iksemel Iks] in
theorem Phase.stage_idle (seen : p.arrived ≠ some h) (done : p.unconsumed = none) :
    p.stage h = .idle := by
  rw [stage, if_neg seen, done]

omit [Iksemel Iks] in
theorem Phase.stage_arrived (arrived : p.arrived = some h) : p.stage h = .arrived := if_pos arrived

omit [Iksemel Iks] in
theorem Phase.stage_taken {length : Nat} (seen : p.arrived = none)
    (taken : p.unconsumed = some (k, length)) :
    p.stage h = if k = h then .taken length else .idle := by
  rw [stage, if_neg (by simp [seen]), taken]

def intake (h : ConnectionId) (q : Phase Iks × Server Iks) : Intake where
  connection := (q.2.connections h).map bare
  received := receivedOn h q.2.history
  handed := handedOn h q.2.history
  stage := q.1.stage h

omit [Iksemel Iks] in
theorem intake_same (connections : (s'.connections h).map bare = (s.connections h).map bare)
    (received : receivedOn h s'.history = receivedOn h s.history)
    (handed : handedOn h s'.history = handedOn h s.history) (stage : p'.stage h = p.stage h) :
    Intake.Change h (intake h (p, s)) (intake h (p', s')) := by
  refine .same ?_
  simp only [intake, connections, received, handed, stage]

def Phase.Alternates (p : Phase Iks) : Prop := p.arrived = none ∨ p.unconsumed = none

theorem Micro.alternates (step : Micro a (p, s) (p', s')) (alternates : p.Alternates) :
    p'.Alternates := by
  cases step with
  | receive _ _ _ _ _ done => exact .inr done
  | examined | request => exact .inl rfl
  | consume => exact .inr rfl
  | _ => exact alternates

theorem Micro.intake_change (step : Micro a (p, s) (p', s')) (alternates : p.Alternates)
    (h : ConnectionId) : Intake.Change h (intake h (p, s)) (intake h (p', s')) := by
  have kept : ∀ {k connection connection'}, s.connections k = some connection →
      bare connection' = bare connection →
      (Function.update s.connections k (some connection') h).map bare =
        (s.connections h).map bare :=
    fun here same => congrFun (Table.map_update_same here same) h
  have other : ∀ {k connection}, h ≠ k →
      (Function.update s.connections k connection h).map bare = (s.connections h).map bare :=
    fun apart => by rw [Function.update_of_ne apart]
  cases step with
  | @create _ _ k _ _ _ gone =>
    by_cases mine : h = k
    · subst mine
      refine .create (by simp [intake, gone]) ?_
      simp [intake, receivedOn, handedOn, bare, empty]
    · exact intake_same (other mine) (by simp [receivedOn, Ne.symm mine]) (by simp [handedOn, Ne.symm mine]) rfl
  | @receive _ _ k connection bytes _ here _ _ seen done =>
    by_cases mine : h = k
    · subst mine
      refine .receive connection.bare bytes ?_ ?_ ?_
      · exact Phase.stage_idle (by simp [seen]) done
      · simp [intake, here]
      · simp [intake, receivedOn, handedOn, Phase.stage_arrived]
    · refine intake_same (other mine) (by simp [receivedOn, Ne.symm mine]) rfl ?_
      simp [Phase.stage, Ne.symm mine, seen]
  | @examined _ _ k connection arrived here unframed =>
    have done : p.unconsumed = none := alternates.resolve_left (by simp [arrived])
    by_cases mine : h = k
    · subst mine
      refine .examined connection.bare (Phase.stage_arrived arrived) ?_ unframed ?_
      · simp [intake, here]
      · simp [intake, Phase.stage, done]
    · apply intake_same rfl rfl rfl
      simp [Phase.stage, arrived, done, Ne.symm mine]
  | @request _ _ k connection request length _ arrived here framed _ _ done =>
    by_cases mine : h = k
    · subst mine
      refine .request connection.bare request length (Phase.stage_arrived arrived) ?_ framed ?_
      · simp [intake, here]
      · simp [intake, receivedOn, handedOn, Phase.stage]
    · refine intake_same rfl rfl (by simp [handedOn, Ne.symm mine]) ?_
      simp [Phase.stage, arrived, done, Ne.symm mine]
  | @consume _ _ k connection length taken _ here =>
    have seen : p.arrived = none := alternates.resolve_right (by simp [taken])
    by_cases mine : h = k
    · subst mine
      refine .consume connection.bare length ?_ ?_ ?_
      · rw [intake, Phase.stage_taken seen taken, if_pos rfl]
      · simp [intake, here]
      · simp [intake, Phase.stage, seen]
    · refine intake_same (other mine) rfl rfl ?_
      simp [Phase.stage, seen, taken, Ne.symm mine]
  | @delete _ _ k connection _ _ here _ _ seen done =>
    by_cases mine : h = k
    · subst mine
      refine .remove (Phase.stage_idle (by simp [seen]) done) ?_
      simp [intake, receivedOn, handedOn, Phase.stage]
    · exact intake_same (other mine) rfl rfl rfl
  | @deleteHeld _ _ k connection _ _ _ _ _ here _ _ _ seen done =>
    by_cases mine : h = k
    · subst mine
      refine .remove (Phase.stage_idle (by simp [seen]) done) ?_
      simp [intake, receivedOn, handedOn, Phase.stage]
    · exact intake_same (other mine) rfl rfl rfl
  | answer _ _ here => exact intake_same (kept here rfl) rfl rfl rfl
  | drop _ _ here => exact intake_same (kept here rfl) rfl rfl rfl
  | flush _ _ _ here => exact intake_same (kept here rfl) rfl rfl rfl
  | hold _ _ _ _ _ _ _ here => exact intake_same (kept here rfl) rfl rfl rfl
  | _ => exact .same rfl

structure Takes (q : Phase Iks × Server Iks) : Prop where
  alternates : q.1.Alternates
  sound : ∀ h, (intake h q).Sound h

omit [Iksemel Iks] in
theorem takes_initial (initial : Initial s) : Takes ({}, s) where
  alternates := .inl rfl
  sound h := by
    simp [intake, initial.connections, initial.history, receivedOn, handedOn, Phase.stage,
      Intake.Sound, serve]

theorem takes_invariant (a : Assumed) : Invariant a fun q : Phase Iks × Server Iks => Takes q where
  initial _ := takes_initial
  hear _ _ takes := ⟨takes.alternates, takes.sound⟩
  micro _ _ _ _ step _ takes :=
    ⟨step.alternates takes.alternates,
      fun h => (takes.sound h).change (step.intake_change takes.alternates h)⟩

end Steps

namespace Sample

def page : RequestText where
  type := ascii "GET"
  path := ascii "/"
  version := ascii "HTTP/1.1"
  fields := [⟨ascii "Host", ascii " h"⟩]
  body := []

theorem page_wellFormed : page.WellFormed where
  type := by decide +kernel
  path := by decide +kernel
  version := by decide +kernel
  fields := List.forall_mem_singleton.mpr ⟨by decide +kernel, by decide +kernel, by decide +kernel⟩
  some_fields := by decide +kernel
  few_fields := by decide +kernel
  sized := by decide +kernel
  fits := by decide +kernel

def cut : List (Input Sample) := accept 4 1 ++ arrive 4 (get.take 16) ++ arrive 4 (get.drop 16)

def crowded : List (Input Sample) := accept 4 1 ++ arrive 4 (get ++ get)

theorem cut_works : (replay (fun _ _ => True) boot cut).isSome := by decide +kernel

theorem crowded_works : (replay (fun _ _ => True) boot crowded).isSome := by decide +kernel

end Sample

section Runs
variable {Iks : Type} [Iksemel Iks] {c : Configuration Iks} {h : ConnectionId}
  {connection : HttpConnection} {rs : List RequestText}

theorem Reaches.takes {admitted : Configuration Iks → Input Iks → Prop} (run : Reaches admitted c) :
    Takes ({}, c.server) :=
  ((takes_invariant (Assumed.of False False)).reaches (fun _ _ _ => .always) run).2

/-- A connection is as its reads have left it. -/
theorem serve_of_reaches (run : Reachable c) (here : c.server.connections h = some connection) :
    empty.serve h (receivedOn h c.server.history) = (connection.bare, handedOn h c.server.history) := by
  have sound := run.takes.sound h
  simpa [Intake.Sound, intake, Phase.stage, here] using sound

theorem handed_of_reaches (run : Reachable c) (h : ConnectionId) :
    (empty.serve h (receivedOn h c.server.history)).2 = handedOn h c.server.history := by
  cases here : c.server.connections h with
  | some connection => rw [serve_of_reaches run here]
  | none =>
    have sound := run.takes.sound h
    simpa [Intake.Sound, intake, Phase.stage, here] using sound

omit [Iksemel Iks] in
theorem HttpConnection.stands_bare {rest : List RequestText} {bytes : Bytes}
    (stands : connection.bare.Stands rest bytes) : connection.Stands rest bytes where
  buffer := stands.buffer
  size := stands.size
  coming := stands.coming
  header := stands.header

/-- However the stream of requests is cut, the first of them have been handed over, each once, in
order and with its own parts; the buffer holds the bytes behind them, and the header that is
there is that of the next one. Whatever comes next of the stream can be framed. -/
theorem requests_framed (run : Reachable c) (valid : ∀ r ∈ rs, r.WellFormed)
    (sent : (receivedOn h c.server.history).flatten <+: stream rs) :
    ∃ k ≤ rs.length, List.Forall₂ (HttpRequest.Carries h) (handedOn h c.server.history) (rs.take k) ∧
      ∀ connection, c.server.connections h = some connection →
        stream (rs.take k) ++ connection.unconsumed = (receivedOn h c.server.history).flatten ∧
        connection.unconsumed.length = connection.bufferSize ∧
        (∀ header, connection.header = some header →
          ∃ r, rs[k]? = some r ∧ header = r.header ∧ r.head <+: connection.unconsumed) ∧
        ∀ bytes, (receivedOn h c.server.history).flatten ++ bytes <+: stream rs →
          (connection.receive bytes).header.isSome →
            ∃ framed, (connection.receive bytes).frame h = .ok framed := by
  obtain ⟨few, carried, split, stands⟩ := serve_stands (h := h) valid sent rfl
  rw [handed_of_reaches run] at few carried split stands
  refine ⟨_, few, carried, fun connection here => ?_⟩
  rw [serve_of_reaches run here] at split stands
  replace split : stream (rs.take (handedOn h c.server.history).length) ++ connection.unconsumed =
    (receivedOn h c.server.history).flatten := split
  replace stands : connection.Stands (rs.drop (handedOn h c.server.history).length)
    connection.unconsumed := stands_bare stands
  refine ⟨split, stands.size.symm, fun header parsed => ?_, fun bytes coming there => ?_⟩
  · obtain ⟨r, later, rest, same, head⟩ := stands.header header parsed
    refine ⟨r, ?_, same, head⟩
    rw [← List.head?_drop, rest]
    rfl
  · rw [← split, List.append_assoc] at coming
    exact stands.framed (fun r listed => valid r (List.mem_of_mem_drop listed))
      (coming_behind rfl coming) there

end Runs

theorem requests_framed_cut :
    ∃ k ≤ 2, List.Forall₂ (HttpRequest.Carries 1)
      (handedOn 1 (Sample.reached (fun _ _ => True) Sample.cut Sample.cut_works).server.history)
      ([Sample.page, Sample.page].take k) := by
  have sent : (receivedOn 1 (Sample.reached (fun _ _ => True) Sample.cut
      Sample.cut_works).server.history).flatten <+: stream [Sample.page, Sample.page] := by
    decide +kernel
  obtain ⟨k, few, carried, -⟩ :=
    requests_framed Sample.reaches_reached (by simp [Sample.page_wellFormed]) sent
  exact ⟨k, few, carried⟩

section Runs
variable {Iks : Type} [Iksemel Iks] {c : Configuration Iks} {h : ConnectionId}
  {connection : HttpConnection} {rs : List RequestText}

/-- Where no chunk brings the ends of two requests, every request that has been received whole
has been handed over, and nothing complete waits in the buffer. Where one does, that is not so
after every read. -/
theorem requests_prompt_iff (run : Reachable c) (here : c.server.connections h = some connection)
    (valid : ∀ r ∈ rs, r.WellFormed)
    (sent : (receivedOn h c.server.history).flatten <+: stream rs) :
    (Single rs (receivedOn h c.server.history) →
      Prompt rs (receivedOn h c.server.history).flatten connection (handedOn h c.server.history)) ∧
    ((∀ past, past <+: receivedOn h c.server.history →
        Prompt rs past.flatten (empty.serve h past).1 (empty.serve h past).2) ↔
      Single rs (receivedOn h c.server.history)) := by
  have exactly := serve_prompt_iff (h := h) valid sent
  refine ⟨fun single => ?_, exactly⟩
  have prompt := exactly.mpr single _ List.prefix_rfl
  rw [serve_of_reaches run here] at prompt
  exact prompt

end Runs

theorem requests_prompt_cut :
    (handedOn 1 (Sample.reached (fun _ _ => True) Sample.cut Sample.cut_works).server.history).length = 1 := by
  have sent : (receivedOn 1 (Sample.reached (fun _ _ => True) Sample.cut
      Sample.cut_works).server.history).flatten <+: stream [Sample.page] := by
    decide +kernel
  have all : whole [Sample.page] (receivedOn 1 (Sample.reached (fun _ _ => True)
      Sample.cut Sample.cut_works).server.history).flatten.length = 1 := by
    decide +kernel
  have single : Single [Sample.page] (receivedOn 1 (Sample.reached (fun _ _ => True) Sample.cut
      Sample.cut_works).server.history) := fun past chunk _ =>
    (whole_le [Sample.page] _).trans (Nat.le_add_left 1 _)
  have prompt := (requests_prompt_iff Sample.reaches_reached
    (Option.some_get (by decide +kernel)).symm (by simp [Sample.page_wellFormed]) sent).1 single
  exact prompt.2.trans all

/-- Two requests in one chunk: the second waits until something else arrives. -/
theorem requests_prompt_crowded :
    ¬ ∀ (c : Configuration Sample) (h : ConnectionId) connection rs, Reachable c →
      c.server.connections h = some connection → (∀ r ∈ rs, RequestText.WellFormed r) →
      (receivedOn h c.server.history).flatten <+: stream rs →
        Prompt rs (receivedOn h c.server.history).flatten connection (handedOn h c.server.history) :=
  fun claim => by
  have prompt := claim (Sample.reached (fun _ _ => True) Sample.crowded Sample.crowded_works) 1 _
    [Sample.page, Sample.page] Sample.reaches_reached (Option.some_get (by decide +kernel)).symm
    (by simp [Sample.page_wellFormed]) (by decide +kernel)
  have one : (handedOn 1 (Sample.reached (fun _ _ => True) Sample.crowded
      Sample.crowded_works).server.history).length = 1 := by decide +kernel
  have two : whole [Sample.page, Sample.page] (receivedOn 1 (Sample.reached (fun _ _ => True)
      Sample.crowded Sample.crowded_works).server.history).flatten.length = 2 := by decide +kernel
  exact absurd (one.symm.trans (prompt.2.trans two)) (by decide)

end Bosh
