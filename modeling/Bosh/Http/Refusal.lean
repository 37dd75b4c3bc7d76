import Bosh.Http.Intake
import Bosh.Server.Effects

/-! Requests that are too long for the buffer, and how often one of them is refused. -/
namespace Bosh
open Effect Text HttpConnection RequestText

structure RequestText.Oversized (r : RequestText) : Prop extends RequestText.Headed r where
  sized : declared r.fields = r.body.length
  fits : r.body.length < 2 ^ 31
  large : maxBufferSize ≤ r.text.length

/-- How many of the chunks end at `size` bytes or behind, when `n` bytes are there before them. -/
def endings (size : Nat) : Nat → List Bytes → Nat
  | _, [] => 0
  | n, bytes :: chunks =>
    (if size ≤ n + bytes.length then 1 else 0) + endings size (n + bytes.length) chunks

theorem writeAt_length {memory : Bytes} {offset : Nat} (inside : offset ≤ memory.length)
    (bytes : Bytes) :
    (writeAt memory offset bytes).length = max memory.length (offset + bytes.length) := by
  simp only [writeAt, List.length_append, List.length_take, List.length_drop]
  omega

namespace HttpConnection

def refusals (h : ConnectionId) : List Bytes → HttpConnection → Nat
  | [], _ => 0
  | bytes :: chunks, connection =>
    (if (connection.receive bytes).frame h = .ok .tooBig then 1 else 0) +
      refusals h chunks (connection.read h bytes).1

def Filled (connection : HttpConnection) : Prop := connection.bufferSize ≤ connection.buffer.length

variable {connection : HttpConnection} {r : RequestText} {old bytes : Bytes} {h : ConnectionId}
  {chunks : List Bytes}

theorem Filled.receive (filled : connection.Filled) (bytes : Bytes) :
    (connection.receive bytes).Filled := by
  unfold Filled at filled
  have first := writeAt_length filled bytes
  have second : (writeAt (writeAt connection.buffer connection.bufferSize bytes)
      (connection.bufferSize + bytes.length) [0]).length = _ := writeAt_length (by omega) [0]
  simp only [Filled, HttpConnection.receive, second]
  omega

theorem Filled.consume (filled : connection.Filled) (length : Nat) :
    (connection.consume length).Filled := by
  unfold Filled at filled
  unfold HttpConnection.consume
  split
  · have size : (writeAt connection.buffer 0
        ((connection.buffer.drop length).take (connection.bufferSize - length))).length = _ :=
      writeAt_length (Nat.zero_le _) _
    simp only [Filled, size]
    omega
  · exact Nat.zero_le _

theorem read_cases (h : ConnectionId) (bytes : Bytes) (connection : HttpConnection) :
    (connection.read h bytes).1 = connection.receive bytes ∨
      ∃ length, (connection.read h bytes).1 = (connection.receive bytes).consume length := by
  unfold read
  split
  · exact .inr ⟨_, rfl⟩
  · exact .inl rfl
  · exact .inl rfl
  · exact .inl rfl

theorem Filled.read (filled : connection.Filled) (h : ConnectionId) (bytes : Bytes) :
    (connection.read h bytes).1.Filled := by
  rcases read_cases h bytes connection with same | ⟨length, same⟩
  · rw [same]
    exact filled.receive bytes
  · rw [same]
    exact (filled.receive bytes).consume length

theorem Filled.serve (filled : connection.Filled) (h : ConnectionId) (chunks : List Bytes) :
    (connection.serve h chunks).1.Filled := by
  induction chunks generalizing connection with
  | nil => exact filled
  | cons bytes chunks ih => exact ih (filled.read h bytes)

/-- Every chunk fits behind what the chunks before it have left in the buffer. -/
def Roomy (h : ConnectionId) (chunks : List Bytes) (connection : HttpConnection) : Prop :=
  ∀ past bytes, past ++ [bytes] <+: chunks →
    (connection.serve h past).1.bufferSize + bytes.length ≤ maxBufferSize

/-- What `hc_process` finds once the head is there: an `int` that is too big, or one that has
wrapped and never comes to an end. -/
theorem frame_oversized (valid : r.Oversized) (parsed : connection.header = some r.header)
    (buffer : ∃ stale, connection.buffer = bytes ++ stale)
    (size : connection.bufferSize = bytes.length) (head : r.head <+: bytes)
    (few : bytes.length ≤ maxBufferSize) :
    connection.frame h = .ok (if r.text.length < 2 ^ 31 then .tooBig else .incomplete) := by
  have inside := head.length_le
  obtain ⟨stale, buffer⟩ := buffer
  obtain ⟨tail, rfl⟩ := head
  have ends : find (httpLineSep ++ httpLineSep) (cstr connection.buffer) =
    some (r.head.length - 4) := by
    rw [buffer, List.append_assoc, cstr_append (nul_notMem_head valid.toHeaded)]
    exact find_blank_head valid.toHeaded
  have long := r.head_length
  have blank : r.head.length - 4 + 4 = r.head.length := by omega
  have whole : (r.head.length : Int) + r.body.length = r.text.length := by simp [text]
  have high := valid.large
  have fits := valid.fits
  simp only [maxBufferSize] at high few
  simp only [frame, parsed, ends, blank, contentSize_declared valid.sized valid.fits, size]
  rw [Int.add_comm, whole]
  by_cases small : r.text.length < 2 ^ 31
  · have high : (maxBufferSize : Int) ≤ r.text.length := by exact_mod_cast valid.large
    rw [toInt32_of_lt (by omega) (by omega), if_pos small, if_pos high]
  · have wraps := toInt32_of_wraps (x := r.text.length) (by omega) (by omega)
    have low : ¬ (r.text.length : Int) - 2 ^ 32 ≥ maxBufferSize := by
      simp only [maxBufferSize]; omega
    have huge := toSize_of_neg (x := r.text.length - 2 ^ 32) (by omega) (by omega)
    rw [wraps, if_neg low, if_neg (by omega), if_neg small]

theorem Filled.stands (filled : connection.Filled) (missing : connection.header = none)
    (coming : connection.unconsumed <+: r.text) : connection.Stands [r] connection.unconsumed where
  buffer := ⟨connection.buffer.drop connection.bufferSize, (List.take_append_drop _ _).symm⟩
  size := (List.length_take_of_le filled).symm
  coming := by simpa using coming
  header header parsed := by
    rw [missing] at parsed
    cases parsed

theorem Stands.receive (stands : connection.Stands [r] old) (valid : r.Oversized)
    (coming : old ++ bytes <+: r.text) (few : (old ++ bytes).length ≤ maxBufferSize) :
    (connection.receive bytes).Stands [r] (old ++ bytes) ∧
      ((connection.receive bytes).header.isSome ↔ r.head.length ≤ (old ++ bytes).length) ∧
      ∀ h, (connection.receive bytes).header.isSome → (connection.receive bytes).frame h =
        .ok (if r.text.length < 2 ^ 31 then .tooBig else .incomplete) := by
  have coming : old ++ bytes <+: stream [r] := by simpa using coming
  have headed := List.forall_mem_singleton.mpr valid.toHeaded
  have received := stands.received headed coming
  refine ⟨received, ?_⟩
  rcases stands.parsed headed coming with ⟨missing, part⟩ | ⟨r', later, same, head, parsed⟩
  · have shorter := part r [] rfl
    refine ⟨?_, fun h there => by simp [missing] at there⟩
    simp only [missing, Option.isSome_none, Bool.false_eq_true, false_iff]
    omega
  · obtain ⟨rfl, rfl⟩ : r' = r ∧ later = [] := by simpa [eq_comm] using same
    refine ⟨by simpa [parsed] using head.length_le, fun h _ => ?_⟩
    exact frame_oversized valid parsed received.buffer received.size head few

theorem Stands.tooBig_iff (stands : connection.Stands [r] old) (valid : r.Oversized)
    (coming : old ++ bytes <+: r.text) (few : (old ++ bytes).length ≤ maxBufferSize) :
    (connection.receive bytes).frame h = .ok .tooBig ↔
      r.text.length < 2 ^ 31 ∧ r.head.length ≤ (old ++ bytes).length := by
  obtain ⟨-, parsed, framed⟩ := stands.receive valid coming few
  rw [← parsed]
  by_cases there : (connection.receive bytes).header.isSome
  · rw [framed h there]
    split <;> simp_all
  · have missing : (connection.receive bytes).header = none := by simpa using there
    simp [frame, missing]

theorem Stands.unframed (stands : connection.Stands [r] old) (valid : r.Oversized)
    (coming : old ++ bytes <+: r.text) (few : (old ++ bytes).length ≤ maxBufferSize)
    (request : HttpRequest) (length : Nat) :
    (connection.receive bytes).frame h ≠ .ok (.complete request length) := by
  obtain ⟨-, -, framed⟩ := stands.receive valid coming few
  by_cases there : (connection.receive bytes).header.isSome
  · rw [framed h there]
    split <;> simp
  · have missing : (connection.receive bytes).header = none := by simpa using there
    simp [frame, missing]

/-- Every read from the end of the head on is a refusal, as long as the size fits an `int`; no
request is handed over. -/
theorem Stands.refusals (stands : connection.Stands [r] old) (valid : r.Oversized)
    (coming : old ++ chunks.flatten <+: r.text) (roomy : connection.Roomy h chunks) :
    connection.refusals h chunks =
        (if r.text.length < 2 ^ 31 then endings r.head.length old.length chunks else 0) ∧
      (connection.serve h chunks).2 = [] ∧
      (connection.serve h chunks).1.Stands [r] (old ++ chunks.flatten) := by
  induction chunks generalizing connection old with
  | nil => simpa [HttpConnection.refusals, endings, HttpConnection.serve] using stands
  | cons bytes chunks ih =>
    rw [List.flatten_cons, ← List.append_assoc] at coming
    have first : old ++ bytes <+: r.text := (List.prefix_append _ _).trans coming
    have small : (old ++ bytes).length ≤ maxBufferSize := by
      rw [List.length_append, ← stands.size]
      exact roomy [] bytes ⟨chunks, rfl⟩
    have same := read_unframed (stands.unframed (h := h) valid first small)
    have roomy' : (connection.receive bytes).Roomy h chunks := fun past later listed => by
      have room := roomy (bytes :: past) later (List.cons_prefix_cons.mpr ⟨rfl, listed⟩)
      rwa [serve_cons, same] at room
    obtain ⟨count, nothing, last⟩ := ih (stands.receive valid first small).1 coming roomy'
    rw [HttpConnection.refusals, serve_cons, same, endings, ← List.length_append, count,
      List.flatten_cons, ← List.append_assoc]
    refine ⟨?_, by simpa using nothing, last⟩
    simp only [stands.tooBig_iff valid first small]
    by_cases fits : r.text.length < 2 ^ 31
    · simp only [fits, true_and, if_true]
    · simp only [fits, false_and, if_false]

theorem refusals_append (past : List Bytes) (bytes : Bytes) :
    connection.refusals h (past ++ [bytes]) =
    connection.refusals h past +
      if ((connection.serve h past).1.receive bytes).frame h = .ok .tooBig then 1 else 0 := by
  induction past generalizing connection with
  | nil =>
    simp only [List.nil_append, HttpConnection.refusals, HttpConnection.serve, Nat.add_zero,
      Nat.zero_add]
    rfl
  | cons first past ih =>
    rw [List.cons_append, HttpConnection.refusals, ih, HttpConnection.refusals, serve_cons,
      Nat.add_assoc]

theorem serve_append_chunks (past chunks : List Bytes) : connection.serve h (past ++ chunks) =
    (((connection.serve h past).1.serve h chunks).1,
      (connection.serve h past).2 ++ ((connection.serve h past).1.serve h chunks).2) := by
  induction past generalizing connection with
  | nil => simp [HttpConnection.serve]
  | cons bytes past ih => rw [List.cons_append, serve_cons, ih, serve_cons, List.append_assoc]

theorem read_bare (h : ConnectionId) (bytes : Bytes) (connection : HttpConnection) :
    connection.bare.read h bytes = ((connection.read h bytes).1.bare, (connection.read h bytes).2) := by
  have same : (connection.bare.receive bytes).frame h = (connection.receive bytes).frame h := rfl
  unfold read
  rw [same]
  rcases (connection.receive bytes).frame h with fault | (_ | _ | ⟨request, length⟩)
  · rfl
  · rfl
  · rfl
  · simp

theorem refusals_bare (h : ConnectionId) (chunks : List Bytes) (connection : HttpConnection) :
    connection.bare.refusals h chunks = connection.refusals h chunks := by
  induction chunks generalizing connection with
  | nil => rfl
  | cons bytes chunks ih =>
    rw [HttpConnection.refusals, read_bare, ih, HttpConnection.refusals]
    rfl

end HttpConnection

section Runs
variable {Iks : Type} [Iksemel Iks] {a : Assumed} {p p' : Phase Iks} {s s' : Server Iks}
  {h : ConnectionId}

def Fits (history : List (Record Iks)) : Prop := ∀ h, empty.Roomy h (receivedOn h history)

omit [Iksemel Iks] in
theorem Fits.entry {history : List (Record Iks)} (fits : Fits history) {entry : Record Iks}
    (same : ∀ h, receivedOn h (entry :: history) = receivedOn h history) :
    Fits (entry :: history) := fun h => by
  rw [same]
  exact fits h

theorem Micro.fits (step : Micro a (p, s) (p', s')) (takes : Takes (p, s)) (fits : Fits s.history) :
    Fits s'.history := by
  cases step with
  | @create _ _ k =>
    intro h
    by_cases mine : k = h
    · simp [receivedOn, mine, Roomy]
    · simpa [receivedOn, mine] using fits h
  | @receive _ _ k connection bytes _ here some_bytes room seen done =>
    intro h
    by_cases mine : k = h
    · subst mine
      have sound := takes.sound k
      have before : empty.serve k (receivedOn k s.history) =
        (connection.bare, handedOn k s.history) := by
        simpa [Intake.Sound, intake, Phase.stage_idle (p := p) (h := k) (by simp [seen]) done,
          here] using sound
      intro past later listed
      rw [receivedOn, if_pos rfl] at listed
      rcases List.prefix_concat_iff.mp listed with last | earlier
      · obtain ⟨rfl, same⟩ := List.append_inj' last rfl
        obtain rfl := List.singleton_inj.mp same
        have some_length := List.length_pos_iff.mpr some_bytes
        rw [before]
        simp only [bare]
        omega
      · exact fits k past later earlier
    · simpa [receivedOn, mine] using fits h
  | delete | deleteHeld | request | answer | drop | flush | hold | openSession | stanza | forget =>
    exact fits.entry fun _ => rfl
  | _ => exact fits

theorem fits_invariant (a : Assumed) :
    Invariant a fun q : Phase Iks × Server Iks => Takes q ∧ Fits q.2.history where
  initial s initial := by
    refine ⟨takes_initial initial, fun h => ?_⟩
    simp [initial.history, receivedOn, Roomy]
  hear s oracle kept := ⟨(takes_invariant a).hear s oracle kept.1, kept.2⟩
  micro p s p' s' step sound kept :=
    ⟨(takes_invariant a).micro p s p' s' step sound kept.1, step.fits kept.1 kept.2⟩

theorem Reaches.fits {admitted : Configuration Iks → Input Iks → Prop} {c : Configuration Iks}
    (run : Reaches admitted c) : Fits c.server.history :=
  ((fits_invariant (Assumed.of False False)).reaches (fun _ _ _ => .always) run).2.2

def httpError (msg : Bytes) : Bytes :=
  makeHttpHead 500 (htmlError msg).length httpHtmlContent ++ htmlError msg

theorem hcReceived_exact (upright : Upright s) {connection : HttpConnection}
    (here : s.connections h = some connection) {bytes : Bytes} {framed : Framed}
    (found : (connection.receive bytes).header.isSome → (connection.receive bytes).frame h = .ok framed)
    (unframed : ∀ request length, framed ≠ .complete request length) :
    Ensures (hcReceived h bytes s) (fun _ s' => ∃ net,
      Given connection.sock (if (connection.receive bytes).frame h = .ok .tooBig
        then httpError (ascii "Message is too big") else []) s.net.wire net.wire ∧
      s' = { s with
        net
        connections := Function.update s.connections h (some (connection.receive bytes))
        history := .received h bytes :: s.history }) fun _ => False := by
  obtain ⟨sock, there⟩ := Option.isSome_iff_exists.mp (upright.socket_connection here)
  have silent : Given connection.sock [] s.net.wire s.net.wire := .nothing there ⟨rfl, rfl, rfl⟩
  have read : (connection.receive bytes).sock = connection.sock := rfl
  generalize got : connection.receive bytes = connection' at found read ⊢
  unfold hcReceived modifyConnection
  rw [bind_assoc, run_bind_ok (getConnection_run here), run_modify, run_modify, got]
  have here' : ((s.setConnection h (some connection')).record (.received h bytes)).connections h =
      some connection' := Function.update_self ..
  rw [run_bind_ok (getConnection_run here')]
  by_cases parsed : connection'.header.isSome
  · rw [if_pos parsed, found parsed]
    unfold hcProcess
    rw [run_bind_ok (getConnection_run here'), found parsed, run_bind_ok (run_checked rfl)]
    cases framed with
    | tooBig =>
      dsimp only
      unfold hcReportError
      rw [run_bind_ok (getConnection_run here'), ← onNet_bind, onNet, ensures_part, read]
      have sent := sends_exact (n := s.net) upright.tidy (upright.socket_connection here)
        (makeHttpHead 500 (htmlError (ascii "Message is too big")).length httpHtmlContent)
        (htmlError (ascii "Message is too big"))
      exact sent.mono (fun _ net gives => ⟨net, by rw [if_pos rfl]; exact gives.given, rfl⟩) fun _ => id
    | incomplete => exact ⟨s.net, silent, rfl⟩
    | complete request length => exact absurd rfl (unframed request length)
  · have missing : connection'.frame h ≠ .ok .tooBig := by
      cases header : connection'.header with
      | none => simp [frame, header]
      | some _ => simp [header] at parsed
    rw [if_neg parsed, if_neg missing]
    exact ⟨s.net, silent, rfl⟩

/-- How often `hc_process` reports that the request is too big, while its bytes arrive. -/
theorem refused_once_iff {c₀ c : Configuration Iks} (run₀ : Reachable c₀) (run : Reachable c)
    {connection₀ : HttpConnection} (here₀ : c₀.server.connections h = some connection₀)
    (fresh : connection₀.header = none) {r : RequestText} (valid : r.Oversized)
    {chunks : List Bytes}
    (received : receivedOn h c.server.history = receivedOn h c₀.server.history ++ chunks)
    (coming : connection₀.unconsumed ++ chunks.flatten <+: r.text) :
    handedOn h c.server.history = handedOn h c₀.server.history ∧
      (connection₀.refusals h chunks = 1 ↔ r.text.length < 2 ^ 31 ∧
        endings r.head.length connection₀.unconsumed.length chunks = 1) ∧
      ∀ connection oracle bytes, c.server.connections h = some connection → bytes ≠ [] →
        connection₀.unconsumed ++ (chunks ++ [bytes]).flatten <+: r.text →
        bytes.length ≤ maxBufferSize - connection.bufferSize →
        ∃ s', hcReceived h bytes (c.server.hear oracle) = .ok ((), s') ∧
          receivedOn h s'.history = receivedOn h c.server.history ++ [bytes] ∧
          handedOn h s'.history = handedOn h c.server.history ∧
          Given connection.sock
            (if connection₀.refusals h (chunks ++ [bytes]) = connection₀.refusals h chunks + 1
              then httpError (ascii "Message is too big") else [])
            (c.server.hear oracle).net.wire s'.net.wire := by
  have served₀ := serve_of_reaches run₀ here₀
  have served : ∀ more, empty.serve h (receivedOn h c₀.server.history ++ more) =
      ((connection₀.bare.serve h more).1, handedOn h c₀.server.history ++ (connection₀.bare.serve h more).2) :=
    fun more => by rw [serve_append_chunks, served₀]
  have filled : connection₀.bare.Filled := by
    have all := (show empty.Filled from le_rfl).serve h (receivedOn h c₀.server.history)
    rwa [served₀] at all
  have stands : connection₀.bare.Stands [r] connection₀.unconsumed :=
    filled.stands fresh ((List.prefix_append _ _).trans coming)
  have roomy : connection₀.bare.Roomy h chunks := fun past bytes listed => by
    have room := run.fits h (receivedOn h c₀.server.history ++ past) bytes
    rw [received, List.append_assoc, List.prefix_append_right_inj, served] at room
    exact room listed
  obtain ⟨count, nothing, last⟩ := stands.refusals valid coming roomy
  rw [refusals_bare] at count
  have handed := handed_of_reaches run h
  rw [received, served, nothing, List.append_nil] at handed
  refine ⟨handed.symm, ?_, fun connection oracle bytes here some_bytes onward room => ?_⟩
  · rw [count]
    split
    · rename_i small
      exact (and_iff_right small).symm
    · rename_i large
      exact iff_of_false (by simp) fun both => large both.1
  · have now := serve_of_reaches run here
    rw [received, served, Prod.mk.injEq] at now
    rw [now.1] at last
    have stands' : connection.Stands [r] (connection₀.unconsumed ++ chunks.flatten) :=
      stands_bare last
    replace onward : connection₀.unconsumed ++ chunks.flatten ++ bytes <+: r.text := by
      simpa using onward
    have few : (connection₀.unconsumed ++ chunks.flatten ++ bytes).length ≤ maxBufferSize := by
      have some_length := List.length_pos_iff.mpr some_bytes
      have size := stands'.size
      rw [List.length_append]
      omega
    obtain ⟨-, -, framed⟩ := stands'.receive valid onward few
    obtain ⟨_, s', ran, net, given, rfl⟩ :=
      (hcReceived_exact (run.upright.hear oracle) here (framed h)
      fun request length => by split <;> simp).returns
    refine ⟨_, ran, by simp [receivedOn], rfl, ?_⟩
    have counted : connection₀.refusals h (chunks ++ [bytes]) = connection₀.refusals h chunks + 1 ↔
        (connection.receive bytes).frame h = .ok .tooBig := by
      rw [← refusals_bare, refusals_append, refusals_bare, now.1]
      change _ + (if (connection.receive bytes).frame h = .ok .tooBig then 1 else 0) = _ ↔ _
      split
      · rename_i tooBig
        exact iff_of_true rfl tooBig
      · rename_i other
        exact iff_of_false (by omega) other
    simp only [counted]
    exact given

end Runs

namespace Sample

def bulky : RequestText where
  type := ascii "POST"
  path := ascii "/"
  version := ascii "HTTP/1.1"
  fields := [⟨ascii "Content-Length", ascii " 131072"⟩]
  body := List.replicate 131072 120

theorem bulky_body : bulky.body.length = 131072 := List.length_replicate

theorem bulky_oversized : bulky.Oversized where
  type := (by decide +kernel : Token (ascii "POST"))
  path := (by decide +kernel : Token (ascii "/"))
  version := (by decide +kernel : Token (ascii "HTTP/1.1"))
  fields := List.forall_mem_singleton.mpr ⟨by decide +kernel, by decide +kernel, by decide +kernel⟩
  some_fields := List.cons_ne_nil _ _
  few_fields := (by decide : 1 ≤ maxHttpFields)
  sized := by
    have declared : declared [⟨ascii "Content-Length", ascii " 131072"⟩] = 131072 := by
      decide +kernel
    rw [bulky_body]
    exact declared
  fits := by
    rw [bulky_body]
    decide
  large := by
    rw [text, List.length_append, bulky_body, maxBufferSize]
    omega

def bulkyHead : Bytes := ascii "POST / HTTP/1.1\r\nContent-Length: 131072\r\n\r\n"

theorem bulky_head : bulky.head = bulkyHead := by
  have whole : ∀ body, ({ bulky with body } : RequestText).head = bulky.head := fun _ => rfl
  rw [← whole []]
  decide +kernel

def announced : List (Input Sample) := accept 4 1 ++ arrive 4 bulkyHead

def begun : List (Input Sample) := announced ++ arrive 4 [120]

theorem accepted_connection :
    ∃ (c₀ : Configuration Sample) (connection₀ : HttpConnection), Reachable c₀ ∧
    c₀.server.connections 1 = some connection₀ ∧ receivedOn 1 c₀.server.history = [] ∧
    connection₀.bare = empty := by
  obtain ⟨c₀, run, there, nothing⟩ : ∃ c, Reachable c ∧ (c.server.connections 1).isSome ∧
      receivedOn 1 c.server.history = [] :=
    exists_reached (show (replay _ boot (accept 4 1)).any _ by decide +kernel)
  obtain ⟨connection₀, here⟩ := Option.isSome_iff_exists.mp there
  have served := serve_of_reaches run here
  rw [nothing] at served
  exact ⟨c₀, connection₀, run, here, nothing, (congrArg Prod.fst served).symm⟩

theorem announced_received : ∃ c : Configuration Sample, Reachable c ∧
    receivedOn 1 c.server.history = [bulkyHead] :=
  exists_reached (show (replay _ boot announced).any _ by decide +kernel)

theorem begun_received : ∃ c : Configuration Sample, Reachable c ∧
    receivedOn 1 c.server.history = [bulkyHead, [120]] :=
  exists_reached (show (replay _ boot begun).any _ by decide +kernel)

theorem bulkyHead_coming : bulkyHead <+: bulky.text := by
  rw [← bulky_head]
  exact List.prefix_append _ _

theorem begun_coming : bulkyHead ++ [120] <+: bulky.text := by
  rw [← bulky_head, text, List.prefix_append_right_inj, bulky, List.replicate_succ]
  exact ⟨_, rfl⟩

end Sample

/-- Only the head has arrived, in one read: that is reported once. -/
theorem refused_once_iff_announced : ∃ (c₀ c : Configuration Sample) (connection₀ : HttpConnection),
    Reachable c ∧ receivedOn 1 c.server.history = [Sample.bulkyHead] ∧
      c₀.server.connections 1 = some connection₀ ∧ connection₀.refusals 1 [Sample.bulkyHead] = 1 ∧
      handedOn 1 c.server.history = handedOn 1 c₀.server.history := by
  obtain ⟨c₀, connection₀, run₀, here₀, nothing, same⟩ := Sample.accepted_connection
  obtain ⟨c, run, received⟩ := Sample.announced_received
  have unconsumed : connection₀.unconsumed = [] := congrArg HttpConnection.unconsumed same
  have size : Sample.bulky.text.length < 2 ^ 31 := by
    rw [text, List.length_append, Sample.bulky_head, Sample.bulky_body]
    decide +kernel
  have once : endings Sample.bulky.head.length connection₀.unconsumed.length [Sample.bulkyHead] =
    1 := by
    rw [Sample.bulky_head, unconsumed]
    decide +kernel
  obtain ⟨handed, exactly, -⟩ :=
    refused_once_iff run₀ run here₀ (congrArg HttpConnection.header same)
    Sample.bulky_oversized (by rw [received, nothing, List.nil_append])
    (by simpa [unconsumed] using Sample.bulkyHead_coming)
  exact ⟨c₀, c, connection₀, run, received, here₀, exactly.mpr ⟨size, once⟩, handed⟩

/-- The first byte of the body arrives in a read of its own, and the request is refused once
more. -/
theorem refused_once_begun : ¬ ∀ (c₀ c : Configuration Sample) (h : ConnectionId)
    (connection₀ : HttpConnection) (r : RequestText) (chunks : List Bytes), Reachable c₀ →
      Reachable c →
      c₀.server.connections h = some connection₀ → connection₀.header = none → r.Oversized →
      receivedOn h c.server.history = receivedOn h c₀.server.history ++ chunks →
      connection₀.unconsumed ++ chunks.flatten <+: r.text →
      r.head <+: connection₀.unconsumed ++ chunks.flatten →
      handedOn h c.server.history = handedOn h c₀.server.history ∧
        connection₀.refusals h chunks = 1 :=
  fun claim => by
  obtain ⟨c₀, connection₀, run₀, here₀, nothing, same⟩ := Sample.accepted_connection
  have unconsumed : connection₀.unconsumed = [] := congrArg HttpConnection.unconsumed same
  obtain ⟨c, run, received⟩ := Sample.begun_received
  have twice : empty.refusals 1 [Sample.bulkyHead, [120]] = 2 := by decide +kernel
  have once := (claim c₀ c 1 connection₀ Sample.bulky [Sample.bulkyHead, [120]] run₀ run here₀
    (congrArg HttpConnection.header same) Sample.bulky_oversized (by rw [received, nothing, List.nil_append])
    (by simpa [unconsumed] using Sample.begun_coming)
    (by simp [unconsumed, Sample.bulky_head])).2
  rw [← refusals_bare, same, twice] at once
  exact absurd once (by decide)

end Bosh
