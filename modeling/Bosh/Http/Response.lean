import Bosh.Http.Message
import Bosh.Server.Effects

/-! The responses on a connection, read back with the parser for requests. -/
namespace Bosh
open Effect Text

/-- The first response of a stream: its content, as far as Content-Length says, and what is
behind. -/
def takeResponse (stream : Bytes) : Option (Bytes × Bytes) :=
  match find (httpLineSep ++ httpLineSep) stream with
  | none => none
  | some i =>
    let head := stream.take (i + (httpLineSep ++ httpLineSep).length)
    let rest := stream.drop (i + (httpLineSep ++ httpLineSep).length)
    match httpParse (cstr head) with
    | none => none
    | some header =>
      match httpGetField header (ascii "Content-Length") with
      | none => none
      | some value =>
        let size := atoi value
        if 0 ≤ size ∧ size ≤ rest.length then some (rest.take size.toNat, rest.drop size.toNat) else none

def readResponses (stream : Bytes) : Option (List Bytes) :=
  takeAll takeResponse stream.length stream

structure Response where
  contentType : Bytes
  msg : Bytes

namespace Response

def bytes (r : Response) : Bytes := httpResponse r.contentType r.msg

structure WellFormed (r : Response) : Prop where
  contentType : ∀ b ∈ r.contentType, b ≠ 13 ∧ b ≠ 10 ∧ b ≠ 0
  size : r.msg.length < 2 ^ 31

def text (r : Response) : RequestText where
  type := ascii "HTTP/1.1"
  path := ascii "200"
  version := ascii "OK"
  fields := [
    ⟨ascii "Content-type", ascii " " ++ r.contentType ++ ascii "; charset=UTF-8"⟩,
    ⟨ascii "Access-Control-Allow-Origin", ascii " *"⟩,
    ⟨ascii "Content-Length", ascii " " ++ decimal r.msg.length⟩]
  body := r.msg

variable {r : Response}

theorem text_head (small : r.msg.length < 2 ^ 31) :
    r.text.head = makeHttpHead 200 r.msg.length r.contentType := by
  have size : decimalInt (toInt32 r.msg.length) = decimal r.msg.length := by
    rw [toInt32_of_lt (by omega) (by omega), decimalInt, if_neg (by omega)]
    rfl
  have code : decimalInt 200 = ascii "200" := by decide +kernel
  have line : ascii "HTTP/1.1 " = ascii "HTTP/1.1" ++ [32] := by decide +kernel
  have type : ascii "Content-type: " = ascii "Content-type" ++ 58 :: ascii " " := by decide +kernel
  have charset : ascii "; charset=UTF-8\r\n" = ascii "; charset=UTF-8" ++ httpLineSep := by
    decide +kernel
  have origin : ascii "Access-Control-Allow-Origin: *\r\n" =
      ascii "Access-Control-Allow-Origin" ++ 58 :: (ascii " *" ++ httpLineSep) := by decide +kernel
  have length : ascii "Content-Length: " = ascii "Content-Length" ++ 58 :: ascii " " := by
    decide +kernel
  have space : ascii " " = [32] := by decide +kernel
  rw [makeHttpHead, size, code, line, type, charset, origin, length]
  simp [RequestText.head, RequestText.requestLine, RequestText.fieldLines, HttpField.line, text,
    space, httpLineSep]

theorem WellFormed.headed (valid : r.WellFormed) : r.text.Headed where
  type := (by decide +kernel : RequestText.Token (ascii "HTTP/1.1"))
  path := (by decide +kernel : RequestText.Token (ascii "200"))
  version := (by decide +kernel : RequestText.Token (ascii "OK"))
  fields := by
    have type : ascii "Content-type" ≠ [] ∧
        ∀ b ∈ ascii "Content-type", isSpace b = false ∧ b ≠ 58 ∧ b ≠ 0 := by decide +kernel
    have length : ascii "Content-Length" ≠ [] ∧
        ∀ b ∈ ascii "Content-Length", isSpace b = false ∧ b ≠ 58 ∧ b ≠ 0 := by decide +kernel
    have digits : ∀ b ∈ decimal r.msg.length, b ≠ 13 ∧ b ≠ 10 ∧ b ≠ 0 := fun b listed => by
      have digit := decimal_digits _ b listed
      refine ⟨?_, ?_, ?_⟩
      all_goals
        rintro rfl
        cases digit
    have front : ∀ b ∈ ascii " ", b ≠ 13 ∧ b ≠ 10 ∧ b ≠ 0 := by decide +kernel
    have behind : ∀ b ∈ ascii "; charset=UTF-8", b ≠ 13 ∧ b ≠ 10 ∧ b ≠ 0 := by decide +kernel
    rintro field (_ | ⟨_, _ | ⟨_, _ | ⟨_, ⟨⟩⟩⟩⟩)
    · refine ⟨type.1, type.2, fun b listed => ?_⟩
      rcases List.mem_append.mp listed with listed | listed
      · rcases List.mem_append.mp listed with listed | listed
        · exact front b listed
        · exact valid.contentType b listed
      · exact behind b listed
    · exact ⟨by decide +kernel, by decide +kernel, by decide +kernel⟩
    · refine ⟨length.1, length.2, fun b listed => ?_⟩
      rcases List.mem_append.mp listed with listed | listed
      · exact front b listed
      · exact digits b listed
  some_fields := by simp [text]
  few_fields := by
    simp only [text, List.length_cons, List.length_nil]
    decide

theorem WellFormed.field (valid : r.WellFormed) : ∃ value,
    httpGetField r.text.header (ascii "Content-Length") = some value ∧
      atoi value = r.msg.length := by
  refine ⟨ascii " " ++ decimal r.msg.length, ?_, ?_⟩
  · have type : ascii "Content-type" ≠ ascii "Content-Length" := by decide +kernel
    have origin : ascii "Access-Control-Allow-Origin" ≠ ascii "Content-Length" := by decide +kernel
    simp [httpGetField, RequestText.header, text, type, origin]
  · have space : ascii " " = [32] := by decide +kernel
    rw [space]
    exact atoi_eq (by rw [List.singleton_append, readInt_space, Option.getD_some]) valid.size

/-- A response is read whatever follows it. -/
theorem WellFormed.takeResponse (valid : r.WellFormed) (rest : Bytes) :
    takeResponse (r.bytes ++ rest) = some (r.msg, rest) := by
  obtain ⟨value, found, size⟩ := valid.field
  have shape : r.bytes ++ rest = r.text.head ++ (r.msg ++ rest) := by
    rw [text_head valid.size, ← List.append_assoc]
    rfl
  have blank : find (httpLineSep ++ httpLineSep) (r.bytes ++ rest) =
    some (r.text.head.length - 4) := by
    rw [shape]
    exact find_blank_head valid.headed
  have four : (httpLineSep ++ httpLineSep).length = 4 := by decide +kernel
  have long : 4 ≤ r.text.head.length := by
    simp only [RequestText.head, List.length_append, httpLineSep_eq, List.length_cons,
      List.length_nil]
    omega
  have head : (r.bytes ++ rest).take (r.text.head.length - 4 + 4) = r.text.head := by
    rw [shape, Nat.sub_add_cancel long, List.take_left]
  have behind : (r.bytes ++ rest).drop (r.text.head.length - 4 + 4) = r.msg ++ rest := by
    rw [shape, Nat.sub_add_cancel long, List.drop_left]
  have parsed : httpParse (cstr r.text.head) = some r.text.header := by
    simpa using httpParse_buffered valid.headed []
  rw [Bosh.takeResponse, blank]
  have fits : (0 : Int) ≤ r.msg.length ∧ (r.msg.length : Int) ≤ (r.msg ++ rest).length := by
    rw [List.length_append]
    omega
  simp only [four, head, behind, parsed, found, size, if_pos fits, Int.toNat_natCast,
    List.take_left, List.drop_left]

theorem WellFormed.readResponses {rs : List Response} (valid : ∀ r ∈ rs, r.WellFormed) :
    readResponses (rs.flatMap bytes) = some (rs.map msg) := by
  refine takeAll_flatMap (fun r listed empty => ?_) (fun r listed => (valid r listed).takeResponse) le_rfl
  have taken := (valid r listed).takeResponse []
  rw [empty] at taken
  cases taken

end Response

section Writing
variable {Iks : Type} {s s' : Server Iks} {h : ConnectionId} {i : SocketId} {rs : List Response}

/-- These responses have been given on a connection, one call after the other. Between two calls
anything may happen that gives its socket nothing. -/
inductive Answering (h : ConnectionId) (i : SocketId) :
    List Response → Server Iks → Server Iks → Prop where
  | done (s : Server Iks) : Answering h i [] s s
  | answer {r : Response} {rs : List Response} {s s₁ s' : Server Iks} (answerer : Answerer Iks) :
      hsAnswerRequest h answerer r.msg r.contentType s = .ok ((), s₁) →
      Answering h i rs s₁ s' → Answering h i (r :: rs) s s'
  | between {rs : List Response} {s s₁ s' : Server Iks} : Given i [] s.net.wire s₁.net.wire →
      (∀ connection, s₁.connections h = some connection → connection.sock = i) →
      Answering h i rs s₁ s' → Answering h i rs s s'

theorem Answering.given (run : Answering h i rs s s') (there : (s.net.sockets i).isSome)
    (mine : ∀ connection, s.connections h = some connection → connection.sock = i) :
    Given i (rs.flatMap Response.bytes) s.net.wire s'.net.wire := by
  induction run with
  | done s =>
    obtain ⟨sock, there⟩ := Option.isSome_iff_exists.mp there
    exact .nothing there ⟨rfl, rfl, rfl⟩
  | @answer r rs s s₁ s' answerer ran _ ih =>
    obtain ⟨connection, net, here, gives, rfl⟩ := (hsAnswerRequest_spec _ _ _ _).of_ok ran
    obtain rfl := mine connection here
    have here₁ : (s.answered h connection net answerer r.msg).connections h =
        some { connection with closeCallback := none } := Function.update_self ..
    refine gives.given.trans (ih gives.given.isSome fun connection' here' => ?_)
    obtain rfl := Option.some.inj (here₁.symm.trans here')
    rfl
  | between given mine' _ ih => exact given.trans (ih given.isSome mine')

theorem answering_returns (tidy : s.Tidy) {connection : HttpConnection}
    (here : s.connections h = some connection) (there : (s.net.sockets connection.sock).isSome)
    (rs : List Response) : ∃ s', Answering h connection.sock rs s s' := by
  induction rs generalizing s connection with
  | nil => exact ⟨s, .done s⟩
  | cons r rs ih =>
    have exact := (hsAnswerRequest_exact tidy (fun _ here' => Option.some.inj (here.symm.trans here') ▸ there)
      .request r.msg r.contentType).both (hsAnswerRequest_keeps tidy_lasting.toPersistent h .request r.msg r.contentType s tidy)
    obtain ⟨_, s₁, ran, ⟨_, net, here', gives, rfl⟩, tidy₁⟩ := Ensures.returns
      (exact.mono (fun _ _ => id) fun _ absent => absurd (here.symm.trans absent.1) (by simp))
    obtain rfl := Option.some.inj (here.symm.trans here')
    obtain ⟨s', rest⟩ := ih tidy₁ (Function.update_self ..) gives.given.isSome
    exact ⟨s', .answer .request ran rest⟩

/-- The responses on a connection are read back from its socket's stream, the head of each with the
parser for requests: the contents in order, and nothing left over. -/
theorem responses_read (upright : Upright s) {connection : HttpConnection}
    (here : s.connections h = some connection) (valid : ∀ r ∈ rs, r.WellFormed) :
    (∃ s', Answering h connection.sock rs s s') ∧
      ∀ s', Answering h connection.sock rs s s' →
        Given connection.sock (rs.flatMap Response.bytes) s.net.wire s'.net.wire ∧
          readResponses (rs.flatMap Response.bytes) = some (rs.map Response.msg) := by
  have there := upright.socket_connection here
  refine ⟨answering_returns upright.tidy here there rs, fun s' run => ?_⟩
  refine ⟨run.given there fun connection' here' => ?_, Response.WellFormed.readResponses valid⟩
  rw [Option.some.inj (here'.symm.trans here)]

end Writing

def Sample.nested : List Response :=
  [⟨ascii "text/xml", ascii "HTTP/1.1 200 OK\r\n\r\n"⟩, ⟨ascii "text/html", []⟩]

theorem Sample.nested_wellFormed : ∀ r ∈ nested, r.WellFormed := by
  rintro r (_ | ⟨_, _ | ⟨_, ⟨⟩⟩⟩)
  · exact ⟨by decide +kernel, by decide +kernel⟩
  · exact ⟨by decide +kernel, by decide +kernel⟩

theorem responses_read_nested :
    ∃ (s s' : Server Sample) (i : SocketId), Answering 1 i Sample.nested s s' ∧
    Given i (Sample.nested.flatMap Response.bytes) s.net.wire s'.net.wire ∧
    readResponses (Sample.nested.flatMap Response.bytes) = some [ascii "HTTP/1.1 200 OK\r\n\r\n", []] := by
  have run : Reaches NoOverlap (Sample.reached NoOverlap Sample.held Sample.held_apart) :=
    Sample.reaches_reached
  have live : ((Sample.reached NoOverlap Sample.held Sample.held_apart).server.connections 1).isSome := by
    decide +kernel
  obtain ⟨connection, here⟩ := Option.isSome_iff_exists.mp live
  obtain ⟨⟨s', answered⟩, read⟩ := responses_read run.upright here Sample.nested_wellFormed
  exact ⟨_, s', connection.sock, answered, read s' answered⟩

end Bosh
