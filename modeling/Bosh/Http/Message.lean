import Bosh.Http.Connection

/-! The text of an HTTP request, and what `http_parse` makes of it. -/
namespace Bosh
open Text

/-- The parts of a request as a client writes it. -/
structure RequestText where
  type : Bytes
  path : Bytes
  version : Bytes
  fields : List HttpField
  body : Bytes

def HttpField.line (field : HttpField) : Bytes := field.name ++ 58 :: field.value

namespace RequestText

def requestLine (r : RequestText) : Bytes := r.type ++ 32 :: (r.path ++ 32 :: r.version)

def fieldLines (fields : List HttpField) : Bytes :=
  fields.flatMap fun field => field.line ++ httpLineSep

def head (r : RequestText) : Bytes :=
  r.requestLine ++ httpLineSep ++ (fieldLines r.fields ++ httpLineSep)

def text (r : RequestText) : Bytes := r.head ++ r.body

def header (r : RequestText) : HttpHeader := ⟨r.type, r.path, r.fields⟩

/-- The body's length as the first field of that name says it, 0 without one. -/
def declared (fields : List HttpField) : Int :=
  match fields.find? fun field => field.name = ascii "Content-Length" with
  | none => 0
  | some field => (readInt field.value).getD 0

def Token (bytes : Bytes) : Prop :=
  bytes ≠ [] ∧ ∀ b ∈ bytes, b ≠ 32 ∧ b ≠ 13 ∧ b ≠ 10 ∧ b ≠ 0

instance (bytes : Bytes) : Decidable (Token bytes) := inferInstanceAs (Decidable (_ ∧ _))

def status : RequestText where
  type := ascii "GET"
  path := ascii "/"
  version := ascii "HTTP/1.1"
  fields := [⟨ascii "Host", ascii "h"⟩]
  body := []

end RequestText

structure HttpField.WellFormed (field : HttpField) : Prop where
  some_name : field.name ≠ []
  name : ∀ b ∈ field.name, isSpace b = false ∧ b ≠ 58 ∧ b ≠ 0
  value : ∀ b ∈ field.value, b ≠ 13 ∧ b ≠ 10 ∧ b ≠ 0

structure RequestText.Headed (r : RequestText) : Prop where
  type : Token r.type
  path : Token r.path
  version : Token r.version
  fields : ∀ field ∈ r.fields, field.WellFormed
  some_fields : r.fields ≠ []
  few_fields : r.fields.length ≤ maxHttpFields

structure RequestText.WellFormed (r : RequestText) : Prop extends Headed r where
  sized : declared r.fields = r.body.length
  fits : r.text.length < maxBufferSize

namespace HttpField.WellFormed
variable {field : HttpField}

theorem name_ne (h : field.WellFormed) {b : UInt8} (member : b ∈ field.name) :
    b ≠ 58 ∧ b ≠ 13 ∧ b ≠ 10 ∧ b ≠ 0 := by
  obtain ⟨space, colon, nul⟩ := h.name b member
  refine ⟨colon, ?_, ?_, nul⟩
  all_goals
    rintro rfl
    exact absurd space (by decide)

theorem line_ne (h : field.WellFormed) {b : UInt8} (member : b ∈ field.line) :
    b ≠ 13 ∧ b ≠ 10 ∧ b ≠ 0 := by
  rcases List.mem_append.mp member with name | value
  · exact (h.name_ne name).2
  · rcases List.mem_cons.mp value with rfl | value
    · decide
    · exact h.value b value

theorem line_eq (h : field.WellFormed) :
    ∃ b rest, field.line = b :: rest ∧ isSpace b = false := by
  obtain ⟨b, rest, name⟩ := List.exists_cons_of_ne_nil h.some_name
  refine ⟨b, rest ++ 58 :: field.value, by simp [line, name], ?_⟩
  exact (h.name b (by simp [name])).1

end HttpField.WellFormed

theorem httpLineSep_eq : httpLineSep = [13, 10] := by decide

section Parsing
variable {r : RequestText} {fields : List HttpField} {rest : Bytes}

open RequestText

theorem strsplit_cons {token : Bytes} (valid : Token token) (n : Nat) {next : Bytes}
    (other : next.head? ≠ some 32) :
    strsplit 32 (n + 1) (token ++ 32 :: next) = token :: strsplit 32 n next := by
  have absent : 32 ∉ token := fun member => (valid.2 32 member).1 rfl
  have start : (32 :: next).dropWhile (· == 32) = next := by
    cases next with
    | nil => rfl
    | cons b next =>
      have : b ≠ 32 := by simpa using other
      simp [this]
  rw [strsplit, if_neg (by simp), takeWhile_until absent, dropWhile_until absent, start]

theorem strsplit_last {token : Bytes} (valid : Token token) (n : Nat) :
    strsplit 32 (n + 1) token = [token] := by
  have absent : ∀ b ∈ token, (b != 32) = true := fun b member => by simpa using (valid.2 b member).1
  rw [strsplit, if_neg valid.1, List.takeWhile_eq_self_iff.mpr absent,
    List.dropWhile_eq_nil_iff.mpr absent]
  cases n <;> simp [strsplit]

theorem Token.head {token : Bytes} (valid : Token token) (rest : Bytes) :
    (token ++ rest).head? ≠ some 32 := by
  obtain ⟨b, bytes, rfl⟩ := List.exists_cons_of_ne_nil valid.1
  simpa using (valid.2 b (by simp)).1

theorem strsplit_requestLine (valid : r.Headed) :
    strsplit 32 3 r.requestLine = [r.type, r.path, r.version] := by
  rw [requestLine, strsplit_cons valid.type _ (Token.head valid.path _),
    strsplit_cons valid.path _ (by simpa using Token.head valid.version []), strsplit_last valid.version]

theorem requestLine_ne (valid : r.Headed) {b : UInt8} (member : b ∈ r.requestLine) :
    b ≠ 13 ∧ b ≠ 10 ∧ b ≠ 0 := by
  simp only [requestLine, List.mem_append, List.mem_cons] at member
  rcases member with type | rfl | path | rfl | version
  · exact (valid.type.2 b type).2
  · decide
  · exact (valid.path.2 b path).2
  · decide
  · exact (valid.version.2 b version).2

theorem strstrany_requestLine (valid : r.Headed) :
    strstrany (r.requestLine ++ httpLineSep ++ rest) httpLineSep = some r.requestLine.length := by
  have before : ∀ b ∈ r.requestLine, b ∉ httpLineSep := fun b member => by
    have := requestLine_ne valid member
    simp [httpLineSep_eq, this]
  rw [strstrany, List.append_assoc, List.findIdx?_append,
    List.findIdx?_eq_none_iff.mpr (by simpa using before)]
  simp [httpLineSep_eq, List.findIdx?_cons]

theorem httpFields_cons {field : HttpField} (valid : field.WellFormed) (n : Nat) :
    httpFields (n + 1) (field.line ++ httpLineSep ++ rest) =
      (httpFields n rest).map (field :: ·) := by
  have newline : find [10] (field.line ++ httpLineSep ++ rest) = some (field.line.length + 1) := by
    have absent : 10 ∉ field.line ++ [13] := fun member => by
      rcases List.mem_append.mp member with inside | last
      · exact (valid.line_ne inside).2.1 rfl
      · simp at last
    have := find_single absent rest
    simpa [httpLineSep_eq] using this
  have colon : find [58] (field.line ++ httpLineSep ++ rest) = some field.name.length := by
    have absent : 58 ∉ field.name := fun member => (valid.name_ne member).1 rfl
    simpa [HttpField.line] using find_single absent (field.value ++ (httpLineSep ++ rest))
  have length : field.line.length = field.name.length + 1 + field.value.length := by
    simp [HttpField.line]
    omega
  have next : (field.line ++ httpLineSep ++ rest).drop (field.line.length + 1 + 1) = rest := by
    have size : (field.line ++ httpLineSep).length = field.line.length + 1 + 1 := by
      simp [httpLineSep_eq]
    rw [← size, List.drop_left]
  have ending : (field.line ++ httpLineSep ++ rest)[field.line.length]? = some 13 := by
    simp [httpLineSep_eq]
  have name : strndup (field.line ++ httpLineSep ++ rest) field.name.length = field.name := by
    rw [strndup, if_neg (by omega)]
    simp [HttpField.line]
  have value : strndup ((field.line ++ httpLineSep ++ rest).drop (field.name.length + 1))
      (field.line.length - (field.name.length + 1)) = field.value := by
    rw [strndup, if_neg (by omega), length]
    have behind : (field.line ++ httpLineSep ++ rest).drop (field.name.length + 1) =
        field.value ++ (httpLineSep ++ rest) := by
      have start : (field.name ++ [58]).length = field.name.length + 1 := by simp
      rw [← start, HttpField.line]
      simp [List.drop_append]
    rw [behind]
    have size : ((field.name.length + 1 + field.value.length : Nat) - (field.name.length + 1) : Int).toNat =
        field.value.length := by omega
    rw [size, List.take_left]
  have nonempty : field.line.length ≠ 0 := by omega
  rw [httpFields, newline]
  simp only [next, Nat.add_sub_cancel, ending, Nat.zero_lt_succ, and_self, if_true, if_neg nonempty,
    colon, name, value]

@[simp] theorem fieldLines_cons (field : HttpField) (fields : List HttpField) :
    fieldLines (field :: fields) = field.line ++ httpLineSep ++ fieldLines fields := by
  simp [fieldLines]

theorem httpFields_fieldLines (valid : ∀ field ∈ fields, field.WellFormed) (n : Nat)
    (few : fields.length ≤ n) :
    httpFields n (fieldLines fields ++ httpLineSep ++ rest) = some fields := by
  induction fields generalizing n with
  | nil =>
    cases n with
    | zero => rfl
    | succ n => simp [httpFields, fieldLines, httpLineSep_eq, find]
  | cons field fields ih =>
    obtain ⟨n, rfl⟩ : ∃ m, n = m + 1 := ⟨n - 1, by simp at few; omega⟩
    have first : httpFields (n + 1)
        (field.line ++ httpLineSep ++ (fieldLines fields ++ httpLineSep ++ rest)) = _ :=
      httpFields_cons (valid field (by simp)) n
    rw [fieldLines_cons, List.append_assoc, List.append_assoc,
      ← List.append_assoc (fieldLines fields), first, ih (fun f listed => valid f (by simp [listed])) n (by simpa using few)]
    rfl

theorem fieldLines_eq (valid : ∀ field ∈ fields, field.WellFormed) (some_fields : fields ≠ []) :
    ∃ b bytes, fieldLines fields = b :: bytes ∧ isSpace b = false := by
  obtain ⟨field, fields, rfl⟩ := List.exists_cons_of_ne_nil some_fields
  obtain ⟨b, bytes, line, space⟩ := (valid field (by simp)).line_eq
  exact ⟨b, _, by rw [fieldLines_cons, line]; rfl, space⟩

theorem fieldLines_start (valid : ∀ field ∈ fields, field.WellFormed) (some_fields : fields ≠ [])
    {b : UInt8} (space : isSpace b = true) (rest : Bytes) :
    (fieldLines fields ++ rest).head? ≠ some b := by
  obtain ⟨b', bytes, same, other⟩ := fieldLines_eq valid some_fields
  rw [same]
  rintro ⟨⟩
  simp [space] at other

theorem find_blank_skip {line next : Bytes} (absent : 13 ∉ line) (start : next.head? ≠ some 13) :
    find (httpLineSep ++ httpLineSep) (line ++ httpLineSep ++ next) =
      (find (httpLineSep ++ httpLineSep) next).map (· + (line.length + 2)) := by
  have different : ¬ [10, 13, 10] <+: 10 :: next := by
    rintro ⟨rest, same⟩
    simp [← (List.cons.inj same).2] at start
  have skipped : find [13, 10, 13, 10] (line ++ 13 :: 10 :: next) = _ := find_skip absent different
  have behind : find [13, 10, 13, 10] (10 :: next) = (find [13, 10, 13, 10] next).map (· + 1) := by
    simp [find]
  rw [behind, Option.map_map] at skipped
  simp only [httpLineSep_eq, List.append_assoc, List.cons_append, List.nil_append]
  rw [skipped]
  congr 1
  funext n
  simp only [Function.comp_apply]
  omega

theorem find_blank_here {line rest : Bytes} (absent : 13 ∉ line) :
    find (httpLineSep ++ httpLineSep) (line ++ httpLineSep ++ (httpLineSep ++ rest)) =
      some line.length := by
  have here : find [13, 10, 13, 10] (line ++ 13 :: 10 :: 13 :: 10 :: rest) = _ :=
    find_here absent ⟨rest, rfl⟩
  simpa [httpLineSep_eq] using here

theorem find_blank_fieldLines (valid : ∀ field ∈ fields, field.WellFormed)
    (some_fields : fields ≠ []) :
    find (httpLineSep ++ httpLineSep) (fieldLines fields ++ (httpLineSep ++ rest)) =
      some ((fieldLines fields).length - 2) := by
  induction fields with
  | nil => exact absurd rfl some_fields
  | cons field fields ih =>
    have absent : 13 ∉ field.line := fun member => ((valid field (by simp)).line_ne member).1 rfl
    have others : ∀ f ∈ fields, f.WellFormed := fun f listed => valid f (by simp [listed])
    rw [fieldLines_cons]
    cases fields with
    | nil =>
      have size : (field.line ++ httpLineSep ++ fieldLines []).length - 2 = field.line.length := by
        simp [fieldLines, httpLineSep_eq]
      rw [size]
      simpa [fieldLines] using find_blank_here absent
    | cons next fields =>
      have start := fieldLines_start others (by simp) (b := 13) rfl (httpLineSep ++ rest)
      have size : 2 ≤ (fieldLines (next :: fields)).length := by simp [httpLineSep_eq]; omega
      rw [List.append_assoc, find_blank_skip absent start, ih others (by simp)]
      simp only [Option.map_some, List.length_append, httpLineSep_eq, List.length_cons,
        List.length_nil]
      congr 1
      omega

theorem find_blank_head (valid : r.Headed) :
    find (httpLineSep ++ httpLineSep) (r.head ++ rest) = some (r.head.length - 4) := by
  have absent : 13 ∉ r.requestLine := fun member => (requestLine_ne valid member).1 rfl
  have start := fieldLines_start valid.fields valid.some_fields (b := 13) rfl (httpLineSep ++ rest)
  have size : 2 ≤ (fieldLines r.fields).length := by
    obtain ⟨field, fields, same⟩ := List.exists_cons_of_ne_nil valid.some_fields
    simp [same, httpLineSep_eq]
    omega
  rw [RequestText.head, List.append_assoc, List.append_assoc (fieldLines r.fields),
    find_blank_skip absent start, find_blank_fieldLines valid.fields valid.some_fields]
  simp only [Option.map_some, List.length_append, httpLineSep_eq, List.length_cons, List.length_nil]
  congr 1
  omega

theorem find_newlines_skip {line next : Bytes} (absent : 10 ∉ line) (start : next.head? ≠ some 10)
    (missing : find [10, 10] next = none) : find [10, 10] (line ++ httpLineSep ++ next) = none := by
  have different : ¬ [10] <+: next := by
    rintro ⟨rest, rfl⟩
    simp at start
  have absent' : 10 ∉ line ++ [13] := by simpa using absent
  have skipped : find [10, 10] ((line ++ [13]) ++ 10 :: next) = _ := find_skip absent' different
  rw [missing] at skipped
  simpa [httpLineSep_eq] using skipped

theorem find_newlines_head (valid : r.Headed) : find [10, 10] r.head = none := by
  have lines : ∀ fields : List HttpField, (∀ field ∈ fields, field.WellFormed) →
      find [10, 10] (fieldLines fields ++ httpLineSep) = none := by
    intro fields valid
    induction fields with
    | nil => decide
    | cons field fields ih =>
      have absent : 10 ∉ field.line :=
        fun member => ((valid field (by simp)).line_ne member).2.1 rfl
      have others : ∀ f ∈ fields, f.WellFormed := fun f listed => valid f (by simp [listed])
      rw [fieldLines_cons, List.append_assoc]
      refine find_newlines_skip absent ?_ (ih others)
      by_cases last : fields = []
      · simp [last, fieldLines, httpLineSep_eq]
      · exact fieldLines_start others last rfl _
  have absent : 10 ∉ r.requestLine := fun member => (requestLine_ne valid member).2.1 rfl
  exact find_newlines_skip absent (fieldLines_start valid.fields valid.some_fields rfl _)
    (lines r.fields valid.fields)

theorem nul_notMem_head (valid : r.Headed) : 0 ∉ r.head := by
  have lines : 0 ∉ fieldLines r.fields := fun member => by
    obtain ⟨field, listed, inside⟩ := List.mem_flatMap.mp member
    rcases List.mem_append.mp inside with line | ending
    · exact ((valid.fields field listed).line_ne line).2.2 rfl
    · simp [httpLineSep_eq] at ending
  have line : 0 ∉ r.requestLine := fun member => (requestLine_ne valid member).2.2 rfl
  simp [RequestText.head, line, lines, httpLineSep_eq]

theorem httpParse_head (valid : r.Headed) : httpParse (r.head ++ rest) = some r.header := by
  have shape : r.head ++ rest =
      r.requestLine ++ httpLineSep ++ (fieldLines r.fields ++ httpLineSep ++ rest) := by
    simp [RequestText.head]
  have found : ¬ (find (httpLineSep ++ httpLineSep) (r.head ++ rest) = none ∧
      find [10, 10] (r.head ++ rest) = none) := by
    simp [find_blank_head valid]
  obtain ⟨b, bytes, lines, space⟩ := fieldLines_eq valid.fields valid.some_fields
  have behind : ((r.head ++ rest).drop r.requestLine.length).dropWhile isSpace =
      fieldLines r.fields ++ httpLineSep ++ rest := by
    rw [shape, List.append_assoc, List.drop_left, lines, httpLineSep_eq]
    have cr : isSpace 13 = true := rfl
    have lf : isSpace 10 = true := rfl
    simp [space, cr, lf]
  have front : (r.head ++ rest).take r.requestLine.length = r.requestLine := by
    rw [shape, List.append_assoc, List.take_left]
  have ending : strstrany (r.head ++ rest) httpLineSep = some r.requestLine.length := by
    rw [shape]
    exact strstrany_requestLine valid
  rw [httpParse, if_neg found, ending]
  simp only [behind, front, strsplit_requestLine valid,
    httpFields_fieldLines valid.fields _ valid.few_fields]
  rfl

/-- The start of a head is not taken for a whole one. -/
theorem httpParse_short (valid : r.Headed) {short : Bytes} (cut : short <+: r.head)
    (shorter : short.length < r.head.length) : httpParse short = none := by
  have whole : find (httpLineSep ++ httpLineSep) (r.head ++ []) = _ := find_blank_head valid
  rw [List.append_nil] at whole
  have blank : find (httpLineSep ++ httpLineSep) short = none := by
    apply find_short (by decide) whole cut
    have : (httpLineSep ++ httpLineSep).length = 4 := by decide
    omega
  have newlines := find_none_of_prefix (by simp) (find_newlines_head valid) cut
  rw [httpParse, if_pos ⟨blank, newlines⟩]

/-- What stands behind a head in a buffer does not matter. -/
theorem httpParse_buffered (valid : r.Headed) (suffix : Bytes) :
    httpParse (cstr (r.head ++ suffix)) = some r.header := by
  rw [cstr_append (nul_notMem_head valid)]
  exact httpParse_head valid

theorem httpGetField_eq_some_iff {header : HttpHeader} {name value : Bytes} :
    httpGetField header name = some value ↔
      ∃ before field after, header.fields = before ++ field :: after ∧ field.name = name ∧
        field.value = value ∧ ∀ other ∈ before, other.name ≠ name := by
  unfold httpGetField
  rw [Option.map_eq_some_iff]
  constructor
  · rintro ⟨field, found, rfl⟩
    obtain ⟨same, before, after, split, others⟩ := List.find?_eq_some_iff_append.mp found
    exact ⟨before, field, after, split, by simpa using same, rfl, by simpa using others⟩
  · rintro ⟨before, field, after, split, same, rfl, others⟩
    exact ⟨field, List.find?_eq_some_iff_append.mpr
      ⟨by simpa using same, before, after, split, by simpa using others⟩, rfl⟩

theorem httpGetField_eq_none_iff {header : HttpHeader} {name : Bytes} :
    httpGetField header name = none ↔ ∀ field ∈ header.fields, field.name ≠ name := by
  simp [httpGetField]

/-- Parsing undoes rendering: whatever follows the head, its parts are read back and its
fields are found by their names, and nothing is read from a part of it. -/
theorem httpParse_rendered (valid : r.Headed) :
    (∀ suffix, httpParse (cstr (r.head ++ suffix)) = some r.header) ∧
      (∀ name value, httpGetField r.header name = some value ↔
        ∃ before field after, r.fields = before ++ field :: after ∧ field.name = name ∧
          field.value = value ∧ ∀ other ∈ before, other.name ≠ name) ∧
      (∀ name, httpGetField r.header name = none ↔ ∀ field ∈ r.fields, field.name ≠ name) ∧
      ∀ short, short <+: r.head → short ≠ r.head → httpParse short = none := by
  refine ⟨httpParse_buffered valid, fun name value => httpGetField_eq_some_iff,
    fun name => httpGetField_eq_none_iff, fun short cut proper => ?_⟩
  refine httpParse_short valid cut (lt_of_le_of_ne cut.length_le fun same => ?_)
  exact proper (cut.eq_of_length same)

theorem RequestText.status_headed : status.Headed where
  type := by decide +kernel
  path := by decide +kernel
  version := by decide +kernel
  fields := List.forall_mem_singleton.mpr ⟨by decide +kernel, by decide +kernel, by decide +kernel⟩
  some_fields := by decide +kernel
  few_fields := by decide +kernel

theorem httpParse_rendered_status :
    httpParse (cstr (status.head ++ ascii "GET")) = some status.header :=
  (httpParse_rendered status_headed).1 _

theorem contentSize_declared (sized : declared r.fields = r.body.length)
    (small : r.body.length < 2 ^ 31) : HttpConnection.contentSize r.header = r.body.length := by
  unfold declared at sized
  unfold HttpConnection.contentSize httpGetField RequestText.header
  dsimp only
  cases found : r.fields.find? fun field => field.name = ascii "Content-Length" with
  | none => simpa [found] using sized
  | some field =>
    rw [found] at sized
    exact atoi_eq sized small

theorem contentSize_header (valid : r.WellFormed) :
    HttpConnection.contentSize r.header = r.body.length := by
  refine contentSize_declared valid.sized ?_
  have := valid.fits
  simp only [RequestText.text, List.length_append, maxBufferSize] at this
  omega

end Parsing

end Bosh
