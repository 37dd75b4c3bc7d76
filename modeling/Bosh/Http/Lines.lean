import Bosh.Http.Message

/-! `http_parse` against the lines of its input: where its fields come from, and where its
field loop and `hc_process` see the end of the header. -/
namespace Bosh
open Text RequestText

def headerLines (text : Bytes) : List Bytes := ((lines text).map trimCr).takeWhile (· ≠ [])

def linesBetween (str : Bytes) : List Bytes :=
  ((lines str).tail.map trimCr).takeWhile (· ≠ [])

/-- The white space that `http_parse` skips after the request line. -/
def skippedText (str : Bytes) : Bytes := (str.dropWhile (· ∉ httpLineSep)).takeWhile isSpace

def fieldText (str : Bytes) : Bytes := (str.dropWhile (· ∉ httpLineSep)).dropWhile isSpace

section Lines
variable {line rest : Bytes}

theorem headerLines_cons (absent : 10 ∉ line) :
    headerLines (line ++ 10 :: rest) =
      if trimCr line = [] then [] else trimCr line :: headerLines rest := by
  unfold headerLines
  rw [lines_cons absent, List.map_cons, List.takeWhile_cons]
  by_cases empty : trimCr line = [] <;> simp [empty]

theorem line_end (line rest : Bytes) :
    (if 0 < line.length ∧ (line ++ 10 :: rest)[line.length - 1]? = some 13
      then line.length - 1 else line.length) = (trimCr line).length := by
  unfold trimCr
  by_cases nonempty : line = []
  · simp [nonempty]
  · have positive := List.length_pos_iff.mpr nonempty
    have last : (line ++ 10 :: rest)[line.length - 1]? = line.getLast? := by
      rw [List.getElem?_append_left (by omega), List.getLast?_eq_getElem?]
    rw [last]
    by_cases cr : line.getLast? = some 13
    · rw [if_pos ⟨positive, cr⟩, if_pos cr, List.length_dropLast]
    · rw [if_neg fun both => cr both.2, if_neg cr]

/-- One turn of the field loop: the line, and the first colon of all that follows. -/
theorem httpFields_line (absent : 10 ∉ line) (n : Nat) :
    httpFields (n + 1) (line ++ 10 :: rest) =
      if trimCr line = [] then some []
      else (find [58] (line ++ 10 :: rest)).bind fun colon =>
        (httpFields n rest).map fun fields =>
          ⟨strndup (line ++ 10 :: rest) colon,
            strndup ((line ++ 10 :: rest).drop (colon + 1)) ((trimCr line).length - (colon + 1))⟩ ::
              fields := by
  have next : (line ++ 10 :: rest).drop (line.length + 1) = rest := by simp [List.drop_append]
  rw [httpFields, find_single absent]
  simp only [next, line_end, List.length_eq_zero_iff]
  split
  · rfl
  · cases find [58] (line ++ 10 :: rest) <;> rfl

/-- What the loop makes of a line: its two parts if there is a colon in it, and otherwise a
name that runs on into the lines after it. -/
structure HttpField.ReadFrom (field : HttpField) (line : Bytes) : Prop where
  whole : 58 ∈ line → field.line = line
  beyond : 58 ∉ line → 10 ∈ field.name
  colon : 58 ∉ field.name

theorem trimCr_append (first second : Bytes) :
    trimCr (first ++ 58 :: second) = first ++ 58 :: trimCr second := by
  unfold trimCr
  cases second with
  | nil => simp
  | cons b second =>
    have last : (first ++ 58 :: b :: second).getLast? = (b :: second).getLast? := by
      simp [List.getLast?_cons]
    rw [last]
    split <;> simp [List.dropLast_append_of_ne_nil]

theorem trimCr_prefix (line : Bytes) : trimCr line <+: line := by
  unfold trimCr
  split
  · exact List.dropLast_prefix line
  · exact List.prefix_refl line

theorem readFrom_trimCr (absent : 10 ∉ line) {colon : Nat}
    (found : find [58] (line ++ 10 :: rest) = some colon) :
    HttpField.ReadFrom ⟨strndup (line ++ 10 :: rest) colon,
      strndup ((line ++ 10 :: rest).drop (colon + 1)) ((trimCr line).length - (colon + 1))⟩
      (trimCr line) := by
  by_cases inside : 58 ∈ line
  · obtain ⟨before, after, rfl, clean⟩ := List.eq_append_cons_of_mem inside
    rw [List.append_assoc, List.cons_append, find_single clean, Option.some.injEq] at found
    subst found
    obtain ⟨tail, same⟩ := trimCr_prefix after
    have name : strndup (before ++ 58 :: after ++ 10 :: rest) before.length = before := by
      simp [strndup]
    have value : strndup ((before ++ 58 :: after ++ 10 :: rest).drop (before.length + 1))
        ((before ++ 58 :: trimCr after).length - (before.length + 1)) = trimCr after := by
      have behind : (before ++ 58 :: after ++ 10 :: rest).drop (before.length + 1) =
          trimCr after ++ (tail ++ 10 :: rest) := by
        rw [← List.append_assoc, same]
        simp [List.drop_append]
      have size : (((before ++ 58 :: trimCr after).length : Nat) - (before.length + 1) : Int) =
          (trimCr after).length := by
        rw [List.length_append, List.length_cons]
        omega
      rw [behind, size, strndup, if_neg (by omega), Int.toNat_natCast, List.take_left]
    rw [trimCr_append, name, value]
    exact ⟨fun _ => rfl, fun missing => absurd (by simp) missing, clean⟩
  · obtain ⟨before, after, same, clean, rfl⟩ := split_of_find_single found
    have name : strndup (line ++ 10 :: rest) before.length = before := by
      rw [same]
      simp [strndup]
    have beyond : 10 ∈ before := by
      rcases List.append_eq_append_iff.mp same with ⟨more, rfl, later⟩ | ⟨more, rfl, later⟩
      · cases more with
        | nil => cases later
        | cons b more =>
          obtain ⟨rfl, -⟩ := List.cons.inj later
          simp
      · cases more with
        | nil => cases later
        | cons b more =>
          obtain ⟨rfl, -⟩ := List.cons.inj later
          simp at inside
    have missing : 58 ∉ trimCr line := fun member => inside (trimCr_subset line member)
    rw [name]
    exact ⟨fun member => absurd member missing, fun _ => beyond, clean⟩

theorem httpFields_readFrom {n : Nat} {str : Bytes} {fields : List HttpField}
    (parsed : httpFields n str = some fields) :
    List.Forall₂ HttpField.ReadFrom fields ((headerLines str).take n) := by
  induction n generalizing str fields with
  | zero =>
    cases parsed
    exact .nil
  | succ n ih =>
    cases newline : find [10] str with
    | none => simp [httpFields, newline] at parsed
    | some i =>
      obtain ⟨line, rest, rfl, absent, -⟩ := split_of_find_single newline
      rw [httpFields_line absent] at parsed
      rw [headerLines_cons absent]
      by_cases empty : trimCr line = []
      · rw [if_pos empty] at parsed ⊢
        cases parsed
        exact .nil
      · rw [if_neg empty] at parsed ⊢
        obtain ⟨colon, found, read⟩ := Option.bind_eq_some_iff.mp parsed
        obtain ⟨later, behind, rfl⟩ := Option.map_eq_some_iff.mp read
        exact .cons (readFrom_trimCr absent found) (ih behind)

variable {fields : List HttpField} {given : List Bytes}

theorem readFrom_colon (reads : List.Forall₂ HttpField.ReadFrom fields given) :
    ∀ field ∈ fields, 58 ∉ field.name := by
  induction reads with
  | nil => simp
  | cons first _ ih => exact List.forall_mem_cons.mpr ⟨first.colon, ih⟩

/-- Where no field has run on, each line had a colon. -/
theorem readFrom_clean (reads : List.Forall₂ HttpField.ReadFrom fields given)
    (clean : ∀ field ∈ fields, 10 ∉ field.line) : ∀ line ∈ given, 58 ∈ line := by
  induction reads with
  | nil => simp
  | @cons field line _ _ first _ ih =>
    obtain ⟨here, later⟩ := List.forall_mem_cons.mp clean
    refine List.forall_mem_cons.mpr ⟨?_, ih later⟩
    by_contra missing
    exact here (List.mem_append_left _ (first.beyond missing))

theorem readFrom_whole (reads : List.Forall₂ HttpField.ReadFrom fields given)
    (all : ∀ line ∈ given, 58 ∈ line) : fields.map HttpField.line = given := by
  induction reads with
  | nil => rfl
  | cons first _ ih =>
    obtain ⟨here, later⟩ := List.forall_mem_cons.mp all
    rw [List.map_cons, first.whole here, ih later]

theorem linesBetween_clean {str line : Bytes} (listed : line ∈ linesBetween str) : 10 ∉ line := by
  obtain ⟨raw, member, rfl⟩ := List.mem_map.mp ((List.takeWhile_subset _) listed)
  exact fun newline =>
    newline_notMem_lines (List.mem_of_mem_tail member) (trimCr_subset raw newline)

theorem httpParse_fields {str : Bytes} {header : HttpHeader}
    (parsed : httpParse str = some header) :
    httpFields maxHttpFields (fieldText str) = some header.fields := by
  unfold httpParse at parsed
  split at parsed
  · cases parsed
  · split at parsed
    · cases parsed
    · rename_i endLine found
      have start : str.drop endLine = str.dropWhile (· ∉ httpLineSep) := by
        obtain ⟨-, index⟩ := List.findIdx?_eq_some_iff_findIdx_eq.mp found
        rw [List.dropWhile_eq_drop_findIdx_not, ← index]
        simp
      split at parsed
      · obtain ⟨fields, read, rfl⟩ := Option.map_eq_some_iff.mp parsed
        rw [start] at read
        exact read
      · cases parsed

end Lines

/-- The fields are the lines up to the first empty one, each taken apart at its first colon,
if and only if each of these lines has a colon and they are the ones that follow the skipped
white space, none of them being beyond the bound of the loop. -/
theorem httpParse_reads_iff {str : Bytes} {header : HttpHeader}
    (parsed : httpParse str = some header) :
    (header.fields.map HttpField.line = linesBetween str ∧ ∀ field ∈ header.fields, 58 ∉ field.name) ↔
      (headerLines (fieldText str)).take maxHttpFields = linesBetween str ∧
        ∀ line ∈ linesBetween str, 58 ∈ line := by
  have reads := httpFields_readFrom (httpParse_fields parsed)
  generalize (headerLines (fieldText str)).take maxHttpFields = given at reads
  constructor
  · rintro ⟨same, -⟩
    have clean : ∀ field ∈ header.fields, 10 ∉ field.line := fun field listed =>
      linesBetween_clean (same ▸ List.mem_map_of_mem listed)
    have all := readFrom_clean reads clean
    have whole := (readFrom_whole reads all).symm.trans same
    exact ⟨whole, whole ▸ all⟩
  · rintro ⟨rfl, all⟩
    exact ⟨readFrom_whole reads all, readFrom_colon reads⟩

theorem httpParse_reads_status :
    status.header.fields.map HttpField.line = linesBetween status.head ∧
      ∀ field ∈ status.header.fields, 58 ∉ field.name :=
  have parsed : httpParse status.head = some status.header := by decide
  (httpParse_reads_iff parsed).mpr (by decide)

/-- A line without a colon becomes the start of a name that takes in the next line. -/
theorem httpParse_reads_colonless :
    ¬ ∀ str header, httpParse str = some header →
      header.fields.map HttpField.line = linesBetween str ∧
        ∀ field ∈ header.fields, 58 ∉ field.name := fun claim => by
  have parsed : httpParse (ascii "GET / HTTP/1.1\r\nHost\r\nA:1\r\n\r\n") =
      some ⟨ascii "GET", ascii "/",
        [⟨ascii "Host\r\nA", ascii "1\r\n\r\n"⟩, ⟨ascii "A", ascii "1"⟩]⟩ := by
    decide
  exact absurd (claim _ _ parsed).1 (by decide)

/-- Where the field loop stops: the offset behind the blank line it stands at then, if it stops
at one. -/
def httpFieldsStop (n : Nat) (str : Bytes) : Option Nat :=
  match find [10] str with
  | none => none
  | some newline =>
    let nextLine := str.drop (newline + 1)
    let endLine := if 0 < newline ∧ str[newline - 1]? = some 13 then newline - 1 else newline
    if endLine = 0 then some (newline + 1)
    else match n with
      | 0 => none
      | n + 1 => (httpFieldsStop n nextLine).map (· + (newline + 1))

def headerStop (str : Bytes) : Option Nat :=
  (httpFieldsStop maxHttpFields (fieldText str)).map (· + (str.length - (fieldText str).length))

/-- The first blank line ends in CRLF, and so does the line before it; no more than `n` lines
come before the blank one. -/
def EndsCrlf (n : Nat) (text : Bytes) : Prop :=
  ∃ before line after, lines text = before ++ line :: [13] :: after ∧
    (∀ l ∈ before ++ [line], trimCr l ≠ []) ∧ line.getLast? = some 13 ∧ before.length < n

section End
variable {line rest : Bytes}

theorem trimCr_eq_nil : trimCr line = [] ↔ line = [] ∨ line = [13] := by
  unfold trimCr
  rcases List.eq_nil_or_concat line with rfl | ⟨front, b, rfl⟩
  · simp
  · simp only [List.concat_eq_append, List.getLast?_concat, Option.some.injEq, List.dropLast_concat]
    by_cases cr : b = 13
    · simp [cr]
    · simp [cr, List.append_eq_singleton_iff]

theorem httpFieldsStop_blank (absent : 10 ∉ line) (blank : trimCr line = []) (n : Nat) :
    httpFieldsStop n (line ++ 10 :: rest) = some (line.length + 1) := by
  rw [httpFieldsStop.eq_def, find_single absent]
  simp only [line_end, blank, List.length_nil, if_true]

theorem httpFieldsStop_line (absent : 10 ∉ line) (filled : trimCr line ≠ []) (n : Nat) :
    httpFieldsStop (n + 1) (line ++ 10 :: rest) =
      (httpFieldsStop n rest).map (· + (line.length + 1)) := by
  have next : (line ++ 10 :: rest).drop (line.length + 1) = rest := by simp [List.drop_append]
  rw [httpFieldsStop, find_single absent]
  simp only [line_end, next, List.length_eq_zero_iff, filled, if_false]

theorem httpFieldsStop_bound (absent : 10 ∉ line) (filled : trimCr line ≠ []) :
    httpFieldsStop 0 (line ++ 10 :: rest) = none := by
  rw [httpFieldsStop, find_single absent]
  simp only [line_end, List.length_eq_zero_iff, filled, if_false]

theorem crlf_starts (absent : 10 ∉ line) (rest : Bytes) :
    [13, 10] <+: line ++ 10 :: rest ↔ line = [13] := by
  cases line with
  | nil => simp
  | cons b line =>
    cases line with
    | nil => simp [List.cons_prefix_cons, eq_comm]
    | cons c line =>
      simp only [List.mem_cons, not_or] at absent
      simp [List.cons_prefix_cons, absent.2.1]

theorem terminator_starts (absent : 10 ∉ line) :
    httpLineSep ++ httpLineSep <+: line ++ 10 :: rest ↔ line = [13] ∧ [13, 10] <+: rest := by
  cases line with
  | nil => simp [httpLineSep_eq]
  | cons b line =>
    cases line with
    | nil => simp [httpLineSep_eq, List.cons_prefix_cons, eq_comm]
    | cons c line =>
      simp only [List.mem_cons, not_or] at absent
      simp [httpLineSep_eq, List.cons_prefix_cons, absent.2.1]

theorem drop_line (rest : Bytes) {j : Nat} (inside : j ≤ line.length) :
    (line ++ 10 :: rest).drop j = line.drop j ++ 10 :: rest :=
  List.drop_append_of_le_length inside

theorem find_terminator_at (absent : 10 ∉ line) (cr : line.getLast? = some 13)
    (next : [13, 10] <+: rest) :
    find (httpLineSep ++ httpLineSep) (line ++ 10 :: rest) = some (line.length - 1) := by
  obtain ⟨front, rfl⟩ := List.getLast?_eq_some_iff.mp cr
  have size : (front ++ [13]).length = front.length + 1 := by simp
  rw [size, Nat.add_sub_cancel]
  refine (find_eq_some_iff (by decide)).mpr ⟨?_, fun j earlier here => ?_⟩
  · rw [drop_line rest (by omega), List.drop_left]
    exact (terminator_starts (by decide)).mpr ⟨rfl, next⟩
  · have clean : 10 ∉ (front ++ [13]).drop j := fun member => absent (List.mem_of_mem_drop member)
    rw [drop_line rest (by omega)] at here
    have last := congrArg List.length ((terminator_starts clean).mp here).1
    rw [List.length_drop, size, List.length_singleton] at last
    omega

theorem find_terminator_past (absent : 10 ∉ line)
    (elsewhere : ¬ (line.getLast? = some 13 ∧ [13, 10] <+: rest)) :
    find (httpLineSep ++ httpLineSep) (line ++ 10 :: rest) =
      (find (httpLineSep ++ httpLineSep) rest).map (· + (line.length + 1)) := by
  have shape : line ++ 10 :: rest = (line ++ [10]) ++ rest := by simp
  have size : (line ++ [10]).length = line.length + 1 := by simp
  have nowhere : ∀ j < (line ++ [10]).length,
      ¬ httpLineSep ++ httpLineSep <+: ((line ++ [10]) ++ rest).drop j := by
    intro j inside here
    have clean : 10 ∉ line.drop j := fun member => absent (List.mem_of_mem_drop member)
    rw [← shape, drop_line rest (by omega)] at here
    obtain ⟨last, next⟩ := (terminator_starts clean).mp here
    refine elsewhere ⟨?_, next⟩
    rw [← List.take_append_drop j line, last, List.getLast?_concat]
  rw [shape, find_append_of_none nowhere, size]

theorem endsCrlf_line (absent : 10 ∉ line) (filled : trimCr line ≠ []) (n : Nat) :
    EndsCrlf (n + 1) (line ++ 10 :: rest) ↔
      line.getLast? = some 13 ∧ (lines rest).head? = some [13] ∨ EndsCrlf n rest := by
  unfold EndsCrlf
  rw [lines_cons absent]
  constructor
  · rintro ⟨before, last, after, split, all, cr, few⟩
    cases before with
    | nil =>
      obtain ⟨rfl, later⟩ := List.cons.inj split
      exact .inl ⟨cr, by rw [later]; rfl⟩
    | cons first before =>
      obtain ⟨rfl, later⟩ := List.cons.inj split
      exact .inr ⟨before, last, after, later, fun l listed => all l (.tail _ listed), cr,
        Nat.lt_of_succ_lt_succ few⟩
  · rintro (⟨cr, blank⟩ | ⟨before, last, after, split, all, cr, few⟩)
    · obtain ⟨after, later⟩ := List.head?_eq_some_iff.mp blank
      exact ⟨[], line, after, by rw [later]; rfl, by simpa using filled, cr, Nat.succ_pos n⟩
    · exact ⟨line :: before, last, after, by rw [split]; rfl,
        List.forall_mem_cons.mpr ⟨filled, all⟩, cr, Nat.succ_lt_succ few⟩

theorem endsCrlf_blank (absent : 10 ∉ line) (blank : trimCr line = []) (n : Nat) :
    ¬ EndsCrlf n (line ++ 10 :: rest) := by
  rintro ⟨before, last, after, split, all, -, -⟩
  rw [lines_cons absent] at split
  cases before with
  | nil =>
    obtain ⟨rfl, -⟩ := List.cons.inj split
    exact all line (by simp) blank
  | cons first before =>
    obtain ⟨rfl, -⟩ := List.cons.inj split
    exact all line (by simp) blank

theorem notMem_of_find_none {text : Bytes} (missing : find [10] text = none) : 10 ∉ text :=
  fun member => by
  obtain ⟨before, after, rfl, clean⟩ := List.eq_append_cons_of_mem member
  rw [find_single clean] at missing
  cases missing

theorem endsCrlf_unended {text : Bytes} (absent : 10 ∉ text) (n : Nat) : ¬ EndsCrlf n text := by
  rintro ⟨before, last, after, split, -, -, -⟩
  rw [lines_eq_nil absent] at split
  cases before <;> cases split

theorem not_endsCrlf_zero (text : Bytes) : ¬ EndsCrlf 0 text :=
  fun ⟨_, _, _, _, _, _, few⟩ => absurd few (Nat.not_lt_zero _)

theorem stops_shift (k : Nat) (found stop : Option Nat) :
    (∃ blank, found.map (· + k) = some blank ∧ stop.map (· + k) = some (blank + 4)) ↔
      ∃ blank, found = some blank ∧ stop = some (blank + 4) := by
  cases found with
  | none => simp
  | some i =>
    cases stop with
    | none => simp
    | some j =>
      simp only [Option.map_some, Option.some.injEq, exists_eq_left']
      omega

theorem stops_past {n : Nat} (absent : 10 ∉ line) (filled : trimCr line ≠ [])
    (elsewhere : ¬ (line.getLast? = some 13 ∧ [13, 10] <+: rest)) :
    (∃ blank, find (httpLineSep ++ httpLineSep) (line ++ 10 :: rest) = some blank ∧
        httpFieldsStop (n + 1) (line ++ 10 :: rest) = some (blank + 4)) ↔
      ∃ blank, find (httpLineSep ++ httpLineSep) rest = some blank ∧
        httpFieldsStop n rest = some (blank + 4) := by
  rw [find_terminator_past absent elsewhere, httpFieldsStop_line absent filled]
  exact stops_shift _ _ _

theorem stops_before {second later : Bytes} (absent : 10 ∉ line) (filled : trimCr line ≠ [])
    (clean : 10 ∉ second) (blank : trimCr second = []) (n : Nat) :
    (∃ blank, find (httpLineSep ++ httpLineSep) (line ++ 10 :: (second ++ 10 :: later)) = some blank ∧
        httpFieldsStop (n + 1) (line ++ 10 :: (second ++ 10 :: later)) = some (blank + 4)) ↔
      line.getLast? = some 13 ∧ second = [13] := by
  have short : second.length ≤ 1 := by
    rcases trimCr_eq_nil.mp blank with rfl | rfl <;> simp
  by_cases ends : line.getLast? = some 13 ∧ second = [13]
  · have positive : line ≠ [] := by
      rintro rfl
      cases ends.1
    have found := find_terminator_at absent ends.1 ((crlf_starts clean later).mpr ends.2)
    refine iff_of_true ⟨_, found, ?_⟩ ends
    rw [httpFieldsStop_line absent filled, httpFieldsStop_blank clean blank, ends.2]
    have := List.length_pos_iff.mpr positive
    simp only [Option.map_some, List.length_singleton, Option.some.injEq]
    omega
  · rw [← crlf_starts clean later] at ends
    rw [stops_past absent filled ends]
    refine iff_of_false ?_ fun here => ends ⟨here.1, (crlf_starts clean later).mpr here.2⟩
    rintro ⟨found, -, stops⟩
    rw [httpFieldsStop_blank clean blank, Option.some.injEq] at stops
    omega

/-- The search and the loop agree on a text whose first line is not blank if and only if it
ends as it should. -/
theorem httpFieldsStop_iff (n : Nat) {text : Bytes}
    (filled : trimCr (text.takeWhile (· != 10)) ≠ []) :
    (∃ blank, find (httpLineSep ++ httpLineSep) text = some blank ∧
      httpFieldsStop n text = some (blank + 4)) ↔ EndsCrlf n text := by
  induction n generalizing text with
  | zero =>
    refine iff_of_false ?_ (not_endsCrlf_zero text)
    rintro ⟨blank, -, stops⟩
    cases newline : find [10] text with
    | none => simp [httpFieldsStop, newline] at stops
    | some i =>
      obtain ⟨line, rest, rfl, absent, -⟩ := split_of_find_single newline
      rw [takeWhile_until absent] at filled
      rw [httpFieldsStop_bound absent filled] at stops
      cases stops
  | succ n ih =>
    cases newline : find [10] text with
    | none =>
      refine iff_of_false ?_ (endsCrlf_unended (notMem_of_find_none newline) _)
      rintro ⟨blank, -, stops⟩
      simp [httpFieldsStop, newline] at stops
    | some i =>
      obtain ⟨line, rest, rfl, absent, -⟩ := split_of_find_single newline
      rw [takeWhile_until absent] at filled
      rw [endsCrlf_line absent filled]
      cases next : find [10] rest with
      | none =>
        have unended := notMem_of_find_none next
        have elsewhere : ¬ (line.getLast? = some 13 ∧ [13, 10] <+: rest) := fun here =>
          unended (here.2.subset (by decide))
        rw [stops_past absent filled elsewhere]
        refine iff_of_false ?_ ?_
        · rintro ⟨blank, -, stops⟩
          simp [httpFieldsStop.eq_def n, next] at stops
        · simp [lines_eq_nil unended, endsCrlf_unended unended]
      | some j =>
        obtain ⟨second, later, rfl, clean, -⟩ := split_of_find_single next
        rw [lines_cons clean, List.head?_cons, Option.some.injEq]
        by_cases blank : trimCr second = []
        · rw [or_iff_left (endsCrlf_blank clean blank n)]
          exact stops_before absent filled clean blank n
        · have other : second ≠ [13] := by
            rintro rfl
            exact blank rfl
          have elsewhere : ¬ (line.getLast? = some 13 ∧ [13, 10] <+: second ++ 10 :: later) :=
            fun here => other ((crlf_starts clean later).mp here.2)
          rw [stops_past absent filled elsewhere, ih (by rwa [takeWhile_until clean]),
            or_iff_right fun here => other here.2]

theorem take_line (line rest : Bytes) (n : Nat) :
    (line ++ 10 :: rest).take (n + (line.length + 1)) = line ++ 10 :: rest.take n := by
  rw [List.take_append, List.take_of_length_le (by omega)]
  have size : n + (line.length + 1) - line.length = n + 1 := by omega
  rw [size, List.take_succ_cons]

theorem httpFields_stop {n : Nat} {str : Bytes} {fields : List HttpField} {stop : Nat}
    (parsed : httpFields n str = some fields) (stops : httpFieldsStop n str = some stop) :
    ∃ given blank, lines (str.take stop) = given ++ [blank] ∧ given.length = fields.length ∧
      trimCr blank = [] := by
  induction n generalizing str fields stop with
  | zero =>
    cases parsed
    cases newline : find [10] str with
    | none => simp [httpFieldsStop, newline] at stops
    | some i =>
      obtain ⟨line, rest, rfl, absent, -⟩ := split_of_find_single newline
      by_cases blank : trimCr line = []
      · rw [httpFieldsStop_blank absent blank, Option.some.injEq] at stops
        have front := take_line line rest 0
        rw [Nat.zero_add, stops, List.take_zero] at front
        exact ⟨[], line, by rw [front, lines_cons absent]; rfl, rfl, blank⟩
      · rw [httpFieldsStop_bound absent blank] at stops
        cases stops
  | succ n ih =>
    cases newline : find [10] str with
    | none => simp [httpFieldsStop, newline] at stops
    | some i =>
      obtain ⟨line, rest, rfl, absent, -⟩ := split_of_find_single newline
      rw [httpFields_line absent] at parsed
      by_cases blank : trimCr line = []
      · rw [if_pos blank] at parsed
        cases parsed
        rw [httpFieldsStop_blank absent blank, Option.some.injEq] at stops
        have front := take_line line rest 0
        rw [Nat.zero_add, stops, List.take_zero] at front
        exact ⟨[], line, by rw [front, lines_cons absent]; rfl, rfl, blank⟩
      · rw [if_neg blank] at parsed
        obtain ⟨colon, -, read⟩ := Option.bind_eq_some_iff.mp parsed
        obtain ⟨later, parsedBehind, rfl⟩ := Option.map_eq_some_iff.mp read
        rw [httpFieldsStop_line absent blank] at stops
        obtain ⟨stop, stopBehind, rfl⟩ := Option.map_eq_some_iff.mp stops
        obtain ⟨given, last, split, same, empty⟩ := ih parsedBehind stopBehind
        refine ⟨line :: given, last, ?_, ?_, empty⟩
        · rw [take_line, lines_cons absent, split]
          rfl
        · rw [List.length_cons, List.length_cons, same]

theorem str_eq_parts (str : Bytes) :
    str = str.takeWhile (· ∉ httpLineSep) ++ skippedText str ++ fieldText str := by
  simp [skippedText, fieldText]

theorem fieldText_filled {str : Bytes} {header : HttpHeader}
    (parsed : httpParse str = some header) :
    ∃ b text, fieldText str = b :: text ∧ isSpace b = false := by
  have read := httpParse_fields parsed
  cases found : fieldText str with
  | nil => simp [found, httpFields, maxHttpFields, find] at read
  | cons b text =>
    have first := List.head?_dropWhile_not isSpace (str.dropWhile (· ∉ httpLineSep))
    rw [show List.dropWhile isSpace _ = b :: text from found] at first
    exact ⟨b, text, rfl, by simpa using first⟩

theorem trimCr_first {b : UInt8} (visible : isSpace b = false) (text : Bytes) :
    trimCr ((b :: text).takeWhile (· != 10)) ≠ [] := by
  have newline : b ≠ 10 := by
    rintro rfl
    cases visible
  have other : b ≠ 13 := by
    rintro rfl
    cases visible
  simp [trimCr_eq_nil, newline, other]

theorem terminator_space : ∀ b ∈ httpLineSep ++ httpLineSep, isSpace b = true := by decide +kernel

theorem terminator_outside {front : Bytes} (absent : 13 ∉ front) (rest : Bytes) :
    ∀ j < front.length, ¬ httpLineSep ++ httpLineSep <+: (front ++ rest).drop j := by
  intro j early here
  rw [List.drop_append_of_le_length (by omega), List.drop_eq_getElem_cons early, List.cons_append,
    httpLineSep_eq] at here
  exact absent ((List.cons_prefix_cons.mp here).1 ▸ List.getElem_mem early)

theorem terminator_skipped {front space : Bytes} {b : UInt8} (absent : 13 ∉ front)
    (visible : isSpace b = false) (missing : find (httpLineSep ++ httpLineSep) space = none)
    (text : Bytes) :
    ∀ j < (front ++ space).length,
      ¬ httpLineSep ++ httpLineSep <+: (front ++ space ++ b :: text).drop j := by
  intro j inside here
  rw [List.length_append] at inside
  rw [List.append_assoc] at here
  by_cases early : j < front.length
  · exact terminator_outside absent _ j early here
  · obtain ⟨i, rfl⟩ := Nat.exists_eq_add_of_le (Nat.le_of_not_lt early)
    rw [List.drop_length_add_append, List.drop_append_of_le_length (by omega)] at here
    by_cases room : (httpLineSep ++ httpLineSep).length ≤ (space.drop i).length
    · exact (find_eq_none_iff (by decide)).mp missing i
        (List.prefix_of_prefix_length_le here (List.prefix_append _ _) room)
    · have inside := Nat.lt_of_not_le room
      have met : (httpLineSep ++ httpLineSep)[(space.drop i).length]? = some b := by
        rw [List.getElem?_eq_getElem inside, here.getElem inside]
        simp
      have := terminator_space b (List.mem_of_getElem? met)
      rw [visible] at this
      cases this

end End

/-- The two places agree if and only if the skipped white space does not contain the terminator,
and the first blank line behind it and the line before that both end in CRLF, no more than
64 lines being before the blank one. -/
theorem httpParse_stop_iff {str : Bytes} {header : HttpHeader}
    (parsed : httpParse str = some header) :
    (∃ blank, find (httpLineSep ++ httpLineSep) str = some blank ∧ headerStop str = some (blank + 4)) ↔
      find (httpLineSep ++ httpLineSep) (skippedText str) = none ∧
        EndsCrlf maxHttpFields (fieldText str) := by
  obtain ⟨b, text, start, visible⟩ := fieldText_filled parsed
  have shape := str_eq_parts str
  have size : str.length - (fieldText str).length =
      (str.takeWhile (· ∉ httpLineSep) ++ skippedText str).length := by
    have := congrArg List.length shape
    rw [List.length_append] at this
    omega
  have clean : 13 ∉ str.takeWhile (· ∉ httpLineSep) := fun member => by
    have := List.mem_takeWhile_imp member
    revert this
    decide
  unfold headerStop
  rw [size]
  generalize str.takeWhile (· ∉ httpLineSep) = front at shape size clean
  have filled := trimCr_first visible text
  rw [← start] at filled
  rw [← httpFieldsStop_iff maxHttpFields filled]
  cases skipped : find (httpLineSep ++ httpLineSep) (skippedText str) with
  | none =>
    have nowhere := terminator_skipped clean visible skipped text
    rw [← start] at nowhere
    have shifted := find_append_of_none nowhere
    rw [← shape] at shifted
    rw [shifted, stops_shift]
    simp
  | some i =>
    have met : find (httpLineSep ++ httpLineSep) str = some (i + front.length) := by
      have behind := find_append (by decide) skipped (fieldText str)
      have shifted := find_append_of_none (terminator_outside clean (skippedText str ++ fieldText str))
      rw [behind, ← List.append_assoc, ← shape] at shifted
      exact shifted
    have bound : i + 4 ≤ (skippedText str).length := find_bound (by decide) skipped
    refine iff_of_false ?_ (by simp)
    rintro ⟨blank, found, stops⟩
    obtain ⟨stop, stopBehind, same⟩ := Option.map_eq_some_iff.mp stops
    obtain ⟨given, last, split, -, -⟩ := httpFields_stop (httpParse_fields parsed) stopBehind
    have positive : stop ≠ 0 := by
      rintro rfl
      rw [List.take_zero] at split
      cases given <;> cases split
    rw [met, Option.some.injEq] at found
    rw [List.length_append] at same
    omega

theorem httpParse_stop_status :
    ∃ blank, find (httpLineSep ++ httpLineSep) status.head = some blank ∧
      headerStop status.head = some (blank + 4) :=
  have parsed : httpParse status.head = some status.header := by decide
  (httpParse_stop_iff parsed).mpr
    ⟨by decide, [], ascii "Host:h\r", [], by decide, by decide, by decide, by decide⟩

/-- Lines that end in a bare line feed: the search of `hc_process` finds nothing. -/
theorem httpParse_stop_bare :
    ¬ ∀ str header, httpParse str = some header →
      ∃ blank, find (httpLineSep ++ httpLineSep) str = some blank ∧
        headerStop str = some (blank + 4) := fun claim => by
  have parsed : httpParse (ascii "GET / HTTP/1.1\nHost: h\n\n") =
      some ⟨ascii "GET", ascii "/", [⟨ascii "Host", ascii " h"⟩]⟩ := by
    decide
  obtain ⟨blank, found, -⟩ := claim _ _ parsed
  have missing : find (httpLineSep ++ httpLineSep) (ascii "GET / HTTP/1.1\nHost: h\n\n") =
    none := by
    decide
  rw [missing] at found
  cases found

end Bosh
