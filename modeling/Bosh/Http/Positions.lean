import Bosh.Http.Parse
import Bosh.Library.Cursor
import Mathlib.Logic.Relation

/-! `http_parse` as it walks its text: a pointer is a position, and every access to the
text, to `parts` and to `fields` is checked. -/
namespace Bosh.Positions
open Text Cursor

/-- The inner loop of `strstrany` reads the byte again for each of `delim`. -/
def isAny (text delim : Bytes) (str : Nat) : Checked Bool :=
  delim.anyM fun d => return (← read text str) == d

def strstrany (text delim : Bytes) (str : Nat) : Checked Nat :=
  walk text (fun i => do if ← isAny text delim i then return some i else return none) str

def strndup (text : Bytes) (str : Nat) (n : Int) : Checked Bytes :=
  Cursor.strndup text (toSize n) str

/-- The parts, and where `str` is left. `room` is the size of the caller's array. -/
def strsplit (text : Bytes) (endStr : Nat) (delim : UInt8) (room : Nat) :
    Nat → Nat → List Bytes → Checked (List Bytes × Nat)
  | 0, str, parts => return (parts, str)
  | n + 1, str, parts =>
    if str = endStr then return (parts, str)
    else do
      let tmp ← skipTo text (· != delim) endStr str
      let part ← strndup text str (tmp - str)
      let parts ← store room parts part
      let str ← skipTo text (· == delim) endStr tmp
      strsplit text endStr delim room n str parts

def incomplete (text : Bytes) : Checked Bool := do
  if (← strstr text (httpLineSep ++ httpLineSep) 0) = none then
    return (← strstr text [10, 10] 0) = none
  else return false

def requestLine (text : Bytes) : Checked (Option (Bytes × Bytes × Nat)) := do
  let endLine ← strstrany text httpLineSep 0
  match ← strsplit text endLine 32 3 3 0 [] with
  | ([type, path, _], _) =>
    let str ← skip text isSpace endLine
    return some (type, path, str)
  | _ => return none

def trimLine (text : Bytes) (str endLine : Nat) : Checked Nat := do
  if str < endLine then
    let before ← back endLine
    if (← read text before) = 13 then return before
    else return endLine
  else return endLine

inductive Turn where
  | fail
  | last
  | next (str : Nat) (fields : List HttpField)

def fieldTurn (text : Bytes) (str : Nat) (fields : List HttpField) : Checked Turn := do
  match ← strstr text [10] str with
  | none => return .fail
  | some newline =>
    let nextLine := newline + 1
    let endLine ← trimLine text str newline
    if endLine = str then return .last
    else
      match ← strstr text [58] str with
      | none => return .fail
      | some colon =>
        let name ← strndup text str (colon - str)
        -- negative where the colon lies beyond the line
        let value ← strndup text (colon + 1) (endLine - (colon + 1))
        let fields ← store maxHttpFields fields { name, value }
        return .next nextLine fields

def fieldLoop (text : Bytes) : Nat → Nat → List HttpField → Checked (Option (List HttpField))
  | 0, _, fields => return some fields
  | n + 1, str, fields => do
    match ← fieldTurn text str fields with
    | .fail => return none
    | .last => return some fields
    | .next str fields => fieldLoop text n str fields

def httpParse (text : Bytes) : Checked (Option HttpHeader) := do
  if ← incomplete text then return none
  else
    match ← requestLine text with
    | none => return none
    | some (type, path, str) =>
      match ← fieldLoop text maxHttpFields str [] with
      | none => return none
      | some fields => return some { type, path, fields }

/-- The field loop is at `str` after `i` turns. -/
inductive LoopAt (text : Bytes) : Nat → Nat → List HttpField → Prop
  | start {type path : Bytes} {str : Nat} (complete : incomplete text = .ok false)
      (line : requestLine text = .ok (some (type, path, str))) : LoopAt text 0 str []
  | next {i str str' : Nat} {fields fields' : List HttpField} (earlier : LoopAt text i str fields)
      (bounded : i < maxHttpFields) (turn : fieldTurn text str fields = .ok (.next str' fields')) :
      LoopAt text (i + 1) str' fields'

section
variable {text : Bytes}

theorem strndup_inside (noNul : 0 ∉ text) {str : Nat} (inside : str ≤ text.length) (n : Int) :
    ∃ copy, strndup text str n = .ok copy ∧ str + copy.length ≤ text.length := by
  refine ⟨_, strndup_eq noNul _ inside, ?_⟩
  rw [List.length_take, List.length_drop]
  omega

theorem strndup_eq (noNul : 0 ∉ text) (short : text.length < 2 ^ 63) {str : Nat}
    (inside : str ≤ text.length) {n : Int} (low : -text.length ≤ n) (high : n ≤ text.length) :
    strndup text str n = .ok (Bosh.strndup (text.drop str) n) := by
  rw [strndup, Cursor.strndup_eq noNul _ inside, Bosh.strndup]
  split
  · have wrapped := toSize_of_neg (x := n) (by omega) (by omega)
    rw [List.take_of_length_le (by rw [List.length_drop]; omega)]
  · rw [toSize_of_nonneg (by omega) (by omega)]

theorem isAny_eq {i : Nat} (inside : i < text.length) (delim : Bytes) :
    isAny text delim i = .ok (decide (text[i] ∈ delim)) := by
  have tests : (fun d => do return (← read text i) == d : UInt8 → Checked Bool) =
      fun d => pure (text[i] == d) := by
    funext d
    rw [read_inside inside]
    rfl
  rw [isAny, tests, List.anyM_pure, List.any_beq, List.contains_eq_mem]
  rfl

theorem strstrany_eq {delim : Bytes} {k : Nat} (found : Bosh.strstrany text delim = some k) :
    strstrany text delim 0 = .ok k ∧ ∃ inside : k < text.length, text[k] ∈ delim := by
  obtain ⟨inside, here, earlier⟩ := List.findIdx?_eq_some_iff_getElem.mp found
  rw [decide_eq_true_iff] at here
  refine ⟨walk_stops (Nat.zero_le k) inside.le ?_ fun j _ before => ?_, inside, here⟩
  · rw [isAny_eq inside, decide_eq_true here]
    rfl
  · have other := earlier j before
    rw [Bool.not_eq_true] at other
    rw [isAny_eq (before.trans inside), other]
    rfl

/-- `strsplit` stays before `end_str`, whatever it finds there. -/
theorem strsplit_eq (noNul : 0 ∉ text) (delim : UInt8) {endStr room n str : Nat}
    {parts : List Bytes} (inside : endStr ≤ text.length) (ordered : str ≤ endStr)
    (free : parts.length + n ≤ room) :
    ∃ pieces str', strsplit text endStr delim room n str parts = .ok (parts ++ pieces, str') ∧
      str ≤ str' ∧ str' ≤ endStr ∧ pieces.length ≤ n ∧
      (text.length < 2 ^ 63 → pieces = Bosh.strsplit delim n ((text.take endStr).drop str)) := by
  induction n generalizing str parts with
  | zero =>
    exact ⟨[], str, by rw [List.append_nil]; rfl, Nat.le_refl _, ordered, Nat.le_refl _, fun _ => rfl⟩
  | succ n ih =>
    unfold strsplit
    by_cases last : str = endStr
    · subst last
      refine ⟨[], str, by rw [if_pos rfl, List.append_nil]; rfl, Nat.le_refl _, Nat.le_refl _,
        Nat.zero_le _, fun _ => ?_⟩
      rw [List.drop_eq_nil_of_le (by rw [List.length_take]; omega)]
      rfl
    · let piece := (text.take endStr).drop str
      let part := piece.takeWhile (· != delim)
      let tmp := str + part.length
      have before : tmp ≤ endStr := takeWhile_bound text _ ordered
      obtain ⟨copy, copied, exact⟩ : ∃ copy, strndup text str ((tmp : Int) - str) = .ok copy ∧
          (text.length < 2 ^ 63 → copy = part) := by
        refine ⟨_, Cursor.strndup_eq noNul _ (ordered.trans inside), fun short => ?_⟩
        have count : toSize ((tmp : Int) - str) = part.length := by
          rw [toSize_of_nonneg (by omega) (by omega)]
          omega
        rw [count]
        exact (List.prefix_iff_eq_take.mp
          ((List.takeWhile_prefix _).trans ((List.take_prefix endStr text).drop str))).symm
      have after := takeWhile_bound text (· == delim) before
      obtain ⟨pieces, str', rest, low, high, few, same⟩ :=
        ih after (show (parts ++ [copy]).length + n ≤ room by
          rw [List.length_append, List.length_singleton]; omega)
      refine ⟨copy :: pieces, str', ?_,
        by omega, high, by rw [List.length_cons]; omega, fun short => ?_⟩
      · rw [if_neg last, skipTo_eq _ inside ordered, ok_bind, copied, ok_bind,
          store_room (by omega), ok_bind, skipTo_eq _ inside before, ok_bind, rest, List.append_assoc,
          List.singleton_append]
      · have left : piece ≠ [] := by
          rw [ne_eq, List.drop_eq_nil_iff, List.length_take]
          omega
        rw [Bosh.strsplit, if_neg left, exact short, same short, drop_run, drop_run]

theorem incomplete_eq (noNul : 0 ∉ text) :
    incomplete text =
      .ok (decide (find (httpLineSep ++ httpLineSep) text = none ∧ find [10, 10] text = none)) := by
  have crlf := strstr_eq noNul (by decide : 0 ∉ httpLineSep ++ httpLineSep) (by decide) (Nat.zero_le _)
  have lf := strstr_eq noNul (by decide : 0 ∉ ([10, 10] : Bytes)) (by decide) (Nat.zero_le _)
  rw [List.drop_zero] at crlf lf
  rw [incomplete, crlf, ok_bind]
  cases find (httpLineSep ++ httpLineSep) text with
  | some k => rfl
  | none =>
    rw [Option.map_none, if_pos rfl, lf, ok_bind]
    cases find [10, 10] text <;> rfl

theorem trimLine_eq {str newline : Nat} (inside : str + newline < text.length) :
    trimLine text str (str + newline) = .ok (str +
      if 0 < newline ∧ (text.drop str)[newline - 1]? = some 13 then newline - 1 else newline) := by
  unfold trimLine
  cases newline with
  | zero => rw [if_neg (by omega), if_neg (by omega)]; rfl
  | succ k =>
    rw [if_pos (by omega), ← Nat.add_assoc, back_succ, ok_bind, read_inside (by omega), ok_bind,
      Nat.add_sub_cancel, List.getElem?_drop, List.getElem?_eq_getElem (by omega)]
    by_cases cr : text[str + k] = 13
    · rw [if_pos cr, if_pos ⟨Nat.succ_pos k, congrArg some cr⟩]
      rfl
    · rw [if_neg cr, if_neg fun both => cr (Option.some.inj both.2)]
      rfl

structure FirstLine (text : Bytes) (endLine : Nat) (parts : List Bytes) (start : Nat) : Prop where
  found : Bosh.strstrany text httpLineSep = some endLine
  stops : strstrany text httpLineSep 0 = .ok endLine
  ends : ∃ inside : endLine < text.length, text[endLine] ∈ httpLineSep
  splits : ∃ str, strsplit text endLine 32 3 3 0 [] = .ok (parts, str)
  parts_eq : text.length < 2 ^ 63 → parts = Bosh.strsplit 32 3 (text.take endLine)
  skips : skip text isSpace endLine = .ok start
  inside : start ≤ text.length
  rest : text.drop start = (text.drop endLine).dropWhile isSpace

theorem firstLine_exists (noNul : 0 ∉ text) (complete : incomplete text = .ok false) :
    ∃ endLine parts start, FirstLine text endLine parts start := by
  rw [incomplete_eq noNul, Except.ok.injEq, decide_eq_false_iff_not] at complete
  obtain ⟨endLine, found⟩ := Option.isSome_iff_exists.mp (strstrany_isSome complete)
  obtain ⟨stops, ends⟩ := strstrany_eq found
  obtain ⟨parts, str, splits, -, -, -, parts_eq⟩ :=
    strsplit_eq noNul 32 ends.1.le (Nat.zero_le _) (by decide : ([] : List Bytes).length + 3 ≤ 3)
  have run := takeWhile_bound text isSpace (Nat.le_of_lt ends.1)
  rw [List.take_length] at run
  exact ⟨endLine, parts, _, found, stops, ends, ⟨str, splits⟩, parts_eq,
    skip_eq (by decide) (Nat.le_of_lt ends.1), run, drop_run isSpace endLine⟩

theorem FirstLine.requestLine_cases {endLine start : Nat} {parts : List Bytes}
    (first : FirstLine text endLine parts start) :
    (∃ type path version, parts = [type, path, version] ∧
      requestLine text = .ok (some (type, path, start))) ∨
    (∀ type path version, parts ≠ [type, path, version]) ∧ requestLine text = .ok none := by
  obtain ⟨str, splits⟩ := first.splits
  rw [requestLine, first.stops, ok_bind, splits, ok_bind, first.skips]
  match parts with
  | [type, path, version] => exact .inl ⟨type, path, version, rfl, rfl⟩
  | [] | [_] | [_, _] | _ :: _ :: _ :: _ :: _ => exact .inr ⟨by simp, rfl⟩

/-- What a turn at `str` may do, and what the rest of the text is to `httpFields` then. -/
inductive Turned (text : Bytes) (str : Nat) (fields : List HttpField) : Turn → Prop
  | fail (same : text.length < 2 ^ 63 → ∀ n, httpFields (n + 1) (text.drop str) = none) :
      Turned text str fields .fail
  | last (same : text.length < 2 ^ 63 → ∀ n, httpFields (n + 1) (text.drop str) = some []) :
      Turned text str fields .last
  | next {str' : Nat} {field : HttpField} (further : str < str') (inside : str' ≤ text.length)
      (same : text.length < 2 ^ 63 → ∀ n, httpFields (n + 1) (text.drop str) =
        (httpFields n (text.drop str')).map (field :: ·)) :
      Turned text str fields (.next str' (fields ++ [field]))

theorem fieldTurn_turned (noNul : 0 ∉ text) {str : Nat} (inside : str ≤ text.length)
    {fields : List HttpField} (free : fields.length < maxHttpFields) :
    ∃ turn, fieldTurn text str fields = .ok turn ∧ Turned text str fields turn := by
  have searched := fun c (plain : 0 ∉ [c]) => strstr_eq noNul plain (List.cons_ne_nil c []) inside
  rw [fieldTurn, searched 10 (by decide), ok_bind]
  cases lf : find [10] (text.drop str) with
  | none => exact ⟨.fail, rfl, .fail fun _ n => by rw [httpFields, lf]⟩
  | some newline =>
    have newlineInside := find_bound (by decide) lf
    rw [List.length_drop, List.length_singleton] at newlineInside
    simp only [Option.map_some]
    rw [trimLine_eq (by omega), ok_bind]
    generalize trimmed : (if 0 < newline ∧ (text.drop str)[newline - 1]? = some 13 then newline - 1
      else newline) = endLine
    have short : endLine ≤ newline := by rw [← trimmed]; split <;> omega
    by_cases empty : endLine = 0
    · subst empty
      refine ⟨.last, if_pos rfl, .last fun _ n => ?_⟩
      simp only [httpFields, lf, trimmed, if_true]
    · rw [if_neg (by omega), searched 58 (by decide), ok_bind]
      cases found : find [58] (text.drop str) with
      | none =>
        refine ⟨.fail, rfl, .fail fun _ n => ?_⟩
        simp only [httpFields, lf, trimmed, if_neg empty, found]
      | some colon =>
        have colonInside := find_bound (by decide) found
        rw [List.length_drop, List.length_singleton] at colonInside
        have nameCount : ((str + colon : Nat) : Int) - str = colon := by omega
        have valueCount :
            ((str + endLine : Nat) : Int) - ((str + colon : Nat) + 1) = endLine - (colon + 1) := by
              omega
        simp only [Option.map_some, nameCount, valueCount]
        obtain ⟨name, named, -⟩ := strndup_inside noNul inside colon
        obtain ⟨value, valued, -⟩ :=
          strndup_inside noNul (by omega : str + colon + 1 ≤ text.length) (endLine - (colon + 1))
        refine ⟨.next (str + newline + 1) (fields ++ [{ name, value }]), ?_,
          .next (by omega) (by omega) fun short n => ?_⟩
        · rw [named, ok_bind, valued, ok_bind, store_room free, ok_bind]
          rfl
        · rw [strndup_eq noNul short inside (by omega) (by omega)] at named
          rw [strndup_eq noNul short (by omega) (by omega) (by omega)] at valued
          simp only [httpFields, lf, trimmed, if_neg empty, found]
          rw [← Except.ok.inj named, ← Except.ok.inj valued]
          simp only [List.drop_drop, Nat.add_assoc]

theorem fieldLoop_eq (noNul : 0 ∉ text) {n str : Nat} {fields : List HttpField}
    (inside : str ≤ text.length) (room : fields.length + n = maxHttpFields) :
    ∃ result, fieldLoop text n str fields = .ok result ∧
      (∀ all, result = some all → all.length ≤ maxHttpFields) ∧
      (text.length < 2 ^ 63 → result = (httpFields n (text.drop str)).map (fields ++ ·)) := by
  induction n generalizing str fields with
  | zero =>
    refine ⟨some fields, rfl, fun all same => ?_, fun _ => by simp [httpFields]⟩
    cases same
    omega
  | succ n ih =>
    obtain ⟨turn, run, turned⟩ :=
      fieldTurn_turned noNul inside (by omega : fields.length < maxHttpFields)
    rw [fieldLoop, run, ok_bind]
    cases turned with
    | fail same => exact ⟨none, rfl, nofun, fun short => by rw [same short]; rfl⟩
    | last same =>
      refine ⟨some fields, rfl, fun all same => ?_, fun short => by rw [same short]; simp⟩
      cases same
      omega
    | @next str' field further inside' same =>
      obtain ⟨result, rest, few, refines⟩ := ih inside'
        (show (fields ++ [field]).length + n = maxHttpFields by
          rw [List.length_append, List.length_singleton]; omega)
      refine ⟨result, rest, few, fun short => ?_⟩
      rw [refines short, same short, Option.map_map]
      simp [Function.comp_def]

theorem LoopAt.invariant (noNul : 0 ∉ text) {i str : Nat} {fields : List HttpField}
    (at_ : LoopAt text i str fields) : str ≤ text.length ∧ fields.length = i ∧
      i ≤ maxHttpFields := by
  induction at_ with
  | start complete line =>
    obtain ⟨endLine, parts, start, first⟩ := firstLine_exists noNul complete
    rcases first.requestLine_cases with ⟨_, _, _, -, read⟩ | ⟨-, read⟩
    · cases read.symm.trans line
      exact ⟨first.inside, rfl, Nat.zero_le _⟩
    · cases read.symm.trans line
  | @next i str str' fields fields' earlier bounded turn ih =>
    obtain ⟨turn', run, turned⟩ :=
      fieldTurn_turned noNul ih.1 (by omega : fields.length < maxHttpFields)
    obtain rfl : turn' = .next str' fields' := Except.ok.inj (run.symm.trans turn)
    cases turned with
    | next further inside same =>
      exact ⟨inside, by rw [List.length_append, List.length_singleton, ih.2.1], bounded⟩

theorem httpParse_returns (noNul : 0 ∉ text) :
    ∃ result, httpParse text = .ok result ∧
      (∀ header, result = some header → header.fields.length ≤ maxHttpFields) ∧
      (text.length < 2 ^ 63 → result = Bosh.httpParse text) := by
  have separated := incomplete_eq noNul
  by_cases missing : find (httpLineSep ++ httpLineSep) text = none ∧ find [10, 10] text = none
  · rw [decide_eq_true missing] at separated
    exact ⟨none, by rw [httpParse, separated]; rfl, nofun, fun _ => by rw [Bosh.httpParse, if_pos missing]⟩
  · rw [decide_eq_false missing] at separated
    obtain ⟨endLine, parts, start, first⟩ := firstLine_exists noNul separated
    rw [httpParse, separated, ok_bind, if_neg Bool.false_ne_true]
    rcases first.requestLine_cases with ⟨type, path, version, three, line⟩ | ⟨other, line⟩
    · obtain ⟨result, loop, few, refines⟩ :=
        fieldLoop_eq noNul first.inside (show ([] : List HttpField).length + maxHttpFields = _ from rfl)
      refine ⟨result.map fun fields => { type, path, fields }, ?_, fun header made => ?_,
        fun short => ?_⟩
      · simp only [line, ok_bind, loop]
        cases result <;> rfl
      · obtain ⟨fields, listed, rfl⟩ := Option.map_eq_some_iff.mp made
        exact few fields listed
      · simp only [Bosh.httpParse, if_neg missing, first.found, ← first.parts_eq short, three,
          refines short, first.rest, Option.map_map]
        rfl
    · refine ⟨none, by rw [line]; rfl, nofun, fun short => ?_⟩
      simp only [Bosh.httpParse, if_neg missing, first.found, ← first.parts_eq short]

/-- The walk over the text computes the header of the text. -/
theorem httpParse_refines (text : CString) (short : text.bytes.length < 2 ^ 63) :
    httpParse text.bytes = .ok (Bosh.httpParse text.bytes) := by
  obtain ⟨result, returns, -, refines⟩ := httpParse_returns text.noNul
  rw [returns, refines short]

/-- No access of `http_parse` leaves the text, and no entry is written behind an array. -/
structure Inside (text : Bytes) : Prop where
  returns : ∃ header, httpParse text = .ok header
  /-- At `n` = 3 the split is the call, below it a turn of its loop. -/
  line : incomplete text = .ok false → ∃ endLine, strstrany text httpLineSep 0 = .ok endLine ∧
    (∃ inside : endLine < text.length, text[endLine] = 13 ∨ text[endLine] = 10) ∧
    (∀ n ≤ 3, ∃ parts str, strsplit text endLine 32 3 n 0 [] = .ok (parts, str) ∧
      str ≤ endLine ∧ parts.length ≤ n) ∧
    ∃ str, skip text isSpace endLine = .ok str ∧ str ≤ text.length
  turns : ∀ i str fields, LoopAt text i str fields → str ≤ text.length ∧ fields.length = i ∧
    i ≤ maxHttpFields ∧ (i < maxHttpFields → ∃ turn, fieldTurn text str fields = .ok turn)
  /-- A negative count converts to one that only the terminator ends. -/
  copies : ∀ str n, str ≤ text.length →
    ∃ copy, strndup text str n = .ok copy ∧ str + copy.length ≤ text.length
  bounded : ∀ header, httpParse text = .ok (some header) → header.fields.length ≤ maxHttpFields

theorem httpParse_inside (text : CString) : Inside text.bytes where
  returns := by
    obtain ⟨result, returns, -⟩ := httpParse_returns text.noNul
    exact ⟨result, returns⟩
  line complete := by
    obtain ⟨endLine, parts, start, first⟩ := firstLine_exists text.noNul complete
    obtain ⟨inside, separator⟩ := first.ends
    refine ⟨endLine, first.stops, ⟨inside, ?_⟩, fun n few => ?_, start, first.skips, first.inside⟩
    · simpa [httpLineSep, ascii] using separator
    · obtain ⟨parts, str, splits, -, before, count, -⟩ :=
        strsplit_eq text.noNul 32 inside.le (Nat.zero_le _)
          (show ([] : List Bytes).length + n ≤ 3 by simpa using few)
      exact ⟨parts, str, splits, before, count⟩
  turns i str fields reached := by
    obtain ⟨inside, count, bounded⟩ := reached.invariant text.noNul
    refine ⟨inside, count, bounded, fun more => ?_⟩
    obtain ⟨turn, run, -⟩ :=
      fieldTurn_turned text.noNul inside (by omega : fields.length < maxHttpFields)
    exact ⟨turn, run⟩
  copies str n inside := strndup_inside text.noNul inside n
  bounded header parsed := by
    obtain ⟨result, returns, few, -⟩ := httpParse_returns text.noNul
    exact few header (Except.ok.inj (returns.symm.trans parsed))

end

end Bosh.Positions
