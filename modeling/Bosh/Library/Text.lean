import Mathlib.Algebra.Group.Int.Defs
import Mathlib.Algebra.Group.Nat.Defs
import Mathlib.Data.List.Basic
import Mathlib.Data.List.Infix
import Mathlib.Data.List.TakeWhile

/-! Bytes and the parts of the C string library that byte-oriented code rests on:
NUL-terminated text, substring search, integer scanning and decimal printing. -/
namespace Text

abbrev Bytes := List UInt8

def ascii (literal : String) : Bytes := literal.toList.map fun c => UInt8.ofNat c.toNat

/-- The text at the start of a memory: what precedes its first NUL. -/
def cstr (memory : Bytes) : Bytes := memory.takeWhile (· != 0)

structure CString where
  bytes : Bytes
  noNul : 0 ∉ bytes
  deriving DecidableEq

theorem cstr_append {text : Bytes} (h : 0 ∉ text) (rest : Bytes) :
    cstr (text ++ rest) = text ++ cstr rest := by
  unfold cstr
  rw [List.takeWhile_append_of_pos]
  intro b hb
  simp only [bne_iff_ne, ne_eq]
  rintro rfl
  exact h hb

theorem cstr_eq_self {text : Bytes} (h : 0 ∉ text) : cstr text = text := by
  have := cstr_append h []
  simpa [cstr] using this

theorem cstr_terminated (text rest : Bytes) : cstr (text ++ 0 :: rest) = cstr text := by
  induction text with
  | nil => simp [cstr]
  | cons b text ih =>
    unfold cstr at ih ⊢
    simp only [List.cons_append, List.takeWhile_cons]
    split
    · rw [ih]
    · rfl

/-- The offset of the first occurrence of `pattern`. -/
def find (pattern : Bytes) : Bytes → Option Nat
  | [] => if pattern = [] then some 0 else none
  | b :: text => if pattern.isPrefixOf (b :: text) then some 0 else (find pattern text).map (· + 1)

theorem find_eq_some_iff {pattern text : Bytes} {i : Nat} (hp : pattern ≠ []) :
    find pattern text = some i ↔
      pattern <+: text.drop i ∧ ∀ j < i, ¬ pattern <+: text.drop j := by
  induction text generalizing i with
  | nil => simp [find, hp]
  | cons b text ih =>
    unfold find
    by_cases h : pattern.isPrefixOf (b :: text) = true
    · rw [if_pos h]
      have here : pattern <+: b :: text := by simpa using h
      cases i with
      | zero => simpa using here
      | succ i =>
        simp only [Option.some.injEq, Nat.reduceEqDiff, List.drop_succ_cons, false_iff, not_and,
          not_forall, Classical.not_not]
        exact fun _ => ⟨0, by omega, by simpa using here⟩
    · rw [if_neg h]
      have notHere : ¬ pattern <+: b :: text := by simpa using h
      cases i with
      | zero => simp [notHere]
      | succ i =>
        simp only [Option.map_eq_some_iff, Nat.add_right_cancel_iff, exists_eq_right, ih,
          List.drop_succ_cons]
        refine and_congr_right fun _ => ⟨fun earlier j hj => ?_, fun earlier j hj => ?_⟩
        · cases j with
          | zero => simpa using notHere
          | succ j => exact earlier j (by omega)
        · exact earlier (j + 1) (by omega)

theorem find_eq_none_iff {pattern text : Bytes} (hp : pattern ≠ []) :
    find pattern text = none ↔ ∀ i, ¬ pattern <+: text.drop i := by
  constructor
  · intro missing
    induction text with
    | nil => simp [hp]
    | cons b text ih =>
      unfold find at missing
      split at missing
      · cases missing
      · rename_i notHere
        intro i
        cases i with
        | zero => simpa using notHere
        | succ i => simpa using ih (by simpa using missing) i
  · intro absent
    cases found : find pattern text with
    | none => rfl
    | some i => exact absurd ((find_eq_some_iff hp).mp found).1 (absent i)

theorem find_bound {pattern text : Bytes} {i : Nat} (hp : pattern ≠ [])
    (found : find pattern text = some i) : i + pattern.length ≤ text.length := by
  have h := (((find_eq_some_iff hp).mp found).1).length_le
  have := List.length_pos_iff.mpr hp
  rw [List.length_drop] at h
  omega

private theorem prefix_drop_of_append {pattern text rest : Bytes} {j : Nat}
    (here : pattern <+: (text ++ rest).drop j) (room : j + pattern.length ≤ text.length) :
    pattern <+: text.drop j := by
  rw [List.drop_append_of_le_length (by omega)] at here
  exact List.prefix_of_prefix_length_le here (List.prefix_append _ _)
    (by rw [List.length_drop]; omega)

theorem find_append {pattern text : Bytes} {i : Nat} (hp : pattern ≠ [])
    (found : find pattern text = some i) (rest : Bytes) : find pattern (text ++ rest) = some i := by
  have bound := find_bound hp found
  obtain ⟨here, earlier⟩ := (find_eq_some_iff hp).mp found
  have := List.length_pos_iff.mpr hp
  refine (find_eq_some_iff hp).mpr ⟨?_, fun j hj bad => ?_⟩
  · rw [List.drop_append_of_le_length (by omega)]
    exact here.trans (List.prefix_append _ _)
  · exact earlier j hj (prefix_drop_of_append bad (by omega))

/-- No proper part of a text that ends before the occurrence does contains it. -/
theorem find_short {pattern text short : Bytes} {i : Nat} (hp : pattern ≠ [])
    (found : find pattern text = some i) (cut : short <+: text)
    (hlt : short.length < i + pattern.length) : find pattern short = none := by
  apply (find_eq_none_iff hp).mpr
  intro j bad
  obtain ⟨rest, rfl⟩ := cut
  obtain ⟨_, earlier⟩ := (find_eq_some_iff hp).mp found
  have fits := bad.length_le
  have := List.length_pos_iff.mpr hp
  rw [List.length_drop] at fits
  apply earlier j (by omega)
  rw [List.drop_append_of_le_length (by omega)]
  exact bad.trans (List.prefix_append _ _)

theorem find_here {c : UInt8} {pattern text rest : Bytes} (absent : c ∉ text)
    (here : pattern <+: rest) : find (c :: pattern) (text ++ c :: rest) = some text.length := by
  induction text with
  | nil => simp [find, here]
  | cons b text ih =>
    simp only [List.mem_cons, not_or] at absent
    simp [find, List.cons_prefix_cons, absent.1, ih absent.2]

theorem find_skip {c : UInt8} {pattern text rest : Bytes} (absent : c ∉ text)
    (different : ¬ pattern <+: rest) :
    find (c :: pattern) (text ++ c :: rest) = (find (c :: pattern) rest).map (· + (text.length + 1)) := by
  induction text with
  | nil => simp [find, different]
  | cons b text ih =>
    simp only [List.mem_cons, not_or] at absent
    simp [find, List.cons_prefix_cons, absent.1, ih absent.2, Function.comp_def, Nat.add_assoc]

theorem find_single {c : UInt8} {text : Bytes} (h : c ∉ text) (rest : Bytes) :
    find [c] (text ++ c :: rest) = some text.length :=
  find_here h List.nil_prefix

theorem find_none_of_prefix {pattern text short : Bytes} (hp : pattern ≠ [])
    (missing : find pattern text = none) (cut : short <+: text) : find pattern short = none := by
  refine (find_eq_none_iff hp).mpr fun i bad => (find_eq_none_iff hp).mp missing i ?_
  exact bad.trans (cut.drop i)

theorem find_single_none {c : UInt8} {text : Bytes} (h : c ∉ text) : find [c] text = none := by
  induction text with
  | nil => simp [find]
  | cons b text ih =>
    simp only [List.mem_cons, not_or] at h
    simp [find, h.1, ih h.2]

private theorem bne_of_notMem {c : UInt8} {text : Bytes} (h : c ∉ text) :
    ∀ b ∈ text, (b != c) = true := by
  rintro b member
  exact bne_iff_ne.mpr fun same => h (same ▸ member)

theorem takeWhile_until {c : UInt8} {text : Bytes} (h : c ∉ text) (rest : Bytes) :
    (text ++ c :: rest).takeWhile (· != c) = text := by
  rw [List.takeWhile_append_of_pos (bne_of_notMem h)]
  simp

theorem dropWhile_until {c : UInt8} {text : Bytes} (h : c ∉ text) (rest : Bytes) :
    (text ++ c :: rest).dropWhile (· != c) = c :: rest := by
  rw [List.dropWhile_append_of_pos (bne_of_notMem h)]
  simp

theorem split_of_find_single {c : UInt8} {text : Bytes} {i : Nat} (found : find [c] text = some i) :
    ∃ before after, text = before ++ c :: after ∧ c ∉ before ∧ before.length = i := by
  have present : c ∈ text := by
    by_contra absent
    simp [find_single_none absent] at found
  obtain ⟨before, after, rfl, absent⟩ := List.eq_append_cons_of_mem present
  rw [find_single absent, Option.some.injEq] at found
  exact ⟨before, after, rfl, absent, found⟩

theorem find_append_of_none {pattern first second : Bytes}
    (nowhere : ∀ j < first.length, ¬ pattern <+: (first ++ second).drop j) :
    find pattern (first ++ second) = (find pattern second).map (· + first.length) := by
  induction first with
  | nil => simp
  | cons b first ih =>
    have here : ¬ pattern.isPrefixOf (b :: (first ++ second)) = true := by
      simpa using nowhere 0 (by simp)
    have rest := ih fun j inside => by simpa using nowhere (j + 1) (by simpa using inside)
    rw [List.cons_append, find, if_neg here, rest, Option.map_map]
    simp [Function.comp_def, Nat.add_assoc]

def lines : Bytes → List Bytes
  | [] => []
  | b :: text =>
    if b = 10 then [] :: lines text
    else match lines text with
      | [] => []
      | line :: rest => (b :: line) :: rest

def trimCr (line : Bytes) : Bytes := if line.getLast? = some 13 then line.dropLast else line

theorem lines_cons {line : Bytes} (absent : 10 ∉ line) (rest : Bytes) :
    lines (line ++ 10 :: rest) = line :: lines rest := by
  induction line with
  | nil => simp [lines]
  | cons b line ih =>
    simp only [List.mem_cons, not_or] at absent
    simp [lines, Ne.symm absent.1, ih absent.2]

theorem lines_eq_nil {text : Bytes} (absent : 10 ∉ text) : lines text = [] := by
  induction text with
  | nil => rfl
  | cons b text ih =>
    simp only [List.mem_cons, not_or] at absent
    simp [lines, Ne.symm absent.1, ih absent.2]

theorem newline_notMem_lines {text line : Bytes} (listed : line ∈ lines text) : 10 ∉ line := by
  induction text generalizing line with
  | nil => simp [lines] at listed
  | cons b text ih =>
    unfold lines at listed
    split at listed
    · rcases List.mem_cons.mp listed with rfl | later
      · simp
      · exact ih later
    · rename_i other
      cases rest : lines text with
      | nil => simp [rest] at listed
      | cons first later =>
        rw [rest] at ih listed
        rcases List.mem_cons.mp listed with rfl | further
        · simpa using ⟨Ne.symm other, ih (.head _)⟩
        · exact ih (.tail _ further)

theorem trimCr_subset (line : Bytes) : trimCr line ⊆ line := by
  unfold trimCr
  split
  · exact List.dropLast_subset line
  · exact List.Subset.refl line

def isSpace (b : UInt8) : Bool := b == 32 || (9 ≤ b && b ≤ 13)

def isDigit (b : UInt8) : Bool := 48 ≤ b && b ≤ 57

def digitsValue (digits : Bytes) : Nat :=
  digits.foldl (fun n b => 10 * n + (b.toNat - 48)) 0

/-- The integer a text starts with, unbounded: white space, an optional sign and the
longest digit run; `none` when there is no digit. -/
def readInt (text : Bytes) : Option Int :=
  let text := text.dropWhile isSpace
  let negative := text.head? = some 45
  let text := if negative ∨ text.head? = some 43 then text.tail else text
  let digits := text.takeWhile isDigit
  if digits = [] then none
  else some (if negative then -(digitsValue digits : Int) else digitsValue digits)

def toInt32 (x : Int) : Int := x.bmod (2 ^ 32)

def clampInt64 (x : Int) : Int := max (-(2 ^ 63)) (min (2 ^ 63 - 1) x)

/-- `atoi`: a `strtol` result converted to `int`; zero without digits. -/
def atoi (text : Bytes) : Int := toInt32 (clampInt64 ((readInt text).getD 0))

/-- `sscanf` of a signed 64-bit conversion into an unsigned variable. -/
def scanInt64 (text : Bytes) : Option UInt64 :=
  (readInt text).map fun x => UInt64.ofNat ((clampInt64 x) % 2 ^ 64).toNat

/-- `strtoull` on the unbounded value: out of range saturates, a sign negates modulo 2^64. -/
def toUInt64 (x : Int) : UInt64 :=
  if x.natAbs < 2 ^ 64 then UInt64.ofNat (x % 2 ^ 64).toNat else UInt64.ofNat (2 ^ 64 - 1)

def scanUInt64 (text : Bytes) : Option (UInt64 × Bytes) :=
  (readInt text).map fun x =>
    let text := text.dropWhile isSpace
    let text := if text.head? = some 45 ∨ text.head? = some 43 then text.tail else text
    (toUInt64 x, text.dropWhile isDigit)

def toSize (x : Int) : Nat := (x % 2 ^ 64).toNat

theorem toInt32_of_fits {x : Int} (low : -(2 ^ 31) ≤ x) (high : x < 2 ^ 31) : toInt32 x = x :=
  Int.bmod_eq_of_le (by omega) (by omega)

theorem toInt32_of_lt {x : Int} (h0 : 0 ≤ x) (h : x < 2 ^ 31) : toInt32 x = x :=
  toInt32_of_fits (by omega) h

theorem toInt32_of_wraps {x : Int} (low : 2 ^ 31 ≤ x) (high : x < 2 ^ 32) :
    toInt32 x = x - 2 ^ 32 := by
  have shifted : (x - 2 ^ 32).bmod (2 ^ 32) = x - 2 ^ 32 := toInt32_of_fits (by omega) (by omega)
  rw [← shifted, toInt32]
  exact (Int.sub_bmod_right x (2 ^ 32)).symm

theorem toInt32_bounds (x : Int) : -(2 ^ 31) ≤ toInt32 x ∧ toInt32 x < 2 ^ 31 := by
  have low : -((2 ^ 32 : Nat) : Int) / 2 ≤ x.bmod (2 ^ 32) := Int.le_bmod (by decide)
  have high : x.bmod (2 ^ 32) < (((2 ^ 32 : Nat) : Int) + 1) / 2 := Int.bmod_lt (by decide)
  unfold toInt32
  omega

theorem toSize_of_nonneg {x : Int} (h0 : 0 ≤ x) (h : x < 2 ^ 64) : toSize x = x.toNat := by
  unfold toSize
  rw [Int.emod_eq_of_lt h0 h]

theorem toSize_of_neg {x : Int} (h0 : x < 0) (h : -(2 ^ 64) ≤ x) :
    (toSize x : Int) = x + 2 ^ 64 := by
  have wrapped : (x + 2 ^ 64) % 2 ^ 64 = x + 2 ^ 64 := Int.emod_eq_of_lt (by omega) (by omega)
  rw [Int.add_emod_right] at wrapped
  unfold toSize
  omega

theorem atoi_bounds (text : Bytes) : -(2 ^ 31) ≤ atoi text ∧ atoi text < 2 ^ 31 :=
  toInt32_bounds _

theorem atoi_eq {text : Bytes} {n : Nat} (h : (readInt text).getD 0 = n) (hn : n < 2 ^ 31) :
    atoi text = n := by
  unfold atoi clampInt64
  rw [h, toInt32_of_lt (by omega) (by omega)]
  omega

def decimal (n : Nat) : Bytes := (Nat.toDigits 10 n).map fun c => UInt8.ofNat c.toNat

def decimalInt (x : Int) : Bytes :=
  if x < 0 then 45 :: decimal x.natAbs else decimal x.toNat

theorem digitChar_eq {d : Nat} (small : d < 10) :
    UInt8.ofNat d.digitChar.toNat = UInt8.ofNat (48 + d) := by
  have all : ∀ i : Fin 10, UInt8.ofNat i.val.digitChar.toNat = UInt8.ofNat (48 + i.val) := by decide
  exact all ⟨d, small⟩

theorem decimal_eq (n : Nat) :
    decimal n = (if n < 10 then [] else decimal (n / 10)) ++ [UInt8.ofNat (48 + n % 10)] := by
  unfold decimal
  rw [Nat.toDigits_eq_if (by decide)]
  split
  · rename_i small
    rw [List.map_singleton, digitChar_eq small, Nat.mod_eq_of_lt small, List.nil_append]
  · rw [List.map_append, List.map_singleton, digitChar_eq (Nat.mod_lt _ (by decide))]

theorem digit_toNat {d : Nat} (small : d < 10) : (UInt8.ofNat (48 + d)).toNat = 48 + d := by
  rw [UInt8.toNat_ofNat', Nat.mod_eq_of_lt (by omega)]

theorem decimal_digits (n : Nat) : ∀ b ∈ decimal n, isDigit b = true := by
  induction n using Nat.strongRecOn with
  | ind n ih =>
    have last : isDigit (UInt8.ofNat (48 + n % 10)) = true := by
      have all : ∀ i : Fin 10, isDigit (UInt8.ofNat (48 + i.val)) = true := by decide
      exact all ⟨n % 10, Nat.mod_lt _ (by decide)⟩
    rw [decimal_eq, List.forall_mem_append]
    refine ⟨?_, List.forall_mem_singleton.mpr last⟩
    split
    · simp
    · exact ih (n / 10) (by omega)

theorem decimal_ne_nil (n : Nat) : decimal n ≠ [] := by
  rw [decimal_eq]
  simp

theorem digitsValue_decimal (n : Nat) : digitsValue (decimal n) = n := by
  induction n using Nat.strongRecOn with
  | ind n ih =>
    have last := digit_toNat (Nat.mod_lt n (by decide : 10 > 0))
    have snoc : ∀ digits, digitsValue (digits ++ [UInt8.ofNat (48 + n % 10)]) =
        10 * digitsValue digits + n % 10 := by
      intro digits
      rw [digitsValue, List.foldl_append, List.foldl_cons, List.foldl_nil, last,
        Nat.add_sub_cancel_left]
      rfl
    rw [decimal_eq, snoc]
    split
    · simp only [digitsValue, List.foldl_nil]
      omega
    · rw [ih (n / 10) (by omega)]
      omega

theorem isDigit_plain {b : UInt8} (digit : isDigit b = true) :
    isSpace b = false ∧ b ≠ 45 ∧ b ≠ 43 := by
  simp only [isDigit, Bool.and_eq_true, decide_eq_true_eq, UInt8.le_iff_toNat_le,
    UInt8.toNat_ofNat] at digit
  refine ⟨?_, ?_, ?_⟩
  · simp only [isSpace, Bool.or_eq_false_iff, Bool.and_eq_false_iff, beq_eq_false_iff_ne,
      decide_eq_false_iff_not, UInt8.le_iff_toNat_le, UInt8.toNat_ofNat, ne_eq, UInt8.ext_iff]
    omega
  · rintro rfl
    simp at digit
  · rintro rfl
    simp at digit

theorem readInt_decimal (n : Nat) : readInt (decimal n) = some (n : Int) := by
  obtain ⟨b, digits, shape⟩ := List.exists_cons_of_ne_nil (decimal_ne_nil n)
  have all := decimal_digits n
  have whole : (decimal n).takeWhile isDigit = decimal n := List.takeWhile_eq_self_iff.mpr all
  have first : isDigit b = true := all b (by simp [shape])
  have plain := isDigit_plain first
  have skipped : (decimal n).dropWhile isSpace = decimal n := by
    rw [shape, List.dropWhile_cons, plain.1]
    rfl
  unfold readInt
  simp only [skipped]
  simp only [shape, List.head?_cons, Option.some.injEq, plain.2.1, plain.2.2, false_or, if_false]
  rw [← shape, whole, if_neg (decimal_ne_nil n), digitsValue_decimal]

theorem readInt_space (n : Nat) : readInt (32 :: decimal n) = some (n : Int) := by
  rw [← readInt_decimal n]
  rfl

def decimalPadded (x : Int) : Bytes :=
  let digits := decimalInt x
  List.replicate (2 - digits.length) 48 ++ digits

/-- The items that a text is made of, each taken off its front, until nothing is left. -/
def takeAll {α : Type} (take : Bytes → Option (α × Bytes)) : Nat → Bytes → Option (List α)
  | _, [] => some []
  | 0, _ :: _ => none
  | n + 1, b :: text =>
    match take (b :: text) with
    | none => none
    | some (item, rest) => (takeAll take n rest).map (item :: ·)

/-- Items that can be taken off whatever follows them are all read back. -/
theorem takeAll_flatMap {α β : Type} {take : Bytes → Option (α × Bytes)} {encode : β → Bytes}
    {item : β → α} {xs : List β} (some_bytes : ∀ x ∈ xs, encode x ≠ [])
    (takes : ∀ x ∈ xs, ∀ rest, take (encode x ++ rest) = some (item x, rest)) {n : Nat}
    (enough : (xs.flatMap encode).length ≤ n) :
    takeAll take n (xs.flatMap encode) = some (xs.map item) := by
  induction xs generalizing n with
  | nil => cases n <;> rfl
  | cons x xs ih =>
    obtain ⟨b, bytes, shape⟩ := List.exists_cons_of_ne_nil (some_bytes x (.head _))
    have size : (encode x).length = bytes.length + 1 := by rw [shape, List.length_cons]
    rw [List.flatMap_cons, List.length_append] at enough
    obtain ⟨m, rfl⟩ : ∃ m, n = m + 1 := ⟨n - 1, by omega⟩
    have first := takes x (.head _) (xs.flatMap encode)
    have others := ih (fun y listed => some_bytes y (.tail _ listed))
      (fun y listed => takes y (.tail _ listed)) (n := m) (by omega)
    rw [List.flatMap_cons]
    rw [shape, List.cons_append] at first ⊢
    rw [takeAll, first]
    simp [others]

end Text
