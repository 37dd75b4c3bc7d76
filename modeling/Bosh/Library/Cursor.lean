import Bosh.Library.Text

/-! C code that walks a NUL-terminated text by positions. The text and its terminator
are all there is: a position or an access outside is a fault. -/
namespace Cursor
open Text

inductive OutOfBounds where
  | before
  | past (position : Nat)
  | full (room : Nat)
  deriving DecidableEq

abbrev Checked := Except OutOfBounds

/-- The byte at a position; the last one is the terminator. -/
def read (text : Bytes) (i : Nat) : Checked UInt8 :=
  if i ≤ text.length then .ok (text.getD i 0) else .error (.past i)

def back (i : Nat) : Checked Nat := if i = 0 then .error .before else .ok (i - 1)

def store {α : Type} (room : Nat) (entries : List α) (entry : α) : Checked (List α) :=
  if entries.length < room then .ok (entries ++ [entry]) else .error (.full room)

/-- A loop that moves on by one byte until `body` ends it. -/
def walk {α : Type} (text : Bytes) (body : Nat → Checked (Option α)) (i : Nat) : Checked α :=
  if i ≤ text.length then do
    match ← body i with
    | some result => return result
    | none => walk text body (i + 1)
  else .error (.past i)
termination_by text.length + 1 - i

/-- `for (; p(*str); ++str);` -/
def skip (text : Bytes) (p : UInt8 → Bool) (str : Nat) : Checked Nat :=
  walk text (fun i => do if p (← read text i) then return none else return some i) str

/-- `for (; str != end_str && p(*str); ++str);` -/
def skipTo (text : Bytes) (p : UInt8 → Bool) (endStr str : Nat) : Checked Nat :=
  walk text (fun i => do
    if i = endStr then return some i
    else if p (← read text i) then return none
    else return some i) str

def startsAt (text : Bytes) : Bytes → Nat → Checked Bool
  | [], _ => return true
  | c :: pattern, i => do
    if (← read text i) = c then startsAt text pattern (i + 1) else return false

def strstrTurn (text pattern : Bytes) (i : Nat) : Checked (Option (Option Nat)) := do
  if ← startsAt text pattern i then return some (some i)
  else if (← read text i) = 0 then return some none
  else return none

def strstr (text pattern : Bytes) (str : Nat) : Checked (Option Nat) :=
  walk text (strstrTurn text pattern) str

def strndup (text : Bytes) : Nat → Nat → Checked Bytes
  | 0, _ => return []
  | n + 1, i => do
    let b ← read text i
    if b = 0 then return []
    else return b :: (← strndup text n (i + 1))

section
variable {text : Bytes} {i : Nat}

@[simp] theorem ok_bind {α β : Type} (a : α) (f : α → Checked β) : (Except.ok a >>= f) = f a := rfl

theorem read_end : read text text.length = .ok 0 := by
  simp [read]

theorem read_inside (inside : i < text.length) : read text i = .ok text[i] := by
  rw [read, if_pos inside.le, List.getD_eq_getElem?_getD, List.getElem?_eq_getElem inside,
    Option.getD_some]

theorem back_succ : back (i + 1) = .ok i := rfl

theorem store_room {α : Type} {room : Nat} {entries : List α} (free : entries.length < room)
    (entry : α) :
    store room entries entry = .ok (entries ++ [entry]) := if_pos free

theorem getElem_ne_nul (noNul : 0 ∉ text) (inside : i < text.length) : text[i] ≠ 0 :=
  fun nul => noNul (nul ▸ List.getElem_mem inside)

end

section
variable {α : Type} {text : Bytes} {body : Nat → Checked (Option α)}

/-- A loop ends at the first position where its body does. -/
theorem walk_stops {i stop : Nat} {result : α} (ordered : i ≤ stop) (inside : stop ≤ text.length)
    (ends : body stop = .ok (some result)) (goes : ∀ j, i ≤ j → j < stop → body j = .ok none) :
    walk text body i = .ok result := by
  induction distance : stop - i generalizing i with
  | zero =>
    obtain rfl : i = stop := by omega
    rw [walk, if_pos inside, ends]
    rfl
  | succ n ih =>
    rw [walk, if_pos (by omega), goes i (Nat.le_refl i) (by omega)]
    exact ih (by omega) (fun j low high => goes j (by omega) high) (by omega)

/-- A loop that passes over the bytes with a property stops behind the longest run of
them that lies before `limit`. -/
theorem walk_passes (p : UInt8 → Bool) (result : Nat → α) {limit : Nat}
    (inside : limit ≤ text.length)
    (goes : ∀ j (read : j < text.length), j < limit → p text[j] → body j = .ok none)
    (ends : ∀ j, j = limit ∨ (∃ read : j < text.length, p text[j] = false) →
      body j = .ok (some (result j)))
    {i : Nat} (ordered : i ≤ limit) :
    walk text body i = .ok (result (i + (((text.take limit).drop i).takeWhile p).length)) := by
  induction distance : limit - i generalizing i with
  | zero =>
    obtain rfl : i = limit := by omega
    have nothing : (text.take i).drop i = [] :=
      List.drop_eq_nil_of_le (by rw [List.length_take]; omega)
    rw [walk, if_pos inside, ends i (.inl rfl), nothing]
    rfl
  | succ n ih =>
    have here : i < text.length := by omega
    have piece : (text.take limit).drop i = text[i] :: (text.take limit).drop (i + 1) := by
      rw [List.drop_eq_getElem_cons (by rw [List.length_take]; omega), List.getElem_take]
    rw [walk, if_pos here.le, piece]
    by_cases run : p text[i] = true
    · rw [goes i here (by omega) run, List.takeWhile_cons_of_pos run, List.length_cons]
      have later := ih (by omega : i + 1 ≤ limit) (by omega)
      rwa [Nat.add_right_comm, Nat.add_assoc] at later
    · rw [ends i (.inr ⟨here, by simpa using run⟩), List.takeWhile_cons_of_neg run]
      rfl

theorem skip_eq {p : UInt8 → Bool} (stops : p 0 = false) {i : Nat} (inside : i ≤ text.length) :
    skip text p i = .ok (i + ((text.drop i).takeWhile p).length) := by
  calc skip text p i = .ok (i + (((text.take text.length).drop i).takeWhile p).length) := by
        refine walk_passes p id (Nat.le_refl text.length) (fun j here _ run => ?_) (fun j ends => ?_) inside
        · rw [read_inside here, ok_bind, if_pos run]
          rfl
        · rcases ends with rfl | ⟨here, run⟩
          · rw [read_end, ok_bind, stops]
            rfl
          · rw [read_inside here, ok_bind, run]
            rfl
    _ = .ok (i + ((text.drop i).takeWhile p).length) := by rw [List.take_length]

theorem skipTo_eq (p : UInt8 → Bool) {endStr i : Nat} (inside : endStr ≤ text.length)
    (ordered : i ≤ endStr) :
    skipTo text p endStr i = .ok (i + (((text.take endStr).drop i).takeWhile p).length) := by
  refine walk_passes p id inside (fun j here before run => ?_) (fun j ends => ?_) ordered
  · rw [if_neg before.ne, read_inside here, ok_bind, if_pos run]
    rfl
  · by_cases last : j = endStr
    · rw [if_pos last]
      rfl
    · obtain ⟨here, run⟩ := ends.resolve_left last
      rw [if_neg last, read_inside here, ok_bind, run]
      rfl

theorem takeWhile_bound (text : Bytes) (p : UInt8 → Bool) {limit i : Nat} (ordered : i ≤ limit) :
    i + (((text.take limit).drop i).takeWhile p).length ≤ limit := by
  have run := (List.takeWhile_sublist (l := (text.take limit).drop i) p).length_le
  rw [List.length_drop, List.length_take] at run
  omega

theorem drop_run (p : UInt8 → Bool) (i : Nat) :
    text.drop (i + ((text.drop i).takeWhile p).length) = (text.drop i).dropWhile p := by
  have whole := List.takeWhile_append_dropWhile (p := p) (l := text.drop i)
  calc text.drop (i + ((text.drop i).takeWhile p).length)
      = (text.drop i).drop ((text.drop i).takeWhile p).length := List.drop_drop.symm
    _ = (((text.drop i).takeWhile p) ++ ((text.drop i).dropWhile p)).drop
          ((text.drop i).takeWhile p).length := by rw [whole]
    _ = (text.drop i).dropWhile p := List.drop_left

end

section
variable {text : Bytes} {i : Nat}

theorem startsAt_eq {pattern : Bytes} (noNul : 0 ∉ pattern) (inside : i ≤ text.length) :
    startsAt text pattern i = .ok (pattern.isPrefixOf (text.drop i)) := by
  induction pattern generalizing i with
  | nil => rfl
  | cons c pattern ih =>
    rw [List.mem_cons, not_or] at noNul
    unfold startsAt
    rcases inside.lt_or_eq with here | rfl
    · rw [read_inside here, ok_bind, List.drop_eq_getElem_cons here, List.isPrefixOf_cons_cons]
      by_cases same : text[i] = c
      · rw [if_pos same, ih noNul.2 here, same, beq_self_eq_true, Bool.true_and]
      · rw [if_neg same, beq_eq_false_iff_ne.mpr (Ne.symm same), Bool.false_and]
        rfl
    · rw [read_end, ok_bind, if_neg noNul.1, List.drop_length]
      rfl

theorem strstrTurn_goes {pattern : Bytes} (noNul : 0 ∉ text) (plain : 0 ∉ pattern)
    (inside : i < text.length) (absent : ¬ pattern <+: text.drop i) :
    strstrTurn text pattern i = .ok none := by
  rw [← List.isPrefixOf_iff_prefix, Bool.not_eq_true] at absent
  rw [strstrTurn, startsAt_eq plain inside.le, absent, ok_bind, if_neg Bool.false_ne_true,
    read_inside inside, ok_bind, if_neg (getElem_ne_nul noNul inside)]
  rfl

theorem strstrTurn_found {pattern : Bytes} (plain : 0 ∉ pattern) (inside : i ≤ text.length)
    (here : pattern <+: text.drop i) : strstrTurn text pattern i = .ok (some (some i)) := by
  rw [← List.isPrefixOf_iff_prefix] at here
  rw [strstrTurn, startsAt_eq plain inside, here]
  rfl

theorem strstrTurn_end {pattern : Bytes} (plain : 0 ∉ pattern) (hp : pattern ≠ []) :
    strstrTurn text pattern text.length = .ok (some none) := by
  rw [strstrTurn, startsAt_eq plain (Nat.le_refl _), List.drop_length, read_end]
  cases pattern with
  | nil => exact absurd rfl hp
  | cons => rfl

theorem strstr_eq (noNul : 0 ∉ text) {pattern : Bytes} (plain : 0 ∉ pattern) (hp : pattern ≠ [])
    (inside : i ≤ text.length) :
    strstr text pattern i = .ok ((find pattern (text.drop i)).map (i + ·)) := by
  unfold strstr
  cases found : find pattern (text.drop i) with
  | none =>
    have absent := (find_eq_none_iff hp).mp found
    refine walk_stops inside (Nat.le_refl _) (strstrTurn_end plain hp) fun j low high => ?_
    have notHere := absent (j - i)
    rw [List.drop_drop, Nat.add_sub_cancel' low] at notHere
    exact strstrTurn_goes noNul plain high notHere
  | some k =>
    obtain ⟨here, earlier⟩ := (find_eq_some_iff hp).mp found
    have bound := find_bound hp found
    have length := List.length_pos_iff.mpr hp
    rw [List.length_drop] at bound
    rw [List.drop_drop] at here
    refine walk_stops (Nat.le_add_right i k) (by omega)
      (strstrTurn_found plain (by omega) here) fun j low high => ?_
    have notHere := earlier (j - i) (by omega)
    rw [List.drop_drop, Nat.add_sub_cancel' low] at notHere
    exact strstrTurn_goes noNul plain (by omega) notHere

theorem strndup_eq (noNul : 0 ∉ text) (n : Nat) (inside : i ≤ text.length) :
    strndup text n i = .ok ((text.drop i).take n) := by
  induction n generalizing i with
  | zero => rfl
  | succ n ih =>
    unfold strndup
    rcases inside.lt_or_eq with here | rfl
    · rw [read_inside here, ok_bind, if_neg (getElem_ne_nul noNul here), ih here,
        List.drop_eq_getElem_cons here]
      rfl
    · rw [read_end, List.drop_length]
      rfl

end

end Cursor
