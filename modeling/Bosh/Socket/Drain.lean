import Bosh.Socket.Outlet

/-! What one flush of an output queue gets out, in terms of what `send` returns. -/
namespace Bosh
open Effect Text

def QueueItem.rest (item : QueueItem) : Nat := item.len - item.offset

def QueueItem.taken (n : Nat) (item : QueueItem) : QueueItem :=
  { item with offset := item.offset + min n item.rest }

section Flushing
variable {item : QueueItem} {queue : List QueueItem} {results : List SendResult}

theorem flushQueue_done (done : item.rest = 0) :
    flushQueue (item :: queue) results = flushQueue queue results := by
  have sent : ¬ item.offset < item.len := by unfold QueueItem.rest at done; omega
  have whole : flushItem item results = (item, results, [], .whole) := by
    cases results <;> simp [flushItem, sent]
  rw [flushQueue, whole]
  rfl

theorem flushQueue_stuck (more : item.rest ≠ 0) :
    flushQueue (item :: queue) [] = (item :: queue, [], [], .blocked) := by
  have inside : item.offset < item.len := by unfold QueueItem.rest at more; omega
  rw [flushQueue, flushItem, if_pos inside]

theorem flushQueue_again (more : item.rest ≠ 0) {result : SendResult}
    (stops : result = .count 0 ∨ result = .again) :
    flushQueue (item :: queue) (result :: results) = (item :: queue, results, [], .blocked) := by
  have inside : item.offset < item.len := by unfold QueueItem.rest at more; omega
  rcases stops with rfl | rfl
  · rw [flushQueue, flushItem, if_pos inside]
  · rw [flushQueue, flushItem, if_pos inside]

theorem flushQueue_fail (more : item.rest ≠ 0) :
    flushQueue (item :: queue) (.fail :: results) = (item :: queue, results, [], .failed) := by
  have inside : item.offset < item.len := by unfold QueueItem.rest at more; omega
  rw [flushQueue, flushItem, if_pos inside]

theorem flushQueue_count (more : item.rest ≠ 0) (n : Nat) :
    flushQueue (item :: queue) (.count (n + 1) :: results) =
      ((flushQueue (item.taken (n + 1) :: queue) results).1, (flushQueue (item.taken (n + 1) :: queue) results).2.1,
        (item.buffer.drop item.offset).take (min (n + 1) item.rest) ++
          (flushQueue (item.taken (n + 1) :: queue) results).2.2.1,
        (flushQueue (item.taken (n + 1) :: queue) results).2.2.2) := by
  have inside : item.offset < item.len := by unfold QueueItem.rest at more; omega
  rw [flushQueue, flushItem, if_pos inside, flushQueue]
  simp only [QueueItem.taken, QueueItem.rest]
  rcases flushItem { item with offset := item.offset + min (n + 1) (item.len - item.offset) } results with
    ⟨last, left, bytes, _ | _ | _⟩
  · simp
  · simp
  · simp

/-- The two loops as one: each turn removes an item, or uses up one result. -/
theorem flushQueue_induction {motive : List QueueItem → List SendResult → Prop}
    (empty : ∀ results, motive [] results)
    (done : ∀ item queue results, item.rest = 0 → motive queue results → motive (item :: queue) results)
    (stuck : ∀ item queue, item.rest ≠ 0 → motive (item :: queue) [])
    (again : ∀ item queue result results, item.rest ≠ 0 → result = .count 0 ∨ result = .again →
      motive (item :: queue) (result :: results))
    (fail : ∀ item queue results, item.rest ≠ 0 → motive (item :: queue) (.fail :: results))
    (count : ∀ item queue n results, item.rest ≠ 0 → motive (item.taken (n + 1) :: queue) results →
      motive (item :: queue) (.count (n + 1) :: results))
    (queue : List QueueItem) (results : List SendResult) : motive queue results := by
  induction results generalizing queue with
  | nil =>
    induction queue with
    | nil => exact empty []
    | cons item queue ih =>
      by_cases more : item.rest = 0
      · exact done item queue [] more ih
      · exact stuck item queue more
  | cons result results used =>
    induction queue with
    | nil => exact empty _
    | cons item queue ih =>
      by_cases more : item.rest = 0
      · exact done item queue _ more ih
      · cases result with
        | count taken =>
          cases taken with
          | zero => exact again item queue _ results more (.inl rfl)
          | succ n => exact count item queue n results more (used _)
        | again => exact again item queue _ results more (.inr rfl)
        | fail => exact fail item queue results more

/-- The results let these many bytes go, item by item, or one of them is fatal, before one of them
is 0 or tells that there is no room. -/
def drains : List SendResult → List Nat → Bool
  | [], sizes => sizes.all (· == 0)
  | result :: results, sizes =>
    match sizes.dropWhile (· == 0) with
    | [] => true
    | size :: sizes =>
      match result with
      | .count 0 | .again => false
      | .count (n + 1) => drains results ((size - (n + 1)) :: sizes)
      | .fail => true

theorem flushQueue_blocked_iff (queue : List QueueItem) (results : List SendResult) :
    (flushQueue queue results).2.2.2 = .blocked ↔
      drains results (queue.map QueueItem.rest) = false := by
  induction queue, results using flushQueue_induction with
  | empty results => cases results <;> simp [flushQueue, drains]
  | done item queue results done ih =>
    rw [flushQueue_done done, ih]
    cases results <;> simp [drains, done]
  | stuck item queue more => simp [flushQueue_stuck more, drains, more]
  | again item queue result results more stops =>
    rw [flushQueue_again more stops]
    rcases stops with rfl | rfl <;> simp [drains, more]
  | fail item queue results more => simp [flushQueue_fail more, drains, more]
  | count item queue n results more ih =>
    have left : (item.taken (n + 1)).rest = item.rest - (n + 1) := by
      simp only [QueueItem.taken, QueueItem.rest]
      omega
    rw [flushQueue_count more, ih]
    simp [drains, more, left]

theorem flushQueue_used (queue : List QueueItem) (results : List SendResult) :
    ∃ used, results = used ++ (flushQueue queue results).2.1 ∧
      ((flushQueue queue results).2.2.2 = .failed ↔ .fail ∈ used) := by
  induction queue, results using flushQueue_induction with
  | empty results => exact ⟨[], by simp [flushQueue]⟩
  | done item queue results done ih => rwa [flushQueue_done done]
  | stuck item queue more => exact ⟨[], by simp [flushQueue_stuck more]⟩
  | again item queue result results more stops =>
    rw [flushQueue_again more stops]
    refine ⟨[result], rfl, ?_⟩
    rcases stops with rfl | rfl <;> simp
  | fail item queue results more =>
    rw [flushQueue_fail more]
    exact ⟨[.fail], rfl, by simp⟩
  | count item queue n results more ih =>
    obtain ⟨used, split, failed⟩ := ih
    rw [flushQueue_count more]
    refine ⟨.count (n + 1) :: used, by rw [List.cons_append, ← split], ?_⟩
    simpa using failed

def QueueItem.Sized (item : QueueItem) : Prop :=
  item.len = item.buffer.length ∧ item.offset ≤ item.len

theorem sized_itemNew (bytes : Bytes) : (itemNew bytes bytes.length 0).Sized := ⟨rfl, Nat.zero_le _⟩

theorem QueueItem.Sized.unsent_length {item : QueueItem} (sized : item.Sized) :
    item.unsent.length = item.rest := by
  obtain ⟨length, inside⟩ := sized
  simp only [QueueItem.unsent, QueueItem.rest, List.length_take, List.length_drop]
  omega

theorem flushQueue_sized (queue : List QueueItem) (results : List SendResult)
    (sized : ∀ item ∈ queue, item.Sized) :
    (∀ item ∈ (flushQueue queue results).1, item.Sized) ∧
      ((flushQueue queue results).2.2.2 = .blocked → unsent (flushQueue queue results).1 ≠ []) ∧
      ((flushQueue queue results).2.2.2 = .whole → (flushQueue queue results).1 = []) := by
  have left : ∀ {item : QueueItem} {queue : List QueueItem}, item.Sized → item.rest ≠ 0 →
      unsent (item :: queue) ≠ [] := fun {item queue} sized more none => by
    have length := sized.unsent_length
    simp only [unsent_cons, List.append_eq_nil_iff] at none
    simp [none.1, more.symm] at length
  induction queue, results using flushQueue_induction with
  | empty results => simp [flushQueue]
  | done item queue results done ih =>
    rw [flushQueue_done done]
    exact ih (List.forall_mem_cons.mp sized).2
  | stuck item queue more =>
    rw [flushQueue_stuck more]
    exact ⟨sized, fun _ => left (sized item (by simp)) more, by simp⟩
  | again item queue result results more stops =>
    rw [flushQueue_again more stops]
    exact ⟨sized, fun _ => left (sized item (by simp)) more, by simp⟩
  | fail item queue results more =>
    rw [flushQueue_fail more]
    exact ⟨sized, by simp, by simp⟩
  | count item queue n results more ih =>
    rw [flushQueue_count more]
    obtain ⟨first, rest⟩ := List.forall_mem_cons.mp sized
    have inside : (item.taken (n + 1)).offset ≤ item.len := by
      have before := first.2
      simp only [QueueItem.taken, QueueItem.rest]
      omega
    exact ih (List.forall_mem_cons.mpr ⟨⟨first.1, inside⟩, rest⟩)

end Flushing

namespace Outlet
variable {o : Outlet}

theorem steps_announced (buffers : List Bytes) :
    o.steps (buffers.map fun buffer => .send (some buffer) true) =
      { o with queue := o.queue ++ buffers.map fun buffer => itemNew buffer buffer.length 0 } := by
  induction buffers generalizing o with
  | nil => simp [steps]
  | cons buffer buffers ih =>
    have first : o.step (.send (some buffer) true) = o.queued (.send (some buffer) true) := by
      simp [step, SocketOp.flushes]
    change (o.step (.send (some buffer) true)).steps _ = _
    rw [first, ih]
    simp [queued, SocketOp.items]

theorem unsent_news (buffers : List Bytes) :
    unsent (buffers.map fun buffer => itemNew buffer buffer.length 0) = buffers.flatten := by
  induction buffers with
  | nil => rfl
  | cons buffer buffers ih => rw [List.map_cons, unsent_cons, ih, unsent_itemNew, List.flatten_cons]

theorem step_sized (sized : ∀ item ∈ o.queue, item.Sized) (op : SocketOp) :
    ∀ item ∈ (o.step op).queue, item.Sized := by
  have queued : ∀ item ∈ (o.queued op).queue, item.Sized := by
    refine List.forall_mem_append.mpr ⟨sized, ?_⟩
    rcases op with ⟨_ | buffer, more⟩ | errorCode <;> simp [SocketOp.items, sized_itemNew]
  by_cases quiet : o.status = .connected ∧ op.flushes = true
  · rcases ran : flushQueue (o.queued op).queue o.sends with ⟨queue, left, bytes, how⟩
    have kept := (flushQueue_sized _ o.sends queued).1
    rw [ran] at kept
    rw [step_flushed quiet.1 quiet.2, flush_eq (o := o.queued op) ran]
    split
    · simp
    · exact kept
  · rw [(step_waiting quiet).1]
    exact queued

/-- Every byte that waits in the first outlet has been accepted in the second, or a `send` in
between has failed. -/
def Delivers (o o' : Outlet) : Prop :=
  (∃ used, o.sends = used ++ o'.sends ∧ .fail ∈ used) ∨ o'.sent = o.sent ++ unsent o.queue

/-- A last flush delivers what the results of `send` let it, if the socket is connected. -/
theorem flush_delivers_iff (sized : ∀ item ∈ o.queue, item.Sized) :
    o.Delivers (o.step (.send none false)) ↔
      (o.status = .connected ∧ drains o.sends (o.queue.map QueueItem.rest) = true) ∨
        unsent o.queue = [] := by
  by_cases live : o.status = .connected
  · obtain ⟨used, split, failed⟩ := flushQueue_used o.queue o.sends
    obtain ⟨-, blocked, whole⟩ := flushQueue_sized o.queue o.sends sized
    have drained := flushQueue_blocked_iff o.queue o.sends
    rcases ran : flushQueue o.queue o.sends with ⟨queue, left, bytes, how⟩
    obtain ⟨all, -, -⟩ := flushQueue_spec _ _ _ _ _ _ ran
    rw [ran] at split failed blocked whole drained
    dsimp only at split failed blocked whole drained
    have queued : o.queued (.send none false) = o := by simp [Outlet.queued, SocketOp.items]
    have after : (o.step (.send none false)).sends = left ∧
        (o.step (.send none false)).sent = o.sent ++ bytes := by
      rw [step_flushed live rfl, queued, flush_eq ran]
      split <;> exact ⟨rfl, rfl⟩
    have used_iff : (∃ used, o.sends = used ++ left ∧ .fail ∈ used) ↔ how = .failed := by
      rw [failed]
      constructor
      · rintro ⟨used', split', fails⟩
        rwa [List.append_cancel_right (split'.symm.trans split)] at fails
      · exact fun fails => ⟨used, split, fails⟩
    unfold Delivers
    rw [after.1, after.2, used_iff, List.append_cancel_left_eq, and_iff_right live,
      ← Bool.not_eq_false, ← drained]
    cases how with
    | whole =>
      obtain rfl := whole rfl
      simpa using all
    | failed => simp
    | blocked =>
      have left := blocked rfl
      rw [← all]
      simp [left]
  · have queued : o.step (.send none false) = o := by
      simp [step, live, Outlet.queued, SocketOp.items]
    rw [queued]
    unfold Delivers
    constructor
    · rintro (⟨used, split, fails⟩ | sent)
      · have nothing : used = [] := by simpa using split
        simp [nothing] at fails
      · exact .inr (by simpa using sent)
    · rintro (⟨connected, -⟩ | nothing)
      · exact absurd connected live
      · exact .inr (by simp [nothing])

end Outlet

end Bosh
