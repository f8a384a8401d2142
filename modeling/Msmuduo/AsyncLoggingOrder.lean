import Mathlib.Data.List.Basic
import Msmuduo.AsyncLogging

/-!
# Every line in order

At each moment the batches taken so far, the buffers of the front end and the
current buffer hold the appended lines one behind the other; and what was written
with what is still to be written is those batches, where one of more than 25
buffers counts with its first two. No assertion of the backend fails on the way.

A line of `size` bytes or more fits into no buffer, and `append` passes it by; the
other lines are the accepted ones.
-/

namespace Msmuduo.AsyncLogging

open Msmuduo.Machine

set_option autoImplicit false

variable {size : Nat}

/-- The lines that fit into an empty buffer. -/
def accepted (size : Nat) (lines : List (List Byte)) : List (List Byte) :=
  lines.filter fun line => line.length < size

/-- The bytes that were passed to `output.append`, without the notices. -/
def written : List Output → List Byte
  | [] => []
  | .notice _ :: rest => written rest
  | .data bytes :: rest => bytes ++ written rest

/-- What an iteration writes of its batch. -/
def kept {Content : Type} (batch : List Content) : List Content :=
  if batch.length > 25 then batch.take 2 else batch

/-- What is taken, not written, and will not be dropped. -/
def unwritten (l : AsyncLogging size) : List (List Byte) :=
  match l.stage with
  | .swapped => kept (contents l.buffersToWrite)
  | .write i => (contents l.buffersToWrite).drop i
  | _ => []

/-- What the backend has not taken yet. -/
def inFront (l : AsyncLogging size) : List Byte :=
  (contents l.buffers).flatten ++ l.currentBuffer.content

theorem written_append (first second : List Output) :
    written (first ++ second) = written first ++ written second := by
  induction first with
  | nil => rfl
  | cons output rest ih =>
      cases output with
      | notice larger => exact ih
      | data bytes => simp [written, ih]

theorem length_contents (buffers : List (FixedBuffer size)) :
    (contents buffers).length = buffers.length :=
  List.length_map _

theorem accepted_short {line : List Byte} (lines : List (List Byte)) (short : line.length < size) :
    (accepted size (lines ++ [line])).flatten = (accepted size lines).flatten ++ line := by
  simp [accepted, short]

theorem accepted_long {line : List Byte} (lines : List (List Byte)) (long : ¬line.length < size) :
    accepted size (lines ++ [line]) = accepted size lines := by
  simp [accepted, Nat.not_lt.mp long]

/-! ## The invariant -/

def Spare (buffer : Option (FixedBuffer size)) : Prop :=
  ∃ spare, buffer = some spare ∧ spare.content = []

/-- What the backend has in hand at each stage. An iteration gives away its first
buffer, and its second one only for a next buffer that a front end has taken. -/
def InHand (l : AsyncLogging size) : Prop :=
  match l.stage with
  | .created => l.newBuffer1 = none ∧ l.newBuffer2 = none ∧ l.buffersToWrite = []
  | .test | .lock | .wait | .exited =>
      Spare l.newBuffer1 ∧ Spare l.newBuffer2 ∧ l.buffersToWrite = []
  | .swapped | .write _ | .recycle =>
      l.newBuffer1 = none ∧ l.buffersToWrite ≠ [] ∧
        (Spare l.newBuffer2 ∨ l.newBuffer2 = none ∧ 2 ≤ l.buffersToWrite.length)

structure Sound (l : AsyncLogging size) : Prop where
  front : l.taken.flatten.flatten ++ l.inFront = (accepted size l.appended).flatten
  back : written l.output ++ l.unwritten.flatten = (l.taken.map kept).flatten.flatten
  next : ∀ spare, l.nextBuffer = some spare → spare.content = []
  replaced : l.nextBuffer = none → l.buffers ≠ []
  inHand : l.InHand
  created : l.stage = .created →
    l.latch = 1 ∧ (l.owner = .before ∨ l.owner = .starting ∧ l.running = true)

theorem new_sound (size : Nat) : Sound (new size) where
  front := rfl
  back := rfl
  next := by
    intro spare same
    cases same
    rfl
  replaced := by nofun
  inHand := ⟨rfl, rfl, rfl⟩
  created := fun _ => ⟨rfl, Or.inl rfl⟩

/-! ## The front end -/

/-- A line that does not fit goes to an empty buffer, whichever that is. -/
theorem append_to_empty {fresh : FixedBuffer size} (empty : fresh.content = [])
    (lines : List (List Byte)) (logline : List Byte) :
    (accepted size lines).flatten ++ (fresh.append logline).content =
      (accepted size (lines ++ [logline])).flatten := by
  have avail := FixedBuffer.avail_of_empty empty
  by_cases short : logline.length < size
  · rw [FixedBuffer.append_fits (by omega), empty, accepted_short lines short, List.nil_append]
  · rw [FixedBuffer.append_overflows (by omega), empty, accepted_long lines short,
      List.append_nil]

/-- The line goes to the current buffer, or that one is full and a buffer without
content takes its place. -/
theorem append_cases {l : AsyncLogging size} (sound : Sound l) (logline : List Byte)
    (memory : { bytes : List Byte // bytes.length = size }) :
    (l.currentBuffer.avail > logline.length ∧
      l.append logline memory =
        { l with
          appended := l.appended ++ [logline]
          currentBuffer := l.currentBuffer.append logline }) ∨
    (∃ fresh : FixedBuffer size, fresh.content = [] ∧
      l.append logline memory =
        { l with
          appended := l.appended ++ [logline]
          buffers := l.buffers ++ [l.currentBuffer]
          currentBuffer := fresh.append logline
          nextBuffer := none }) := by
  by_cases fits : l.currentBuffer.avail > logline.length
  · refine Or.inl ⟨fits, ?_⟩
    simp only [append, if_pos fits]
  · right
    cases next : l.nextBuffer with
    | some spare =>
        refine ⟨spare, sound.next spare next, ?_⟩
        simp only [append, if_neg fits, next]
    | none =>
        refine ⟨FixedBuffer.new memory, rfl, ?_⟩
        simp only [append, if_neg fits, next]

theorem append_sound {l : AsyncLogging size} (sound : Sound l) (logline : List Byte)
    (memory : { bytes : List Byte // bytes.length = size }) :
    Sound (l.append logline memory) := by
  have front := sound.front
  rcases append_cases sound logline memory with ⟨fits, same⟩ | ⟨fresh, empty, same⟩
  · rw [same]
    refine { sound with front := ?_ }
    have short : logline.length < size := by
      have bound : l.currentBuffer.avail ≤ size := Nat.sub_le _ _
      omega
    simp only [inFront] at front ⊢
    rw [FixedBuffer.append_fits fits, accepted_short _ short, ← front]
    simp
  · rw [same]
    refine { sound with front := ?_, next := by nofun, replaced := by simp }
    rw [← append_to_empty empty, ← front]
    simp [inFront, contents]

/-! ## The backend -/

theorem swap_sound {l : AsyncLogging size} (sound : Sound l)
    (stage : l.stage = .lock ∨ l.stage = .wait) :
    ∃ next, l.swap = .ok next ∧ Sound next ∧ next.stage = .swapped := by
  have front := sound.front
  have back := sound.back
  have inHand : Spare l.newBuffer1 ∧ Spare l.newBuffer2 ∧ l.buffersToWrite = [] := by
    have inHand := sound.inHand
    unfold InHand at inHand
    rcases stage with stage | stage <;> rw [stage] at inHand <;> exact inHand
  rcases inHand with ⟨⟨first, newBuffer1, firstEmpty⟩, second, drained⟩
  have settled : l.unwritten = [] := by
    unfold unwritten
    rcases stage with stage | stage <;> rw [stage]
  rw [settled, List.flatten_nil, List.append_nil] at back
  have newFront : (l.taken ++ [contents (l.buffers ++ [l.currentBuffer])]).flatten.flatten =
      (accepted size l.appended).flatten := by
    rw [← front]
    simp [inFront, contents]
  have newBack : written l.output ++ (kept (contents (l.buffers ++ [l.currentBuffer]))).flatten =
      ((l.taken ++ [contents (l.buffers ++ [l.currentBuffer])]).map kept).flatten.flatten := by
    rw [back]
    simp
  unfold swap
  rw [newBuffer1]
  dsimp only
  cases next : l.nextBuffer with
  | some spare =>
      refine ⟨_, rfl, ?_, rfl⟩
      exact {
        front := by simpa [inFront, drained, contents, firstEmpty] using newFront
        back := newBack
        next := by simpa [next] using sound.next
        replaced := by nofun
        inHand := ⟨rfl, by simp, Or.inl second⟩
        created := by nofun }
  | none =>
      have pushed := sound.replaced next
      rcases second with ⟨spare, newBuffer2, spareEmpty⟩
      refine ⟨_, rfl, ?_, rfl⟩
      exact {
        front := by simpa [inFront, drained, contents, firstEmpty] using newFront
        back := newBack
        next := by
          intro other same
          cases newBuffer2.symm.trans same
          exact spareEmpty
        replaced := by simp [newBuffer2]
        inHand := by
          refine ⟨rfl, by simp, Or.inr ⟨rfl, ?_⟩⟩
          have nonempty := List.length_pos_iff.mpr pushed
          simp only [List.length_append, List.length_singleton]
          omega
        created := by nofun }

/-- A missing buffer is made from the last one of the batch. -/
theorem refill_spare (assertion : Fault) {buffer : Option (FixedBuffer size)}
    {batch : List (FixedBuffer size)} (possible : Spare buffer ∨ buffer = none ∧ batch ≠ []) :
    ∃ spare rest, refill assertion buffer batch = .ok (some spare, rest) ∧ spare.content = [] ∧
      batch.length ≤ rest.length + 1 := by
  rcases possible with ⟨spare, rfl, empty⟩ | ⟨rfl, nonempty⟩
  · exact ⟨spare, batch, rfl, empty, by omega⟩
  · refine ⟨(batch.getLast nonempty).reset, batch.dropLast, ?_, rfl, ?_⟩
    · simp only [refill, List.getLast?_eq_some_getLast nonempty]
    · rw [List.length_dropLast]
      omega

/-- Two buffers are enough for two refills, and the resize leaves two. -/
theorem refills_spare {newBuffer1 newBuffer2 : Option (FixedBuffer size)}
    {buffersToWrite : List (FixedBuffer size)} (missing : newBuffer1 = none)
    (nonempty : buffersToWrite ≠ [])
    (second : Spare newBuffer2 ∨ newBuffer2 = none ∧ 2 ≤ buffersToWrite.length) :
    ∃ first rest last left,
      refill .newBuffer1 newBuffer1 (if buffersToWrite.length > 2 then buffersToWrite.take 2
        else buffersToWrite) = .ok (some first, rest) ∧
      refill .newBuffer2 newBuffer2 rest = .ok (some last, left) ∧
      first.content = [] ∧ last.content = [] := by
  have positive := List.length_pos_iff.mpr nonempty
  generalize shrunk : (if buffersToWrite.length > 2 then buffersToWrite.take 2
    else buffersToWrite) = batch
  have length : batch.length = min 2 buffersToWrite.length := by
    rw [← shrunk]
    split
    · rw [List.length_take]
    · omega
  have remains : batch ≠ [] := List.ne_nil_of_length_pos (by omega)
  rcases refill_spare .newBuffer1 (Or.inr ⟨missing, remains⟩) with
    ⟨first, rest, firstRefilled, firstEmpty, shorter⟩
  have possible : Spare newBuffer2 ∨ newBuffer2 = none ∧ rest ≠ [] := by
    rcases second with spare | ⟨none, two⟩
    · exact Or.inl spare
    · exact Or.inr ⟨none, List.ne_nil_of_length_pos (by omega)⟩
  rcases refill_spare .newBuffer2 possible with ⟨last, left, lastRefilled, lastEmpty, -⟩
  exact ⟨first, rest, last, left, firstRefilled, lastRefilled, firstEmpty, lastEmpty⟩

theorem recycle_sound {l : AsyncLogging size} (sound : Sound l) (stage : l.stage = .recycle) :
    ∃ next, l.recycle = .ok next ∧ Sound next := by
  have back := sound.back
  have inHand := sound.inHand
  simp only [unwritten, stage] at back
  simp only [InHand, stage] at inHand
  rcases inHand with ⟨newBuffer1, nonempty, second⟩
  rcases refills_spare newBuffer1 nonempty second with
    ⟨first, rest, last, left, firstRefilled, lastRefilled, firstEmpty, lastEmpty⟩
  refine ⟨{ l with
      newBuffer1 := some first, newBuffer2 := some last, buffersToWrite := [], stage := .test },
    ?_, ?_⟩
  · unfold recycle
    simp only [firstRefilled, lastRefilled, bind, Except.bind, pure, Except.pure]
  · exact { sound with
      back := back
      inHand := ⟨⟨first, rfl, firstEmpty⟩, ⟨last, rfl, lastEmpty⟩, rfl⟩
      created := by
        intro created
        cases created }

theorem begin_sound {l : AsyncLogging size} (sound : Sound l) (stage : l.stage = .created) :
    ∃ next, l.threadFunc = .ok next ∧ Sound next := by
  have back := sound.back
  have inHand := sound.inHand
  simp only [unwritten, stage] at back
  simp only [InHand, stage] at inHand
  unfold threadFunc
  rw [stage]
  rcases sound.created stage with ⟨-, before | ⟨starting, running⟩⟩
  · exact ⟨l, by simp [before], sound⟩
  · simp only [starting, running, require_ok, bind, Except.bind, pure, Except.pure, reduceCtorEq,
      if_false]
    exact ⟨_, rfl, { sound with
      back := back
      inHand := ⟨⟨_, rfl, rfl⟩, ⟨_, rfl, rfl⟩, inHand.2.2⟩
      created := by nofun }⟩

theorem swapped_sound {l : AsyncLogging size} (sound : Sound l) (stage : l.stage = .swapped) :
    ∃ next, l.threadFunc = .ok next ∧ Sound next := by
  have back := sound.back
  have inHand := sound.inHand
  simp only [unwritten, stage] at back
  simp only [InHand, stage] at inHand
  rcases inHand with ⟨newBuffer1, nonempty, second⟩
  unfold threadFunc
  rw [stage]
  simp only [require_ok nonempty, bind, Except.bind, pure, Except.pure]
  split
  · next many =>
    have two : (l.buffersToWrite.take 2).length = 2 := by
      rw [List.length_take]
      omega
    have remains : l.buffersToWrite.take 2 ≠ [] :=
      List.ne_nil_of_length_pos (by rw [two]; decide)
    refine ⟨_, rfl, { sound with back := ?_, inHand := ?_, created := by nofun }⟩
    · rw [written_append, ← back, kept, length_contents, if_pos many]
      simp [unwritten, written, contents, List.map_take]
    · rcases second with spare | ⟨missing, -⟩
      · exact ⟨newBuffer1, remains, Or.inl spare⟩
      · exact ⟨newBuffer1, remains, Or.inr ⟨missing, two.ge⟩⟩
  · next few =>
    refine ⟨_, rfl, { sound with
      back := ?_, inHand := ⟨newBuffer1, nonempty, second⟩, created := by nofun }⟩
    rw [← back, kept, length_contents, if_neg few]
    rfl

theorem write_sound {l : AsyncLogging size} (sound : Sound l) {i : Nat}
    (stage : l.stage = .write i) : ∃ next, l.threadFunc = .ok next ∧ Sound next := by
  have back := sound.back
  have inHand := sound.inHand
  simp only [unwritten, stage] at back
  simp only [InHand, stage] at inHand
  have item : (contents l.buffersToWrite)[i]? = l.buffersToWrite[i]?.map FixedBuffer.content :=
    List.getElem?_map
  unfold threadFunc
  rw [stage]
  dsimp only
  cases here : l.buffersToWrite[i]? with
  | some buffer =>
      refine ⟨_, rfl, { sound with back := ?_, inHand := inHand, created := by nofun }⟩
      rw [here, Option.map_some] at item
      rw [← back, written_append, List.drop_eq_getElem?_toList_append, item]
      simp [written, unwritten]
  | none =>
      refine ⟨_, rfl, { sound with back := ?_, inHand := inHand, created := by nofun }⟩
      rw [here, Option.map_none] at item
      rw [← back, List.drop_eq_nil_of_le (List.getElem?_eq_none_iff.mp item)]
      rfl

theorem threadFunc_sound {l : AsyncLogging size} (sound : Sound l) :
    ∃ next, l.threadFunc = .ok next ∧ Sound next := by
  cases stage : l.stage with
  | created => exact begin_sound sound stage
  | test =>
      have back := sound.back
      have inHand := sound.inHand
      simp only [unwritten, stage] at back
      simp only [InHand, stage] at inHand
      unfold threadFunc
      rw [stage]
      refine ⟨_, rfl, ?_⟩
      cases running : l.running with
      | true => exact { sound with back := back, inHand := inHand, created := by nofun }
      | false => exact { sound with back := back, inHand := inHand, created := by nofun }
  | lock =>
      unfold threadFunc
      rw [stage]
      dsimp only
      split
      · have back := sound.back
        have inHand := sound.inHand
        simp only [unwritten, stage] at back
        simp only [InHand, stage] at inHand
        exact ⟨_, rfl, { sound with back := back, inHand := inHand, created := by nofun }⟩
      · rcases swap_sound sound (Or.inl stage) with ⟨next, swapped, after, -⟩
        exact ⟨next, swapped, after⟩
  | wait =>
      rcases swap_sound sound (Or.inr stage) with ⟨next, swapped, after, -⟩
      refine ⟨next, ?_, after⟩
      unfold threadFunc
      rw [stage]
      exact swapped
  | swapped => exact swapped_sound sound stage
  | write i => exact write_sound sound stage
  | recycle =>
      rcases recycle_sound sound stage with ⟨next, recycled, after⟩
      refine ⟨next, ?_, after⟩
      unfold threadFunc
      rw [stage]
      exact recycled
  | exited =>
      refine ⟨l, ?_, sound⟩
      unfold threadFunc
      rw [stage]

theorem step_sound {l : AsyncLogging size} (sound : Sound l) (event : Event size) :
    ∃ next, l.step event = .ok next ∧ Sound next := by
  cases event with
  | start =>
      simp only [step]
      split
      · next before =>
        refine ⟨_, rfl, { sound with created := ?_ }⟩
        intro stage
        exact ⟨(sound.created stage).1, Or.inr ⟨rfl, rfl⟩⟩
      · exact ⟨l, rfl, sound⟩
  | startReturns =>
      simp only [step]
      split
      · next possible =>
        refine ⟨_, rfl, { sound with created := ?_ }⟩
        intro stage
        have closed := (sound.created stage).1
        omega
      · exact ⟨l, rfl, sound⟩
  | stop =>
      simp only [step]
      split
      · next started =>
        refine ⟨_, rfl, { sound with created := ?_ }⟩
        intro stage
        rcases sound.created stage with ⟨-, before | ⟨starting, -⟩⟩
        · cases started.symm.trans before
        · cases started.symm.trans starting
      · exact ⟨l, rfl, sound⟩
  | stopReturns =>
      simp only [step]
      split
      · next possible =>
        refine ⟨_, rfl, { sound with created := ?_ }⟩
        intro stage
        cases possible.2.symm.trans stage
      · exact ⟨l, rfl, sound⟩
  | append logline memory => exact ⟨_, rfl, append_sound sound logline memory⟩
  | backend => exact threadFunc_sound sound

/-! ## The lines of a run -/

/-- The lines of the calls of `append`, in the order in which they took the mutex. -/
def lines : List (Event size) → List (List Byte)
  | [] => []
  | .append logline _ :: rest => logline :: lines rest
  | _ :: rest => lines rest

theorem swap_frame {l next : AsyncLogging size} (swapped : l.swap = .ok next) :
    next.appended = l.appended ∧ next.running = l.running ∧ next.owner = l.owner := by
  unfold swap at swapped
  split at swapped
  · cases swapped
  · dsimp only at swapped
    split at swapped <;> cases swapped <;> exact ⟨rfl, rfl, rfl⟩

theorem recycle_frame {l next : AsyncLogging size} (recycled : l.recycle = .ok next) :
    next.appended = l.appended ∧ next.running = l.running ∧ next.owner = l.owner := by
  unfold recycle at recycled
  rcases bind_ok_inv recycled with ⟨first, -, more⟩
  rcases bind_ok_inv more with ⟨second, -, done⟩
  cases done
  exact ⟨rfl, rfl, rfl⟩

/-- The backend leaves the lines, the flag and the owner alone. -/
theorem threadFunc_frame {l next : AsyncLogging size} (ran : l.threadFunc = .ok next) :
    next.appended = l.appended ∧ next.running = l.running ∧ next.owner = l.owner := by
  unfold threadFunc at ran
  split at ran
  · split at ran
    · cases ran
      exact ⟨rfl, rfl, rfl⟩
    · rcases bind_ok_inv ran with ⟨-, -, done⟩
      cases done
      exact ⟨rfl, rfl, rfl⟩
  · cases ran
    exact ⟨rfl, rfl, rfl⟩
  · split at ran
    · cases ran
      exact ⟨rfl, rfl, rfl⟩
    · exact swap_frame ran
  · exact swap_frame ran
  · rcases bind_ok_inv ran with ⟨-, -, done⟩
    split at done <;> cases done <;> exact ⟨rfl, rfl, rfl⟩
  · split at ran <;> cases ran <;> exact ⟨rfl, rfl, rfl⟩
  · exact recycle_frame ran
  · cases ran
    exact ⟨rfl, rfl, rfl⟩

theorem append_appended (l : AsyncLogging size) (logline : List Byte)
    (memory : { bytes : List Byte // bytes.length = size }) :
    (l.append logline memory).appended = l.appended ++ [logline] := by
  simp only [append]
  repeat' split
  all_goals rfl

theorem step_appended {l next : AsyncLogging size} {event : Event size}
    (taken : l.step event = .ok next) : next.appended = l.appended ++ lines [event] := by
  cases event with
  | append logline memory =>
      cases taken
      exact append_appended l logline memory
  | backend => simpa [lines] using (threadFunc_frame taken).1
  | _ =>
      simp only [step] at taken
      split at taken <;> cases taken <;> simp [lines]

theorem lines_cons (event : Event size) (rest : List (Event size)) :
    lines (event :: rest) = lines [event] ++ lines rest := by
  cases event <;> rfl

theorem run_appended {l final : AsyncLogging size} {events : List (Event size)}
    (ran : run step l events = .ok final) : final.appended = l.appended ++ lines events := by
  induction events generalizing l with
  | nil =>
      cases ran
      simp [lines]
  | cons event rest ih =>
      rcases run_cons_inv ran with ⟨next, taken, later⟩
      rw [ih later, step_appended taken, lines_cons event rest, List.append_assoc]

theorem run_sound {l : AsyncLogging size} (sound : Sound l) (events : List (Event size)) :
    ∃ final, run step l events = .ok final ∧ Sound final :=
  run_succeeds Sound (fun _ event before (_ : True) => step_sound before event) sound
    (all_steps_of_forall _ (fun _ _ _ => trivial) l)

theorem accepted_all {lines : List (List Byte)} (short : ∀ line ∈ lines, line.length < size) :
    accepted size lines = lines :=
  List.filter_eq_self.mpr fun line member => decide_eq_true (short line member)

theorem map_kept {batches : List (List (List Byte))}
    (small : ∀ batch ∈ batches, batch.length ≤ 25) : batches.map kept = batches := by
  have unchanged : ∀ batch ∈ batches, kept batch = batch := by
    intro batch member
    exact if_neg (Nat.not_lt.mpr (small batch member))
  rw [List.map_congr_left unchanged]
  exact List.map_id batches

/-- A buffer that waits for its use has no content, though its memory may be full
of old lines. -/
theorem Sound.spare_empty {l : AsyncLogging size} (sound : Sound l) {spare : FixedBuffer size}
    (waits : l.nextBuffer = some spare ∨ l.newBuffer1 = some spare ∨ l.newBuffer2 = some spare) :
    spare.content = [] := by
  have only : ∀ {buffer : Option (FixedBuffer size)}, Spare buffer ∨ buffer = none →
      buffer = some spare → spare.content = [] := by
    rintro buffer (⟨other, rfl, empty⟩ | rfl) same
    · cases same
      exact empty
    · cases same
  have both : (Spare l.newBuffer1 ∨ l.newBuffer1 = none) ∧
      (Spare l.newBuffer2 ∨ l.newBuffer2 = none) := by
    have inHand := sound.inHand
    unfold InHand at inHand
    split at inHand
    · exact ⟨Or.inr inHand.1, Or.inr inHand.2.1⟩
    all_goals first
      | exact ⟨Or.inl inHand.1, Or.inl inHand.2.1⟩
      | exact ⟨Or.inr inHand.1, inHand.2.2.imp_right And.left⟩
  rcases waits with next | first | second
  · exact sound.next spare next
  · exact only both.1 first
  · exact only both.2 second

/-- For every interleaving of calls of `append` with lines that fit into a buffer
and of steps of the backend: no assertion fails, the batches taken and the buffers
of the front end hold the lines in order, and what is written or still to be
written is those batches, one of more than 25 buffers with its first two. A spare
buffer has no content. -/
theorem lines_kept_in_order (events : List (Event size))
    (short : ∀ line ∈ lines events, line.length < size) :
    ∃ l, run step (new size) events = .ok l ∧
      l.taken.flatten.flatten ++ (contents l.buffers).flatten ++ l.currentBuffer.content =
        (lines events).flatten ∧
      written l.output ++ l.unwritten.flatten = (l.taken.map kept).flatten.flatten ∧
      ((∀ batch ∈ l.taken, batch.length ≤ 25) →
        written l.output ++ l.unwritten.flatten ++ (contents l.buffers).flatten ++
          l.currentBuffer.content = (lines events).flatten) ∧
      ∀ spare, l.nextBuffer = some spare ∨ l.newBuffer1 = some spare ∨
        l.newBuffer2 = some spare → spare.content = [] := by
  rcases run_sound (new_sound size) events with ⟨l, ran, sound⟩
  have appended : l.appended = lines events := by
    rw [run_appended ran]
    rfl
  have front := sound.front
  rw [appended, accepted_all short, inFront] at front
  refine ⟨l, ran, ?_, sound.back, ?_, fun spare waits => sound.spare_empty waits⟩
  · rw [List.append_assoc]
    exact front
  · intro small
    rw [sound.back, map_kept small, List.append_assoc]
    exact front

/-- Two batches on buffers of four bytes; the second one is written into buffers
that still hold the bytes of the first. -/
theorem recycled_buffers_keep_order :
    ∃ l, run step (new 4)
        [.start, .backend, .startReturns, .append [1, 2, 3] ⟨[9, 9, 9, 9], rfl⟩,
          .append [4, 5] ⟨[9, 9, 9, 9], rfl⟩, .backend, .backend, .backend, .backend, .backend,
          .backend, .backend, .append [6] ⟨[9, 9, 9, 9], rfl⟩, .backend, .backend, .backend,
          .append [7, 8] ⟨[9, 9, 9, 9], rfl⟩] = .ok l ∧
      written l.output ++ l.unwritten.flatten ++ (contents l.buffers).flatten ++
        l.currentBuffer.content = [1, 2, 3, 4, 5, 6, 7, 8] := by
  rcases lines_kept_in_order
      ([.start, .backend, .startReturns, .append [1, 2, 3] ⟨[9, 9, 9, 9], rfl⟩,
        .append [4, 5] ⟨[9, 9, 9, 9], rfl⟩, .backend, .backend, .backend, .backend, .backend,
        .backend, .backend, .append [6] ⟨[9, 9, 9, 9], rfl⟩, .backend, .backend, .backend,
        .append [7, 8] ⟨[9, 9, 9, 9], rfl⟩] : List (Event 4)) (by decide) with
    ⟨l, ran, -, -, whole, -⟩
  refine ⟨l, ran, whole ?_⟩
  cases ran
  decide

end Msmuduo.AsyncLogging
