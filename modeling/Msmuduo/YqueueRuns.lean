import Msmuduo.YqueueReader
import Msmuduo.YqueueWriter

/-!
# Runs of the chunked queue

However the pieces of the two threads' calls are interleaved, no freed or null chunk
is touched, the elements come out as they were put in, and every chunk is freed
exactly once.
-/

namespace Msmuduo.YQueue

open Msmuduo.Machine Msmuduo.Segments

set_option autoImplicit false

variable {Value : Type} {N : Nat} {s : YQueue Value} {chunks writing reading : List Nat}

/-- The queue after some admitted steps. -/
def Reached (N : Nat) (s : YQueue Value) : Prop :=
  ∃ chunks writing reading, Sound N s chunks writing reading

theorem new_reached {address : Nat} {chunk : Chunk Value} (positive : 0 < N)
    (size : chunk.values.length = N) : Reached N (new address chunk) := by
  refine ⟨[address], [], [], ?_⟩
  constructor
  · constructor
    · change [address].Nodup
      simp
    · intro other
      change (Heap.empty.malloc address chunk other).isSome ↔ other ∈ [address]
      by_cases here : other = address
      · simp [Heap.malloc, here]
      · simp [Heap.malloc, Heap.put_other _ _ here, Heap.empty, here]
    · intro other found holds
      rcases Heap.put_some holds with ⟨-, rfl⟩ | ⟨-, before⟩
      · exact size
      · cases before
  · exact List.isChain_singleton address
  · rfl
  · rfl
  · simp
  · refine ⟨rfl, positive, ?_⟩
    simp [new, start]
  · exact ⟨rfl, positive⟩
  · intro _ some_
    exact absurd rfl some_
  · intro index value found
    cases found

theorem step_reached (positive : 0 < N) (reached : Reached N s) {event : Event Value}
    (admitted : Admitted N s event) : ∃ next, step N s event = .ok next ∧ Reached N next := by
  obtain ⟨chunks, writing, reading, sound⟩ := reached
  cases event with
  | push => exact ⟨_, rfl, _, _, _, push_sound sound admitted⟩
  | assign value =>
      obtain ⟨next, ran, after, -⟩ := assign_sound sound admitted.1 admitted.2 value
      exact ⟨next, ran, _, _, _, after⟩
  | unpush =>
      obtain ⟨next, ran, after, -⟩ := unpush_sound positive sound admitted.1 admitted.2
      exact ⟨next, ran, _, _, _, after⟩
  | write address chunk =>
      obtain ⟨next, chunks, writing, ran, after, -, -⟩ :=
        write_sound positive sound admitted.1 admitted.2
      exact ⟨next, ran, _, _, _, after⟩
  | pop => exact ⟨_, rfl, _, _, _, (pop_sound positive sound admitted.1 admitted.2).1⟩
  | read =>
      obtain ⟨next, chunks, reading, ran, after, -⟩ := read_sound positive sound
      exact ⟨next, ran, _, _, _, after⟩

theorem run_reached (positive : 0 < N) (reached : Reached N s) {events : List (Event Value)}
    (admitted : AllSteps (step N) (Admitted N) s events) :
    ∃ final, Machine.run (step N) s events = .ok final ∧ Reached N final := by
  induction events generalizing s with
  | nil => exact ⟨s, rfl, reached⟩
  | cons event events ih =>
      obtain ⟨next, taken, after⟩ := step_reached positive reached admitted.1
      have others := admitted.2
      rw [taken] at others
      obtain ⟨final, ran, last⟩ := ih after others
      exact ⟨final, (run_cons_ok events taken).trans ran, last⟩

/-! ## Looking at the elements -/

/-- The first element is in the begin chunk at the begin position. -/
theorem front_reads (sound : Sound N s chunks writing reading) (idle : s.reader = .idle) :
    ∃ value, s.front = .ok value ∧
      ∀ assigned, s.elements.head? = some (some assigned) → value = assigned := by
  have reader := sound.reader
  rw [idle] at reader
  obtain ⟨-, bound⟩ := reader
  obtain ⟨first, behind, chunk, rfl, begins, live⟩ := sound.beginChunk
  have size : chunk.values.length = N := sound.owned.sized first chunk live
  have inside : s.beginPos < chunk.values.length := by
    rw [size]
    exact bound
  have place : s.start = s.beginPos := by
    rw [start, idle]
  refine ⟨chunk.values[s.beginPos], ?_, ?_⟩
  · simp only [front, valueAt, begins, Heap.load_live live, onHeap, Except.mapError, bind,
      Except.bind, List.getElem?_eq_getElem inside]
    rfl
  · intro assigned found
    rw [List.head?_eq_getElem?] at found
    have slot := sound.agrees 0 assigned found
    have values : valuesOf s.heap first = chunk.values := by
      rw [valuesOf, live]
    rw [Nat.add_zero, place, slots, List.flatMap_cons, values,
      List.getElem?_append_left inside, List.getElem?_eq_getElem inside] at slot
    exact Option.some.inj slot

/-- The last element is in the back chunk at the back position. -/
theorem back_reads (sound : Sound N s chunks writing reading) (idle : s.writer = .idle)
    (some_ : s.elements ≠ []) :
    ∃ value, s.back = .ok value ∧
      ∀ assigned, s.elements.getLast? = some (some assigned) → value = assigned := by
  obtain ⟨segment, address, there, at_, bound, place⟩ := sound.back (by rw [idle]; rfl) some_
  obtain ⟨chunk, live, size⟩ := sound.inChain (List.mem_of_getElem? there)
  have inside : s.backPos < chunk.values.length := by
    rw [size]
    exact bound
  refine ⟨chunk.values[s.backPos], ?_, ?_⟩
  · simp only [back, valueAt, at_, Heap.load_live live, onHeap, Except.mapError, bind,
      Except.bind, List.getElem?_eq_getElem inside]
    rfl
  · intro assigned found
    rw [List.getLast?_eq_getElem?] at found
    have slot := sound.agrees _ assigned found
    have count := List.length_pos_iff.mpr some_
    have index : s.start + (s.elements.length - 1) = segment * N + s.backPos := by omega
    have values : valuesOf s.heap address = chunk.values := by
      rw [valuesOf, live]
    rw [index, slots, getElem?_flatMap sound.valuesSized there bound, values,
      List.getElem?_eq_getElem inside] at slot
    exact Option.some.inj slot

/-! ## The chunks -/

theorem Sound.start_le (sound : Sound N s chunks writing reading) : s.start ≤ N := by
  have reader := sound.reader
  unfold start
  cases at_ : s.reader with
  | idle =>
      rw [at_] at reader
      exact Nat.le_of_lt reader.2
  | advance =>
      rw [at_] at reader
      exact Nat.le_of_eq reader.2
  | unlink o => exact Nat.zero_le N
  | exchange o =>
      rw [at_] at reader
      rw [reader.2.2]
      exact Nat.zero_le N
  | free cs =>
      rw [at_] at reader
      rw [reader.2]
      exact Nat.zero_le N

theorem length_toList_le (pointer : Option Nat) : pointer.toList.length ≤ 1 := by
  cases pointer with
  | none => exact Nat.zero_le 1
  | some address => exact Nat.le_refl 1

/-- A thread holds one chunk at most. -/
theorem Sound.held_le (sound : Sound N s chunks writing reading) :
    writing.length ≤ 1 ∧ reading.length ≤ 1 := by
  have writer := sound.writer
  have reader := sound.reader
  constructor
  · cases at_ : s.writer with
    | idle | exchange | retreat | clear =>
        rw [at_] at writer
        rw [writer.1]
        exact Nat.zero_le 1
    | link sc =>
        rw [at_] at writer
        rw [writer.1]
        exact length_toList_le sc
    | linkBack sc =>
        rw [at_] at writer
        obtain ⟨address, held, -⟩ := writer
        rw [held]
        exact Nat.le_refl 1
    | advance =>
        rw [at_] at writer
        obtain ⟨address, held, -⟩ := writer
        rw [held]
        exact Nat.le_refl 1
    | free =>
        rw [at_] at writer
        obtain ⟨address, held, -⟩ := writer
        rw [held]
        exact Nat.le_refl 1
  · cases at_ : s.reader with
    | idle | advance =>
        rw [at_] at reader
        rw [reader.1]
        exact Nat.zero_le 1
    | unlink o | exchange o =>
        rw [at_] at reader
        rw [reader.1]
        exact length_toList_le o
    | free cs =>
        rw [at_] at reader
        rw [reader.1]
        exact length_toList_le cs

/-- The chain is as long as the elements need, and two chunks more at most. -/
theorem Sound.length_le (positive : 0 < N) (sound : Sound N s chunks writing reading) :
    chunks.length ≤ (s.elements.length + 1) / N + 2 := by
  have filled := (sound.filled positive).2
  have first := sound.start_le
  have whole : chunks.length ≤ (s.elements.length + 1 + 2 * N) / N := by
    rw [Nat.le_div_iff_mul_le positive]
    omega
  rw [Nat.add_mul_div_right _ _ positive] at whole
  exact whole

/-! ## The destructor -/

theorem freeChunks_spec {held : List Nat} (turns : Nat) {s : YQueue Value}
    (owned : Owned N s.heap (chunks ++ held)) (chained : Chained s.heap chunks)
    (first : chunks.head? = s.beginChunk) (last : chunks.getLast? = s.endChunk)
    (nonempty : chunks ≠ []) (enough : chunks.length ≤ turns) :
    ∃ heap begin_, freeChunks turns s = .ok { s with heap := heap, beginChunk := begin_ } ∧
      Owned N heap held := by
  induction chunks generalizing s turns with
  | nil => exact absurd rfl nonempty
  | cons address behind ih =>
      obtain ⟨chunk, live, -⟩ := owned.found (List.mem_append_left _ (by simp) :
        address ∈ (address :: behind) ++ held)
      cases turns with
      | zero => exact absurd enough (Nat.not_succ_le_zero _)
      | succ turns =>
          have begins : s.beginChunk = some address := first.symm
          have rest : Owned N (s.heap.put address none) (behind ++ held) := Owned.free owned
          cases behind with
          | nil =>
              have ends : s.beginChunk = s.endChunk := first.symm.trans last
              refine ⟨s.heap.put address none, s.beginChunk, ?_, rest⟩
              rw [freeChunks, if_pos ends, begins, Heap.free_live live, ← begins]
              rfl
          | cons second later =>
              have distinct := (List.nodup_append.mp owned.distinct).1
              obtain ⟨outside, -⟩ := List.nodup_cons.mp distinct
              have lastLater : (second :: later).getLast? = s.endChunk := by
                rw [← last]
                rfl
              have ends : s.beginChunk ≠ s.endChunk := by
                intro same
                rw [← lastLater, begins] at same
                exact outside (List.mem_of_getLast? same.symm)
              obtain ⟨joined, chainedLater⟩ := List.isChain_cons_cons.mp chained
              have next : chunk.next = some second := by
                have forward := joined.1
                rw [live] at forward
                exact forward
              have apart : ∀ other ∈ second :: later, other ≠ address := by
                rintro other member rfl
                exact outside member
              have stillChained : Chained (s.heap.put address none) (second :: later) := by
                apply chained_frame chainedLater
                · intro other member
                  exact nextOf_put_other _ (apart other (List.dropLast_subset _ member))
                · intro other member
                  exact prevOf_put_other _ (apart other (List.mem_of_mem_tail member))
              obtain ⟨heap, begin_, ran, freed⟩ := @ih turns
                { s with heap := s.heap.put address none, beginChunk := chunk.next } rest
                stillChained next.symm lastLater (by simp) (Nat.le_of_succ_le_succ enough)
              refine ⟨heap, begin_, ?_, freed⟩
              rw [freeChunks, if_neg ends, begins, Heap.load_live live, Heap.free_live live]
              exact ran

theorem destroy_spec (positive : 0 < N) (sound : Sound N s chunks writing reading)
    (writerIdle : s.writer = .idle) (readerIdle : s.reader = .idle) :
    ∃ final, s.destroy = .ok final ∧ ∀ address, final.heap address = none := by
  have writer := sound.writer
  have reader := sound.reader
  rw [writerIdle] at writer
  rw [readerIdle] at reader
  obtain ⟨rfl, -⟩ := writer
  obtain ⟨rfl, -⟩ := reader
  have enough : chunks.length ≤ s.elements.length + 3 := by
    have bound := sound.length_le positive
    have less : (s.elements.length + 1) / N ≤ s.elements.length + 1 := Nat.div_le_self _ _
    omega
  obtain ⟨heap, begin_, ran, owned⟩ := freeChunks_spec (s.elements.length + 3) sound.owned
    sound.chained sound.first sound.last sound.nonempty enough
  have gone : ∀ {heap : Heap (Chunk Value)}, Owned N heap [] → ∀ address, heap address = none := by
    intro heap owned address
    have live := owned.live address
    simpa using live
  cases spare : s.spareChunk with
  | none =>
      rw [spare] at owned
      refine ⟨{ s with heap := heap, beginChunk := begin_, spareChunk := none }, ?_, gone owned⟩
      simp only [destroy, ran, spare, Heap.free, onHeap, Except.mapError, bind, Except.bind]
      rfl
  | some sc =>
      rw [spare] at owned
      obtain ⟨chunk, live, -⟩ := owned.found (by simp : sc ∈ _)
      refine ⟨{ s with
        heap := heap.put sc none
        beginChunk := begin_
        spareChunk := none }, ?_, gone owned.free⟩
      simp only [destroy, ran, spare, Heap.free_live live, onHeap, Except.mapError, bind,
        Except.bind]
      rfl

/-! ## The queue -/

/-- One thread at each end. In every interleaving in which the callers keep their
promises nothing but live chunks is touched; `front` and `back` are the elements at
the two ends with the values assigned to them; the live chunks are as many as the
elements fill and five more at most; and when both threads are done the destructor
frees all of them and none twice. -/
theorem queue_safe (positive : 0 < N) {address : Nat} {chunk : Chunk Value}
    (size : chunk.values.length = N) {events : List (Event Value)}
    (admitted : AllSteps (step N) (Admitted N) (new address chunk) events) :
    ∃ s, Machine.run (step N) (new address chunk) events = .ok s ∧
      (s.reader = .idle → ∃ value, s.front = .ok value ∧
        ∀ assigned, s.elements.head? = some (some assigned) → value = assigned) ∧
      (s.writer = .idle → s.elements ≠ [] → ∃ value, s.back = .ok value ∧
        ∀ assigned, s.elements.getLast? = some (some assigned) → value = assigned) ∧
      (∃ live : List Nat, live.Nodup ∧ (∀ address, (s.heap address).isSome ↔ address ∈ live) ∧
        live.length ≤ (s.elements.length + 1) / N + 5) ∧
      (s.writer = .idle → s.reader = .idle →
        ∃ final, s.destroy = .ok final ∧ ∀ address, final.heap address = none) := by
  obtain ⟨s, ran, chunks, writing, reading, sound⟩ :=
    run_reached positive (new_reached positive size) admitted
  refine ⟨s, ran, front_reads sound, back_reads sound, ?_, destroy_spec positive sound⟩
  refine ⟨_, sound.owned.distinct, sound.owned.live, ?_⟩
  have chain := sound.length_le positive
  have held := sound.held_le
  have spare := length_toList_le s.spareChunk
  simp only [List.length_append]
  omega

/-- Chunks of one element. The reader leaves the first chunk while the writer links
the third one. -/
theorem queue_safe_interleaved :
    ∃ s, Machine.run (step 1) (new 5 ⟨[0], none, none⟩)
        [.push, .write 6 ⟨[0], none, none⟩, .write 6 ⟨[0], none, none⟩,
          .write 7 ⟨[0], none, none⟩, .write 7 ⟨[0], none, none⟩, .assign 3, .push, .pop, .read,
          .write 7 ⟨[0], none, none⟩, .read, .read, .write 7 ⟨[0], none, none⟩] = .ok s ∧
      ∃ live : List Nat, live.Nodup ∧ (∀ address, (s.heap address).isSome ↔ address ∈ live) ∧
        live.length ≤ (s.elements.length + 1) / 1 + 5 := by
  obtain ⟨s, ran, -, -, live, -⟩ :=
    queue_safe (by decide) (rfl : (⟨[0], none, none⟩ : Chunk Nat).values.length = 1)
      (by decide : AllSteps (step 1) (Admitted 1) (new 5 ⟨[0], none, none⟩)
        [.push, .write 6 ⟨[0], none, none⟩, .write 6 ⟨[0], none, none⟩,
          .write 7 ⟨[0], none, none⟩, .write 7 ⟨[0], none, none⟩, .assign 3, .push, .pop, .read,
          .write 7 ⟨[0], none, none⟩, .read, .read, .write 7 ⟨[0], none, none⟩])
  exact ⟨s, ran, live⟩

/-! ## What is read is what was written -/

/-- The queue with the values assigned to its elements and those found at its front,
in order. -/
structure Pipe (Value : Type) where
  queue : YQueue Value
  sent : List Value
  received : List Value

namespace Pipe

def new (address : Nat) (chunk : Chunk Value) : Pipe Value where
  queue := YQueue.new address chunk
  sent := []
  received := []

def step (N : Nat) (p : Pipe Value) (event : Event Value) : Except Fault (Pipe Value) := do
  let queue ← p.queue.step N event
  match event with
  | .assign value => return { p with queue := queue, sent := p.sent ++ [value] }
  | .pop =>
      let value ← p.queue.front
      return { p with queue := queue, received := p.received ++ [value] }
  | _ => return { p with queue := queue }

/-- Every element is assigned to once, before the next `push`, and taken off after
that. Nothing is taken back. -/
def Orderly (p : Pipe Value) : Event Value → Prop
  | .push => none ∉ p.queue.elements
  | .assign _ => p.queue.elements.getLast? = some none
  | .unpush => False
  | .write _ _ => True
  | .pop => p.queue.elements.head? ≠ some none
  | .read => True

def Admitted (N : Nat) (p : Pipe Value) (event : Event Value) : Prop :=
  YQueue.Admitted N p.queue event ∧ p.Orderly event

/-- What has been sent has been received or is in the queue, and only the last
element may be without a value. -/
structure Flows (p : Pipe Value) : Prop where
  custody : p.sent = p.received ++ p.queue.elements.filterMap id
  assigned : none ∉ p.queue.elements.dropLast
  pushing : p.queue.writer.isPushing = true → none ∉ p.queue.elements

theorem flows_new (address : Nat) (chunk : Chunk Value) : Flows (new address chunk) where
  custody := rfl
  assigned := List.not_mem_nil
  pushing := fun _ => List.not_mem_nil

theorem flows_push {p : Pipe Value} (flows : Flows p) (idle : p.queue.writer = .idle)
    (assigned : none ∉ p.queue.elements) : Flows { p with queue := p.queue.push N } := by
  unfold push
  split_ifs
  · constructor
    · rw [flows.custody]
      simp
    · simpa using assigned
    · intro impossible
      change p.queue.writer.isPushing = true at impossible
      rw [idle] at impossible
      cases impossible
  · exact ⟨flows.custody, flows.assigned, fun _ => assigned⟩

theorem step_flows {p : Pipe Value} (positive : 0 < N) (reached : Reached N p.queue)
    (flows : Flows p) {event : Event Value} (admitted : Admitted N p event) :
    ∃ next, step N p event = .ok next ∧ Reached N next.queue ∧ Flows next := by
  obtain ⟨promised, orderly⟩ := admitted
  obtain ⟨queue, taken, after⟩ := step_reached positive reached promised
  obtain ⟨chunks, writing, reading, sound⟩ := reached
  cases event with
  | push =>
      cases taken
      exact ⟨_, rfl, after, flows_push flows promised orderly⟩
  | assign value =>
      obtain ⟨next, ran, -, elements, writer⟩ := assign_sound sound promised.1 promised.2 value
      cases ran.symm.trans taken
      have last : p.queue.elements = p.queue.elements.dropLast ++ [none] :=
        (List.dropLast_append_getLast? none orderly).symm
      refine ⟨{ p with queue := queue, sent := p.sent ++ [value] }, ?_, after, ?_⟩
      · simp only [step, taken, bind, Except.bind]
        rfl
      · constructor
        · change p.sent ++ [value] = p.received ++ queue.elements.filterMap id
          rw [elements, flows.custody, last]
          simp
        · change none ∉ queue.elements.dropLast
          rw [elements, List.dropLast_concat]
          exact flows.assigned
        · intro pushing
          change queue.writer.isPushing = true at pushing
          rw [writer, promised.1] at pushing
          cases pushing
  | unpush => exact absurd orderly not_false
  | write address chunk =>
      obtain ⟨next, _, _, ran, -, elements, pushing⟩ :=
        write_sound positive sound promised.1 promised.2
      cases ran.symm.trans taken
      refine ⟨{ p with queue := queue }, ?_, after, ?_⟩
      · simp only [step, taken, bind, Except.bind]
        rfl
      · by_cases arrives : p.queue.writer = .advance
        · rw [if_pos arrives] at elements
          have assigned := flows.pushing (by rw [arrives]; rfl)
          constructor
          · change p.sent = p.received ++ queue.elements.filterMap id
            rw [elements, flows.custody]
            simp
          · change none ∉ queue.elements.dropLast
            rw [elements, List.dropLast_concat]
            exact assigned
          · intro still
            exact absurd arrives (pushing still).2
        · rw [if_neg arrives, List.append_nil] at elements
          constructor
          · change p.sent = p.received ++ queue.elements.filterMap id
            rw [elements, flows.custody]
          · change none ∉ queue.elements.dropLast
            rw [elements]
            exact flows.assigned
          · intro still
            change none ∉ queue.elements
            rw [elements]
            exact flows.pushing (pushing still).1
  | pop =>
      obtain ⟨value, front, reads⟩ := front_reads sound promised.1
      have elements := (pop_sound positive sound promised.1 promised.2).2
      cases taken
      obtain ⟨first, rest, split⟩ := List.exists_cons_of_ne_nil promised.2
      cases first with
      | none =>
          change p.queue.elements.head? ≠ some none at orderly
          rw [split] at orderly
          exact absurd rfl orderly
      | some assigned =>
          have same : value = assigned := reads assigned (by rw [split]; rfl)
          subst same
          have tail : (p.queue.pop N).elements = rest := by
            rw [elements, split]
            rfl
          have writer : (p.queue.pop N).writer = p.queue.writer := by
            unfold pop
            split_ifs
            · rfl
            · rfl
          refine ⟨{ p with queue := p.queue.pop N, received := p.received ++ [value] }, ?_,
            after, ?_⟩
          · simp only [step, YQueue.step, front, bind, Except.bind]
            rfl
          · constructor
            · change p.sent = p.received ++ [value] ++ (p.queue.pop N).elements.filterMap id
              rw [tail, flows.custody, split]
              simp
            · change none ∉ (p.queue.pop N).elements.dropLast
              rw [tail]
              intro member
              apply flows.assigned
              rw [split]
              cases rest with
              | nil => cases member
              | cons second later => exact List.mem_cons_of_mem _ member
            · intro pushing
              change (p.queue.pop N).writer.isPushing = true at pushing
              rw [writer] at pushing
              change none ∉ (p.queue.pop N).elements
              rw [tail]
              intro member
              apply flows.pushing pushing
              rw [split]
              exact List.mem_cons_of_mem _ member
  | read =>
      obtain ⟨next, _, _, ran, -, elements, writer⟩ := read_sound positive sound
      cases ran.symm.trans taken
      refine ⟨{ p with queue := queue }, ?_, after, ?_⟩
      · simp only [step, taken, bind, Except.bind]
        rfl
      · constructor
        · change p.sent = p.received ++ queue.elements.filterMap id
          rw [elements, flows.custody]
        · change none ∉ queue.elements.dropLast
          rw [elements]
          exact flows.assigned
        · intro pushing
          change queue.writer.isPushing = true at pushing
          change none ∉ queue.elements
          rw [writer] at pushing
          rw [elements]
          exact flows.pushing pushing

theorem run_flows {p : Pipe Value} (positive : 0 < N) (reached : Reached N p.queue)
    (flows : Flows p) {events : List (Event Value)}
    (admitted : AllSteps (step N) (Admitted N) p events) :
    ∃ final, Machine.run (step N) p events = .ok final ∧ Flows final := by
  induction events generalizing p with
  | nil => exact ⟨p, rfl, flows⟩
  | cons event events ih =>
      obtain ⟨next, taken, after, still⟩ := step_flows positive reached flows admitted.1
      have others := admitted.2
      rw [taken] at others
      obtain ⟨final, ran, last⟩ := ih after still others
      exact ⟨final, (run_cons_ok events taken).trans ran, last⟩

/-- The values the reader finds are those the writer has assigned, in their order and
from the first one on, in every interleaving. When the queue is empty they are all of
them. -/
theorem values_in_order (positive : 0 < N) {address : Nat} {chunk : Chunk Value}
    (size : chunk.values.length = N) {events : List (Event Value)}
    (admitted : AllSteps (step N) (Admitted N) (new address chunk) events) :
    ∃ p, Machine.run (step N) (new address chunk) events = .ok p ∧ p.received <+: p.sent ∧
      (p.queue.elements = [] → p.received = p.sent) := by
  obtain ⟨p, ran, flows⟩ :=
    run_flows positive (new_reached positive size) (flows_new address chunk) admitted
  refine ⟨p, ran, ?_, ?_⟩
  · rw [flows.custody]
    exact List.prefix_append _ _
  · intro empty
    rw [flows.custody, empty]
    exact (List.append_nil _).symm

instance (p : Pipe Value) [DecidableEq Value] : (event : Event Value) → Decidable (p.Orderly event)
  | .push => inferInstanceAs (Decidable (_ ∉ _))
  | .assign _ => inferInstanceAs (Decidable (_ = _))
  | .unpush => inferInstanceAs (Decidable False)
  | .write _ _ => inferInstanceAs (Decidable True)
  | .pop => inferInstanceAs (Decidable (_ ≠ _))
  | .read => inferInstanceAs (Decidable True)

instance (p : Pipe Value) [DecidableEq Value] (event : Event Value) :
    Decidable (Admitted N p event) :=
  inferInstanceAs (Decidable (_ ∧ _))

/-- Two values, the first of which is read while the second one is on its way. -/
theorem values_in_order_two :
    ∃ p, Machine.run (step 2) (new 5 ⟨[0, 0], none, none⟩)
        [.push, .assign 3, .push, .pop, .write 6 ⟨[0, 0], none, none⟩,
          .write 6 ⟨[0, 0], none, none⟩, .read, .write 7 ⟨[0, 0], none, none⟩,
          .write 7 ⟨[0, 0], none, none⟩, .assign 4, .pop, .read] = .ok p ∧
      p.received <+: p.sent := by
  obtain ⟨p, ran, leads, -⟩ :=
    values_in_order (by decide) (rfl : (⟨[0, 0], none, none⟩ : Chunk Nat).values.length = 2)
      (by decide : AllSteps (step 2) (Admitted 2) (new 5 ⟨[0, 0], none, none⟩)
        [.push, .assign 3, .push, .pop, .write 6 ⟨[0, 0], none, none⟩,
          .write 6 ⟨[0, 0], none, none⟩, .read, .write 7 ⟨[0, 0], none, none⟩,
          .write 7 ⟨[0, 0], none, none⟩, .assign 4, .pop, .read])
  exact ⟨p, ran, leads⟩

end Pipe

end Msmuduo.YQueue
