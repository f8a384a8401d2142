import Msmuduo.YqueueInvariant

/-!
# The reader's steps

What `pop` and every later piece of its call keep, wherever the writer is. When the
reader has emptied a chunk the chain reaches beyond it, because the writer moves on
before the `push` of the last element of a chunk returns.
-/

namespace Msmuduo.YQueue

open Msmuduo.Machine Msmuduo.Segments

set_option autoImplicit false

variable {Value : Type} {N : Nat} {s : YQueue Value} {chunks writing reading : List Nat}

/-- The writer's place says the same when as many chunks and elements have gone. -/
theorem writerAt_shift {next : YQueue Value} {later : List Nat}
    (writer : WriterAt N s chunks writing s.writer)
    (links : next.endChunk.bind (nextOf next.heap) = s.endChunk.bind (nextOf s.heap))
    (prev : ∀ address ∈ writing, prevOf next.heap address = prevOf s.heap address)
    (endChunk : next.endChunk = s.endChunk) (endPos : next.endPos = s.endPos)
    (backChunk : next.backChunk = s.backChunk) (backPos : next.backPos = s.backPos)
    (count : next.start + next.elements.length + chunks.length * N =
      s.start + s.elements.length + later.length * N) :
    WriterAt N next later writing s.writer := by
  have closes : Closing N s chunks → Closing N next later := by
    intro closing
    have filled := closing.filled
    refine ⟨by omega, ?_, ?_⟩
    · rw [backChunk, endChunk]
      exact closing.backChunk
    · rw [backPos]
      exact closing.backPos
  cases at_ : s.writer with
  | idle =>
      rw [at_] at writer
      obtain ⟨held, bound, total⟩ := writer
      refine ⟨held, by rw [endPos]; exact bound, ?_⟩
      rw [endPos]
      omega
  | exchange =>
      rw [at_] at writer
      exact ⟨writer.1, closes writer.2⟩
  | link sc =>
      rw [at_] at writer
      exact ⟨writer.1, closes writer.2⟩
  | linkBack sc =>
      rw [at_] at writer
      obtain ⟨address, held, linked, which, closing⟩ := writer
      exact ⟨address, held, by rw [links]; exact linked, which, closes closing⟩
  | advance =>
      rw [at_] at writer
      obtain ⟨address, held, linked, back, closing⟩ := writer
      refine ⟨address, held, by rw [links]; exact linked, ?_, closes closing⟩
      rw [prev address (by rw [held]; simp), endChunk]
      exact back
  | retreat =>
      rw [at_] at writer
      obtain ⟨held, zero, total⟩ := writer
      exact ⟨held, by rw [endPos]; exact zero, by omega⟩
  | free =>
      rw [at_] at writer
      obtain ⟨address, held, linked, bound, total⟩ := writer
      exact ⟨address, held, by rw [links]; exact linked, by rw [endPos]; exact bound, by omega⟩
  | clear =>
      rw [at_] at writer
      obtain ⟨held, bound, total⟩ := writer
      exact ⟨held, by rw [endPos]; exact bound, by omega⟩

theorem pop_sound (positive : 0 < N) (sound : Sound N s chunks writing reading)
    (idle : s.reader = .idle) (some_ : s.elements ≠ []) :
    Sound N (s.pop N) chunks writing reading ∧ (s.pop N).elements = s.elements.tail := by
  have reader := sound.reader
  rw [idle] at reader
  obtain ⟨rfl, bound⟩ := reader
  have filled := sound.filled positive
  have count : s.elements.tail.length + 1 = s.elements.length := by
    have positiveCount := List.length_pos_iff.mpr some_
    rw [List.length_tail]
    omega
  have begins : s.start = s.beginPos := by
    rw [start, idle]
  -- Whichever of its two ends `pop` takes, the first element is the one behind.
  have popped : ∀ next : YQueue Value, next.heap = s.heap → next.spareChunk = s.spareChunk →
      next.beginChunk = s.beginChunk → next.endChunk = s.endChunk → next.endPos = s.endPos →
      next.backChunk = s.backChunk → next.backPos = s.backPos → next.writer = s.writer →
      next.elements = s.elements.tail → next.start = s.start + 1 →
      ReaderAt N next [] next.reader → Sound N next chunks writing [] := by
    intro next heap spare beginChunk endChunk endPos backChunk backPos writer elements at_ reader
    have total : next.start + next.elements.length = s.start + s.elements.length := by
      rw [at_, elements]
      omega
    constructor
    · rw [heap, spare]
      exact sound.owned
    · rw [heap]
      exact sound.chained
    · rw [beginChunk]
      exact sound.first
    · rw [endChunk]
      exact sound.last
    · exact sound.nonempty
    · rw [writer]
      apply writerAt_shift sound.writer
      · rw [heap, endChunk]
      · intro address _
        rw [heap]
      · exact endChunk
      · exact endPos
      · exact backChunk
      · exact backPos
      · rw [total]
    · exact reader
    · intro notPushing more
      rw [writer] at notPushing
      obtain ⟨segment, address, there, back, inside, place⟩ := sound.back notPushing some_
      refine ⟨segment, address, there, by rw [backChunk]; exact back,
        by rw [backPos]; exact inside, ?_⟩
      rw [backPos, total]
      exact place
    · intro index value found
      rw [elements, List.getElem?_tail] at found
      have old := sound.agrees (index + 1) value found
      have place : next.start + index = s.start + (index + 1) := by
        rw [at_]
        omega
      rw [place, slots, heap]
      exact old
  unfold pop
  split_ifs with full
  · refine ⟨popped _ rfl rfl rfl rfl rfl rfl rfl rfl rfl ?_ ⟨rfl, full⟩, rfl⟩
    rw [begins]
    rfl
  · refine ⟨popped _ rfl rfl rfl rfl rfl rfl rfl rfl rfl ?_ ?_, rfl⟩
    · rw [begins]
      simp only [start, idle]
    · change ReaderAt N _ [] s.reader
      rw [idle]
      refine ⟨rfl, ?_⟩
      change s.beginPos + 1 < N
      omega

/-- The emptied chunk leaves the chain. -/
theorem moveOn_sound (positive : 0 < N) (sound : Sound N s chunks writing reading)
    (at_ : s.reader = .advance) :
    ∃ o behind chunk, s.heap.load s.beginChunk = .ok chunk ∧ chunks = o :: behind ∧
      Sound N { s with beginChunk := chunk.next, reader := .unlink s.beginChunk } behind writing
        [o] := by
  have reader := sound.reader
  rw [at_] at reader
  obtain ⟨rfl, full⟩ := reader
  have filled := sound.filled positive
  have begins : s.start = N := by
    rw [start, at_]
    exact full
  obtain ⟨o, behind, chunk, rfl, first, live⟩ := sound.beginChunk
  have sizes : (o :: behind).length * N = behind.length * N + N := by
    rw [List.length_cons, Nat.add_mul, Nat.one_mul]
  have more : behind ≠ [] := by
    rintro rfl
    simp only [List.length_nil, Nat.zero_mul] at sizes
    omega
  obtain ⟨second, later, rfl⟩ := List.exists_cons_of_ne_nil more
  obtain ⟨joined, chained⟩ := List.isChain_cons_cons.mp sound.chained
  have next : chunk.next = some second := by
    have forward := joined.1
    rw [live] at forward
    exact forward
  refine ⟨o, second :: later, chunk, by rw [first, Heap.load_live live], rfl, ?_⟩
  constructor
  · apply sound.owned.perm
    change (o :: ((second :: later) ++ (writing ++ ([] ++ s.spareChunk.toList)))).Perm
      ((second :: later) ++ (writing ++ ([o] ++ s.spareChunk.toList)))
    rw [List.nil_append, ← List.append_assoc, ← List.append_assoc]
    exact List.perm_middle.symm
  · exact chained
  · exact next.symm
  · rw [← sound.last]
    rfl
  · exact more
  · apply writerAt_shift sound.writer
    · rfl
    · exact fun _ _ => rfl
    · rfl
    · rfl
    · rfl
    · rfl
    · change 0 + s.elements.length + (o :: second :: later).length * N = _
      omega
  · refine ⟨by rw [first]; rfl, ?_⟩
    rw [first]
    intro impossible
    cases impossible
  · intro notPushing some_
    obtain ⟨segment, address, there, back, inside, place⟩ := sound.back notPushing some_
    have count : 0 < s.elements.length := List.length_pos_iff.mpr some_
    -- The last element is not in the emptied chunk.
    cases segment with
    | zero => omega
    | succ segment =>
        refine ⟨segment, address, there, back, inside, ?_⟩
        change segment * N + s.backPos + 1 = 0 + s.elements.length
        rw [Nat.add_mul, Nat.one_mul] at place
        omega
  · intro index value found
    have old := sound.agrees index value found
    have size : (valuesOf s.heap o).length = N := sound.valuesSized o (by simp)
    unfold slots at old
    rw [List.flatMap_cons, List.getElem?_append_right (by omega), size, begins,
      Nat.add_sub_cancel_left] at old
    change ((second :: later).flatMap (valuesOf s.heap))[0 + index]? = some value
    rw [Nat.zero_add]
    exact old

/-- The new first chunk loses its link back, at which nobody looks. -/
theorem unlink_sound {o : Option Nat} (sound : Sound N s chunks writing reading)
    (at_ : s.reader = .unlink o) {first : Nat}
    {chunk : Chunk Value} (begins : s.beginChunk = some first) (live : s.heap first = some chunk) :
    Sound N { s with
      heap := s.heap.put first (some { chunk with prev := none })
      beginPos := 0
      reader := .exchange o } chunks writing reading := by
  have reader := sound.reader
  rw [at_] at reader
  obtain ⟨held, real⟩ := reader
  have zero : s.start = 0 := by
    rw [start, at_]
  have inChain : first ∈ chunks := by
    apply List.mem_of_mem_head?
    rw [sound.first, begins]
    rfl
  constructor
  · exact sound.owned.put live rfl
  · apply chained_frame sound.chained
    · intro other _
      exact nextOf_put_prev live _ other
    · intro other member
      exact prevOf_put_other _ (sound.behind begins member).2
  · exact sound.first
  · exact sound.last
  · exact sound.nonempty
  · apply writerAt_shift sound.writer
    · have same : nextOf (s.heap.put first (some { chunk with prev := none })) = nextOf s.heap :=
        funext (nextOf_put_prev live none)
      change s.endChunk.bind (nextOf (s.heap.put first _)) = _
      rw [same]
    · intro other member
      apply prevOf_put_other
      rintro rfl
      exact sound.apart (List.mem_append_left _ member) inChain
    · rfl
    · rfl
    · rfl
    · rfl
    · change 0 + s.elements.length + _ = _
      rw [zero]
  · exact ⟨held, real, rfl⟩
  · intro notPushing some_
    obtain ⟨segment, address, there, back, inside, place⟩ := sound.back notPushing some_
    refine ⟨segment, address, there, back, inside, ?_⟩
    change segment * N + s.backPos + 1 = 0 + s.elements.length
    rw [zero] at place
    exact place
  · intro index value found
    have old := sound.agrees index value found
    change (chunks.flatMap (valuesOf (s.heap.put first _)))[0 + index]? = some value
    rw [valuesOf_put_prev live]
    rw [zero] at old
    exact old

/-- The emptied chunk becomes the spare one. -/
theorem keep_sound {o : Option Nat} (sound : Sound N s chunks writing reading)
    (at_ : s.reader = .exchange o) :
    Sound N { s with spareChunk := o, reader := .free s.spareChunk } chunks writing
      s.spareChunk.toList := by
  have reader := sound.reader
  rw [at_] at reader
  obtain ⟨rfl, -, zero⟩ := reader
  have begins : s.start = s.beginPos := by
    rw [start, at_]
  have same : ({ s with spareChunk := o, reader := .free s.spareChunk } : YQueue Value).start =
      s.start := begins.symm
  constructor
  · apply sound.owned.perm
    apply List.Perm.append_left
    apply List.Perm.append_left
    exact List.perm_append_comm
  · exact sound.chained
  · exact sound.first
  · exact sound.last
  · exact sound.nonempty
  · apply writerAt_shift sound.writer
    · rfl
    · exact fun _ _ => rfl
    · rfl
    · rfl
    · rfl
    · rfl
    · rw [same]
  · exact ⟨rfl, zero⟩
  · intro notPushing some_
    obtain ⟨segment, address, there, back, inside, place⟩ := sound.back notPushing some_
    exact ⟨segment, address, there, back, inside, place.trans (by rw [same])⟩
  · intro index value found
    rw [same]
    exact sound.agrees index value found

/-- The spare chunk of before is freed, if there was one. -/
theorem drop_sound {heap : Heap (Chunk Value)} {cs : Option Nat}
    (sound : Sound N s chunks writing reading) (at_ : s.reader = .free cs)
    (owned : Owned N heap (chunks ++ (writing ++ ([] ++ s.spareChunk.toList))))
    (same : ∀ address ∈ chunks ++ writing, heap address = s.heap address) (positive : 0 < N) :
    Sound N { s with heap := heap, reader := .idle } chunks writing [] := by
  have reader := sound.reader
  rw [at_] at reader
  obtain ⟨-, zero⟩ := reader
  have begins : s.start = s.beginPos := by
    rw [start, at_]
  have place : ({ s with heap := heap, reader := .idle } : YQueue Value).start = s.start :=
    begins.symm
  have kept : ∀ address ∈ chunks, heap address = s.heap address :=
    fun address member => same address (List.mem_append_left _ member)
  constructor
  · exact owned
  · apply chained_frame sound.chained
    · intro address member
      have there := kept address (List.dropLast_subset _ member)
      exact congrArg (fun cell => cell.bind Chunk.next) there
    · intro address member
      have there := kept address (List.mem_of_mem_tail member)
      exact congrArg (fun cell => cell.bind Chunk.prev) there
  · exact sound.first
  · exact sound.last
  · exact sound.nonempty
  · apply writerAt_shift sound.writer
    · obtain ⟨before, last, chunk, split, ends, -⟩ := sound.endChunk
      change s.endChunk.bind (nextOf heap) = _
      rw [ends]
      change nextOf heap last = nextOf s.heap last
      rw [nextOf, kept last (by rw [split]; simp), nextOf]
    · intro address member
      have there := same address (List.mem_append_right _ member)
      exact congrArg (fun cell => cell.bind Chunk.prev) there
    · rfl
    · rfl
    · rfl
    · rfl
    · rw [place]
  · refine ⟨rfl, ?_⟩
    change s.beginPos < N
    omega
  · intro notPushing some_
    obtain ⟨segment, address, there, back, inside, count⟩ := sound.back notPushing some_
    exact ⟨segment, address, there, back, inside, count.trans (by rw [place])⟩
  · intro index value found
    have slots : chunks.flatMap (valuesOf heap) = s.slots chunks := by
      apply List.flatMap_congr
      intro address member
      rw [valuesOf, kept address member, valuesOf]
    change (chunks.flatMap (valuesOf heap))[_ + index]? = some value
    rw [slots, place]
    exact sound.agrees index value found

/-! ## The pieces of a call -/

/-- Every piece of a call of `pop` is carried out. -/
theorem read_sound (positive : 0 < N) (sound : Sound N s chunks writing reading) :
    ∃ next chunks reading, s.read = .ok next ∧ Sound N next chunks writing reading ∧
      next.elements = s.elements ∧ next.writer = s.writer := by
  cases at_ : s.reader with
  | idle => exact ⟨s, chunks, reading, by simp only [read, at_]; rfl, sound, rfl, rfl⟩
  | advance =>
      obtain ⟨o, behind, chunk, loaded, -, after⟩ := moveOn_sound positive sound at_
      refine ⟨_, _, _, ?_, after, rfl, rfl⟩
      simp only [read, at_, loaded, onHeap, Except.mapError, bind, Except.bind]
      rfl
  | unlink o =>
      obtain ⟨first, behind, chunk, -, begins, live⟩ := sound.beginChunk
      refine ⟨_, _, _, ?_, unlink_sound sound at_ begins live, rfl, rfl⟩
      simp only [read, at_, begins, Heap.modify_live live, onHeap, Except.mapError, bind,
        Except.bind]
      rfl
  | exchange o =>
      exact ⟨_, _, _, by simp only [read, at_]; rfl, keep_sound sound at_, rfl, rfl⟩
  | free cs =>
      have reader := sound.reader
      rw [at_] at reader
      obtain ⟨rfl, -⟩ := reader
      cases cs with
      | none =>
          refine ⟨_, _, _, by simp only [read, at_]; rfl,
            drop_sound sound at_ sound.owned (fun _ _ => rfl) positive, rfl, rfl⟩
      | some cs =>
          have held : cs ∈ chunks ++ (writing ++ ([cs] ++ s.spareChunk.toList)) := by simp
          obtain ⟨chunk, live, -⟩ := sound.owned.found held
          have moved : Owned N s.heap
              (cs :: (chunks ++ (writing ++ ([] ++ s.spareChunk.toList)))) := by
            apply sound.owned.perm
            change (chunks ++ (writing ++ (cs :: s.spareChunk.toList))).Perm _
            rw [List.nil_append, ← List.append_assoc, ← List.append_assoc]
            exact List.perm_middle
          have apart : ∀ address ∈ chunks ++ writing,
              s.heap.put cs none address = s.heap address := by
            intro address member
            apply Heap.put_other
            rintro rfl
            apply (List.nodup_cons.mp moved.distinct).1
            rw [← List.append_assoc]
            exact List.mem_append_left _ member
          refine ⟨_, _, _, ?_, drop_sound sound at_ moved.free apart positive, rfl, rfl⟩
          simp only [read, at_, Heap.free_live live, onHeap, Except.mapError, bind, Except.bind]
          rfl

end Msmuduo.YQueue
