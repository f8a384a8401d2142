import Msmuduo.YqueueInvariant

/-!
# The writer's steps

What `push`, `unpush`, an assignment through `back` and every later piece of their
calls keep, wherever the reader is.
-/

namespace Msmuduo.YQueue

open Msmuduo.Machine Msmuduo.Segments

set_option autoImplicit false

variable {Value : Type} {N : Nat} {s : YQueue Value} {chunks writing reading : List Nat}

/-- The elements that were there keep their places, and a new one has no value. -/
theorem agrees_push
    (agrees : ∀ index value, s.elements[index]? = some (some value) →
      (s.slots chunks)[s.start + index]? = some value)
    {index : Nat} {value : Value}
    (found : (s.elements ++ [none])[index]? = some (some value)) :
    (s.slots chunks)[s.start + index]? = some value := by
  by_cases inside : index < s.elements.length
  · rw [List.getElem?_append_left inside] at found
    exact agrees index value found
  · rw [List.getElem?_append_right (Nat.not_lt.mp inside)] at found
    cases place : index - s.elements.length with
    | zero =>
        rw [place] at found
        cases found
    | succ place' =>
        rw [place] at found
        cases found

theorem push_sound (sound : Sound N s chunks writing reading)
    (idle : s.writer = .idle) : Sound N (s.push N) chunks writing reading := by
  have writer := sound.writer
  rw [idle] at writer
  obtain ⟨rfl, bound, total⟩ := writer
  unfold push
  split_ifs with inside
  · have place : (s.start + (s.elements ++ [none]).length) = s.start + s.elements.length + 1 := by
      simp
      omega
    constructor
    · exact sound.owned
    · exact sound.chained
    · exact sound.first
    · exact sound.last
    · exact sound.nonempty
    · change WriterAt N _ chunks [] s.writer
      rw [idle]
      refine ⟨rfl, ?_, ?_⟩
      · change s.endPos + 1 < N
        omega
      · change s.start + (s.elements ++ [none]).length + N = chunks.length * N + (s.endPos + 1)
        omega
    · exact sound.reader
    · intro _ _
      obtain ⟨before, last, chunk, split, ends, -⟩ := sound.endChunk
      refine ⟨before.length, last, by rw [split]; simp, ends, bound, ?_⟩
      change before.length * N + s.endPos + 1 = s.start + (s.elements ++ [none]).length
      have length : chunks.length * N = before.length * N + N := by
        rw [split, List.length_append, List.length_singleton, Nat.add_mul, Nat.one_mul]
      omega
    · intro index value found
      exact agrees_push sound.agrees found
  · constructor
    · exact sound.owned
    · exact sound.chained
    · exact sound.first
    · exact sound.last
    · exact sound.nonempty
    · refine ⟨rfl, ?_, rfl, ?_⟩
      · change s.start + s.elements.length + 1 = chunks.length * N
        omega
      · change s.endPos + 1 = N
        omega
    · exact sound.reader
    · intro impossible _
      cases impossible
    · exact sound.agrees

/-! ## Linking a chunk -/

theorem exchange_sound (sound : Sound N s chunks writing reading) (at_ : s.writer = .exchange) :
    Sound N { s with spareChunk := none, writer := .link s.spareChunk } chunks
      s.spareChunk.toList reading := by
  have writer := sound.writer
  rw [at_] at writer
  obtain ⟨rfl, closing⟩ := writer
  constructor
  · apply sound.owned.perm
    apply List.Perm.append_left
    simp only [Option.toList_none, List.append_nil, List.nil_append]
    exact List.perm_append_comm
  · exact sound.chained
  · exact sound.first
  · exact sound.last
  · exact sound.nonempty
  · exact ⟨rfl, closing.filled, closing.backChunk, closing.backPos⟩
  · exact sound.reader
  · intro impossible _
    cases impossible
  · exact sound.agrees

/-- The last chunk of the chain gets a next one; nothing else looks at this link. -/
theorem link_sound {heap : Heap (Chunk Value)} {last : Nat} {sc : Option Nat}
    {chunk : Chunk Value} (address : Nat) (sound : Sound N s chunks writing reading)
    (closing : Closing N s chunks)
    (owned : Owned N heap (chunks ++ ([address] ++ (reading ++ s.spareChunk.toList))))
    (ends : s.endChunk = some last) (live : heap last = some chunk)
    (same : ∀ other ∈ chunks, heap other = s.heap other) (which : sc = some address ∨ sc = none) :
    Sound N { s with
      heap := heap.put last (some { chunk with next := some address })
      writer := .linkBack sc } chunks [address] reading := by
  constructor
  · exact owned.put live rfl
  · apply chained_frame sound.chained
    · intro other member
      obtain ⟨inChain, apart⟩ := sound.inFront ends member
      rw [nextOf_put_other _ apart, nextOf, same other inChain, nextOf]
    · intro other member
      rw [prevOf_put_next live, prevOf, same other (List.mem_of_mem_tail member), prevOf]
  · exact sound.first
  · exact sound.last
  · exact sound.nonempty
  · refine ⟨address, rfl, ?_, which, closing.filled, closing.backChunk, closing.backPos⟩
    change s.endChunk.bind (nextOf (heap.put last _)) = some address
    rw [ends]
    exact nextOf_put_self heap last _
  · exact sound.reader
  · intro impossible _
    cases impossible
  · intro index value found
    have slots : chunks.flatMap
        (valuesOf (heap.put last (some { chunk with next := some address }))) =
          s.slots chunks := by
      rw [valuesOf_put_next live]
      apply List.flatMap_congr
      intro other member
      rw [valuesOf, same other member, valuesOf]
    change (chunks.flatMap (valuesOf (heap.put last _)))[s.start + index]? = some value
    rw [slots]
    exact sound.agrees index value found

/-- The new chunk, which is not yet in the chain, gets its link back. -/
theorem linkBack_sound {address : Nat} {chunk : Chunk Value}
    (sound : Sound N s chunks [address] reading) (closing : Closing N s chunks)
    (ends : s.endChunk.bind (nextOf s.heap) = some address) (live : s.heap address = some chunk) :
    Sound N { s with
      heap := s.heap.put address (some { chunk with prev := s.endChunk })
      writer := .advance } chunks [address] reading := by
  have outside : address ∉ chunks := sound.apart (by simp)
  constructor
  · exact sound.owned.put live rfl
  · apply chained_frame sound.chained
    · intro other _
      exact nextOf_put_prev live _ other
    · intro other member
      apply prevOf_put_other
      rintro rfl
      exact outside (List.mem_of_mem_tail member)
  · exact sound.first
  · exact sound.last
  · exact sound.nonempty
  · refine ⟨address, rfl, ?_, ?_, closing.filled, closing.backChunk, closing.backPos⟩
    · change s.endChunk.bind (nextOf (s.heap.put address _)) = some address
      have same : nextOf (s.heap.put address (some { chunk with prev := s.endChunk })) =
          nextOf s.heap := funext (nextOf_put_prev live _)
      rw [same]
      exact ends
    · exact prevOf_put_self s.heap address _
  · exact sound.reader
  · intro impossible _
    cases impossible
  · intro index value found
    change (chunks.flatMap (valuesOf (s.heap.put address _)))[s.start + index]? = some value
    rw [valuesOf_put_prev live]
    exact sound.agrees index value found

/-- The chain is one chunk longer, and the element has arrived. -/
theorem advance_sound {address : Nat} (sound : Sound N s chunks [address] reading)
    (closing : Closing N s chunks) (positive : 0 < N)
    (ends : s.endChunk.bind (nextOf s.heap) = some address)
    (back : prevOf s.heap address = s.endChunk) :
    Sound N { s with
      endChunk := some address
      endPos := 0
      writer := .idle
      elements := s.elements ++ [none] } (chunks ++ [address]) [] reading := by
  obtain ⟨before, last, chunk, split, same, -⟩ := sound.endChunk
  have sizes : (chunks ++ [address]).length * N = chunks.length * N + N := by
    rw [List.length_append, List.length_singleton, Nat.add_mul, Nat.one_mul]
  have count : (s.elements ++ [none]).length = s.elements.length + 1 := by simp
  have filled := closing.filled
  have backPos := closing.backPos
  constructor
  · apply sound.owned.perm
    simp
  · apply Heap.chain_append_one sound.chained (sound.last.trans same)
    rw [same] at ends back
    exact ⟨ends, back⟩
  · change (chunks ++ [address]).head? = s.beginChunk
    rw [List.head?_append_of_ne_nil _ sound.nonempty]
    exact sound.first
  · simp
  · simp
  · refine ⟨rfl, positive, ?_⟩
    change s.start + (s.elements ++ [none]).length + N = (chunks ++ [address]).length * N + 0
    omega
  · exact sound.reader
  · intro _ _
    refine ⟨before.length, last, by rw [split]; simp, ?_, ?_, ?_⟩
    · exact closing.backChunk.trans same
    · change s.backPos < N
      omega
    · change before.length * N + s.backPos + 1 = s.start + (s.elements ++ [none]).length
      have length : chunks.length * N = before.length * N + N := by
        rw [split, List.length_append, List.length_singleton, Nat.add_mul, Nat.one_mul]
      omega
  · intro index value found
    have old := agrees_push sound.agrees found
    change ((chunks ++ [address]).flatMap (valuesOf s.heap))[s.start + index]? = some value
    rw [List.flatMap_append, List.getElem?_append_left]
    · exact old
    · exact (List.getElem?_eq_some_iff.mp old).1

/-! ## Taking an element back -/

/-- The elements that are left keep their places. -/
theorem agrees_dropLast
    (agrees : ∀ index value, s.elements[index]? = some (some value) →
      (s.slots chunks)[s.start + index]? = some value)
    {index : Nat} {value : Value} (found : s.elements.dropLast[index]? = some (some value)) :
    (s.slots chunks)[s.start + index]? = some value := by
  apply agrees
  rw [List.getElem?_dropLast] at found
  split_ifs at found with inside
  exact found

/-- One place in front of the back position is the element before the last one. -/
theorem back_before (sound : Sound N s chunks writing reading) (positive : 0 < N)
    (back : BackAt N s chunks) :
    ∃ stepped, s.unpushBack N = .ok stepped ∧
      (∃ pos chunk, stepped = { s with backPos := pos, backChunk := chunk }) ∧
      (1 < s.elements.length → ∃ segment address, chunks[segment]? = some address ∧
        stepped.backChunk = some address ∧ stepped.backPos < N ∧
        segment * N + stepped.backPos + 2 = s.start + s.elements.length) := by
  obtain ⟨segment, address, there, at_, bound, place⟩ := back
  by_cases inside : s.backPos ≠ 0
  · refine ⟨_, if_pos inside, ⟨s.backPos - 1, s.backChunk, rfl⟩, ?_⟩
    intro _
    refine ⟨segment, address, there, at_, ?_, ?_⟩
    · change s.backPos - 1 < N
      omega
    · change segment * N + (s.backPos - 1) + 2 = _
      omega
  · have zero : s.backPos = 0 := not_not.mp inside
    obtain ⟨chunk, found, -⟩ := sound.inChain (List.mem_of_getElem? there)
    refine ⟨{ s with backPos := N - 1, backChunk := chunk.prev }, ?_,
      ⟨N - 1, chunk.prev, rfl⟩, ?_⟩
    · rw [unpushBack, if_neg inside, at_, Heap.load_live found]
      rfl
    · intro several
      -- The element before the last one is in the chunk before.
      cases segment with
      | zero => omega
      | succ segment =>
          obtain ⟨bounded, same⟩ := List.getElem?_eq_some_iff.mp there
          have joined := List.isChain_iff_getElem.mp sound.chained segment bounded
          rw [same] at joined
          have linked : chunk.prev = some chunks[segment] := by
            have back := joined.2
            rw [found] at back
            exact back
          refine ⟨segment, chunks[segment], List.getElem?_eq_getElem _, linked, ?_, ?_⟩
          · change N - 1 < N
            omega
          · change segment * N + (N - 1) + 2 = _
            rw [Nat.add_mul, Nat.one_mul] at place
            omega

theorem unpush_sound (positive : 0 < N) (sound : Sound N s chunks writing reading)
    (idle : s.writer = .idle) (some_ : s.elements ≠ []) :
    ∃ next, s.unpush N = .ok next ∧ Sound N next chunks writing reading ∧
      next.elements = s.elements.dropLast := by
  have writer := sound.writer
  rw [idle] at writer
  obtain ⟨rfl, bound, total⟩ := writer
  have back := sound.back (by rw [idle]; rfl) some_
  have count : s.elements.dropLast.length + 1 = s.elements.length := by
    have positiveCount := List.length_pos_iff.mpr some_
    rw [List.length_dropLast]
    omega
  obtain ⟨stepped, ran, ⟨pos, chunk, rfl⟩, before⟩ := back_before sound positive back
  have backAt : s.elements.dropLast ≠ [] → ∃ segment address, chunks[segment]? = some address ∧
      chunk = some address ∧ pos < N ∧
      segment * N + pos + 1 = s.start + s.elements.dropLast.length := by
    intro more
    have several := List.length_pos_iff.mpr more
    obtain ⟨segment, address, there, at_, inside, place⟩ := before (by omega)
    refine ⟨segment, address, there, at_, inside, ?_⟩
    change segment * N + pos + 2 = _ at place
    omega
  unfold unpush
  simp only [ran, bind, Except.bind]
  split_ifs with inside
  · refine ⟨_, rfl, ?_, rfl⟩
    constructor
    · exact sound.owned
    · exact sound.chained
    · exact sound.first
    · exact sound.last
    · exact sound.nonempty
    · change WriterAt N _ chunks [] s.writer
      rw [idle]
      refine ⟨rfl, ?_, ?_⟩
      · change s.endPos - 1 < N
        omega
      · change s.start + s.elements.dropLast.length + N = chunks.length * N + (s.endPos - 1)
        omega
    · exact sound.reader
    · intro _ more
      exact backAt more
    · intro index value found
      exact agrees_dropLast sound.agrees found
  · refine ⟨_, rfl, ?_, rfl⟩
    constructor
    · exact sound.owned
    · exact sound.chained
    · exact sound.first
    · exact sound.last
    · exact sound.nonempty
    · refine ⟨rfl, not_not.mp inside, ?_⟩
      change s.start + s.elements.dropLast.length + 1 + N = chunks.length * N
      have zero := not_not.mp inside
      omega
    · exact sound.reader
    · intro _ more
      exact backAt more
    · intro index value found
      exact agrees_dropLast sound.agrees found

/-- The last chunk leaves the chain. -/
theorem retreat_sound (positive : 0 < N) (sound : Sound N s chunks writing reading)
    (at_ : s.writer = .retreat) :
    ∃ before last chunk, s.heap.load s.endChunk = .ok chunk ∧ chunks = before ++ [last] ∧
      Sound N { s with endPos := N - 1, endChunk := chunk.prev, writer := .free } before [last]
        reading := by
  have writer := sound.writer
  rw [at_] at writer
  obtain ⟨rfl, zero, total⟩ := writer
  obtain ⟨before, last, chunk, rfl, ends, live⟩ := sound.endChunk
  have sizes : (before ++ [last]).length * N = before.length * N + N := by
    rw [List.length_append, List.length_singleton, Nat.add_mul, Nat.one_mul]
  -- The chunk before holds an element, so there is one.
  have more : before ≠ [] := by
    rintro rfl
    simp only [List.nil_append, List.length_singleton, Nat.one_mul] at total
    omega
  obtain ⟨front, other, rfl⟩ := (List.eq_nil_or_concat' before).resolve_left more
  have joined : Heap.Joined Chunk.next Chunk.prev s.heap other last := by
    apply (List.isChain_append.mp sound.chained).2.2
    · simp
    · simp
  have linked : chunk.prev = some other := by
    have back := joined.2
    rw [live] at back
    exact back
  refine ⟨front ++ [other], last, chunk, by rw [ends, Heap.load_live live], rfl, ?_⟩
  constructor
  · apply sound.owned.perm
    simp
  · exact (List.isChain_append.mp sound.chained).1
  · change (front ++ [other]).head? = s.beginChunk
    rw [← sound.first, List.head?_append_of_ne_nil _ more]
  · change (front ++ [other]).getLast? = chunk.prev
    rw [linked]
    simp
  · exact more
  · refine ⟨last, rfl, ?_, ?_, ?_⟩
    · change chunk.prev.bind (nextOf s.heap) = some last
      rw [linked]
      exact joined.1
    · change N - 1 + 1 = N
      omega
    · change s.start + s.elements.length + 1 = (front ++ [other]).length * N
      omega
  · exact sound.reader
  · intro _ some_
    obtain ⟨segment, address, there, back, bound, place⟩ :=
      sound.back (by rw [at_]; rfl) some_
    refine ⟨segment, address, ?_, back, bound, place⟩
    rw [List.getElem?_append_left] at there
    · exact there
    · by_contra beyond
      have large : (front ++ [other]).length * N ≤ segment * N :=
        Nat.mul_le_mul_right N (Nat.not_lt.mp beyond)
      omega
  · intro index value found
    have old := sound.agrees index value found
    have inside : index < s.elements.length := (List.getElem?_eq_some_iff.mp found).1
    have length : ((front ++ [other]).flatMap (valuesOf s.heap)).length =
        (front ++ [other]).length * N := by
      apply length_flatMap
      intro address member
      exact sound.valuesSized address (List.mem_append_left _ member)
    unfold slots at old
    rw [List.flatMap_append, List.getElem?_append_left (by omega)] at old
    exact old

/-- The chunk that has left the chain is freed. -/
theorem release_sound (sound : Sound N s chunks writing reading) (at_ : s.writer = .free) :
    ∃ chunk heap, s.heap.load s.endChunk = .ok chunk ∧ s.heap.free chunk.next = .ok heap ∧
      Sound N { s with heap := heap, writer := .clear } chunks [] reading := by
  have writer := sound.writer
  rw [at_] at writer
  obtain ⟨address, rfl, linked, endPos, total⟩ := writer
  obtain ⟨before, last, chunk, split, ends, live⟩ := sound.endChunk
  have next : chunk.next = some address := by
    rw [ends] at linked
    change (s.heap last).bind Chunk.next = some address at linked
    rw [live] at linked
    exact linked
  have held : address ∈ chunks ++ ([address] ++ (reading ++ s.spareChunk.toList)) := by simp
  obtain ⟨freed, found, -⟩ := sound.owned.found held
  have outside : address ∉ chunks := sound.apart (by simp)
  have kept : ∀ other ∈ chunks, other ≠ address := by
    rintro other member rfl
    exact outside member
  refine ⟨chunk, s.heap.put address none, by rw [ends, Heap.load_live live],
    by rw [next, Heap.free_live found], ?_⟩
  constructor
  · have moved : Owned N s.heap (address :: (chunks ++ ([] ++ (reading ++ s.spareChunk.toList)))) := by
      apply sound.owned.perm
      simp
    exact moved.free
  · apply chained_frame sound.chained
    · intro other member
      exact nextOf_put_other _ (kept other (sound.inFront ends member).1)
    · intro other member
      exact prevOf_put_other _ (kept other (List.mem_of_mem_tail member))
  · exact sound.first
  · exact sound.last
  · exact sound.nonempty
  · exact ⟨rfl, endPos, total⟩
  · exact sound.reader
  · intro _ some_
    exact sound.back (by rw [at_]; rfl) some_
  · intro index value found
    have slots : chunks.flatMap (valuesOf (s.heap.put address none)) = s.slots chunks := by
      apply List.flatMap_congr
      intro other member
      exact valuesOf_put_other _ (kept other member)
    change (chunks.flatMap (valuesOf (s.heap.put address none)))[s.start + index]? = some value
    rw [slots]
    exact sound.agrees index value found

/-- The link to the freed chunk is cleared. -/
theorem clear_sound (sound : Sound N s chunks writing reading)
    (at_ : s.writer = .clear) {last : Nat} {chunk : Chunk Value}
    (ends : s.endChunk = some last) (live : s.heap last = some chunk) :
    Sound N { s with
      heap := s.heap.put last (some { chunk with next := none })
      writer := .idle } chunks [] reading := by
  have writer := sound.writer
  rw [at_] at writer
  obtain ⟨rfl, endPos, total⟩ := writer
  constructor
  · exact sound.owned.put live rfl
  · apply chained_frame sound.chained
    · intro other member
      exact nextOf_put_other _ (sound.inFront ends member).2
    · intro other _
      exact prevOf_put_next live _ other
  · exact sound.first
  · exact sound.last
  · exact sound.nonempty
  · refine ⟨rfl, ?_, ?_⟩
    · change s.endPos < N
      omega
    · change s.start + s.elements.length + N = chunks.length * N + s.endPos
      omega
  · exact sound.reader
  · intro _ some_
    exact sound.back (by rw [at_]; rfl) some_
  · intro index value found
    change (chunks.flatMap (valuesOf (s.heap.put last _)))[s.start + index]? = some value
    rw [valuesOf_put_next live]
    exact sound.agrees index value found

/-! ## Assigning to the last element -/

theorem assign_sound (sound : Sound N s chunks writing reading) (idle : s.writer = .idle)
    (some_ : s.elements ≠ []) (value : Value) :
    ∃ next, s.assign value = .ok next ∧ Sound N next chunks writing reading ∧
      next.elements = s.elements.dropLast ++ [some value] ∧ next.writer = s.writer := by
  obtain ⟨segment, address, there, at_, bound, place⟩ := sound.back (by rw [idle]; rfl) some_
  obtain ⟨chunk, live, size⟩ := sound.inChain (List.mem_of_getElem? there)
  have count : (s.elements.dropLast ++ [some value]).length = s.elements.length := by
    have positiveCount := List.length_pos_iff.mpr some_
    rw [List.length_append, List.length_dropLast, List.length_singleton]
    omega
  have values : ∀ other, other ≠ address →
      valuesOf (s.heap.put address (some { chunk with values := chunk.values.set s.backPos value }))
        other = valuesOf s.heap other :=
    fun other apart => valuesOf_put_other _ apart
  have own : valuesOf
      (s.heap.put address (some { chunk with values := chunk.values.set s.backPos value })) address =
        (valuesOf s.heap address).set s.backPos value := by
    rw [valuesOf, Heap.put_self, valuesOf, live]
  have slots : chunks.flatMap (valuesOf
      (s.heap.put address (some { chunk with values := chunk.values.set s.backPos value }))) =
        (s.slots chunks).set (segment * N + s.backPos) value :=
    flatMap_set sound.distinct sound.valuesSized there bound own values
  refine ⟨{ s with
    heap := s.heap.put address (some { chunk with values := chunk.values.set s.backPos value })
    elements := s.elements.dropLast ++ [some value] }, ?_, ?_, rfl, rfl⟩
  · simp only [assign, at_, Heap.load_live live, onHeap, Except.mapError, bind, Except.bind]
    rw [require_ok (by rw [size]; exact bound)]
    simp only [Heap.modify_live live]
    rfl
  · constructor
    · apply sound.owned.put live
      simp
    · apply chained_frame sound.chained
      · intro other _
        exact nextOf_put_values live _ other
      · intro other _
        exact prevOf_put_values live _ other
    · exact sound.first
    · exact sound.last
    · exact sound.nonempty
    · change WriterAt N _ chunks writing s.writer
      have writer := sound.writer
      rw [idle] at writer ⊢
      refine ⟨writer.1, writer.2.1, ?_⟩
      change s.start + (s.elements.dropLast ++ [some value]).length + N = _
      rw [count]
      exact writer.2.2
    · exact sound.reader
    · intro _ _
      refine ⟨segment, address, there, at_, bound, ?_⟩
      change segment * N + s.backPos + 1 = s.start + (s.elements.dropLast ++ [some value]).length
      rw [count]
      exact place
    · intro index other found
      change (chunks.flatMap (valuesOf (s.heap.put address _)))[s.start + index]? = some other
      change (s.elements.dropLast ++ [some value])[index]? = some (some other) at found
      rw [slots]
      by_cases inside : index < s.elements.dropLast.length
      · rw [List.getElem?_append_left inside] at found
        rw [List.length_dropLast] at inside
        rw [List.getElem?_set_ne (by omega)]
        exact agrees_dropLast sound.agrees found
      · rw [List.getElem?_append_right (Nat.not_lt.mp inside)] at found
        have last : index = s.elements.dropLast.length := by
          have bounded := (List.getElem?_eq_some_iff.mp found).1
          rw [List.length_singleton] at bounded
          omega
        rw [last, Nat.sub_self] at found
        cases found
        have slot : s.start + index = segment * N + s.backPos := by
          have positiveCount := List.length_pos_iff.mpr some_
          rw [last, List.length_dropLast]
          omega
        have inRange : segment * N + s.backPos < (s.slots chunks).length := by
          have bounded := (List.getElem?_eq_some_iff.mp there).1
          have whole : (segment + 1) * N ≤ chunks.length * N := Nat.mul_le_mul_right N bounded
          rw [Nat.add_mul, Nat.one_mul] at whole
          rw [sound.length_slots]
          omega
        rw [slot, List.getElem?_set_self inRange]

/-! ## The pieces of a call -/

/-- Every piece of a call of the writer is carried out, and the chain and what the
writer holds are again as its place says. An element is added when a call of `push`
that had to link a chunk returns. -/
theorem write_sound (positive : 0 < N) (sound : Sound N s chunks writing reading)
    {address : Nat} {chunk : Chunk Value} (free : s.heap address = none)
    (size : chunk.values.length = N) :
    ∃ next chunks writing, s.write N address chunk = .ok next ∧
      Sound N next chunks writing reading ∧
      (next.elements = s.elements ++ if s.writer = .advance then [none] else []) ∧
      (next.writer.isPushing = true → s.writer.isPushing = true ∧ s.writer ≠ .advance) := by
  have writer := sound.writer
  obtain ⟨before, last, ending, split, ends, live⟩ := sound.endChunk
  have inChain : last ∈ chunks := by
    rw [split]
    simp
  cases at_ : s.writer with
  | idle =>
      refine ⟨s, chunks, writing, by simp only [write, at_]; rfl, sound, by simp, by simp [at_, Writer.isPushing]⟩
  | exchange =>
      refine ⟨_, _, _, by simp only [write, at_]; rfl, exchange_sound sound at_, by simp, by simp [Writer.isPushing]⟩
  | link sc =>
      rw [at_] at writer
      obtain ⟨rfl, closing⟩ := writer
      cases sc with
      | some sc =>
          refine ⟨_, _, _, ?_, link_sound sc sound closing sound.owned ends live
            (fun _ _ => rfl) (Or.inl rfl), by simp, by simp [Writer.isPushing]⟩
          simp only [write, at_, ends, Heap.modify_live live, onHeap, Except.mapError, bind,
            Except.bind]
          rfl
      | none =>
          have outside : ∀ other ∈ chunks, other ≠ address := by
            rintro other member rfl
            obtain ⟨found, alive, -⟩ := sound.inChain member
            rw [free] at alive
            cases alive
          have kept : ∀ other ∈ chunks, s.heap.malloc address chunk other = s.heap other :=
            fun other member => Heap.put_other _ _ (outside other member)
          have owned : Owned N (s.heap.malloc address chunk)
              (chunks ++ ([address] ++ (reading ++ s.spareChunk.toList))) := by
            apply (sound.owned.malloc free size).perm
            exact List.perm_middle.symm
          have stillLive : s.heap.malloc address chunk last = some ending := by
            rw [kept last inChain]
            exact live
          refine ⟨_, _, _, ?_, link_sound address sound closing owned ends stillLive
            kept (Or.inr rfl), by simp, by simp [Writer.isPushing]⟩
          simp only [write, at_, ends, Heap.modify_live stillLive, onHeap, Except.mapError, bind,
            Except.bind]
          rfl
  | linkBack sc =>
      rw [at_] at writer
      obtain ⟨new, rfl, linked, which, closing⟩ := writer
      have held : new ∈ chunks ++ ([new] ++ (reading ++ s.spareChunk.toList)) := by simp
      obtain ⟨fresh, found, -⟩ := sound.owned.found held
      refine ⟨_, _, _, ?_, linkBack_sound sound closing linked found, by simp, by simp [Writer.isPushing]⟩
      rcases which with rfl | rfl
      · simp only [write, at_, Heap.modify_live found, onHeap, Except.mapError, bind, Except.bind]
        rfl
      · have next : ending.next = some new := by
          rw [ends] at linked
          change (s.heap last).bind Chunk.next = some new at linked
          rw [live] at linked
          exact linked
        simp only [write, at_, ends, Heap.load_live live, next, Heap.modify_live found, onHeap,
          Except.mapError, bind, Except.bind]
        rfl
  | advance =>
      rw [at_] at writer
      obtain ⟨new, rfl, linked, back, closing⟩ := writer
      have next : ending.next = some new := by
        rw [ends] at linked
        change (s.heap last).bind Chunk.next = some new at linked
        rw [live] at linked
        exact linked
      refine ⟨_, _, _, ?_, advance_sound sound closing positive linked back, by simp, by simp [Writer.isPushing]⟩
      simp only [write, at_, ends, Heap.load_live live, next, onHeap, Except.mapError, bind,
        Except.bind]
      rfl
  | retreat =>
      obtain ⟨front, doomed, found, loaded, -, after⟩ := retreat_sound positive sound at_
      refine ⟨_, _, _, ?_, after, by simp, by simp [Writer.isPushing]⟩
      simp only [write, at_, loaded, onHeap, Except.mapError, bind, Except.bind]
      rfl
  | free =>
      obtain ⟨found, heap, loaded, freed, after⟩ := release_sound sound at_
      refine ⟨_, _, _, ?_, after, by simp, by simp [Writer.isPushing]⟩
      simp only [write, at_, loaded, freed, onHeap, Except.mapError, bind, Except.bind]
      rfl
  | clear =>
      refine ⟨_, _, _, ?_, clear_sound sound at_ ends live, by simp, by simp [Writer.isPushing]⟩
      simp only [write, at_, ends, Heap.modify_live live, onHeap, Except.mapError, bind,
        Except.bind]
      rfl

end Msmuduo.YQueue
