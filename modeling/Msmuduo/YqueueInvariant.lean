import Msmuduo.Segments
import Msmuduo.Yqueue

/-!
# What the two threads keep

The chunks form a chain from the begin to the end chunk. Every live chunk is in the
chain, spare, or in the hands of one of the threads, and in one of these places only.
The elements lie in the chain one after another from the begin position on; where
the last of them ends is said by the end position, or by how far the writer has got
with its call.
-/

namespace Msmuduo.YQueue

open Msmuduo.Machine Msmuduo.Segments

set_option autoImplicit false

variable {Value : Type} {N : Nat}

def valuesOf (heap : Heap (Chunk Value)) (address : Nat) : List Value :=
  match heap address with
  | some chunk => chunk.values
  | none => []

def nextOf (heap : Heap (Chunk Value)) (address : Nat) : Option Nat :=
  (heap address).bind Chunk.next

def prevOf (heap : Heap (Chunk Value)) (address : Nat) : Option Nat :=
  (heap address).bind Chunk.prev

abbrev Chained (heap : Heap (Chunk Value)) (chunks : List Nat) : Prop :=
  chunks.IsChain (Heap.Joined Chunk.next Chunk.prev heap)

/-- Where the first element is, counted from the start of the chain. While `pop` has
moved `begin_chunk` on but not yet set `begin_pos` back, it is the first place. -/
def start (s : YQueue Value) : Nat :=
  match s.reader with
  | .unlink _ => 0
  | _ => s.beginPos

/-- The values of the chain, those of the elements among them. -/
def slots (s : YQueue Value) (chunks : List Nat) : List Value :=
  chunks.flatMap (valuesOf s.heap)

/-- `push` has taken the last place of the chain. -/
structure Closing (N : Nat) (s : YQueue Value) (chunks : List Nat) : Prop where
  filled : s.start + s.elements.length + 1 = chunks.length * N
  backChunk : s.backChunk = s.endChunk
  backPos : s.backPos + 1 = N

/-- How far the writer has got, and the chunks it holds. -/
def WriterAt (N : Nat) (s : YQueue Value) (chunks held : List Nat) : Writer → Prop
  | .idle => held = [] ∧ s.endPos < N ∧
      s.start + s.elements.length + N = chunks.length * N + s.endPos
  | .exchange => held = [] ∧ Closing N s chunks
  | .link sc => held = sc.toList ∧ Closing N s chunks
  | .linkBack sc => ∃ address, held = [address] ∧ s.endChunk.bind (nextOf s.heap) = some address ∧
      (sc = some address ∨ sc = none) ∧ Closing N s chunks
  | .advance => ∃ address, held = [address] ∧ s.endChunk.bind (nextOf s.heap) = some address ∧
      prevOf s.heap address = s.endChunk ∧ Closing N s chunks
  | .retreat => held = [] ∧ s.endPos = 0 ∧
      s.start + s.elements.length + 1 + N = chunks.length * N
  | .free => ∃ address, held = [address] ∧ s.endChunk.bind (nextOf s.heap) = some address ∧
      s.endPos + 1 = N ∧ s.start + s.elements.length + 1 = chunks.length * N
  | .clear => held = [] ∧ s.endPos + 1 = N ∧
      s.start + s.elements.length + 1 = chunks.length * N

/-- How far the reader has got, and the chunk it holds. -/
def ReaderAt (N : Nat) (s : YQueue Value) (held : List Nat) : Reader → Prop
  | .idle => held = [] ∧ s.beginPos < N
  | .advance => held = [] ∧ s.beginPos = N
  | .unlink o => held = o.toList ∧ o ≠ none
  | .exchange o => held = o.toList ∧ o ≠ none ∧ s.beginPos = 0
  | .free cs => held = cs.toList ∧ s.beginPos = 0

def Writer.isPushing : Writer → Bool
  | .exchange => true
  | .link _ => true
  | .linkBack _ => true
  | .advance => true
  | _ => false

/-- The back position is that of the last element. -/
def BackAt (N : Nat) (s : YQueue Value) (chunks : List Nat) : Prop :=
  ∃ segment address, chunks[segment]? = some address ∧ s.backChunk = some address ∧
    s.backPos < N ∧ segment * N + s.backPos + 1 = s.start + s.elements.length

/-- The chunks that are alive are those at the addresses, each once. -/
structure Owned (N : Nat) (heap : Heap (Chunk Value)) (addresses : List Nat) : Prop where
  distinct : addresses.Nodup
  live : ∀ address, (heap address).isSome ↔ address ∈ addresses
  sized : ∀ address chunk, heap address = some chunk → chunk.values.length = N

structure Sound (N : Nat) (s : YQueue Value) (chunks writing reading : List Nat) : Prop where
  owned : Owned N s.heap (chunks ++ (writing ++ (reading ++ s.spareChunk.toList)))
  chained : Chained s.heap chunks
  first : chunks.head? = s.beginChunk
  last : chunks.getLast? = s.endChunk
  nonempty : chunks ≠ []
  writer : WriterAt N s chunks writing s.writer
  reader : ReaderAt N s reading s.reader
  back : s.writer.isPushing = false → s.elements ≠ [] → BackAt N s chunks
  agrees : ∀ index value, s.elements[index]? = some (some value) →
    (s.slots chunks)[s.start + index]? = some value

variable {s : YQueue Value} {chunks writing reading : List Nat}

/-! ## Changing one chunk -/

section

variable {heap : Heap (Chunk Value)} {address other : Nat} {chunk changed : Chunk Value}

theorem valuesOf_put (live : heap address = some chunk) (same : changed.values = chunk.values) :
    valuesOf (heap.put address (some changed)) = valuesOf heap := by
  funext other
  unfold valuesOf
  by_cases here : other = address
  · rw [here, Heap.put_self, live]
    exact same
  · rw [Heap.put_other heap _ here]

theorem valuesOf_put_other (cell : Option (Chunk Value)) (apart : other ≠ address) :
    valuesOf (heap.put address cell) other = valuesOf heap other := by
  rw [valuesOf, Heap.put_other heap _ apart, valuesOf]

theorem nextOf_put (live : heap address = some chunk) (same : changed.next = chunk.next)
    (other : Nat) : nextOf (heap.put address (some changed)) other = nextOf heap other :=
  Heap.bind_put live Chunk.next same other

theorem prevOf_put (live : heap address = some chunk) (same : changed.prev = chunk.prev)
    (other : Nat) : prevOf (heap.put address (some changed)) other = prevOf heap other :=
  Heap.bind_put live Chunk.prev same other

theorem nextOf_put_other (cell : Option (Chunk Value)) (apart : other ≠ address) :
    nextOf (heap.put address cell) other = nextOf heap other := by
  rw [nextOf, Heap.put_other heap _ apart, nextOf]

theorem prevOf_put_other (cell : Option (Chunk Value)) (apart : other ≠ address) :
    prevOf (heap.put address cell) other = prevOf heap other := by
  rw [prevOf, Heap.put_other heap _ apart, prevOf]

theorem nextOf_put_self (heap : Heap (Chunk Value)) (address : Nat) (changed : Chunk Value) :
    nextOf (heap.put address (some changed)) address = changed.next := by
  rw [nextOf, Heap.put_self]
  rfl

theorem prevOf_put_self (heap : Heap (Chunk Value)) (address : Nat) (changed : Chunk Value) :
    prevOf (heap.put address (some changed)) address = changed.prev := by
  rw [prevOf, Heap.put_self]
  rfl

theorem valuesOf_put_next (live : heap address = some chunk) (next : Option Nat) :
    valuesOf (heap.put address (some { chunk with next := next })) = valuesOf heap :=
  valuesOf_put live rfl

theorem valuesOf_put_prev (live : heap address = some chunk) (prev : Option Nat) :
    valuesOf (heap.put address (some { chunk with prev := prev })) = valuesOf heap :=
  valuesOf_put live rfl

theorem nextOf_put_prev (live : heap address = some chunk) (prev : Option Nat) (other : Nat) :
    nextOf (heap.put address (some { chunk with prev := prev })) other = nextOf heap other := by
  apply nextOf_put live
  rfl

theorem prevOf_put_next (live : heap address = some chunk) (next : Option Nat) (other : Nat) :
    prevOf (heap.put address (some { chunk with next := next })) other = prevOf heap other := by
  apply prevOf_put live
  rfl

theorem nextOf_put_values (live : heap address = some chunk) (values : List Value) (other : Nat) :
    nextOf (heap.put address (some { chunk with values := values })) other = nextOf heap other := by
  apply nextOf_put live
  rfl

theorem prevOf_put_values (live : heap address = some chunk) (values : List Value) (other : Nat) :
    prevOf (heap.put address (some { chunk with values := values })) other = prevOf heap other := by
  apply prevOf_put live
  rfl

/-- A chain whose links are as before. -/
theorem chained_frame {chunks : List Nat} {later : Heap (Chunk Value)}
    (chained : Chained heap chunks)
    (forward : ∀ address ∈ chunks.dropLast, nextOf later address = nextOf heap address)
    (backward : ∀ address ∈ chunks.tail, prevOf later address = prevOf heap address) :
    Chained later chunks :=
  Heap.chain_frame chained forward backward

end

/-! ## Reading the invariant -/

section

variable {heap : Heap (Chunk Value)} {addresses : List Nat} {address : Nat} {chunk : Chunk Value}

theorem Owned.found (owned : Owned N heap addresses) (member : address ∈ addresses) :
    ∃ chunk, heap address = some chunk ∧ chunk.values.length = N := by
  obtain ⟨chunk, found⟩ := Option.isSome_iff_exists.mp ((owned.live address).mpr member)
  exact ⟨chunk, found, owned.sized address chunk found⟩

theorem Owned.perm (owned : Owned N heap addresses) {others : List Nat}
    (same : addresses.Perm others) : Owned N heap others where
  distinct := same.nodup_iff.mp owned.distinct
  live := by
    intro address
    rw [owned.live, same.mem_iff]
  sized := owned.sized

/-- A chunk that is changed stays where it is. -/
theorem Owned.put (owned : Owned N heap addresses) (live : heap address = some chunk)
    {changed : Chunk Value} (size : changed.values.length = chunk.values.length) :
    Owned N (heap.put address (some changed)) addresses where
  distinct := owned.distinct
  live := by
    intro other
    rw [Heap.put_isSome live]
    exact owned.live other
  sized := by
    intro other found holds
    rcases Heap.put_some holds with ⟨-, rfl⟩ | ⟨-, before⟩
    · rw [size]
      exact owned.sized address chunk live
    · exact owned.sized other found before

theorem Owned.malloc (owned : Owned N heap addresses) (free : heap address = none)
    (size : chunk.values.length = N) : Owned N (heap.malloc address chunk) (address :: addresses) where
  distinct := by
    rw [List.nodup_cons]
    constructor
    · intro member
      have live := (owned.live address).mpr member
      rw [free] at live
      cases live
    · exact owned.distinct
  live := by
    intro other
    rw [List.mem_cons, Heap.malloc]
    by_cases here : other = address
    · simp [here]
    · rw [Heap.put_other heap _ here, owned.live]
      simp [here]
  sized := by
    intro other found holds
    rcases Heap.put_some holds with ⟨-, rfl⟩ | ⟨-, before⟩
    · exact size
    · exact owned.sized other found before

theorem Owned.free (owned : Owned N heap (address :: addresses)) :
    Owned N (heap.put address none) addresses where
  distinct := (List.nodup_cons.mp owned.distinct).2
  live := by
    intro other
    by_cases here : other = address
    · rw [here, Heap.put_self]
      simp [(List.nodup_cons.mp owned.distinct).1]
    · rw [Heap.put_other heap _ here, owned.live]
      simp [here]
  sized := by
    intro other found holds
    by_cases here : other = address
    · rw [here, Heap.put_self] at holds
      cases holds
    · rw [Heap.put_other heap _ here] at holds
      exact owned.sized other found holds

theorem Owned.valuesSized (owned : Owned N heap addresses) {chunks : List Nat}
    (among : ∀ address ∈ chunks, address ∈ addresses) :
    ∀ address ∈ chunks, (valuesOf heap address).length = N := by
  intro address member
  obtain ⟨chunk, found, size⟩ := owned.found (among address member)
  rw [valuesOf, found]
  exact size

end

theorem Sound.valuesSized (sound : Sound N s chunks writing reading) :
    ∀ address ∈ chunks, (valuesOf s.heap address).length = N :=
  sound.owned.valuesSized fun _ member => List.mem_append_left _ member

theorem Sound.inChain (sound : Sound N s chunks writing reading) {address : Nat}
    (member : address ∈ chunks) :
    ∃ chunk, s.heap address = some chunk ∧ chunk.values.length = N :=
  sound.owned.found (List.mem_append_left _ member)

theorem Sound.length_slots (sound : Sound N s chunks writing reading) :
    (s.slots chunks).length = chunks.length * N :=
  length_flatMap sound.valuesSized

theorem Sound.distinct (sound : Sound N s chunks writing reading) : chunks.Nodup :=
  (List.nodup_append.mp sound.owned.distinct).1

/-- What a thread holds, and the spare chunk, is not in the chain. -/
theorem Sound.apart (sound : Sound N s chunks writing reading) {address : Nat}
    (member : address ∈ writing ++ (reading ++ s.spareChunk.toList)) : address ∉ chunks := by
  intro inChain
  exact (List.nodup_append.mp sound.owned.distinct).2.2 address inChain address member rfl

/-- The chain reaches beyond the chunk the reader has emptied. -/
theorem Sound.filled (sound : Sound N s chunks writing reading) (positive : 0 < N) :
    s.start + s.elements.length < chunks.length * N ∧
      chunks.length * N ≤ s.start + s.elements.length + 1 + N := by
  have writer := sound.writer
  have some_ : 0 < chunks.length := List.length_pos_iff.mpr sound.nonempty
  cases at_ : s.writer with
  | idle =>
      rw [at_] at writer
      obtain ⟨-, bound, total⟩ := writer
      omega
  | exchange =>
      rw [at_] at writer
      have total := writer.2.filled
      omega
  | link sc =>
      rw [at_] at writer
      have total := writer.2.filled
      omega
  | linkBack sc =>
      rw [at_] at writer
      obtain ⟨address, -, -, -, closing⟩ := writer
      have total := closing.filled
      omega
  | advance =>
      rw [at_] at writer
      obtain ⟨address, -, -, -, closing⟩ := writer
      have total := closing.filled
      omega
  | retreat =>
      rw [at_] at writer
      obtain ⟨-, -, total⟩ := writer
      omega
  | free =>
      rw [at_] at writer
      obtain ⟨address, -, -, -, total⟩ := writer
      omega
  | clear =>
      rw [at_] at writer
      obtain ⟨-, -, total⟩ := writer
      omega

/-- The end chunk is alive and the last of the chain. -/
theorem Sound.endChunk (sound : Sound N s chunks writing reading) :
    ∃ before last chunk, chunks = before ++ [last] ∧ s.endChunk = some last ∧
      s.heap last = some chunk := by
  obtain ⟨before, last, split⟩ := (List.eq_nil_or_concat' chunks).resolve_left sound.nonempty
  have member : last ∈ chunks := by
    rw [split]
    simp
  obtain ⟨chunk, found, -⟩ := sound.inChain member
  refine ⟨before, last, chunk, split, ?_, found⟩
  rw [← sound.last, split, List.getLast?_append]
  rfl

theorem Sound.beginChunk (sound : Sound N s chunks writing reading) :
    ∃ first behind chunk, chunks = first :: behind ∧ s.beginChunk = some first ∧
      s.heap first = some chunk := by
  obtain ⟨first, behind, split⟩ := List.exists_cons_of_ne_nil sound.nonempty
  have member : first ∈ chunks := by
    rw [split]
    simp
  obtain ⟨chunk, found, -⟩ := sound.inChain member
  refine ⟨first, behind, chunk, split, ?_, found⟩
  rw [← sound.first, split]
  rfl

/-- The end chunk is no other place of the chain. -/
theorem Sound.inFront (sound : Sound N s chunks writing reading) {address last : Nat}
    (ends : s.endChunk = some last) (member : address ∈ chunks.dropLast) :
    address ∈ chunks ∧ address ≠ last := by
  obtain ⟨before, other, chunk, split, same, -⟩ := sound.endChunk
  cases ends.symm.trans same
  have distinct := sound.distinct
  rw [split, List.dropLast_concat] at member
  rw [split] at distinct ⊢
  constructor
  · exact List.mem_append_left _ member
  · rintro rfl
    exact (List.nodup_append.mp distinct).2.2 address member address (by simp) rfl

theorem Sound.behind (sound : Sound N s chunks writing reading) {address first : Nat}
    (begins : s.beginChunk = some first) (member : address ∈ chunks.tail) :
    address ∈ chunks ∧ address ≠ first := by
  obtain ⟨other, later, chunk, split, same, -⟩ := sound.beginChunk
  cases begins.symm.trans same
  have distinct := sound.distinct
  rw [split, List.tail_cons] at member
  rw [split] at distinct ⊢
  constructor
  · exact List.mem_cons_of_mem _ member
  · rintro rfl
    exact (List.nodup_cons.mp distinct).1 member

end Msmuduo.YQueue
