import Msmuduo.Heap
import Msmuduo.Machine

/-!
# The chunked queue

A transcription of `yqueue.hpp`. One thread calls `push`, `unpush` and `back`,
another one `pop` and `front`; they share the chunks on the heap and the pointer
`spare_chunk`, which is exchanged under its lock. A step is a piece of one thread
with at most one access to what they share. The chunk `malloc` returns is any free
one with anything in it, and memory never runs out.

The callers promise that the queue is not empty when an element is taken off or
looked at. `elements` is not in the source: it counts an element from the return of
its `push` to the call of its `pop` or `unpush`, and says what has been assigned to
it through `back()`, if anything has.
-/

namespace Msmuduo

open Msmuduo.Machine

set_option autoImplicit false

/-- `chunk_t` -/
structure Chunk (Value : Type) where
  values : List Value
  prev : Option Nat
  next : Option Nat
  deriving DecidableEq, Repr

namespace YQueue

/-- What is left to do of the writer's call. -/
inductive Writer where
  | idle
  /-- `push` has filled a chunk and asks for the spare one. -/
  | exchange
  | link (sc : Option Nat)
  | linkBack (sc : Option Nat)
  | advance
  /-- `unpush` gives the last chunk up. -/
  | retreat
  | free
  | clear
  deriving DecidableEq, Repr

/-- What is left to do of the reader's call. -/
inductive Reader where
  | idle
  /-- `pop` has emptied a chunk. -/
  | advance
  | unlink (o : Option Nat)
  | exchange (o : Option Nat)
  | free (cs : Option Nat)
  deriving DecidableEq, Repr

inductive Fault where
  | memory (fault : Heap.Fault)
  | outside
  | neverReturns
  deriving DecidableEq, Repr

def onHeap {Value : Type} (result : Except Heap.Fault Value) : Except Fault Value :=
  result.mapError .memory

end YQueue

structure YQueue (Value : Type) where
  heap : Heap (Chunk Value)
  beginChunk : Option Nat
  beginPos : Nat
  backChunk : Option Nat
  backPos : Nat
  endChunk : Option Nat
  endPos : Nat
  spareChunk : Option Nat
  writer : YQueue.Writer
  reader : YQueue.Reader
  elements : List (Option Value)

namespace YQueue

variable {Value : Type}

/-- The constructor. -/
def new (address : Nat) (chunk : Chunk Value) : YQueue Value where
  heap := Heap.empty.malloc address chunk
  beginChunk := some address
  beginPos := 0
  backChunk := none
  backPos := 0
  endChunk := some address
  endPos := 0
  spareChunk := none
  writer := .idle
  reader := .idle
  elements := []

variable (N : Nat)

/-- The value at a position of a chunk. -/
def valueAt (s : YQueue Value) (chunk : Option Nat) (pos : Nat) : Except Fault Value := do
  let cell ← onHeap (s.heap.load chunk)
  match cell.values[pos]? with
  | some value => return value
  | none => .error .outside

def front (s : YQueue Value) : Except Fault Value := s.valueAt s.beginChunk s.beginPos

def back (s : YQueue Value) : Except Fault Value := s.valueAt s.backChunk s.backPos

/-- `back() = value` -/
def assign (s : YQueue Value) (value : Value) : Except Fault (YQueue Value) := do
  let cell ← onHeap (s.heap.load s.backChunk)
  require (s.backPos < cell.values.length) Fault.outside
  let heap ← onHeap (s.heap.modify s.backChunk fun cell =>
    { cell with values := cell.values.set s.backPos value })
  return { s with heap := heap, elements := s.elements.dropLast ++ [some value] }

def push (s : YQueue Value) : YQueue Value :=
  let pushed := { s with
    backChunk := s.endChunk
    backPos := s.endPos
    endPos := s.endPos + 1 }
  if s.endPos + 1 ≠ N then { pushed with elements := s.elements ++ [none] }
  else { pushed with writer := .exchange }

/-- The part of `unpush` that moves the back position. -/
def unpushBack (s : YQueue Value) : Except Fault (YQueue Value) :=
  if s.backPos ≠ 0 then .ok { s with backPos := s.backPos - 1 }
  else do
    let cell ← onHeap (s.heap.load s.backChunk)
    return { s with backPos := N - 1, backChunk := cell.prev }

def unpush (s : YQueue Value) : Except Fault (YQueue Value) := do
  let stepped ← s.unpushBack N
  let shorter := { stepped with elements := s.elements.dropLast }
  if s.endPos ≠ 0 then return { shorter with endPos := s.endPos - 1 }
  else return { shorter with writer := .retreat }

/-- The next piece of the writer's call; `address` and `chunk` are what `malloc`
answers if it is asked. -/
def write (s : YQueue Value) (address : Nat) (chunk : Chunk Value) :
    Except Fault (YQueue Value) := do
  match s.writer with
  | .idle => return s
  | .exchange => return { s with spareChunk := none, writer := .link s.spareChunk }
  | .link (some sc) =>
      let heap ← onHeap (s.heap.modify s.endChunk fun cell => { cell with next := some sc })
      return { s with heap := heap, writer := .linkBack (some sc) }
  | .link none =>
      let heap ← onHeap ((s.heap.malloc address chunk).modify s.endChunk fun cell =>
        { cell with next := some address })
      return { s with heap := heap, writer := .linkBack none }
  | .linkBack (some sc) =>
      let heap ← onHeap (s.heap.modify (some sc) fun cell => { cell with prev := s.endChunk })
      return { s with heap := heap, writer := .advance }
  | .linkBack none =>
      let last ← onHeap (s.heap.load s.endChunk)
      let heap ← onHeap (s.heap.modify last.next fun cell => { cell with prev := s.endChunk })
      return { s with heap := heap, writer := .advance }
  | .advance =>
      let last ← onHeap (s.heap.load s.endChunk)
      return { s with
        endChunk := last.next
        endPos := 0
        writer := .idle
        elements := s.elements ++ [none] }
  | .retreat =>
      let last ← onHeap (s.heap.load s.endChunk)
      return { s with endPos := N - 1, endChunk := last.prev, writer := .free }
  | .free =>
      let last ← onHeap (s.heap.load s.endChunk)
      let heap ← onHeap (s.heap.free last.next)
      return { s with heap := heap, writer := .clear }
  | .clear =>
      let heap ← onHeap (s.heap.modify s.endChunk fun cell => { cell with next := none })
      return { s with heap := heap, writer := .idle }

def pop (s : YQueue Value) : YQueue Value :=
  let popped := { s with beginPos := s.beginPos + 1, elements := s.elements.tail }
  if s.beginPos + 1 = N then { popped with reader := .advance } else popped

/-- The next piece of the reader's call. -/
def read (s : YQueue Value) : Except Fault (YQueue Value) := do
  match s.reader with
  | .idle => return s
  | .advance =>
      let first ← onHeap (s.heap.load s.beginChunk)
      return { s with beginChunk := first.next, reader := .unlink s.beginChunk }
  | .unlink o =>
      let heap ← onHeap (s.heap.modify s.beginChunk fun cell => { cell with prev := none })
      return { s with heap := heap, beginPos := 0, reader := .exchange o }
  | .exchange o => return { s with spareChunk := o, reader := .free s.spareChunk }
  | .free none => return { s with reader := .idle }
  | .free (some cs) =>
      let heap ← onHeap (s.heap.free (some cs))
      return { s with heap := heap, reader := .idle }

/-- The loop of the destructor. -/
def freeChunks : Nat → YQueue Value → Except Fault (YQueue Value)
  | 0, _ => .error .neverReturns
  | turns + 1, s => do
      if s.beginChunk = s.endChunk then
        let heap ← onHeap (s.heap.free s.beginChunk)
        return { s with heap := heap }
      else
        let first ← onHeap (s.heap.load s.beginChunk)
        let heap ← onHeap (s.heap.free s.beginChunk)
        freeChunks turns { s with heap := heap, beginChunk := first.next }

/-- The destructor. A chunk holds one element at least, so the turns are enough. -/
def destroy (s : YQueue Value) : Except Fault (YQueue Value) := do
  let freed ← freeChunks (s.elements.length + 3) s
  let heap ← onHeap (freed.heap.free freed.spareChunk)
  return { freed with heap := heap, spareChunk := none }

inductive Event (Value : Type) where
  | push
  | assign (value : Value)
  | unpush
  | write (address : Nat) (chunk : Chunk Value)
  | pop
  | read
  deriving DecidableEq, Repr

def step (s : YQueue Value) : Event Value → Except Fault (YQueue Value)
  | .push => .ok (s.push N)
  | .assign value => s.assign value
  | .unpush => s.unpush N
  | .write address chunk => s.write N address chunk
  | .pop => .ok (s.pop N)
  | .read => s.read

/-- A thread calls a function when it has returned from the last one, takes off or
looks at an element only when there is one, and `malloc` answers with a free chunk. -/
def Admitted (s : YQueue Value) : Event Value → Prop
  | .push => s.writer = .idle
  | .assign _ => s.writer = .idle ∧ s.elements ≠ []
  | .unpush => s.writer = .idle ∧ s.elements ≠ []
  | .write address chunk => s.heap address = none ∧ chunk.values.length = N
  | .pop => s.reader = .idle ∧ s.elements ≠ []
  | .read => True

instance [DecidableEq Value] (s : YQueue Value) :
    (event : Event Value) → Decidable (Admitted N s event)
  | .push => inferInstanceAs (Decidable (s.writer = .idle))
  | .assign _ => inferInstanceAs (Decidable (_ ∧ _))
  | .unpush => inferInstanceAs (Decidable (_ ∧ _))
  | .write _ _ => inferInstanceAs (Decidable (_ ∧ _))
  | .pop => inferInstanceAs (Decidable (_ ∧ _))
  | .read => inferInstanceAs (Decidable True)

end YQueue

end Msmuduo
