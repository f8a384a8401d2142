import Msmuduo.Buffer
import Msmuduo.Machine

/-!
# The asynchronous logger

A transcription of `AsyncLogging.cpp` and of `FixedBuffer` in `LogStream.h`.
Front ends call `append`, the backend thread runs `threadFunc`, and the owner
calls `start` and `stop`. A critical section of `mutex_` is one step; `cond_.wait`
gives the mutex up, so it ends one step and its return, at a notification, at the
timeout or for no reason, begins another.

What is passed to `output.append` is recorded in `output`. The records `appended`
and `taken` are not in the source: they keep the lines in the order their calls
took the mutex, and the content of each batch at its swap.
-/

namespace Msmuduo

open Msmuduo.Machine

set_option autoImplicit false

def kLargeBuffer : Nat := 4000 * 1000

/-- `FixedBuffer<SIZE>`. The bytes behind `cur_` are whatever was there before. -/
structure FixedBuffer (size : Nat) where
  data : List Byte
  cur : Nat
  sized : data.length = size
  inside : cur ≤ size
  deriving DecidableEq, Repr

namespace FixedBuffer

variable {size : Nat}

/-- A buffer on memory from `new`. -/
def new (memory : { bytes : List Byte // bytes.length = size }) : FixedBuffer size where
  data := memory.val
  cur := 0
  sized := memory.property
  inside := Nat.zero_le size

def bzeroinit (b : FixedBuffer size) : FixedBuffer size where
  data := List.replicate size 0
  cur := b.cur
  sized := List.length_replicate
  inside := b.inside

def reset (b : FixedBuffer size) : FixedBuffer size where
  data := b.data
  cur := 0
  sized := b.sized
  inside := Nat.zero_le size

def avail (b : FixedBuffer size) : Nat := size - b.cur

/-- The bytes from `data()` on, `length()` of them. -/
def content (b : FixedBuffer size) : List Byte := b.data.take b.cur

/-- `memcpy` to `cur_`, if the bytes fit and one is left. -/
def append (b : FixedBuffer size) (bytes : List Byte) : FixedBuffer size :=
  if fits : b.avail > bytes.length then
    { data := b.data.take b.cur ++ bytes ++ b.data.drop (b.cur + bytes.length)
      cur := b.cur + bytes.length
      sized := by
        have sized := b.sized
        unfold avail at fits
        simp only [List.length_append, List.length_take, List.length_drop]
        omega
      inside := by
        unfold avail at fits
        omega }
  else b

theorem append_fits {b : FixedBuffer size} {bytes : List Byte} (fits : b.avail > bytes.length) :
    (b.append bytes).content = b.content ++ bytes := by
  have inside := b.inside
  have sized := b.sized
  have length : (b.data.take b.cur).length = b.cur := by
    rw [List.length_take]
    omega
  unfold append content
  rw [dif_pos fits]
  dsimp only
  rw [List.take_append_of_le_length (by simp [length]), List.take_of_length_le (by simp [length])]

theorem append_overflows {b : FixedBuffer size} {bytes : List Byte}
    (full : ¬b.avail > bytes.length) : b.append bytes = b := by
  unfold append
  rw [dif_neg full]

theorem avail_of_empty {b : FixedBuffer size} (empty : b.content = []) : b.avail = size := by
  have inside := b.inside
  have sized := b.sized
  have none : b.cur = 0 := by
    have length := congrArg List.length empty
    rw [content, List.length_take, List.length_nil] at length
    omega
  rw [avail, none, Nat.sub_zero]

end FixedBuffer

namespace AsyncLogging

/-- Where the thread that runs `threadFunc` is. -/
inductive Stage where
  /-- The thread has not begun. -/
  | created
  /-- Before the test of `running_`. -/
  | test
  /-- The test has passed and `mutex_` is not yet taken. -/
  | lock
  /-- In `cond_.wait`. -/
  | wait
  /-- Behind the critical section, with the batch in `buffersToWrite`. -/
  | swapped
  /-- In the loop over `buffersToWrite`, at index `i`. -/
  | write (i : Nat)
  /-- The batch is written. -/
  | recycle
  | exited
  deriving DecidableEq, Repr

/-- Where the owner is in its calls of `start` and `stop`. -/
inductive Owner where
  | before
  /-- In `latch_.wait()`. -/
  | starting
  | started
  /-- In `thread_.join()`. -/
  | stopping
  | stopped
  deriving DecidableEq, Repr

inductive Output where
  /-- The line about `larger` dropped buffers. -/
  | notice (larger : Nat)
  | data (bytes : List Byte)
  deriving DecidableEq, Repr

inductive Fault where
  /-- `assert(running_ == true)` -/
  | running
  /-- `assert(!buffersToWrite.empty())` -/
  | batch
  | newBuffer1
  | newBuffer2
  /-- `currentBuffer_` would be null. -/
  | currentBuffer
  deriving DecidableEq, Repr

inductive Event (size : Nat) where
  | start
  | startReturns
  | stop
  | stopReturns
  /-- A call of `append`; `memory` is what `new` returns if it is called. -/
  | append (logline : List Byte) (memory : { bytes : List Byte // bytes.length = size })
  /-- The next step of `threadFunc`. -/
  | backend

end AsyncLogging

open AsyncLogging

structure AsyncLogging (size : Nat) where
  running : Bool
  latch : Nat
  currentBuffer : FixedBuffer size
  nextBuffer : Option (FixedBuffer size)
  buffers : List (FixedBuffer size)
  owner : Owner
  stage : Stage
  newBuffer1 : Option (FixedBuffer size)
  newBuffer2 : Option (FixedBuffer size)
  buffersToWrite : List (FixedBuffer size)
  output : List Output
  appended : List (List Byte)
  taken : List (List (List Byte))
  deriving DecidableEq, Repr

namespace AsyncLogging

variable {size : Nat}

/-- `new Buffer` and `bzeroinit`. -/
def zeroed (size : Nat) : FixedBuffer size :=
  (FixedBuffer.new ⟨List.replicate size 0, List.length_replicate⟩).bzeroinit

def new (size : Nat) : AsyncLogging size where
  running := false
  latch := 1
  currentBuffer := zeroed size
  nextBuffer := some (zeroed size)
  buffers := []
  owner := .before
  stage := .created
  newBuffer1 := none
  newBuffer2 := none
  buffersToWrite := []
  output := []
  appended := []
  taken := []

/-! ## The front end -/

def append (l : AsyncLogging size) (logline : List Byte)
    (memory : { bytes : List Byte // bytes.length = size }) : AsyncLogging size :=
  let l := { l with appended := l.appended ++ [logline] }
  if l.currentBuffer.avail > logline.length then
    { l with currentBuffer := l.currentBuffer.append logline }
  else
    let l := { l with buffers := l.buffers ++ [l.currentBuffer] }
    match l.nextBuffer with
    | some next => { l with currentBuffer := next.append logline, nextBuffer := none }
    | none => { l with currentBuffer := (FixedBuffer.new memory).append logline }

/-! ## The backend -/

/-- The content of a batch. -/
def contents (buffers : List (FixedBuffer size)) : List (List Byte) :=
  buffers.map FixedBuffer.content

/-- The end of the critical section: the batch is everything appended so far. -/
def swap (l : AsyncLogging size) : Except Fault (AsyncLogging size) :=
  match l.newBuffer1 with
  | none => .error .currentBuffer
  | some spare =>
      let batch := l.buffers ++ [l.currentBuffer]
      let l := { l with
        currentBuffer := spare
        newBuffer1 := none
        buffers := l.buffersToWrite
        buffersToWrite := batch
        taken := l.taken ++ [contents batch]
        stage := .swapped }
      match l.nextBuffer with
      | some _ => .ok l
      | none => .ok { l with nextBuffer := l.newBuffer2, newBuffer2 := none }

/-- `buffersToWrite.pop_back()` and `reset()`, if the buffer is missing. -/
def refill (assertion : Fault) (buffer : Option (FixedBuffer size))
    (buffersToWrite : List (FixedBuffer size)) :
    Except Fault (Option (FixedBuffer size) × List (FixedBuffer size)) :=
  match buffer with
  | some kept => .ok (some kept, buffersToWrite)
  | none =>
      match buffersToWrite.getLast? with
      | none => .error assertion
      | some last => .ok (some last.reset, buffersToWrite.dropLast)

/-- The end of an iteration, behind the writes. -/
def recycle (l : AsyncLogging size) : Except Fault (AsyncLogging size) := do
  let buffersToWrite := if l.buffersToWrite.length > 2 then l.buffersToWrite.take 2
    else l.buffersToWrite
  let (newBuffer1, buffersToWrite) ← refill .newBuffer1 l.newBuffer1 buffersToWrite
  let (newBuffer2, _) ← refill .newBuffer2 l.newBuffer2 buffersToWrite
  return { l with
    newBuffer1 := newBuffer1
    newBuffer2 := newBuffer2
    buffersToWrite := []
    stage := .test }

def threadFunc (l : AsyncLogging size) : Except Fault (AsyncLogging size) :=
  match l.stage with
  | .created =>
      if l.owner = .before then .ok l
      else do
        require (l.running = true) .running
        return { l with
          latch := l.latch - 1
          newBuffer1 := some (zeroed size)
          newBuffer2 := some (zeroed size)
          stage := .test }
  | .test => .ok { l with stage := if l.running then .lock else .exited }
  | .lock => if l.buffers = [] then .ok { l with stage := .wait } else l.swap
  | .wait => l.swap
  | .swapped => do
      require (l.buffersToWrite ≠ []) .batch
      if l.buffersToWrite.length > 25 then
        return { l with
          output := l.output ++ [.notice (l.buffersToWrite.length - 2)]
          buffersToWrite := l.buffersToWrite.take 2
          stage := .write 0 }
      else return { l with stage := .write 0 }
  | .write i =>
      match l.buffersToWrite[i]? with
      | some buffer =>
          .ok { l with output := l.output ++ [.data buffer.content], stage := .write (i + 1) }
      | none => .ok { l with stage := .recycle }
  | .recycle => l.recycle
  | .exited => .ok l

/-- A step that its thread cannot take leaves everything as it is. -/
def step (l : AsyncLogging size) : Event size → Except Fault (AsyncLogging size)
  | .start =>
      if l.owner = .before then .ok { l with running := true, owner := .starting } else .ok l
  | .startReturns =>
      if l.owner = .starting ∧ l.latch = 0 then .ok { l with owner := .started } else .ok l
  | .stop =>
      if l.owner = .started then .ok { l with running := false, owner := .stopping } else .ok l
  | .stopReturns =>
      if l.owner = .stopping ∧ l.stage = .exited then .ok { l with owner := .stopped } else .ok l
  | .append logline memory => .ok (l.append logline memory)
  | .backend => l.threadFunc

end AsyncLogging

end Msmuduo
