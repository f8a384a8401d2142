import Msmuduo.AsyncLoggingOrder

/-!
# The supply of buffers

The four single buffers of the logger are pointers, and the steps between the
front ends and the backend are moves from one to another that leave a null
pointer behind. Here they may be null, and the use of a null pointer is a fault.

Two buffers are lent to each iteration and two come back. The first always
replaces the current buffer. The second is given away only for a next buffer
that a front end took, and that front end has pushed a full buffer of its own,
so that the batch has the two buffers `pop_back` asks for.
-/

namespace Msmuduo.AsyncLogging

open Msmuduo.Machine

set_option autoImplicit false

variable {size : Nat}

structure Pointers (size : Nat) where
  currentBuffer : Option (FixedBuffer size)
  nextBuffer : Option (FixedBuffer size)
  buffers : List (FixedBuffer size)
  newBuffer1 : Option (FixedBuffer size)
  newBuffer2 : Option (FixedBuffer size)
  buffersToWrite : List (FixedBuffer size)
  stage : Stage
  deriving DecidableEq, Repr

namespace Pointers

/-- `backend` comes with the value of `running_` that the loop reads. -/
inductive Event (size : Nat) where
  | append (logline : List Byte) (memory : { bytes : List Byte // bytes.length = size })
  | backend (running : Bool)

def new (size : Nat) : Pointers size where
  currentBuffer := some (zeroed size)
  nextBuffer := some (zeroed size)
  buffers := []
  newBuffer1 := none
  newBuffer2 := none
  buffersToWrite := []
  stage := .created

/-- The buffer behind `currentBuffer_`, which is not null wherever it is used. -/
def current (p : Pointers size) : Except Fault (FixedBuffer size) :=
  p.currentBuffer.elim (.error .currentBuffer) .ok

/-- `currentBuffer_->append` -/
def write (p : Pointers size) (logline : List Byte) : Except Fault (Pointers size) := do
  let currentBuffer ← p.current
  return { p with currentBuffer := some (currentBuffer.append logline) }

/-- `buffers_.push_back(currentBuffer_.release())` -/
def push (p : Pointers size) : Except Fault (Pointers size) := do
  let currentBuffer ← p.current
  return { p with currentBuffer := none, buffers := p.buffers ++ [currentBuffer] }

def append (p : Pointers size) (logline : List Byte)
    (memory : { bytes : List Byte // bytes.length = size }) : Except Fault (Pointers size) := do
  let currentBuffer ← p.current
  if currentBuffer.avail > logline.length then p.write logline
  else
    let pushed ← p.push
    let replaced := if pushed.nextBuffer.isSome then
        { pushed with currentBuffer := pushed.nextBuffer, nextBuffer := none }
      else { pushed with currentBuffer := some (FixedBuffer.new memory) }
    replaced.write logline

/-- The end of the critical section of `threadFunc`. -/
def swap (p : Pointers size) : Except Fault (Pointers size) := do
  let pushed ← p.push
  let swapped := { pushed with
    currentBuffer := pushed.newBuffer1
    newBuffer1 := none
    buffersToWrite := pushed.buffers
    buffers := pushed.buffersToWrite
    stage := .swapped }
  return if swapped.nextBuffer.isNone then
      { swapped with nextBuffer := swapped.newBuffer2, newBuffer2 := none }
    else swapped

/-- The refills at the end of an iteration. -/
def recycle (p : Pointers size) : Except Fault (Pointers size) := do
  let buffersToWrite := if p.buffersToWrite.length > 2 then p.buffersToWrite.take 2
    else p.buffersToWrite
  let (newBuffer1, buffersToWrite) ← refill .newBuffer1 p.newBuffer1 buffersToWrite
  let (newBuffer2, _) ← refill .newBuffer2 p.newBuffer2 buffersToWrite
  return { p with
    newBuffer1 := newBuffer1
    newBuffer2 := newBuffer2
    buffersToWrite := []
    stage := .test }

def threadFunc (p : Pointers size) (running : Bool) : Except Fault (Pointers size) :=
  match p.stage with
  | .created =>
      .ok { p with
        newBuffer1 := some (zeroed size), newBuffer2 := some (zeroed size), stage := .test }
  | .test => .ok { p with stage := if running then .lock else .exited }
  | .lock => if p.buffers = [] then .ok { p with stage := .wait } else p.swap
  | .wait => p.swap
  | .swapped => do
      require (p.buffersToWrite ≠ []) .batch
      return { p with
        buffersToWrite := if p.buffersToWrite.length > 25 then p.buffersToWrite.take 2
          else p.buffersToWrite
        stage := .write 0 }
  | .write i =>
      .ok { p with stage := if i < p.buffersToWrite.length then .write (i + 1) else .recycle }
  | .recycle => p.recycle
  | .exited => .ok p

def step (p : Pointers size) : Event size → Except Fault (Pointers size)
  | .append logline memory => p.append logline memory
  | .backend running => p.threadFunc running

/-! ## The invariant -/

/-- What the backend has in hand, as in `AsyncLogging.InHand`. -/
def InHand (p : Pointers size) : Prop :=
  match p.stage with
  | .created => p.newBuffer1 = none ∧ p.newBuffer2 = none ∧ p.buffersToWrite = []
  | .test | .lock | .wait | .exited =>
      Spare p.newBuffer1 ∧ Spare p.newBuffer2 ∧ p.buffersToWrite = []
  | .swapped | .write _ | .recycle =>
      p.newBuffer1 = none ∧ p.buffersToWrite ≠ [] ∧
        (Spare p.newBuffer2 ∨ p.newBuffer2 = none ∧ 2 ≤ p.buffersToWrite.length)

/-- `mutex_` is free between any two steps. -/
structure Supplied (p : Pointers size) : Prop where
  current : ∃ currentBuffer, p.currentBuffer = some currentBuffer
  replaced : p.nextBuffer = none → p.buffers ≠ []
  inHand : p.InHand

theorem new_supplied (size : Nat) : Supplied (new size) where
  current := ⟨zeroed size, rfl⟩
  replaced := by
    intro missing
    cases missing
  inHand := ⟨rfl, rfl, rfl⟩

section

variable {p : Pointers size}

theorem push_ok {currentBuffer : FixedBuffer size} (here : p.currentBuffer = some currentBuffer) :
    p.push = .ok { p with currentBuffer := none, buffers := p.buffers ++ [currentBuffer] } := by
  unfold push current
  rw [here]
  rfl

theorem write_ok {currentBuffer : FixedBuffer size} (here : p.currentBuffer = some currentBuffer)
    (logline : List Byte) :
    p.write logline = .ok { p with currentBuffer := some (currentBuffer.append logline) } := by
  unfold write current
  rw [here]
  rfl

/-- A front end that takes the next buffer has pushed the current one before. -/
theorem append_supplied (supplied : Supplied p) (logline : List Byte)
    (memory : { bytes : List Byte // bytes.length = size }) :
    ∃ next, p.append logline memory = .ok next ∧ Supplied next := by
  rcases supplied.current with ⟨currentBuffer, here⟩
  unfold append
  rw [push_ok here, write_ok here, current, here]
  simp only [Option.elim, bind, Except.bind]
  split
  · exact ⟨_, rfl, ⟨_, rfl⟩, supplied.replaced, supplied.inHand⟩
  · cases next : p.nextBuffer with
    | some spare =>
        refine ⟨_, write_ok rfl _, ⟨_, rfl⟩, ?_, supplied.inHand⟩
        intro _
        exact List.concat_ne_nil _ _
    | none =>
        refine ⟨_, write_ok rfl _, ⟨_, rfl⟩, ?_, supplied.inHand⟩
        intro _
        exact List.concat_ne_nil _ _

/-- The batch has a second buffer whenever the second spare one is given away. -/
theorem swap_supplied (supplied : Supplied p) (stage : p.stage = .lock ∨ p.stage = .wait) :
    ∃ next, p.swap = .ok next ∧ Supplied next := by
  rcases supplied.current with ⟨currentBuffer, here⟩
  have inHand : Spare p.newBuffer1 ∧ Spare p.newBuffer2 ∧ p.buffersToWrite = [] := by
    have inHand := supplied.inHand
    unfold InHand at inHand
    rcases stage with stage | stage <;> rw [stage] at inHand <;> exact inHand
  rcases inHand with ⟨⟨first, newBuffer1, -⟩, second, -⟩
  unfold swap
  rw [push_ok here]
  simp only [bind, Except.bind, pure, Except.pure]
  have current : ∃ currentBuffer, p.newBuffer1 = some currentBuffer := ⟨first, newBuffer1⟩
  cases next : p.nextBuffer with
  | some spare =>
      refine ⟨_, rfl, current, ?_, ?_⟩
      · intro missing
        cases missing
      · exact ⟨rfl, List.concat_ne_nil _ _, Or.inl second⟩
  | none =>
      have pushed := List.length_pos_iff.mpr (supplied.replaced next)
      rcases second with ⟨spare, newBuffer2, -⟩
      refine ⟨_, rfl, current, ?_, ?_⟩
      · intro missing
        cases newBuffer2.symm.trans missing
      · refine ⟨rfl, List.concat_ne_nil _ _, Or.inr ⟨rfl, ?_⟩⟩
        change 2 ≤ (p.buffers ++ [currentBuffer]).length
        rw [List.length_append, List.length_singleton]
        omega

theorem recycle_supplied (supplied : Supplied p) (stage : p.stage = .recycle) :
    ∃ next, p.recycle = .ok next ∧ Supplied next := by
  have inHand := supplied.inHand
  unfold InHand at inHand
  rw [stage] at inHand
  rcases inHand with ⟨newBuffer1, nonempty, second⟩
  rcases refills_spare newBuffer1 nonempty second with
    ⟨first, rest, last, left, firstRefilled, lastRefilled, firstEmpty, lastEmpty⟩
  unfold recycle
  simp only [firstRefilled, lastRefilled, bind, Except.bind, pure, Except.pure]
  exact ⟨_, rfl, supplied.current, supplied.replaced, ⟨first, rfl, firstEmpty⟩,
    ⟨last, rfl, lastEmpty⟩, rfl⟩

theorem threadFunc_supplied (supplied : Supplied p) (running : Bool) :
    ∃ next, p.threadFunc running = .ok next ∧ Supplied next := by
  have inHand := supplied.inHand
  unfold InHand at inHand
  unfold threadFunc
  cases stage : p.stage with
  | created =>
      exact ⟨_, rfl, supplied.current, supplied.replaced, ⟨zeroed size, rfl, rfl⟩,
        ⟨zeroed size, rfl, rfl⟩, (stage ▸ inHand).2.2⟩
  | test =>
      rw [stage] at inHand
      cases running with
      | true => exact ⟨_, rfl, supplied.current, supplied.replaced, inHand⟩
      | false => exact ⟨_, rfl, supplied.current, supplied.replaced, inHand⟩
  | lock =>
      rw [stage] at inHand
      dsimp only
      split
      · exact ⟨_, rfl, supplied.current, supplied.replaced, inHand⟩
      · exact swap_supplied supplied (Or.inl stage)
  | wait => exact swap_supplied supplied (Or.inr stage)
  | swapped =>
      rw [stage] at inHand
      rcases inHand with ⟨newBuffer1, nonempty, second⟩
      simp only [require_ok nonempty, bind, Except.bind, pure, Except.pure]
      refine ⟨_, rfl, supplied.current, supplied.replaced, newBuffer1, ?_⟩
      dsimp only
      split
      · next many =>
        have two : (p.buffersToWrite.take 2).length = 2 := by
          rw [List.length_take]
          omega
        refine ⟨List.ne_nil_of_length_pos (two.symm ▸ Nat.two_pos), ?_⟩
        exact second.imp_right fun missing => ⟨missing.1, two.ge⟩
      · exact ⟨nonempty, second⟩
  | write i =>
      rw [stage] at inHand
      dsimp only
      by_cases more : i < p.buffersToWrite.length
      · rw [if_pos more]
        exact ⟨_, rfl, supplied.current, supplied.replaced, inHand⟩
      · rw [if_neg more]
        exact ⟨_, rfl, supplied.current, supplied.replaced, inHand⟩
  | recycle => exact recycle_supplied supplied stage
  | exited => exact ⟨p, rfl, supplied⟩

theorem step_supplied (supplied : Supplied p) (event : Event size) :
    ∃ next, p.step event = .ok next ∧ Supplied next := by
  cases event with
  | append logline memory => exact append_supplied supplied logline memory
  | backend running => exact threadFunc_supplied supplied running

/-- At the top of an iteration: before the test of `running_`, or behind it with
nothing done yet. -/
def AtTop (p : Pointers size) : Prop := p.stage = .test ∨ p.stage = .lock

theorem Supplied.atTop (supplied : Supplied p) (top : p.AtTop) :
    Spare p.newBuffer1 ∧ Spare p.newBuffer2 := by
  have inHand := supplied.inHand
  unfold InHand at inHand
  rcases top with stage | stage
  · rw [stage] at inHand
    exact ⟨inHand.1, inHand.2.1⟩
  · rw [stage] at inHand
    exact ⟨inHand.1, inHand.2.1⟩

end

/-- For every interleaving of calls of `append` with the iterations of
`threadFunc`: no null pointer is used, no assertion fails, and the buffers are
there when the mutex is free and at the top of each iteration. -/
theorem buffers_never_run_out (events : List (Event size)) :
    ∃ p, run step (new size) events = .ok p ∧ p.currentBuffer ≠ none ∧
      (p.nextBuffer = none → p.buffers ≠ []) ∧
      (p.AtTop → Spare p.newBuffer1 ∧ Spare p.newBuffer2) := by
  rcases run_succeeds Supplied (fun _ event before (_ : True) => step_supplied before event)
    (new_supplied size) (all_steps_of_forall _ (fun _ _ _ => trivial) _ : AllSteps step _ _ events)
    with ⟨p, ran, supplied⟩
  refine ⟨p, ran, ?_, supplied.replaced, supplied.atTop⟩
  rcases supplied.current with ⟨currentBuffer, here⟩
  rw [here]
  exact Option.some_ne_none currentBuffer

end Pointers

/-! ## The logger -/

/-- The logger of `AsyncLogging`, whose current buffer cannot be null. -/
def pointers (l : AsyncLogging size) : Pointers size where
  currentBuffer := some l.currentBuffer
  nextBuffer := l.nextBuffer
  buffers := l.buffers
  newBuffer1 := l.newBuffer1
  newBuffer2 := l.newBuffer2
  buffersToWrite := l.buffersToWrite
  stage := l.stage

/-- What the pointers see of a step. The thread begins once `start` was called. -/
def seen (l : AsyncLogging size) : Event size → Option (Pointers.Event size)
  | .append logline memory => some (.append logline memory)
  | .backend => if l.stage = .created ∧ l.owner = .before then none else some (.backend l.running)
  | _ => none

theorem append_pointers (l : AsyncLogging size) (logline : List Byte)
    (memory : { bytes : List Byte // bytes.length = size }) :
    l.pointers.append logline memory = .ok (l.append logline memory).pointers := by
  have here : l.pointers.currentBuffer = some l.currentBuffer := rfl
  unfold Pointers.append AsyncLogging.append
  rw [Pointers.push_ok here, Pointers.write_ok here, Pointers.current, here]
  simp only [Option.elim, bind, Except.bind]
  split
  · rfl
  · cases next : l.nextBuffer with
    | some spare =>
        have waits : l.pointers.nextBuffer = some spare := next
        simp only [waits]
        rfl
    | none =>
        have missing : l.pointers.nextBuffer = none := next
        simp only [missing]
        rfl

theorem swap_pointers {l next : AsyncLogging size} (swapped : l.swap = .ok next) :
    l.pointers.swap = .ok next.pointers := by
  have here : l.pointers.currentBuffer = some l.currentBuffer := rfl
  unfold AsyncLogging.swap at swapped
  unfold Pointers.swap
  rw [Pointers.push_ok here]
  cases newBuffer1 : l.newBuffer1 with
  | none =>
      rw [newBuffer1] at swapped
      cases swapped
  | some spare =>
      rw [newBuffer1] at swapped
      cases waiting : l.nextBuffer with
      | some _ =>
          rw [waiting] at swapped
          cases swapped
          simp [pointers, newBuffer1, waiting, bind, Except.bind, pure, Except.pure]
      | none =>
          rw [waiting] at swapped
          cases swapped
          simp [pointers, newBuffer1, waiting, bind, Except.bind, pure, Except.pure]

theorem recycle_pointers {l next : AsyncLogging size} (recycled : l.recycle = .ok next) :
    l.pointers.recycle = .ok next.pointers := by
  rcases bind_ok_inv recycled with ⟨first, firstRefilled, more⟩
  rcases bind_ok_inv more with ⟨second, secondRefilled, done⟩
  cases done
  have firstSame : refill .newBuffer1 l.pointers.newBuffer1
      (if l.pointers.buffersToWrite.length > 2 then l.pointers.buffersToWrite.take 2
        else l.pointers.buffersToWrite) = .ok first := firstRefilled
  have secondSame : refill .newBuffer2 l.pointers.newBuffer2 first.2 = .ok second :=
    secondRefilled
  unfold Pointers.recycle
  simp only [firstSame, secondSame, bind, Except.bind]
  rfl

theorem threadFunc_pointers {l next : AsyncLogging size} (ran : l.threadFunc = .ok next)
    (begun : ¬(l.stage = .created ∧ l.owner = .before)) :
    l.pointers.threadFunc l.running = .ok next.pointers := by
  have stage_eq : l.pointers.stage = l.stage := rfl
  unfold AsyncLogging.threadFunc at ran
  unfold Pointers.threadFunc
  rw [stage_eq]
  cases stage : l.stage with
  | created =>
      rw [stage] at ran
      have started : l.owner ≠ .before := fun before => begun ⟨stage, before⟩
      dsimp only at ran
      rw [if_neg started] at ran
      rcases bind_ok_inv ran with ⟨_, -, done⟩
      cases done
      rfl
  | test =>
      rw [stage] at ran
      cases ran
      rfl
  | lock =>
      rw [stage] at ran
      dsimp only at ran ⊢
      split at ran
      · next empty =>
        cases ran
        exact if_pos empty
      · next pushed => exact (if_neg pushed).trans (swap_pointers ran)
  | wait =>
      rw [stage] at ran
      exact swap_pointers ran
  | swapped =>
      rw [stage] at ran
      rcases bind_ok_inv ran with ⟨_, required, done⟩
      have nonempty : l.pointers.buffersToWrite ≠ [] := require_inv required
      simp only [require_ok nonempty, bind, Except.bind, pure, Except.pure]
      split at done
      · next many =>
        cases done
        have many : l.pointers.buffersToWrite.length > 25 := many
        rw [if_pos many]
        rfl
      · next few =>
        cases done
        have few : ¬l.pointers.buffersToWrite.length > 25 := few
        rw [if_neg few]
        rfl
  | write i =>
      rw [stage] at ran
      dsimp only at ran ⊢
      split at ran
      · next buffer here =>
        cases ran
        have more : i < l.pointers.buffersToWrite.length := (List.getElem?_eq_some_iff.mp here).1
        rw [if_pos more]
        rfl
      · next none =>
        cases ran
        have last : ¬i < l.pointers.buffersToWrite.length :=
          Nat.not_lt.mpr (List.getElem?_eq_none_iff.mp none)
        rw [if_neg last]
        rfl
  | recycle =>
      rw [stage] at ran
      exact recycle_pointers ran
  | exited =>
      rw [stage] at ran
      cases ran
      rfl

/-- The pointers follow the logger, and a step they do not see leaves them alone. -/
theorem step_pointers {l next : AsyncLogging size} {event : Event size}
    (taken : l.step event = .ok next) :
    run Pointers.step l.pointers (l.seen event).toList = .ok next.pointers := by
  cases event with
  | append logline memory =>
      cases taken
      exact (run_singleton _ _).trans (append_pointers l logline memory)
  | backend =>
      have ran : l.threadFunc = .ok next := taken
      simp only [seen]
      split
      · next waits =>
        unfold threadFunc at ran
        rw [waits.1] at ran
        dsimp only at ran
        rw [if_pos waits.2] at ran
        cases ran
        rfl
      · next begun => exact (run_singleton _ _).trans (threadFunc_pointers ran begun)
  | start | startReturns | stop | stopReturns =>
      simp only [step] at taken
      split at taken
      · cases taken
        rfl
      · cases taken
        rfl

/-- Every run of the logger is a run of its pointers. -/
theorem run_pointers {l final : AsyncLogging size} {events : List (Event size)}
    (ran : run step l events = .ok final) :
    ∃ seen, run Pointers.step l.pointers seen = .ok final.pointers := by
  induction events generalizing l with
  | nil =>
      cases ran
      exact ⟨[], rfl⟩
  | cons event events ih =>
      rcases run_cons_inv ran with ⟨next, taken, later⟩
      rcases ih later with ⟨seen, follows⟩
      exact ⟨(l.seen event).toList ++ seen, (run_append _ (step_pointers taken)).trans follows⟩

end Msmuduo.AsyncLogging
