import Msmuduo.TcpConnectionRace

/-!
# Flow control

The owner of a connection learns of its output queue through two callbacks:
`highWaterMarkCallback_` when the queue grows to the mark and
`writeCompleteCallback_` when the kernel has taken all of it. Both are queued by
a test on lengths taken before the append or after the retrieve. Step by step
they say what happened to the queue: one is queued exactly when the length goes
from below the mark to at least the mark, the other exactly when a `::send`
succeeds and leaves nothing to be written.
-/

namespace Msmuduo.TcpConnection

open Msmuduo.Machine Msmuduo.Buffer

set_option autoImplicit false

/-- The length of the output queue. -/
def queueLength (c : TcpConnection) : Nat := c.outputBuffer.readableBytes

/-- A `::send` that succeeds: the direct write of `sendInLoop` when it returns
at least zero, and the one of `handleWrite` when it returns more than zero. -/
def Effect.succeeds : Effect → Bool
  | .sendInLoop _ (some (.wrote _)) => true
  | .handleWrite queued result => decide (0 < result.count queued.length)
  | _ => false

def Functor.isNotice : Functor → Bool
  | .writeCompleteCallback | .highWaterMarkCallback _ => true
  | _ => false

/-- Both callbacks are set, and the output buffer is in order. -/
structure Notified (mark : Nat) (c : TcpConnection) : Prop where
  highWaterMark : c.highWaterMark = mark
  highWater : c.highWaterMarkCallback = true
  writeComplete : c.writeCompleteCallback = true
  output : Represents c.outputBuffer c.outputBuffer.content

/-- From `c` to `next` the functors `queued` were queued behind the others and
`effects` were recorded, and the notices among the functors are those that the
length of the queue calls for. -/
structure Tracks (mark : Nat) (c next : TcpConnection) (queued : List Functor)
    (effects : List Effect) : Prop where
  functors : next.pendingFunctors = c.pendingFunctors ++ queued
  log : next.log = c.log ++ effects
  highWater : ∀ size, .highWaterMarkCallback size ∈ queued ↔
    size = next.queueLength ∧ c.queueLength < mark ∧ mark ≤ next.queueLength
  writeComplete : .writeCompleteCallback ∈ queued ↔
    next.queueLength = 0 ∧ ∃ effect ∈ effects, effect.succeeds = true
  once : (queued.filter Functor.isNotice).length ≤ 1

/-- The operation keeps the callbacks and the buffer, and its notices are right. -/
def Follows (mark : Nat) (c next : TcpConnection) : Prop :=
  Notified mark next ∧ ∃ queued effects, Tracks mark c next queued effects

section

variable {mark : Nat} {c middle next : TcpConnection}

/-- An operation that leaves the output buffer alone, queues no notice and
records no send. -/
structure Aside (c next : TcpConnection) : Prop where
  highWaterMark : next.highWaterMark = c.highWaterMark
  highWater : next.highWaterMarkCallback = c.highWaterMarkCallback
  writeComplete : next.writeCompleteCallback = c.writeCompleteCallback
  output : next.outputBuffer = c.outputBuffer
  functors : ∃ queued, next.pendingFunctors = c.pendingFunctors ++ queued ∧
    ∀ functor ∈ queued, functor.isNotice = false
  log : ∃ effects, next.log = c.log ++ effects ∧ ∀ effect ∈ effects, effect.succeeds = false

namespace Aside

theorem refl (c : TcpConnection) : Aside c c where
  highWaterMark := rfl
  highWater := rfl
  writeComplete := rfl
  output := rfl
  functors := ⟨[], (List.append_nil _).symm, by simp⟩
  log := ⟨[], (List.append_nil _).symm, by simp⟩

/-- What the operation does to the state, the channel and the input buffer has
no part in the flow control. -/
theorem trans (first : Aside c middle) (second : Aside middle next) : Aside c next where
  highWaterMark := second.highWaterMark.trans first.highWaterMark
  highWater := second.highWater.trans first.highWater
  writeComplete := second.writeComplete.trans first.writeComplete
  output := second.output.trans first.output
  functors := by
    rcases first.functors with ⟨before, functors, quiet⟩
    rcases second.functors with ⟨after, more, stillQuiet⟩
    refine ⟨before ++ after, ?_, List.forall_mem_append.mpr ⟨quiet, stillQuiet⟩⟩
    rw [more, functors, List.append_assoc]
  log := by
    rcases first.log with ⟨before, log, unsent⟩
    rcases second.log with ⟨after, more, stillUnsent⟩
    refine ⟨before ++ after, ?_, List.forall_mem_append.mpr ⟨unsent, stillUnsent⟩⟩
    rw [more, log, List.append_assoc]

theorem setState (c : TcpConnection) (state : StateE) : Aside c (c.setState state) :=
  ⟨rfl, rfl, rfl, rfl, (refl c).functors, (refl c).log⟩

theorem setInterest (c : TcpConnection) (interest : Channel.Interest) :
    Aside c (c.setInterest interest) :=
  ⟨rfl, rfl, rfl, rfl, (refl c).functors, (refl c).log⟩

theorem setInput (c : TcpConnection) (inputBuffer : Buffer) :
    Aside c { c with inputBuffer := inputBuffer } :=
  ⟨rfl, rfl, rfl, rfl, (refl c).functors, (refl c).log⟩

theorem record (c : TcpConnection) {effect : Effect} (unsent : effect.succeeds = false) :
    Aside c (c.record effect) :=
  ⟨rfl, rfl, rfl, rfl, (refl c).functors, [effect], rfl, List.forall_mem_singleton.mpr unsent⟩

theorem queueInLoop (c : TcpConnection) {functor : Functor}
    (quiet : functor.isNotice = false) : Aside c (c.queueInLoop functor) :=
  ⟨rfl, rfl, rfl, rfl, ⟨[functor], rfl, List.forall_mem_singleton.mpr quiet⟩, (refl c).log⟩

theorem shutdownInLoop (c : TcpConnection) : Aside c c.shutdownInLoop := by
  unfold TcpConnection.shutdownInLoop
  split
  · exact refl c
  · exact record c rfl

end Aside

/-- No notice is called for where the queue has not grown, and is not empty or
nothing was sent. -/
theorem Tracks.quiet {effects : List Effect}
    (functors : next.pendingFunctors = c.pendingFunctors) (log : next.log = c.log ++ effects)
    (shorter : next.queueLength ≤ c.queueLength)
    (unsent : next.queueLength = 0 → ∀ effect ∈ effects, effect.succeeds = false) :
    Tracks mark c next [] effects where
  functors := functors.trans (List.append_nil _).symm
  log := log
  highWater := by
    intro size
    constructor
    · intro member
      cases member
    · rintro ⟨-, below, reached⟩
      omega
  writeComplete := by
    constructor
    · intro member
      cases member
    · rintro ⟨empty, effect, member, sent⟩
      rw [unsent empty effect member] at sent
      cases sent
  once := Nat.zero_le 1

theorem Follows.refl (notified : Notified mark c) : Follows mark c c :=
  ⟨notified, [], [], Tracks.quiet rfl (List.append_nil _).symm (Nat.le_refl _) (by simp)⟩

/-- What is done aside adds no notice and calls for none. -/
theorem Follows.aside (follows : Follows mark c middle) (aside : Aside middle next) :
    Follows mark c next := by
  rcases follows with ⟨notified, before, effects, tracks⟩
  rcases aside.functors with ⟨after, functors, quiet⟩
  rcases aside.log with ⟨more, log, unsent⟩
  have length : next.queueLength = middle.queueLength := by
    rw [queueLength, aside.output, queueLength]
  have same {functor : Functor} (notice : functor.isNotice = true) :
      functor ∈ before ++ after ↔ functor ∈ before := by
    rw [List.mem_append]
    constructor
    · rintro (member | member)
      · exact member
      · rw [quiet functor member] at notice
        cases notice
    · exact Or.inl
  refine ⟨⟨?_, ?_, ?_, ?_⟩, before ++ after, effects ++ more, ?_⟩
  · exact aside.highWaterMark.trans notified.highWaterMark
  · exact aside.highWater.trans notified.highWater
  · exact aside.writeComplete.trans notified.writeComplete
  · rw [aside.output]
    exact notified.output
  · constructor
    · rw [functors, tracks.functors, List.append_assoc]
    · rw [log, tracks.log, List.append_assoc]
    · intro size
      rw [same rfl, length]
      exact tracks.highWater size
    · rw [same rfl, length, tracks.writeComplete]
      apply and_congr_right
      intro _
      constructor
      · rintro ⟨effect, member, succeeds⟩
        exact ⟨effect, List.mem_append_left _ member, succeeds⟩
      · rintro ⟨effect, member, succeeds⟩
        rcases List.mem_append.mp member with sent | late
        · exact ⟨effect, sent, succeeds⟩
        · rw [unsent effect late] at succeeds
          cases succeeds
    · have none : after.filter Functor.isNotice = [] := by
        apply List.filter_eq_nil_iff.mpr
        intro functor member
        rw [quiet functor member]
        exact Bool.false_ne_true
      rw [List.filter_append, none, List.append_nil]
      exact tracks.once

theorem Aside.follows (aside : Aside c next) (notified : Notified mark c) : Follows mark c next :=
  (Follows.refl notified).aside aside

/-! ## Sending -/

theorem queueWhen_eq (c : TcpConnection) (condition : Bool) (functor : Functor) :
    c.queueWhen condition functor = { c with
      pendingFunctors := c.pendingFunctors ++ if condition then [functor] else [] } := by
  cases condition with
  | false => simp [queueWhen]
  | true => rfl

/-- The mark is reached by the append, and the notice carries the new length. -/
theorem queueOutput_tracks (notified : Notified mark c) {rest : List Byte}
    (ran : c.queueOutput rest = .ok next) :
    Notified mark next ∧ next.queueLength = c.queueLength + rest.length ∧ next.log = c.log ∧
      next.pendingFunctors = c.pendingFunctors ++
        if c.queueLength < mark ∧ mark ≤ next.queueLength then
          [.highWaterMarkCallback next.queueLength]
        else [] := by
  rcases append_represents notified.output rest with ⟨outputBuffer, appended, output⟩
  have length : outputBuffer.readableBytes = c.queueLength + rest.length := by
    rw [output.readable, List.length_append, queueLength, notified.output.readable]
  unfold queueOutput at ran
  rw [appended] at ran
  simp only [inBuffer, Except.mapError, bind, Except.bind, pure, Except.pure, queueWhen_eq] at ran
  -- The interest in the writable event has no part in this.
  have fields : next.outputBuffer = outputBuffer ∧ next.log = c.log ∧
      next.highWaterMark = c.highWaterMark ∧
      next.highWaterMarkCallback = c.highWaterMarkCallback ∧
      next.writeCompleteCallback = c.writeCompleteCallback ∧
      next.pendingFunctors = c.pendingFunctors ++
        if (decide (c.highWaterMark ≤ c.queueLength + rest.length) &&
          decide (c.queueLength < c.highWaterMark) && c.highWaterMarkCallback) = true then
          [.highWaterMarkCallback (c.queueLength + rest.length)]
        else [] := by
    split at ran
    · cases ran
      exact ⟨rfl, rfl, rfl, rfl, rfl, rfl⟩
    · cases ran
      exact ⟨rfl, rfl, rfl, rfl, rfl, rfl⟩
  rcases fields with ⟨buffer, log, highWaterMark, highWater, writeComplete, functors⟩
  have grown : next.queueLength = c.queueLength + rest.length := by
    rw [queueLength, buffer, length]
  refine ⟨⟨?_, ?_, ?_, ?_⟩, grown, log, ?_⟩
  · exact highWaterMark.trans notified.highWaterMark
  · exact highWater.trans notified.highWater
  · exact writeComplete.trans notified.writeComplete
  · rw [buffer]
    exact output.self
  · rw [functors, notified.highWater, notified.highWaterMark, grown]
    by_cases reached : mark ≤ c.queueLength + rest.length
    · by_cases below : c.queueLength < mark
      · simp [reached, below]
      · simp [below]
    · simp [reached]

theorem Notified.record (notified : Notified mark c) (effect : Effect) :
    Notified mark (c.record effect) :=
  ⟨notified.1, notified.2, notified.3, notified.4⟩

/-- The bytes the kernel did not take are queued, so the queue is not empty. -/
theorem queueOutput_follows (notified : Notified mark c) {effect : Effect} {rest : List Byte}
    (left : 0 < rest.length) (ran : (c.record effect).queueOutput rest = .ok next) :
    Follows mark c next := by
  rcases queueOutput_tracks (notified.record effect) ran with ⟨after, grown, log, functors⟩
  have before : (c.record effect).queueLength = c.queueLength := rfl
  rw [before] at grown functors
  refine ⟨after, _, [effect], functors, log, ?_, ?_, ?_⟩
  · intro size
    split_ifs with crossed
    · simp [crossed]
    · simp [crossed]
  · constructor
    · intro member
      split_ifs at member
      · simp at member
      · simp at member
    · rintro ⟨empty, -⟩
      omega
  · split_ifs
    · exact Nat.le_refl 1
    · exact Nat.zero_le 1

/-- The kernel took all there was to be written. -/
theorem written_follows (notified : Notified mark c) {effect : Effect}
    (succeeds : effect.succeeds = true) (highWaterMark : next.highWaterMark = c.highWaterMark)
    (highWater : next.highWaterMarkCallback = c.highWaterMarkCallback)
    (writeComplete : next.writeCompleteCallback = c.writeCompleteCallback)
    (output : Represents next.outputBuffer [])
    (functors : next.pendingFunctors = c.pendingFunctors ++ [.writeCompleteCallback])
    (log : next.log = c.log ++ [effect]) : Follows mark c next := by
  have empty : next.queueLength = 0 := output.readable
  refine ⟨⟨?_, ?_, ?_, output.self⟩, [.writeCompleteCallback], [effect], functors, log, ?_, ?_,
    Nat.le_refl 1⟩
  · exact highWaterMark.trans notified.highWaterMark
  · exact highWater.trans notified.highWater
  · exact writeComplete.trans notified.writeComplete
  · intro size
    constructor
    · intro member
      simp at member
    · rintro ⟨-, below, reached⟩
      omega
  · simp only [List.mem_singleton, true_iff]
    exact ⟨empty, effect, rfl, succeeds⟩

/-- The kernel took a part of the queue. -/
theorem shrunk_follows (notified : Notified mark c) {effect : Effect}
    (highWaterMark : next.highWaterMark = c.highWaterMark)
    (highWater : next.highWaterMarkCallback = c.highWaterMarkCallback)
    (writeComplete : next.writeCompleteCallback = c.writeCompleteCallback)
    (output : Represents next.outputBuffer next.outputBuffer.content)
    (shorter : next.queueLength ≤ c.queueLength) (left : next.queueLength ≠ 0)
    (functors : next.pendingFunctors = c.pendingFunctors) (log : next.log = c.log ++ [effect]) :
    Follows mark c next := by
  refine ⟨⟨?_, ?_, ?_, output⟩, [], [effect], Tracks.quiet functors log shorter ?_⟩
  · exact highWaterMark.trans notified.highWaterMark
  · exact highWater.trans notified.highWater
  · exact writeComplete.trans notified.writeComplete
  · intro empty
    exact absurd empty left

/-- Nothing was sent: the message is kept whole, or given up after a fault. -/
theorem unsent_follows (notified : Notified mark c) {effect : Effect} {message : List Byte}
    {faultError : Bool} (unsent : effect.succeeds = false)
    (ran : (if !faultError && decide (0 < message.length) then (c.record effect).queueOutput message
      else .ok (c.record effect)) = .ok next) : Follows mark c next := by
  split at ran
  · next kept =>
    simp only [Bool.and_eq_true, decide_eq_true_eq] at kept
    exact queueOutput_follows notified kept.2 ran
  · cases ran
    exact (Aside.record c unsent).follows notified

theorem sendInLoop_follows (notified : Notified mark c) {message : List Byte}
    {direct : SendResult} (ran : c.sendInLoop message direct = .ok next) :
    Follows mark c next := by
  unfold sendInLoop at ran
  split at ran
  · cases ran
    exact (Aside.refl c).follows notified
  · rcases bind_ok_inv ran with ⟨_, -, ran⟩
    rcases bind_ok_inv ran with ⟨_, -, ran⟩
    unfold directWrite at ran
    split at ran
    · next idle =>
      have empty : c.queueLength = 0 := by
        simp only [Bool.and_eq_true, beq_iff_eq] at idle
        exact idle.2
      cases direct with
      | wrote room =>
          by_cases whole : message.length - min room message.length = 0
          · simp only [whole, notified.writeComplete] at ran
            cases ran
            have output : Represents c.outputBuffer [] := by
              have content := notified.output
              rwa [List.eq_nil_of_length_eq_zero (content.readable.symm.trans empty)] at content
            have succeeds : Effect.succeeds (.sendInLoop message (some (.wrote room))) = true := rfl
            exact written_follows notified succeeds rfl rfl rfl output rfl rfl
          · have left : 0 < message.length - min room message.length := Nat.pos_of_ne_zero whole
            simp only [queueWhen, beq_eq_false_iff_ne.mpr whole, left, decide_true,
              Bool.false_and, Bool.not_false, Bool.and_self, Bool.false_eq_true, if_false,
              if_true] at ran
            apply queueOutput_follows notified _ ran
            rwa [List.length_drop]
      | failed errno => exact unsent_follows notified rfl ran
    · have unsent : Effect.succeeds (.sendInLoop message none) = false := rfl
      exact unsent_follows notified unsent ran

theorem handleWrite_follows (notified : Notified mark c) {result : SendResult}
    (ran : c.handleWrite result = .ok next) : Follows mark c next := by
  have sent : Effect.succeeds (.handleWrite c.outputBuffer.content result) =
      decide (0 < result.count c.outputBuffer.readableBytes) := by
    rw [Effect.succeeds, notified.output.readable]
  unfold handleWrite at ran
  split at ran
  · dsimp only at ran
    split at ran
    · next progress =>
      rcases retrieve_represents notified.output _
        (result.count_le c.outputBuffer.readableBytes) with ⟨outputBuffer, retrieved, output⟩
      have succeeds := sent.trans (decide_eq_true progress)
      have shorter : outputBuffer.readableBytes ≤ c.queueLength := by
        rw [output.readable, List.length_drop, ← notified.output.readable, queueLength]
        omega
      rw [retrieved] at ran
      simp only [inBuffer, Except.mapError, bind, Except.bind, notified.writeComplete] at ran
      split at ran
      · next drained =>
        have emptied := output
        rw [List.eq_nil_of_length_eq_zero (output.readable.symm.trans drained)] at emptied
        have written : Follows mark c (({ c.record (.handleWrite c.outputBuffer.content result) with
            outputBuffer := outputBuffer }.setInterest .disableWriting).queueInLoop
              .writeCompleteCallback) :=
          written_follows notified succeeds rfl rfl rfl emptied rfl rfl
        split at ran
        · cases ran
          exact written.aside (Aside.shutdownInLoop _)
        · cases ran
          exact written
      · next left =>
        cases ran
        exact shrunk_follows notified rfl rfl rfl output.self shorter left rfl rfl
    · next stuck =>
      cases ran
      exact (Aside.record c (sent.trans (decide_eq_false stuck))).follows notified
  · cases ran
    exact (Aside.refl c).follows notified

/-! ## The tasks and the functors -/

theorem call_follows (notified : Notified mark c) {userCall : UserCall}
    (ran : c.call .loop userCall = .ok next) : Follows mark c next := by
  cases userCall with
  | send message direct =>
      change c.send .loop message direct = .ok next at ran
      unfold send at ran
      split at ran
      · exact sendInLoop_follows notified ran
      · cases ran
        exact Follows.refl notified
  | shutdown =>
      cases ran
      apply Aside.follows _ notified
      unfold shutdown
      split
      · exact (Aside.setState c _).trans (Aside.shutdownInLoop _)
      · exact Aside.refl c
  | forceClose =>
      cases ran
      apply Aside.follows _ notified
      unfold forceClose
      split
      · exact (Aside.setState c _).trans (Aside.queueInLoop _ rfl)
      · exact Aside.refl c
  | retrieve len =>
      rcases bind_ok_inv ran with ⟨inputBuffer, -, done⟩
      cases done
      exact (Aside.setInput c inputBuffer).follows notified

theorem perform_follows (notified : Notified mark c) {task : Task} {more : List Task}
    (ran : task.perform c = .ok (next, more)) : Follows mark c next := by
  cases task with
  | connectEstablished user =>
      rcases bind_ok_inv ran with ⟨_, -, done⟩
      cases done
      exact ((Aside.setState c _).trans (Aside.setInterest _ _)).follows notified
  | connectionCallback user =>
      cases ran
      exact (Aside.record c rfl).follows notified
  | downCallback user =>
      cases ran
      exact (Aside.record c rfl).follows notified
  | call userCall =>
      rcases bind_ok_inv ran with ⟨called, calls, done⟩
      cases done
      exact call_follows notified calls
  | handleClose user =>
      rcases bind_ok_inv ran with ⟨_, -, done⟩
      cases done
      exact (Aside.record c rfl).follows notified
  | goDown =>
      cases ran
      exact ((Aside.setState c _).trans (Aside.setInterest _ _)).follows notified
  | closeCallback =>
      cases ran
      exact (Aside.record c rfl).follows notified
  | handleError =>
      cases ran
      exact (Aside.record c rfl).follows notified
  | handleRead receive user =>
      rcases bind_ok_inv ran with ⟨result, -, ran⟩
      have read := Aside.setInput c result.buffer
      dsimp only at ran
      split at ran
      · cases ran
        exact (read.trans (Aside.record _ rfl)).follows notified
      · split at ran
        · cases ran
          exact read.follows notified
        · cases ran
          exact (read.trans (Aside.record _ rfl)).follows notified
  | handleWrite result =>
      rcases bind_ok_inv ran with ⟨written, writes, done⟩
      cases done
      exact handleWrite_follows notified writes
  | removeChannel =>
      rcases bind_ok_inv ran with ⟨removed, removes, done⟩
      rcases bind_ok_inv removes with ⟨_, -, recorded⟩
      cases done
      cases recorded
      exact (Aside.record c rfl).follows notified

theorem startFunctor_follows (notified : Notified mark c) {functor : Functor}
    {direct : SendResult} {user : List UserCall} {tasks : List Task}
    (ran : c.startFunctor functor direct user = .ok (next, tasks)) : Follows mark c next := by
  cases functor with
  | sendInLoop message =>
      rcases bind_ok_inv ran with ⟨sent, sends, done⟩
      cases done
      exact sendInLoop_follows notified sends
  | shutdownInLoop =>
      cases ran
      exact (Aside.shutdownInLoop c).follows notified
  | forceCloseInLoop | writeCompleteCallback | highWaterMarkCallback _ =>
      cases ran
      exact Follows.refl notified

end

/-! ## Whole runs -/

namespace Raced

/-- `send` on another thread posts its functor after its test of `state_`; how
long after is not said. -/
inductive FlowEvent where
  | step (event : Event)
  | postSend (message : List Byte)
  deriving DecidableEq, Repr

def flowStep (r : Raced) : FlowEvent → Except Assertion Raced
  | .step event => r.step event
  | .postSend message =>
      .ok { r with connection := r.connection.queueInLoop (.sendInLoop message) }

/-- The connection when the step begins: a functor that is run has left the queue. -/
def entered (r : Raced) (event : FlowEvent) : TcpConnection :=
  match event, r.agenda, r.connection.pendingFunctors with
  | .step (.functor _ _), [], _ :: rest => { r.connection with pendingFunctors := rest }
  | _, _, _ => r.connection

section

variable {mark : Nat} {r next : Raced}

theorem notified_new (sockfd : Int) (options : Options)
    (highWater : options.highWaterMarkCallback = true)
    (writeComplete : options.writeCompleteCallback = true) :
    Notified options.highWaterMark (new sockfd options).connection where
  highWaterMark := rfl
  highWater := highWater
  writeComplete := writeComplete
  output := (new_represents Buffer.kInitialSize).self

theorem entered_queueLength (r : Raced) (event : FlowEvent) :
    (r.entered event).queueLength = r.connection.queueLength := by
  unfold entered
  split
  · rfl
  · rfl

theorem begin_connection (r : Raced) (tasks : List Task) :
    (r.begin tasks).connection = r.connection := by
  unfold begin
  split
  · rfl
  · rfl

/-- No step of a thread adds a notice that the queue does not call for, or
leaves one out. -/
theorem flowStep_follows (notified : Notified mark r.connection) {event : FlowEvent}
    (taken : r.flowStep event = .ok next) :
    Follows mark (r.entered event) next.connection := by
  have still := Follows.refl notified
  cases event with
  | postSend message =>
      cases taken
      exact (Aside.queueInLoop r.connection rfl).follows notified
  | step event =>
      cases event with
      | connectEstablished user | connectDestroyed user | call userCall =>
          cases taken
          rw [begin_connection]
          exact still
      | handleEvent revents answers =>
          rcases handleEvent_cases taken with rfl | ⟨-, rfl⟩
          · exact still
          · exact still.aside ⟨rfl, rfl, rfl, rfl, (Aside.refl _).functors, (Aside.refl _).log⟩
      | functor direct user =>
          rcases functor_cases taken with
            ⟨rfl, nothing⟩ | ⟨functor, rest, c, tasks, idle, queue, ran, rfl⟩
          · have stays : next.entered (.step (.functor direct user)) = next.connection := by
              unfold entered
              split
              · next idle queue => exact absurd queue (nothing _ _ idle)
              · rfl
            rw [stays]
            exact still
          · have popped : r.entered (.step (.functor direct user)) =
                { r.connection with pendingFunctors := rest } := by
              unfold entered
              simp only [idle, queue]
            rw [popped]
            exact startFunctor_follows ⟨notified.1, notified.2, notified.3, notified.4⟩ ran
      | proceed =>
          rcases proceed_cases taken with rfl | ⟨task, rest, c, more, -, ran, rfl⟩
          · exact still
          · exact perform_follows notified ran
      | test close =>
          cases taken
          split
          · exact still
          · exact still
      | store i =>
          rcases store_cases taken with rfl | ⟨close, -, rfl⟩
          · exact still
          · exact still.aside (Aside.setState _ _)
      | post i =>
          rcases post_cases taken with rfl | ⟨close, -, rfl⟩
          · exact still
          · apply still.aside (Aside.queueInLoop _ _)
            cases close with
            | shutdown => rfl
            | forceClose => rfl

theorem run_notified {events : List FlowEvent} (ran : run flowStep r events = .ok next)
    (notified : Notified mark r.connection) : Notified mark next.connection := by
  apply run_invariant (fun r => Notified mark r.connection) _ notified ran
  intro r event next notified taken
  exact (flowStep_follows notified taken).1

end

end Raced

/-- A `highWaterMarkCallback_` was queued between `c` and `next`. -/
def Marked (c next : TcpConnection) : Prop :=
  ∃ size, .highWaterMarkCallback size ∈ next.pendingFunctors.drop c.pendingFunctors.length

theorem Tracks.marked_iff {mark : Nat} {c next : TcpConnection} {queued : List Functor}
    {effects : List Effect} (tracks : Tracks mark c next queued effects) :
    Marked c next ↔ c.queueLength < mark ∧ mark ≤ next.queueLength := by
  unfold Marked
  rw [tracks.functors, List.drop_left]
  simp only [tracks.highWater, exists_eq_left]

namespace Raced

/-- In every run, both callbacks track the output queue, and between two notices
of the mark the queue was below it. -/
theorem callbacks_track_output (sockfd : Int) (options : Options)
    (highWater : options.highWaterMarkCallback = true)
    (writeComplete : options.writeCompleteCallback = true) (events : List FlowEvent)
    (event : FlowEvent) {r next : Raced} (ran : run flowStep (new sockfd options) events = .ok r)
    (taken : r.flowStep event = .ok next) :
    (∃ queued effects,
        Tracks options.highWaterMark (r.entered event) next.connection queued effects) ∧
      ∀ later last again final, run flowStep next later = .ok last →
        last.flowStep again = .ok final → Marked (r.entered event) next.connection →
        Marked (last.entered again) final.connection →
        options.highWaterMark ≤ next.connection.queueLength ∧
          last.connection.queueLength < options.highWaterMark := by
  have notified := run_notified ran (notified_new sockfd options highWater writeComplete)
  rcases flowStep_follows notified taken with ⟨after, queued, effects, tracks⟩
  refine ⟨⟨queued, effects, tracks⟩, ?_⟩
  intro later last again final goes recurs first second
  rcases flowStep_follows (run_notified goes after) recurs with ⟨-, _, _, more⟩
  have below := (more.marked_iff.mp second).1
  rw [entered_queueLength] at below
  exact ⟨(tracks.marked_iff.mp first).2, below⟩

/-- Eight bytes are about to be sent. -/
def growing : List FlowEvent :=
  [.step (.connectEstablished []), .step .proceed, .step .proceed,
    .step (.call (.send [1, 2, 3, 4, 5, 6, 7, 8] (.wrote 2)))]

/-- Another thread sends three more while the kernel takes four. -/
def draining : List FlowEvent :=
  [.postSend [9, 10, 11], .step (.handleEvent pollOut ⟨[], .received [], [], .wrote 4⟩),
    .step .proceed, .step (.functor (.wrote 0) [])]

set_option maxRecDepth 8000 in
/-- The queue grows to six bytes, drains to two and grows to five again. -/
theorem small_mark_tracked :
    ∃ r next last final,
      run flowStep (new 7 ⟨true, true, 5⟩) growing = .ok r ∧
      r.flowStep (.step .proceed) = .ok next ∧ run flowStep next draining = .ok last ∧
      last.flowStep (.step (.functor (.wrote 0) [])) = .ok final ∧
      5 ≤ next.connection.queueLength ∧ last.connection.queueLength < 5 := by
  refine ⟨_, _, _, _, rfl, rfl, rfl, rfl, ?_⟩
  apply (callbacks_track_output 7 ⟨true, true, 5⟩ rfl rfl growing (.step .proceed) rfl rfl).2
    draining _ (.step (.functor (.wrote 0) [])) _ rfl rfl
  · exact ⟨6, by decide⟩
  · exact ⟨5, by decide⟩

end Raced

end Msmuduo.TcpConnection
