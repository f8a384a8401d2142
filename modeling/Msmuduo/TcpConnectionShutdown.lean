import Msmuduo.TcpConnectionOutput

/-!
# Graceful shutdown

Threads call `send` and `shutdown` on a connected connection, one call after
another, while the loop runs functors and writable events. A call from another
thread tests `state_` first and posts its functor later, so the two are
separate steps; the loop swaps the queue out before it runs a batch.

The write side may be closed only when every message promised before
`shutdown` has reached the kernel. This is so exactly as long as the two places
that close it in the loop thread, `shutdown` itself and the drain in
`handleWrite`, find no `sendInLoop` functor waiting.
-/

namespace Msmuduo.TcpConnection

open Msmuduo.Machine Msmuduo.Buffer

set_option autoImplicit false

/-! ## The loop around one connection -/

/-- `functors` is the batch being run by `doPendingFunctors`, `posting` the
functor that a call in another thread is about to queue, and `promised` the
messages of the `send` calls that found the connection connected. -/
structure Loop where
  connection : TcpConnection
  functors : List Functor
  posting : Option Functor
  promised : List (List Byte)
  deriving DecidableEq, Repr

namespace Loop

inductive Event where
  | send (thread : Thread) (message : List Byte) (direct : SendResult)
  | shutdown (thread : Thread)
  | post
  | swapFunctors
  | runFunctor (direct : SendResult)
  | writable (result : SendResult)
  deriving DecidableEq, Repr

def start (c : TcpConnection) : Loop where
  connection := c
  functors := []
  posting := none
  promised := []

/-- Calls do not overlap, so a call waits for the one that is still posting.
Poll events are handled between the batches. A step that cannot be taken yet
leaves everything as it is. User code run by the two flow-control callbacks
makes its calls as steps of its own. -/
def step (l : Loop) : Event → Except Assertion Loop
  | .send thread message direct =>
      if l.posting = none ∧ l.connection.state = .kConnected then
        let called := { l with promised := l.promised ++ [message] }
        match thread with
        | .loop => do
            let c ← l.connection.send .loop message direct
            return { called with connection := c }
        | .other => .ok { called with posting := some (.sendInLoop message) }
      else .ok l
  | .shutdown thread =>
      if l.posting = none ∧ l.connection.state = .kConnected then
        match thread with
        | .loop => .ok { l with connection := l.connection.shutdown .loop }
        | .other =>
            .ok { l with
              connection := l.connection.setState .kDisconnecting
              posting := some .shutdownInLoop }
      else .ok l
  | .post =>
      match l.posting with
      | some functor =>
          .ok { l with connection := l.connection.queueInLoop functor, posting := none }
      | none => .ok l
  | .swapFunctors =>
      if l.functors = [] then
        .ok { l with
          connection := { l.connection with pendingFunctors := [] }
          functors := l.connection.pendingFunctors }
      else .ok l
  | .runFunctor direct =>
      match l.functors with
      | [] => .ok l
      | functor :: rest => do
          let c ← l.connection.perform functor direct []
          return { l with connection := c, functors := rest }
  | .writable result =>
      if l.functors = [] then do
        let c ← l.connection.handleWrite result
        return { l with connection := c }
      else .ok l

end Loop

/-! ## What the log says -/

/-- The messages `sendInLoop` was executed for, in order. -/
def executed (log : List Effect) : List (List Byte) :=
  log.filterMap fun effect =>
    match effect with
    | .sendInLoop message _ => some message
    | _ => none

/-- The entries that made a `::send` call. -/
def Effect.isSend : Effect → Bool
  | .sendInLoop _ (some _) | .handleWrite _ _ => true
  | _ => false

def Functor.message : Functor → Option (List Byte)
  | .sendInLoop message => some message
  | _ => none

/-- The messages that still wait in a queue of functors. -/
def waiting (functors : List Functor) : List (List Byte) := functors.filterMap Functor.message

/-- After the write side was closed no `::send` is made, and when it was closed
every promised message had been handed to `sendInLoop` and all their bytes to
the kernel. -/
def Graceful (promised : List (List Byte)) (log : List Effect) : Prop :=
  ∀ before after, log = before ++ .shutdownWrite :: after →
    (∀ effect ∈ after, effect.isSend = false) ∧
      accepted before = (executed before).flatten ∧ (executed before).Perm promised

@[simp]
theorem executed_snoc (log : List Effect) (effect : Effect) :
    executed (log ++ [effect]) = executed log ++ executed [effect] := by
  simp [executed]

theorem graceful_of_unfinished {promised : List (List Byte)} {log : List Effect}
    (unfinished : .shutdownWrite ∉ log) : Graceful promised log := by
  intro before after split
  rw [split] at unfinished
  simp at unfinished

theorem graceful_shutdownWrite_iff (promised : List (List Byte)) (log : List Effect) :
    Graceful promised (log ++ [.shutdownWrite]) ↔
      Graceful promised log ∧ accepted log = (executed log).flatten ∧
        (executed log).Perm promised := by
  constructor
  · intro graceful
    refine ⟨?_, (graceful log [] rfl).2⟩
    intro before after split
    have longer := graceful before (after ++ [.shutdownWrite]) (by rw [split]; simp)
    exact ⟨fun effect member => longer.1 effect (by simp [member]), longer.2⟩
  · rintro ⟨graceful, all, done⟩ before after split
    rcases List.eq_nil_or_concat after with rfl | ⟨init, last, rfl⟩
    · have same : log = before := by simpa using split
      subst same
      exact ⟨by simp, all, done⟩
    · have parts : log ++ [.shutdownWrite] = (before ++ .shutdownWrite :: init) ++ [last] := by
        simpa using split
      obtain ⟨logEq, lastEq⟩ := List.append_inj' parts rfl
      have earlier := graceful before init logEq
      refine ⟨?_, earlier.2⟩
      intro effect member
      rw [List.concat_eq_append] at member
      rcases List.mem_append.mp member with inside | final
      · exact earlier.1 effect inside
      · have isLast : effect = .shutdownWrite := by
          simp only [List.cons.injEq, and_true] at lastEq
          simpa [← lastEq] using final
        rw [isLast]
        rfl

/-! ## The queue of functors -/

/-- The two flow-control callbacks, which only run user code. -/
def Functor.isIdle : Functor → Bool
  | .writeCompleteCallback | .highWaterMarkCallback _ => true
  | _ => false

/-- A queue without the flow-control callbacks. -/
def busy (functors : List Functor) : List Functor := functors.filter fun f => !f.isIdle

theorem busy_append (first second : List Functor) :
    busy (first ++ second) = busy first ++ busy second := List.filter_append ..

theorem waiting_append (first second : List Functor) :
    waiting (first ++ second) = waiting first ++ waiting second := List.filterMap_append ..

/-- Nothing waits to be sent behind a `shutdownInLoop`. -/
def Ordered : List Functor → Prop
  | [] => True
  | functor :: rest => (functor = .shutdownInLoop → waiting rest = []) ∧ Ordered rest

theorem ordered_snoc_shutdown {functors : List Functor} (ordered : Ordered functors) :
    Ordered (functors ++ [.shutdownInLoop]) := by
  induction functors with
  | nil => exact ⟨fun _ => rfl, trivial⟩
  | cons functor rest ih =>
      rw [List.cons_append]
      refine ⟨?_, ih ordered.2⟩
      intro same
      rw [waiting_append, ordered.1 same]
      rfl

theorem ordered_snoc_other {functors : List Functor} (functor : Functor)
    (absent : .shutdownInLoop ∉ functors) (other : functor ≠ .shutdownInLoop) :
    Ordered (functors ++ [functor]) := by
  induction functors with
  | nil => exact ⟨fun same => absurd same other, trivial⟩
  | cons first rest ih =>
      rw [List.mem_cons, not_or] at absent
      exact ⟨fun same => absurd same.symm absent.1, ih absent.2⟩

theorem busy_queueWhen (c : TcpConnection) (condition : Bool) {functor : Functor}
    (idle : functor.isIdle = true) :
    busy (c.queueWhen condition functor).pendingFunctors = busy c.pendingFunctors := by
  cases condition with
  | false => rfl
  | true => simp [queueWhen, queueInLoop, busy, idle]

/-! ## What the steps write into the log -/

section

variable {c : TcpConnection}

theorem directWrite_log (c : TcpConnection) (message : List Byte) (direct : SendResult) :
    ∃ used, (c.directWrite message direct).connection.log =
        c.log ++ [.sendInLoop message used] ∧
      (used = none ∨ used = some direct) ∧
      (c.directWrite message direct).connection.state = c.state ∧
      (c.directWrite message direct).connection.inputBuffer = c.inputBuffer ∧
      busy (c.directWrite message direct).connection.pendingFunctors =
        busy c.pendingFunctors := by
  unfold directWrite
  split
  · refine ⟨some direct, ?_, Or.inr rfl, ?_, ?_, ?_⟩
    · cases direct <;> simp [record]
    · cases direct <;> simp [record]
    · cases direct <;> simp [record]
    · cases direct with
      | wrote room => exact busy_queueWhen _ _ rfl
      | failed errno => rfl
  · exact ⟨none, rfl, Or.inl rfl, rfl, rfl, rfl⟩

theorem queueOutput_log {next : TcpConnection} {rest : List Byte}
    (ran : c.queueOutput rest = .ok next) :
    next.log = c.log ∧ next.state = c.state ∧ next.inputBuffer = c.inputBuffer ∧
      busy next.pendingFunctors = busy c.pendingFunctors := by
  rcases bind_ok_inv ran with ⟨outputBuffer, -, finished⟩
  cases finished
  dsimp only
  split <;> exact ⟨by simp [setInterest], by simp [setInterest], by simp [setInterest],
    busy_queueWhen _ _ rfl⟩

/-- `sendInLoop` leaves one entry, and queues flow-control callbacks only. -/
theorem sendInLoop_log {next : TcpConnection} {message : List Byte} {direct : SendResult}
    (up : c.state ≠ .kDisconnected) (ran : c.sendInLoop message direct = .ok next) :
    ∃ used, next.log = c.log ++ [.sendInLoop message used] ∧
      (used = none ∨ used = some direct) ∧ next.state = c.state ∧
      next.inputBuffer = c.inputBuffer ∧
      busy next.pendingFunctors = busy c.pendingFunctors := by
  rcases directWrite_log c message direct with ⟨used, log, answer, state, input, functors⟩
  unfold sendInLoop at ran
  rw [if_neg up] at ran
  rcases bind_ok_inv ran with ⟨-, -, ran⟩
  rcases bind_ok_inv ran with ⟨-, -, ran⟩
  split at ran
  · rcases queueOutput_log ran with ⟨sameLog, sameState, sameInput, sameFunctors⟩
    exact ⟨used, sameLog.trans log, answer, sameState.trans state, sameInput.trans input,
      sameFunctors.trans functors⟩
  · cases ran
    exact ⟨used, log, answer, state, input, functors⟩

/-- The writable event leaves one entry, and closes the write side when it
drained the queue of a connection that is shutting down. -/
theorem handleWrite_log {next : TcpConnection} {result : SendResult} (sound : Sound c)
    (writing : c.channel.isWriting = true) (ran : c.handleWrite result = .ok next) :
    next.log = c.log ++ .handleWrite c.outputBuffer.content result ::
        (if result.count c.outputBuffer.readableBytes = c.outputBuffer.readableBytes ∧
          c.state = .kDisconnecting then [.shutdownWrite] else []) ∧
      next.state = c.state ∧ busy next.pendingFunctors = busy c.pendingFunctors := by
  have queued : c.outputBuffer.readableBytes ≠ 0 := by
    rw [Ne, sound.readable_eq_zero_iff]
    exact (sound.writing (sound.up_of_writing writing)).mp writing
  unfold handleWrite at ran
  rw [if_pos writing] at ran
  dsimp only at ran
  split at ran
  · next progress =>
    rcases retrieve_represents sound.output _
      (result.count_le c.outputBuffer.readableBytes) with ⟨outputBuffer, retrieved, output⟩
    rw [retrieved] at ran
    have left : outputBuffer.readableBytes = c.outputBuffer.readableBytes -
        (result.count c.outputBuffer.readableBytes).toNat := by
      rw [output.readable, List.length_drop, ← sound.output.readable]
    have bound := result.count_le c.outputBuffer.readableBytes
    simp only [inBuffer, Except.mapError, bind, Except.bind] at ran
    split at ran
    · next drained =>
      have all : result.count c.outputBuffer.readableBytes = c.outputBuffer.readableBytes := by
        omega
      cases ran
      by_cases disconnecting : c.state = .kDisconnecting
      · simp [all, disconnecting, setInterest, record, shutdownInLoop,
          Channel.isWriting_setInterest]
        exact busy_queueWhen _ _ rfl
      · simp [disconnecting, setInterest, record]
        exact busy_queueWhen _ _ rfl
    · next remaining =>
      have some : result.count c.outputBuffer.readableBytes ≠ c.outputBuffer.readableBytes := by
        omega
      cases ran
      simp [some, record]
  · next stuck =>
    have none : result.count c.outputBuffer.readableBytes ≠ c.outputBuffer.readableBytes := by
      omega
    cases ran
    simp [none, record]

end

/-! ## Whole runs -/

namespace Loop

/-- The functors that still have something to do: in the batch, in the queue,
or on their way to it. -/
def backlog (l : Loop) : List Functor :=
  busy (l.functors ++ l.connection.pendingFunctors ++ l.posting.toList)

/-- What holds in every run, graceful or not: every promised message was
executed or still waits, and the functors stand in the order of the calls. -/
structure Orderly (l : Loop) : Prop where
  sound : Sound l.connection
  alive : Open l.connection
  whole : offered l.connection.log = (executed l.connection.log).flatten
  kept : (executed l.connection.log ++ waiting l.backlog).Perm l.promised
  ordered : Ordered l.backlog
  connected : l.connection.state = .kConnected → .shutdownInLoop ∉ l.backlog
  gentle : .forceCloseInLoop ∉ l.backlog
  finished : .shutdownWrite ∈ l.connection.log → l.connection.state = .kDisconnecting

/-- No error of the socket: a failed `::send` reports neither `EPIPE` nor
`ECONNRESET`. -/
def Healthy : Event → Prop
  | .send _ _ direct => ∀ errno, direct = .failed errno → errno.isFault = false
  | .runFunctor direct => ∀ errno, direct = .failed errno → errno.isFault = false
  | _ => True

/-- When `shutdown` in the loop thread finds nothing to write, or the writable
event takes the last queued byte of a connection that is shutting down, no
`sendInLoop` is waiting. -/
def NothingWaiting (l : Loop) : Event → Prop
  | .shutdown .loop =>
      l.posting = none → l.connection.state = .kConnected →
        l.connection.channel.isWriting = false → waiting l.backlog = []
  | .writable result =>
      l.functors = [] → l.connection.state = .kDisconnecting →
        l.connection.channel.isWriting = true →
        result.count l.connection.outputBuffer.readableBytes =
          l.connection.outputBuffer.readableBytes → waiting l.backlog = []
  | _ => True

instance (l : Loop) : ∀ event : Event, Decidable (NothingWaiting l event)
  | .shutdown .loop => inferInstanceAs (Decidable (_ → _ → _ → _))
  | .writable _ => inferInstanceAs (Decidable (_ → _ → _ → _ → _))
  | .shutdown .other | .send _ _ _ | .post | .swapFunctors | .runFunctor _ =>
      inferInstanceAs (Decidable True)

section

variable {l : Loop}

/-- Once the write side is closed in a graceful run, nothing waits and nothing
is queued. -/
theorem Orderly.settled (orderly : Orderly l) (graceful : Graceful l.promised l.connection.log)
    (closed : .shutdownWrite ∈ l.connection.log) :
    waiting l.backlog = [] ∧ l.connection.channel.isWriting = false := by
  rcases List.append_of_mem closed with ⟨before, after, split⟩
  rcases graceful before after split with ⟨-, all, done⟩
  have executedSplit : executed l.connection.log = executed before ++ executed after := by
    rw [split]
    simp [executed]
  have lengths := orderly.kept.length_eq
  rw [executedSplit, List.length_append, List.length_append, ← done.length_eq] at lengths
  have noneAfter : executed after = [] := List.length_eq_zero_iff.mp (by omega)
  have up : l.connection.state ≠ .kDisconnected := by
    rw [orderly.finished closed]
    decide
  have empty : l.connection.outputBuffer.content = [] := by
    have stream := orderly.sound.stream up
    have given : accepted l.connection.log =
        accepted before ++ accepted (.shutdownWrite :: after) := by
      rw [split]
      simp [accepted]
    rw [orderly.whole, executedSplit, noneAfter, List.append_nil, ← all, given,
      List.append_assoc] at stream
    exact (List.append_eq_nil_iff.mp (List.append_right_eq_self.mp stream)).2
  refine ⟨List.length_eq_zero_iff.mp (by omega), ?_⟩
  by_contra writing
  exact (orderly.sound.writing up).mp (by simpa using writing) empty

/-- Closing the write side of a drained connection is graceful exactly when no
message waits. -/
theorem graceful_finish_iff {promised : List (List Byte)} {log : List Effect}
    {functors : List Functor} (graceful : Graceful promised log)
    (drained : accepted log = (executed log).flatten)
    (kept : (executed log ++ waiting functors).Perm promised) :
    Graceful promised (log ++ [.shutdownWrite]) ↔ waiting functors = [] := by
  rw [graceful_shutdownWrite_iff]
  constructor
  · rintro ⟨-, -, done⟩
    have lengths := kept.length_eq
    rw [List.length_append, ← done.length_eq] at lengths
    exact List.length_eq_zero_iff.mp (by omega)
  · intro none
    rw [none, List.append_nil] at kept
    exact ⟨graceful, drained, kept⟩

/-- What the execution of one message leaves. -/
structure Executed (c : TcpConnection) (message : List Byte) (next : TcpConnection) : Prop where
  sound : Sound next
  state : next.state = c.state
  functors : busy next.pendingFunctors = busy c.pendingFunctors
  executed : executed next.log = executed c.log ++ [message]
  offered : offered next.log = offered c.log ++ message
  closed : .shutdownWrite ∈ next.log ↔ .shutdownWrite ∈ c.log

theorem sendInLoop_executed {c : TcpConnection} (sound : Sound c)
    (up : c.state ≠ .kDisconnected) (message : List Byte) {direct : SendResult}
    (healthy : ∀ errno, direct = .failed errno → errno.isFault = false) :
    ∃ next, c.sendInLoop message direct = .ok next ∧ Executed c message next := by
  rcases sendInLoop_proceeds sound message direct with ⟨next, ran, nextSound, -⟩
  rcases sendInLoop_log up ran with ⟨used, log, answer, state, -, functors⟩
  refine ⟨next, ran, nextSound, state, functors, ?_, ?_, ?_⟩
  · rw [log, executed_snoc]
    rfl
  · rw [log, offered_snoc]
    congr 1
    rcases answer with rfl | rfl
    · rfl
    · cases direct with
      | wrote room => rfl
      | failed errno => simp [Effect.offered, healthy errno rfl]
  · simp [log]

theorem Orderly.up (orderly : Orderly l) : l.connection.state ≠ .kDisconnected := by
  rcases orderly.alive with state | state <;> simp [state]

/-- While the connection is connected its write side is open. -/
theorem Orderly.unfinished (orderly : Orderly l) (connected : l.connection.state = .kConnected) :
    .shutdownWrite ∉ l.connection.log := by
  intro closed
  have disconnecting := orderly.finished closed
  rw [connected] at disconnecting
  cases disconnecting

/-- One step from an orderly and graceful state succeeds, stays orderly, and
stays graceful exactly when nothing is waiting where the source closes. -/
def Advances (l : Loop) (event : Event) : Prop :=
  ∃ next, step l event = .ok next ∧ Orderly next ∧
    (Graceful next.promised next.connection.log ↔ NothingWaiting l event)

theorem Orderly.stays (orderly : Orderly l) (graceful : Graceful l.promised l.connection.log)
    {event : Event} (idle : step l event = .ok l) (harmless : NothingWaiting l event) :
    Advances l event :=
  ⟨l, idle, orderly, ⟨fun _ => harmless, fun _ => graceful⟩⟩

/-- A message has been executed, which was promised with the call or waited at
the front of the batch. -/
theorem Orderly.executes (orderly : Orderly l) {message : List Byte} {next : TcpConnection}
    (done : Executed l.connection message next) (unfinished : .shutdownWrite ∉ l.connection.log)
    {functors : List Functor} {promised : List (List Byte)}
    (kept : (executed l.connection.log ++ [message] ++
      waiting (Loop.backlog { l with functors := functors })).Perm promised)
    (ordered : Ordered (Loop.backlog { l with functors := functors }))
    (inside : ∀ functor ∈ Loop.backlog { l with functors := functors }, functor ∈ l.backlog) :
    Orderly { l with connection := next, functors := functors, promised := promised } := by
  have backlog : Loop.backlog { l with
      connection := next, functors := functors, promised := promised } =
        Loop.backlog { l with functors := functors } := by
    simp only [Loop.backlog, busy_append, done.functors]
  constructor
  · exact done.sound
  · simp only [Open, done.state]
    exact orderly.alive
  · simp [done.offered, done.executed, orderly.whole]
  · rw [backlog]
    simp only [done.executed]
    exact kept
  · rw [backlog]
    exact ordered
  · intro connected
    rw [backlog]
    exact fun member => orderly.connected (done.state.symm.trans connected) (inside _ member)
  · rw [backlog]
    exact fun member => orderly.gentle (inside _ member)
  · exact fun closed => absurd (done.closed.mp closed) unfinished

/-- `send` in another thread is about to queue its functor. -/
theorem Orderly.posts (orderly : Orderly l) (free : l.posting = none)
    (connected : l.connection.state = .kConnected) (message : List Byte) :
    Orderly { l with
      posting := some (.sendInLoop message), promised := l.promised ++ [message] } := by
  have backlog : Loop.backlog { l with
      posting := some (.sendInLoop message), promised := l.promised ++ [message] } =
      l.backlog ++ [.sendInLoop message] := by
    simp [Loop.backlog, busy_append, free]
    rfl
  constructor
  · exact orderly.sound
  · exact orderly.alive
  · exact orderly.whole
  · rw [backlog, waiting_append, ← List.append_assoc]
    exact orderly.kept.append_right [message]
  · rw [backlog]
    exact ordered_snoc_other _ (orderly.connected connected) (by nofun)
  · intro _
    rw [backlog]
    simpa using orderly.connected connected
  · rw [backlog]
    simpa using orderly.gentle
  · exact orderly.finished

theorem send_advances (orderly : Orderly l) (graceful : Graceful l.promised l.connection.log)
    (thread : Thread) (message : List Byte) (direct : SendResult)
    (healthy : Healthy (.send thread message direct)) :
    Advances l (.send thread message direct) := by
  by_cases enabled : l.posting = none ∧ l.connection.state = .kConnected
  · rcases enabled with ⟨free, connected⟩
    have unfinished := orderly.unfinished connected
    cases thread with
    | loop =>
        rcases sendInLoop_executed orderly.sound orderly.up message healthy with
          ⟨next, ran, done⟩
        refine ⟨{ l with connection := next, promised := l.promised ++ [message] }, ?_, ?_, ?_⟩
        · simp [step, free, connected, send, ran, bind, Except.bind, pure, Except.pure]
        · apply orderly.executes done unfinished _ orderly.ordered fun _ member => member
          rw [List.append_assoc]
          exact (List.perm_append_comm.append_left _).trans
            (by simpa using orderly.kept.append_right [message])
        · exact ⟨fun _ => trivial,
            fun _ => graceful_of_unfinished fun closed => unfinished (done.closed.mp closed)⟩
    | other =>
        exact ⟨_, by simp [step, free, connected], orderly.posts free connected message,
          ⟨fun _ => trivial, fun _ => graceful_of_unfinished unfinished⟩⟩
  · exact orderly.stays graceful (by simp [step, enabled]) trivial

/-- A connection that executed no further message, in the same queue. -/
theorem Orderly.update (orderly : Orderly l) {c : TcpConnection} (sound : Sound c)
    (state : c.state = l.connection.state ∨ c.state = .kDisconnecting)
    (functors : busy c.pendingFunctors = busy l.connection.pendingFunctors)
    (sameExecuted : executed c.log = executed l.connection.log)
    (sameOffered : offered c.log = offered l.connection.log)
    (finished : .shutdownWrite ∈ c.log → c.state = .kDisconnecting) :
    Orderly { l with connection := c } := by
  have backlog : Loop.backlog { l with connection := c } = l.backlog := by
    simp only [Loop.backlog, busy_append, functors]
  exact
    { sound := sound
      alive := by
        rcases state with same | disconnecting
        · simp only [Open, same]
          exact orderly.alive
        · exact Or.inr disconnecting
      whole := by simp only [sameOffered, sameExecuted, orderly.whole]
      kept := by
        rw [backlog]
        simp only [sameExecuted]
        exact orderly.kept
      ordered := by
        rw [backlog]
        exact orderly.ordered
      connected := by
        intro connected
        rw [backlog]
        rcases state with same | disconnecting
        · exact orderly.connected (same.symm.trans connected)
        · cases connected.symm.trans disconnecting
      gentle := by
        rw [backlog]
        exact orderly.gentle
      finished := finished }

/-- With nothing queued the kernel has every executed byte. -/
theorem Orderly.drained (orderly : Orderly l) (idle : l.connection.channel.isWriting = false) :
    accepted l.connection.log = (executed l.connection.log).flatten := by
  have empty : l.connection.outputBuffer.content = [] := by
    by_contra queued
    have writing := (orderly.sound.writing orderly.up).mpr queued
    rw [idle] at writing
    cases writing
  have stream := orderly.sound.stream orderly.up
  rw [empty, List.append_nil] at stream
  rw [stream, orderly.whole]

/-- `shutdownInLoop` on a connection that is shutting down. -/
theorem Orderly.shutdownInLoop (orderly : Orderly l)
    (graceful : Graceful l.promised l.connection.log)
    (disconnecting : l.connection.state = .kDisconnecting) :
    Orderly { l with connection := l.connection.shutdownInLoop } ∧
      (Graceful l.promised l.connection.shutdownInLoop.log ↔
        (l.connection.channel.isWriting = false → waiting l.backlog = [])) := by
  have sound := shutdownInLoop_sound orderly.sound
  unfold TcpConnection.shutdownInLoop at sound ⊢
  cases writing : l.connection.channel.isWriting with
  | true =>
      simp only [if_true]
      exact ⟨orderly, by simpa using graceful⟩
  | false =>
      simp only [writing, Bool.false_eq_true, if_false] at sound ⊢
      constructor
      · exact orderly.update sound (Or.inl rfl) rfl (by simp [record, executed])
          (by simp [record, Effect.offered]) (fun _ => disconnecting)
      · simp only [forall_const]
        exact graceful_finish_iff graceful (orderly.drained writing) orderly.kept

theorem shutdown_advances (orderly : Orderly l)
    (graceful : Graceful l.promised l.connection.log) (thread : Thread) :
    Advances l (.shutdown thread) := by
  by_cases enabled : l.posting = none ∧ l.connection.state = .kConnected
  · rcases enabled with ⟨free, connected⟩
    have begun : Orderly { l with connection := l.connection.setState .kDisconnecting } :=
      orderly.update (disconnecting_sound orderly.sound orderly.alive) (Or.inr rfl) rfl rfl rfl
        (fun _ => rfl)
    cases thread with
    | loop =>
        rcases begun.shutdownInLoop graceful rfl with ⟨next, closes⟩
        refine ⟨_, by simp [step, free, connected, shutdown], next, ?_⟩
        rw [closes]
        exact ⟨fun safe _ _ => safe, fun safe => safe free connected⟩
    | other =>
        refine ⟨{ l with
            connection := l.connection.setState .kDisconnecting
            posting := some .shutdownInLoop }, by simp [step, free, connected], ?_,
          ⟨fun _ => trivial, fun _ => graceful⟩⟩
        have backlog : Loop.backlog { l with
            connection := l.connection.setState .kDisconnecting
            posting := some .shutdownInLoop } = l.backlog ++ [.shutdownInLoop] := by
          simp [Loop.backlog, busy_append, free, setState]
          rfl
        exact
          { sound := begun.sound
            alive := begun.alive
            whole := begun.whole
            kept := by
              have nothing : waiting [.shutdownInLoop] = [] := rfl
              rw [backlog, waiting_append, nothing, List.append_nil]
              exact orderly.kept
            ordered := by
              rw [backlog]
              exact ordered_snoc_shutdown orderly.ordered
            connected := by
              intro impossible
              cases impossible
            gentle := by
              rw [backlog]
              simpa using orderly.gentle
            finished := fun _ => rfl }
  · refine orderly.stays graceful (by simp [step, enabled]) ?_
    cases thread with
    | loop => exact fun free connected => absurd ⟨free, connected⟩ enabled
    | other => trivial

/-- Functors that only move from one queue to the next. -/
theorem Orderly.reposition (orderly : Orderly l) {functors pendingFunctors : List Functor}
    {posting : Option Functor}
    (same : busy (functors ++ pendingFunctors ++ posting.toList) = l.backlog) :
    Orderly { l with
      connection := { l.connection with pendingFunctors := pendingFunctors }
      functors := functors
      posting := posting } where
  sound := orderly.sound.withFunctors pendingFunctors
  alive := orderly.alive
  whole := orderly.whole
  kept := by
    simp only [Loop.backlog, same]
    exact orderly.kept
  ordered := by
    simp only [Loop.backlog, same]
    exact orderly.ordered
  connected := by
    simp only [Loop.backlog, same]
    exact orderly.connected
  gentle := by
    simp only [Loop.backlog, same]
    exact orderly.gentle
  finished := orderly.finished

theorem post_advances (orderly : Orderly l)
    (graceful : Graceful l.promised l.connection.log) : Advances l .post := by
  cases posting : l.posting with
  | none => exact orderly.stays graceful (by simp [step, posting]) trivial
  | some functor =>
      refine ⟨{ l with connection := l.connection.queueInLoop functor, posting := none },
        by simp [step, posting], ?_, ⟨fun _ => trivial, fun _ => graceful⟩⟩
      apply orderly.reposition
      simp [Loop.backlog, posting]

theorem swapFunctors_advances (orderly : Orderly l)
    (graceful : Graceful l.promised l.connection.log) : Advances l .swapFunctors := by
  by_cases idle : l.functors = []
  · refine ⟨{ l with
        connection := { l.connection with pendingFunctors := [] }
        functors := l.connection.pendingFunctors }, by simp [step, idle], ?_,
      ⟨fun _ => trivial, fun _ => graceful⟩⟩
    apply orderly.reposition
    simp [Loop.backlog, idle]
  · exact orderly.stays graceful (by simp [step, idle]) trivial

theorem backlog_batch {functor : Functor} {rest : List Functor}
    (batch : l.functors = functor :: rest) :
    l.backlog = busy [functor] ++ Loop.backlog { l with functors := rest } := by
  simp only [Loop.backlog, batch]
  rw [← busy_append]
  simp

/-- A functor that carries no message leaves the queue. -/
theorem Orderly.pop (orderly : Orderly l) {functor : Functor} {rest : List Functor}
    (batch : l.functors = functor :: rest) (silent : waiting [functor] = []) :
    Orderly { l with functors := rest } := by
  have backlog := backlog_batch batch
  have nothing : waiting (busy [functor]) = [] := by
    cases functor with
    | sendInLoop message => cases silent
    | _ => rfl
  have inside : ∀ other, other ∈ Loop.backlog { l with functors := rest } →
      other ∈ l.backlog := by
    intro other member
    rw [backlog]
    exact List.mem_append_right _ member
  exact
    { sound := orderly.sound
      alive := orderly.alive
      whole := orderly.whole
      kept := by
        have kept := orderly.kept
        rwa [backlog, waiting_append, nothing, List.nil_append] at kept
      ordered := by
        have ordered := orderly.ordered
        rw [backlog] at ordered
        cases functor with
        | writeCompleteCallback => exact ordered
        | highWaterMarkCallback size => exact ordered
        | _ => exact ordered.2
      connected := fun connected member => orderly.connected connected (inside _ member)
      gentle := fun member => orderly.gentle (inside _ member)
      finished := orderly.finished }

theorem runFunctor_advances (orderly : Orderly l)
    (graceful : Graceful l.promised l.connection.log) (direct : SendResult)
    (healthy : Healthy (.runFunctor direct)) : Advances l (.runFunctor direct) := by
  cases batch : l.functors with
  | nil => exact orderly.stays graceful (by simp [step, batch]) trivial
  | cons functor rest =>
      have backlog := backlog_batch batch
      cases functor with
      | sendInLoop message =>
          rcases sendInLoop_executed orderly.sound orderly.up message healthy with
            ⟨next, ran, done⟩
          have unfinished : .shutdownWrite ∉ l.connection.log := by
            intro closed
            have settled := (orderly.settled graceful closed).1
            rw [backlog, waiting_append] at settled
            cases settled
          have inside : ∀ other, other ∈ Loop.backlog { l with functors := rest } →
              other ∈ l.backlog := by
            intro other member
            rw [backlog]
            exact List.mem_append_right _ member
          refine ⟨{ l with connection := next, functors := rest }, ?_, ?_, ?_⟩
          · simp [step, batch, perform, ran, bind, Except.bind, pure, Except.pure]
          · have kept := orderly.kept
            have ordered := orderly.ordered
            rw [backlog, waiting_append, ← List.append_assoc] at kept
            rw [backlog] at ordered
            exact orderly.executes done unfinished kept ordered.2 inside
          · exact ⟨fun _ => trivial,
              fun _ => graceful_of_unfinished fun closed => unfinished (done.closed.mp closed)⟩
      | shutdownInLoop =>
          have ordered := orderly.ordered
          rw [backlog] at ordered
          have disconnecting : l.connection.state = .kDisconnecting := by
            rcases orderly.alive with connected | disconnecting
            · exact absurd (by rw [backlog]; exact List.mem_cons_self)
                (orderly.connected connected)
            · exact disconnecting
          rcases (orderly.pop batch rfl).shutdownInLoop graceful disconnecting with
            ⟨next, closes⟩
          refine ⟨{ l with connection := l.connection.shutdownInLoop, functors := rest },
            by simp [step, batch, perform, bind, Except.bind, pure, Except.pure], next, ?_⟩
          exact ⟨fun _ => trivial, fun _ => closes.mpr fun _ => ordered.1 rfl⟩
      | forceCloseInLoop =>
          exact absurd (by rw [backlog]; exact List.mem_cons_self) orderly.gentle
      | writeCompleteCallback =>
          exact ⟨{ l with functors := rest },
            by simp [step, batch, perform, userCode, bind, Except.bind, pure, Except.pure],
            orderly.pop batch rfl, ⟨fun _ => trivial, fun _ => graceful⟩⟩
      | highWaterMarkCallback size =>
          exact ⟨{ l with functors := rest },
            by simp [step, batch, perform, userCode, bind, Except.bind, pure, Except.pure],
            orderly.pop batch rfl, ⟨fun _ => trivial, fun _ => graceful⟩⟩

theorem writable_advances (orderly : Orderly l)
    (graceful : Graceful l.promised l.connection.log) (result : SendResult) :
    Advances l (.writable result) := by
  by_cases idle : l.functors = []
  · cases writing : l.connection.channel.isWriting with
    | false =>
        refine orderly.stays graceful ?_ ?_
        · simp only [step, if_pos idle, handleWrite, writing]
          rfl
        · intro _ _ busy
          rw [writing] at busy
          cases busy
    | true =>
        have unfinished : .shutdownWrite ∉ l.connection.log := by
          intro closed
          have settled := (orderly.settled graceful closed).2
          rw [writing] at settled
          cases settled
        rcases handleWrite_proceeds orderly.sound result with ⟨next, ran, sound, -⟩
        rcases handleWrite_log orderly.sound writing ran with ⟨log, state, functors⟩
        have offeredOne : offered (l.connection.log ++
            [.handleWrite l.connection.outputBuffer.content result]) =
            offered l.connection.log := by
          simp [Effect.offered]
        refine ⟨{ l with connection := next }, ?_, ?_⟩
        · simp [step, idle, ran, bind, Except.bind, pure, Except.pure]
        split at log
        · next closing =>
          have drained : accepted (l.connection.log ++
              [.handleWrite l.connection.outputBuffer.content result]) =
              (executed (l.connection.log ++
                [.handleWrite l.connection.outputBuffer.content result])).flatten := by
            have stream := orderly.sound.stream orderly.up
            have all := closing.1
            rw [orderly.sound.output.readable] at all
            simp [executed, Effect.accepted, SendResult.taken_eq_take, all, stream,
              orderly.whole]
          have unfinishedOne : .shutdownWrite ∉ l.connection.log ++
              [.handleWrite l.connection.outputBuffer.content result] := by
            simp [unfinished]
          rw [List.append_cons] at log
          constructor
          · refine orderly.update sound (Or.inl state) functors ?_ ?_ fun _ => ?_
            · simp [log, executed]
            · rw [log, offered_snoc, offeredOne]
              exact List.append_nil _
            · exact state.trans closing.2
          · simp only [log]
            rw [graceful_finish_iff (graceful_of_unfinished unfinishedOne) drained
              (by simpa [executed] using orderly.kept)]
            exact ⟨fun none _ _ _ _ => none,
              fun safe => safe idle closing.2 writing closing.1⟩
        · next open_ =>
          constructor
          · refine orderly.update sound (Or.inl state) functors ?_ ?_ ?_
            · simp [log, executed]
            · rw [log, offeredOne]
            · intro closed
              simp [log, unfinished] at closed
          · exact ⟨fun _ _ disconnecting _ all => absurd ⟨all, disconnecting⟩ open_,
              fun _ => graceful_of_unfinished (by simp [log, unfinished])⟩
  · exact orderly.stays graceful (by simp [step, idle]) fun empty => absurd empty idle

theorem step_advances (orderly : Orderly l) (graceful : Graceful l.promised l.connection.log)
    (event : Event) (healthy : Healthy event) : Advances l event := by
  cases event with
  | send thread message direct =>
      exact send_advances orderly graceful thread message direct healthy
  | shutdown thread => exact shutdown_advances orderly graceful thread
  | post => exact post_advances orderly graceful
  | swapFunctors => exact swapFunctors_advances orderly graceful
  | runFunctor direct => exact runFunctor_advances orderly graceful direct healthy
  | writable result => exact writable_advances orderly graceful result

theorem run_graceful_iff {events : List Event} (orderly : Orderly l)
    (graceful : Graceful l.promised l.connection.log)
    (healthy : ∀ event ∈ events, Healthy event) :
    Throughout step (fun l => Graceful l.promised l.connection.log) l events ↔
      AllSteps step NothingWaiting l events := by
  apply throughout_iff_all_steps Orderly _ _ orderly graceful
  · intro l next event member orderly graceful taken
    obtain ⟨other, stepped, advanced⟩ := step_advances orderly graceful event
      (healthy event member)
    rw [taken] at stepped
    cases stepped
    exact advanced
  · intro l fault event member orderly graceful failed
    obtain ⟨other, stepped, -⟩ := step_advances orderly graceful event (healthy event member)
    rw [failed] at stepped
    cases stepped

end

/-- A connection that was just reported up, with nothing sent yet. -/
theorem start_orderly (sockfd : Int) (options : Options) {c : TcpConnection}
    (established : (new sockfd options).connectEstablished [] = .ok c) :
    Orderly (start c) ∧ Graceful [] c.log := by
  have log : c.log = [.connectionCallback true] := by
    cases established
    rfl
  have functors : c.pendingFunctors = [] := by
    cases established
    rfl
  have idle : Loop.backlog (start c) = [] := by
    simp [Loop.backlog, start, functors, busy]
  rcases connectEstablished_opens (new_sound sockfd options) rfl [] with
    ⟨opened, same, sound, alive, -⟩
  cases established.symm.trans same
  constructor
  · exact
      { sound := sound
        alive := alive
        whole := by
          simp only [start, log]
          rfl
        kept := by
          rw [idle]
          simp [start, log, executed, waiting]
        ordered := by
          rw [idle]
          trivial
        connected := by simp [idle]
        gentle := by simp [idle]
        finished := by simp [start, log] }
  · exact graceful_of_unfinished (by simp [log])

/-- For every run of `send` and `shutdown` calls in any threads, functors and
writable events on a connected connection without socket errors: after the
write side is closed no `::send` is made, and by then every message promised
before `shutdown` is with the kernel, if and only if no `sendInLoop` functor
waits whenever the loop thread closes the write side from `shutdown` or from
the drain of `handleWrite`. -/
theorem shutdown_graceful_iff (sockfd : Int) (options : Options) (c : TcpConnection)
    (established : (new sockfd options).connectEstablished [] = .ok c) (events : List Event)
    (healthy : ∀ event ∈ events, Healthy event) :
    Throughout step (fun l => Graceful l.promised l.connection.log) (start c) events ↔
      AllSteps step NothingWaiting (start c) events :=
  run_graceful_iff (start_orderly sockfd options established).1
    (start_orderly sockfd options established).2 healthy

/-- A message and then the shutdown, both from another thread. -/
theorem posted_shutdown_graceful :
    Throughout step (fun l => Graceful l.promised l.connection.log)
      (start ((((new 5 ⟨false, false, 64⟩).setState .kConnected).setInterest
        .enableReading).record (.connectionCallback true)))
      [.send .other [7] (.wrote 0), .post, .shutdown .other, .post, .swapFunctors,
        .runFunctor (.wrote 1), .runFunctor (.wrote 0)] :=
  (shutdown_graceful_iff 5 ⟨false, false, 64⟩ _ rfl
    [.send .other [7] (.wrote 0), .post, .shutdown .other, .post, .swapFunctors,
      .runFunctor (.wrote 1), .runFunctor (.wrote 0)]
    (by simp [Healthy])).mpr (by decide)

/-- A message from another thread is still in the queue when the loop thread
calls `shutdown`: the write side is closed first and `::send` comes after it. -/
theorem shutdown_overtakes_message :
    ∃ c final, (new 5 ⟨false, false, 64⟩).connectEstablished [] = .ok c ∧
      run step (start c)
        [.send .other [7] (.wrote 0), .post, .shutdown .loop, .swapFunctors,
          .runFunctor (.wrote 1)] = .ok final ∧
      final.promised = [[7]] ∧
      final.connection.log = [.connectionCallback true, .shutdownWrite,
        .sendInLoop [7] (some (.wrote 1))] ∧
      ¬Graceful final.promised final.connection.log := by
  refine ⟨_, _, rfl, rfl, rfl, rfl, ?_⟩
  intro graceful
  have after := (graceful [.connectionCallback true] [.sendInLoop [7] (some (.wrote 1))] rfl).1
  exact absurd (after (.sendInLoop [7] (some (.wrote 1))) (by simp)) (by decide)

end Loop

end Msmuduo.TcpConnection
