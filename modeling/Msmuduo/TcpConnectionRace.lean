import Msmuduo.TcpConnectionLife

/-!
# Closing from another thread

`shutdown` and `forceClose` test `state_`, store `kDisconnecting` and post a
functor. On a thread of their own these are three steps, and the loop thread may
close the connection in between: the store then takes `kDisconnected` back, and
the functor finds a connection it can close once more.

The loop thread works off an agenda of tasks, so that the steps of the other
threads come between the test, the store and the callbacks of `handleClose` as
well. A call made by user code in the loop thread is one task, because a store of
`kDisconnecting` between its test and its store is as good as one behind it. When no
other thread comes in between, the tasks do what the functions of the connection do.
-/

namespace Msmuduo.TcpConnection

open Msmuduo.Machine Msmuduo.Buffer

set_option autoImplicit false

/-! ## The tasks of the loop thread -/

/-- `goDown` is the store of `kDisconnected` with `disableAll()`, and `downCallback`
the call of `connectionCallback_` behind it. -/
inductive Task where
  | connectEstablished (user : List UserCall)
  | connectionCallback (user : List UserCall)
  | call (userCall : UserCall)
  | handleClose (user : List UserCall)
  | goDown
  | downCallback (user : List UserCall)
  | closeCallback
  | handleError
  | handleRead (receive : Receive) (user : List UserCall)
  | handleWrite (result : SendResult)
  | removeChannel
  deriving DecidableEq, Repr

namespace Task

/-- The task closes the connection, or may do so. -/
def closes : Task → Bool
  | .handleClose _ | .goDown | .handleRead _ _ => true
  | _ => false

def isDownCallback : Task → Bool
  | .downCallback _ => true
  | _ => false

def isCloseCallback : Task → Bool
  | .closeCallback => true
  | _ => false

/-- The task has no part in a close. -/
def calm (task : Task) : Bool :=
  !task.closes && !task.isDownCallback && !task.isCloseCallback

end Task

/-- What the task does at once and what it leaves to be done next. -/
def Task.perform (c : TcpConnection) : Task → Except Assertion (TcpConnection × List Task)
  | .connectEstablished user => do
      require (c.state = .kConnecting) .connectEstablishedState
      return ((c.setState .kConnected).setInterest .enableReading, [.connectionCallback user])
  | .connectionCallback user | .downCallback user =>
      .ok (c.record (.connectionCallback c.connected), user.map .call)
  | .call userCall => do
      let next ← c.call .loop userCall
      return (next, [])
  | .handleClose user => do
      require (Open c) .handleCloseState
      return (c.record .handleClose, [.goDown, .downCallback user, .closeCallback])
  | .goDown => .ok ((c.setState .kDisconnected).setInterest .disableAll, [])
  | .closeCallback => .ok (c.record .closeCallback, [])
  | .handleError => .ok (c.handleError, [])
  | .handleRead receive user => do
      let result ← inBuffer (c.inputBuffer.readFd receive)
      let read := { c with inputBuffer := result.buffer }
      if 0 < result.retReadCnt then return (read.record .messageCallback, user.map .call)
      else if result.retReadCnt = 0 then return (read, [.handleClose user])
      else return (read.handleError, [])
  | .handleWrite result => do
      let next ← c.handleWrite result
      return (next, [])
  | .removeChannel => do
      let next ← c.removeChannel
      return (next, [])

/-- `Channel::handleEvent`: the callbacks for the events that were returned. -/
def eventTasks (revents : EventMask) (answers : Answers) : List Task :=
  (if EventMask.has revents pollHup && !EventMask.has revents pollIn then
    [.handleClose answers.closing] else []) ++
  (if EventMask.has revents (pollErr ||| pollNval) then [.handleError] else []) ++
  (if EventMask.has revents (pollIn ||| pollPri) then
    [.handleRead answers.receive answers.reading] else []) ++
  (if EventMask.has revents pollOut then [.handleWrite answers.sending] else [])

/-- `connectDestroyed` with its test of `state_`. -/
def destroyTasks (c : TcpConnection) (user : List UserCall) : List Task :=
  if c.state = .kConnected then [.goDown, .downCallback user, .removeChannel]
  else [.removeChannel]

/-- A functor of the queue with its test of `state_`. -/
def startFunctor (c : TcpConnection) (functor : Functor) (direct : SendResult)
    (user : List UserCall) : Except Assertion (TcpConnection × List Task) :=
  match functor with
  | .sendInLoop message => do
      let next ← c.sendInLoop message direct
      return (next, [])
  | .shutdownInLoop => .ok (c.shutdownInLoop, [])
  | .forceCloseInLoop => .ok (c, if Open c then [.handleClose user] else [])
  | .writeCompleteCallback => .ok (c, user.map .call)
  | .highWaterMarkCallback _ => .ok (c, user.map .call)

/-! ## The threads -/

/-- The calls that close a connection. `forceCloseWithDelay` does what `forceClose`
does. -/
inductive Close where
  | shutdown
  | forceClose
  deriving DecidableEq, Repr

/-- The test of `state_`. -/
def Close.passes (close : Close) (c : TcpConnection) : Prop :=
  match close with
  | .shutdown => c.state = .kConnected
  | .forceClose => Open c

instance (close : Close) (c : TcpConnection) : Decidable (close.passes c) :=
  match close with
  | .shutdown => inferInstanceAs (Decidable (c.state = .kConnected))
  | .forceClose => inferInstanceAs (Decidable (Open c))

def Close.functor : Close → Functor
  | .shutdown => .shutdownInLoop
  | .forceClose => .forceCloseInLoop

/-- `tested` and `stored` are the calls on other threads in front of their store
and in front of their post. `down` records that `state_` was `kDisconnected`, and
`downs` counts the calls of `connectionCallback_` for it. -/
structure Raced where
  connection : TcpConnection
  agenda : List Task
  tested : List Close
  stored : List Close
  down : Bool
  downs : Nat
  deriving DecidableEq, Repr

namespace Raced

def new (sockfd : Int) (options : Options) : Raced where
  connection := TcpConnection.new sockfd options
  agenda := []
  tested := []
  stored := []
  down := false
  downs := 0

/-- The loop thread begins something when its agenda is empty and goes on with
`proceed`. The other threads take the steps of their calls, the `i`-th of those
that have it next. -/
inductive Event where
  | connectEstablished (user : List UserCall)
  | connectDestroyed (user : List UserCall)
  | handleEvent (revents : EventMask) (answers : Answers)
  | call (userCall : UserCall)
  | functor (direct : SendResult) (user : List UserCall)
  | proceed
  | test (close : Close)
  | store (i : Nat)
  | post (i : Nat)
  deriving DecidableEq, Repr

def begin (r : Raced) (tasks : List Task) : Raced :=
  if r.agenda = [] then { r with agenda := tasks } else r

/-- The task at the head of the agenda is done. -/
def advance (r : Raced) (task : Task) (rest : List Task) (c : TcpConnection)
    (more : List Task) : Raced :=
  { r with
    connection := c
    agenda := more ++ rest
    down := r.down || c.state == .kDisconnected
    downs := r.downs + task.isDownCallback.toNat }

def step (r : Raced) : Event → Except Assertion Raced
  | .connectEstablished user => .ok (r.begin [.connectEstablished user])
  | .connectDestroyed user => .ok (r.begin (destroyTasks r.connection user))
  | .handleEvent revents answers =>
      if r.agenda = [] ∧ Polled r.connection revents then
        .ok { r with
          connection :=
            { r.connection with channel := { r.connection.channel with revents := revents } }
          agenda := eventTasks revents answers }
      else .ok r
  | .call userCall => .ok (r.begin [.call userCall])
  | .functor direct user =>
      match r.agenda, r.connection.pendingFunctors with
      | [], functor :: rest => do
          let (c, tasks) ← { r.connection with pendingFunctors := rest }.startFunctor functor
            direct user
          return { r with connection := c, agenda := tasks }
      | _, _ => .ok r
  | .proceed =>
      match r.agenda with
      | [] => .ok r
      | task :: rest => do
          let (c, more) ← task.perform r.connection
          return r.advance task rest c more
  | .test close =>
      .ok (if close.passes r.connection then { r with tested := r.tested ++ [close] } else r)
  | .store i =>
      match r.tested[i]? with
      | some close =>
          .ok { r with
            connection := r.connection.setState .kDisconnecting
            tested := r.tested.eraseIdx i
            stored := r.stored ++ [close] }
      | none => .ok r
  | .post i =>
      match r.stored[i]? with
      | some close =>
          .ok { r with
            connection := r.connection.queueInLoop close.functor
            stored := r.stored.eraseIdx i }
      | none => .ok r

/-! What the events do that have a condition. -/

section

variable {r next : Raced}

theorem handleEvent_cases {revents : EventMask} {answers : Answers}
    (taken : step r (.handleEvent revents answers) = .ok next) :
    next = r ∨ (r.agenda = [] ∧ Polled r.connection revents) ∧ next = { r with
      connection :=
        { r.connection with channel := { r.connection.channel with revents := revents } }
      agenda := eventTasks revents answers } := by
  simp only [step] at taken
  split at taken
  · next possible => exact Or.inr ⟨possible, (Except.ok.inj taken).symm⟩
  · exact Or.inl (Except.ok.inj taken).symm

/-- A functor is run, or the queue cannot be popped now. -/
theorem functor_cases {direct : SendResult} {user : List UserCall}
    (taken : step r (.functor direct user) = .ok next) :
    (next = r ∧ ∀ functor rest, r.agenda = [] → r.connection.pendingFunctors ≠ functor :: rest) ∨
      ∃ functor rest c tasks, r.agenda = [] ∧ r.connection.pendingFunctors = functor :: rest ∧
        { r.connection with pendingFunctors := rest }.startFunctor functor direct user =
          .ok (c, tasks) ∧
        next = { r with connection := c, agenda := tasks } := by
  simp only [step] at taken
  split at taken
  · next functor rest idle queue =>
    rcases bind_ok_inv taken with ⟨⟨c, tasks⟩, ran, done⟩
    exact Or.inr ⟨functor, rest, c, tasks, idle, queue, ran, (Except.ok.inj done).symm⟩
  · next nothing => exact Or.inl ⟨(Except.ok.inj taken).symm, nothing⟩

theorem proceed_cases (taken : step r .proceed = .ok next) :
    next = r ∨ ∃ task rest c more, r.agenda = task :: rest ∧
      task.perform r.connection = .ok (c, more) ∧ next = r.advance task rest c more := by
  simp only [step] at taken
  split at taken
  · exact Or.inl (Except.ok.inj taken).symm
  · next task rest agenda =>
    rcases bind_ok_inv taken with ⟨⟨c, more⟩, ran, done⟩
    exact Or.inr ⟨task, rest, c, more, agenda, ran, (Except.ok.inj done).symm⟩

theorem store_cases {i : Nat} (taken : step r (.store i) = .ok next) :
    next = r ∨ ∃ close, r.tested[i]? = some close ∧ next = { r with
      connection := r.connection.setState .kDisconnecting
      tested := r.tested.eraseIdx i
      stored := r.stored ++ [close] } := by
  simp only [step] at taken
  split at taken
  · next close tested => exact Or.inr ⟨close, tested, (Except.ok.inj taken).symm⟩
  · exact Or.inl (Except.ok.inj taken).symm

theorem post_cases {i : Nat} (taken : step r (.post i) = .ok next) :
    next = r ∨ ∃ close, r.stored[i]? = some close ∧ next = { r with
      connection := r.connection.queueInLoop close.functor
      stored := r.stored.eraseIdx i } := by
  simp only [step] at taken
  split at taken
  · next close stored => exact Or.inr ⟨close, stored, (Except.ok.inj taken).symm⟩
  · exact Or.inl (Except.ok.inj taken).symm

end

end Raced

/-! ## Without interference -/

/-- The loop thread works the tasks off and no other thread comes in between. -/
inductive Uninterrupted : TcpConnection → List Task → TcpConnection → Prop
  | done (c : TcpConnection) : Uninterrupted c [] c
  | task {c middle next : TcpConnection} {task : Task} {more rest : List Task}
      (performed : task.perform c = .ok (middle, more))
      (later : Uninterrupted middle (more ++ rest) next) : Uninterrupted c (task :: rest) next

namespace Uninterrupted

variable {c middle next : TcpConnection}

theorem single {task : Task} {more : List Task} (performed : task.perform c = .ok (middle, more))
    (later : Uninterrupted middle more next) : Uninterrupted c [task] next := by
  apply Uninterrupted.task performed
  rwa [List.append_nil]

theorem append {tasks rest : List Task} (first : Uninterrupted c tasks middle)
    (second : Uninterrupted middle rest next) : Uninterrupted c (tasks ++ rest) next := by
  induction first with
  | done c => exact second
  | task performed _ ih =>
      rw [List.cons_append]
      apply Uninterrupted.task performed
      rw [← List.append_assoc]
      exact ih second

theorem userCode {user : List UserCall} (ran : c.userCode user = .ok next) :
    Uninterrupted c (user.map .call) next := by
  induction user generalizing c with
  | nil =>
      cases ran
      exact .done _
  | cons userCall user ih =>
      rcases run_cons_inv ran with ⟨called, calls, later⟩
      have performed : Task.perform c (.call userCall) = .ok (called, []) := by
        simp only [Task.perform, calls]
        rfl
      exact .task performed (ih later)

theorem connectionCallback {user : List UserCall} (ran : c.connectionCallback user = .ok next) :
    Uninterrupted c [.connectionCallback user] next :=
  single rfl (userCode ran)

theorem downCallback {user : List UserCall} (ran : c.connectionCallback user = .ok next) :
    Uninterrupted c [.downCallback user] next :=
  single rfl (userCode ran)

theorem connectEstablished {user : List UserCall} (ran : c.connectEstablished user = .ok next) :
    Uninterrupted c [.connectEstablished user] next := by
  rcases bind_ok_inv ran with ⟨passed, required, reported⟩
  have performed : Task.perform c (.connectEstablished user) =
      .ok ((c.setState .kConnected).setInterest .enableReading, [.connectionCallback user]) := by
    simp only [Task.perform, require_ok (require_inv required)]
    rfl
  exact single performed (connectionCallback reported)

theorem goDown {user : List UserCall} {rest : List Task}
    (reported : ((c.setState .kDisconnected).setInterest .disableAll).connectionCallback user =
      .ok middle)
    (later : Uninterrupted middle rest next) :
    Uninterrupted c (.goDown :: .downCallback user :: rest) next :=
  .task rfl ((downCallback reported).append later)

theorem handleClose {user : List UserCall} (ran : c.handleClose user = .ok next) :
    Uninterrupted c [.handleClose user] next := by
  rcases bind_ok_inv ran with ⟨passed, required, ran⟩
  rcases bind_ok_inv ran with ⟨down, reported, done⟩
  cases done
  have alive : Open c := require_inv required
  have performed : Task.perform c (.handleClose user) =
      .ok (c.record .handleClose, [.goDown, .downCallback user, .closeCallback]) := by
    simp only [Task.perform, require_ok alive]
    rfl
  exact single performed (goDown reported (single rfl (.done _)))

theorem handleRead {receive : Receive} {user : List UserCall}
    (ran : c.handleRead receive user = .ok next) :
    Uninterrupted c [.handleRead receive user] next := by
  rcases bind_ok_inv ran with ⟨result, read, ran⟩
  have performed (more : TcpConnection × List Task)
      (branch : (if 0 < result.retReadCnt then
          .ok (({ c with inputBuffer := result.buffer }).record .messageCallback,
            user.map .call)
        else if result.retReadCnt = 0 then
          .ok ({ c with inputBuffer := result.buffer }, [.handleClose user])
        else .ok (({ c with inputBuffer := result.buffer }).handleError, [])) =
          (.ok more : Except Assertion (TcpConnection × List Task))) :
      Task.perform c (.handleRead receive user) = .ok more := by
    simp only [Task.perform, read]
    exact branch
  split at ran
  · next positive => exact single (performed _ (if_pos positive)) (userCode ran)
  · next nonpositive =>
    split at ran
    · next zero =>
      exact single (performed _ ((if_neg nonpositive).trans (if_pos zero))) (handleClose ran)
    · next nonzero =>
      cases ran
      exact single (performed _ ((if_neg nonpositive).trans (if_neg nonzero))) (.done _)

theorem handleWrite {result : SendResult} (ran : c.handleWrite result = .ok next) :
    Uninterrupted c [.handleWrite result] next := by
  have performed : Task.perform c (.handleWrite result) = .ok (next, []) := by
    simp only [Task.perform, ran]
    rfl
  exact single performed (.done next)

theorem removeChannel (ran : c.removeChannel = .ok next) :
    Uninterrupted c [.removeChannel] next := by
  have performed : Task.perform c .removeChannel = .ok (next, []) := by
    simp only [Task.perform, ran]
    rfl
  exact single performed (.done next)

theorem connectDestroyed {user : List UserCall} (ran : c.connectDestroyed user = .ok next) :
    Uninterrupted c (destroyTasks c user) next := by
  rcases bind_ok_inv ran with ⟨down, reported, removed⟩
  unfold destroyTasks
  split at reported
  · next connected =>
    rw [if_pos connected]
    exact goDown reported (removeChannel removed)
  · next notConnected =>
    rw [if_neg notConnected]
    cases reported
    exact removeChannel removed

/-- A callback of `handleEvent` that is run on a condition. -/
theorem ite {condition : Prop} [Decidable condition] {tasks : List Task}
    {callback : Except Assertion TcpConnection}
    (works : callback = .ok next → Uninterrupted c tasks next)
    (ran : (if condition then callback else .ok c) = .ok next) :
    Uninterrupted c (if condition then tasks else []) next := by
  split at ran
  · next holds =>
    rw [if_pos holds]
    exact works ran
  · next fails =>
    rw [if_neg fails]
    cases ran
    exact .done _

theorem handleEvent {answers : Answers} (ran : c.handleEvent answers = .ok next) :
    Uninterrupted c (eventTasks c.channel.revents answers) next := by
  rcases bind_ok_inv ran with ⟨closed, closing, ran⟩
  rcases bind_ok_inv ran with ⟨read, reading, writing⟩
  have noted : Uninterrupted closed
      (if EventMask.has c.channel.revents (pollErr ||| pollNval) then [.handleError] else [])
      (if EventMask.has c.channel.revents (pollErr ||| pollNval) then closed.handleError
        else closed) := by
    split
    · exact single rfl (.done _)
    · exact .done closed
  exact (((ite handleClose closing).append noted).append (ite handleRead reading)).append
    (ite handleWrite writing)

theorem functor {functor : Functor} {direct : SendResult} {user : List UserCall}
    (ran : c.perform functor direct user = .ok next) :
    ∃ middle tasks, c.startFunctor functor direct user = .ok (middle, tasks) ∧
      Uninterrupted middle tasks next := by
  cases functor with
  | sendInLoop message =>
      have sends : c.sendInLoop message direct = .ok next := ran
      refine ⟨next, [], ?_, .done next⟩
      simp only [startFunctor, sends]
      rfl
  | shutdownInLoop =>
      cases ran
      exact ⟨_, [], rfl, .done _⟩
  | forceCloseInLoop => exact ⟨c, _, rfl, ite handleClose ran⟩
  | writeCompleteCallback | highWaterMarkCallback _ => exact ⟨c, _, rfl, userCode ran⟩

end Uninterrupted

namespace Raced

/-- The event with which the loop thread begins a step of the connection. -/
def begins : TcpConnection.Event → Option Event
  | .connectEstablished user => some (.connectEstablished user)
  | .connectDestroyed user => some (.connectDestroyed user)
  | .handleEvent revents answers => some (.handleEvent revents answers)
  | .call .loop userCall => some (.call userCall)
  | .functor direct user => some (.functor direct user)
  | _ => none

theorem run_proceed {r : Raced} {next : TcpConnection}
    (uninterrupted : Uninterrupted r.connection r.agenda next) :
    ∃ count final, run step r (List.replicate count .proceed) = .ok final ∧
      final.connection = next ∧ final.agenda = [] := by
  generalize start : r.connection = c at uninterrupted
  generalize tasks : r.agenda = agenda at uninterrupted
  induction uninterrupted generalizing r with
  | done c => exact ⟨0, r, rfl, start, tasks⟩
  | @task c middle next task more rest performed _ ih =>
      have taken : step r .proceed = .ok (r.advance task rest middle more) := by
        simp only [step, tasks, start, performed]
        rfl
      rcases ih (r := r.advance task rest middle more) rfl rfl with ⟨count, final, ran, ends⟩
      exact ⟨count + 1, final, (run_cons_ok _ taken).trans ran, ends⟩

/-- Left alone, the loop thread takes the steps of the connection as a whole. -/
theorem step_uninterrupted {r : Raced} (idle : r.agenda = []) {event : TcpConnection.Event}
    {begun : Event} (begin_eq : begins event = some begun)
    (polled : ∀ revents answers, event = .handleEvent revents answers →
      Polled r.connection revents)
    {next : TcpConnection} (taken : TcpConnection.step r.connection event = .ok next) :
    ∃ count final, run step r (begun :: List.replicate count .proceed) = .ok final ∧
      final.connection = next ∧ final.agenda = [] := by
  have proceeds {middle : Raced} (first : step r begun = .ok middle)
      (uninterrupted : Uninterrupted middle.connection middle.agenda next) :
      ∃ count final, run step r (begun :: List.replicate count .proceed) = .ok final ∧
        final.connection = next ∧ final.agenda = [] := by
    rcases run_proceed uninterrupted with ⟨count, final, ran, ends⟩
    exact ⟨count, final, (run_cons_ok _ first).trans ran, ends⟩
  have begun_eq (tasks : List Task) : r.begin tasks = { r with agenda := tasks } :=
    if_pos idle
  cases event with
  | connectEstablished user =>
      cases begin_eq
      exact proceeds (congrArg Except.ok (begun_eq _)) (.connectEstablished taken)
  | connectDestroyed user =>
      cases begin_eq
      exact proceeds (congrArg Except.ok (begun_eq _)) (.connectDestroyed taken)
  | handleEvent revents answers =>
      cases begin_eq
      exact proceeds (if_pos ⟨idle, polled revents answers rfl⟩) (.handleEvent taken)
  | call thread userCall =>
      cases thread with
      | other => cases begin_eq
      | loop =>
          cases begin_eq
          have ran : r.connection.userCode [userCall] = .ok next :=
            (run_singleton _ _).trans taken
          exact proceeds (congrArg Except.ok (begun_eq _)) (.userCode ran)
  | functor direct user =>
      cases begin_eq
      simp only [TcpConnection.step] at taken
      split at taken
      · next queue =>
        cases taken
        refine ⟨0, r, ?_, rfl, idle⟩
        simp [step, idle, queue, run]
      · next functor rest queue =>
        rcases Uninterrupted.functor taken with ⟨middle, tasks, started, uninterrupted⟩
        have first : step r (.functor direct user) =
            .ok { r with connection := middle, agenda := tasks } := by
          simp only [step, idle, queue, started]
          rfl
        exact proceeds first uninterrupted
  | sendInLoop _ _ | handleWrite _ | shutdownInLoop | handleClose _ => cases begin_eq

end Raced

end Msmuduo.TcpConnection
