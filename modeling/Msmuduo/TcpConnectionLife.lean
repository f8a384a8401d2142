import Msmuduo.TcpConnectionOutput

/-!
# The life cycle of a connection

A connection is reported up once, by `connectEstablished`, and down once, by
`handleClose` or by the `connectDestroyed` of a server that goes away first.
`Living` follows these reports through every poll event, call and functor. It
ends well from every state but `kDisconnecting`, where `connectDestroyed` takes
neither of its two branches: nobody reports the connection down and its channel
still asks for events when it is removed.

The last section is about `handleRead`, which reads an error of the receive as
the end of the stream.
-/

namespace Msmuduo.TcpConnection

open Msmuduo.Machine Msmuduo.Buffer

set_option autoImplicit false

/-- `connected()` in each call of `connectionCallback_`, in order. -/
def reports (log : List Effect) : List Bool :=
  log.filterMap fun effect =>
    match effect with
    | .connectionCallback connected => some connected
    | _ => none

/-- How often `handleClose` was entered. -/
def closes (log : List Effect) : Nat := log.count .handleClose

theorem reports_lifecycle (log : List Effect) : reports (lifecycle log) = reports log := by
  induction log with
  | nil => rfl
  | cons effect log ih =>
      simp only [reports, lifecycle] at ih ⊢
      cases effect <;> simp [List.filter_cons, Effect.isLifecycle, ih]

theorem closes_lifecycle (log : List Effect) : closes (lifecycle log) = closes log :=
  List.count_filter rfl

/-! ## What one event does -/

section

variable {c : TcpConnection}

/-- What WSAPoll can return for a channel: nothing while no event is asked for,
and else the events asked for and the three that are always reported. -/
def Polled (c : TcpConnection) (revents : EventMask) : Prop :=
  c.channel.isNoneEvent = false ∧
    revents &&& ~~~(c.channel.events ||| (pollErr ||| pollHup ||| pollNval)) = 0#32

instance (c : TcpConnection) (revents : EventMask) : Decidable (Polled c revents) :=
  inferInstanceAs (Decidable (_ ∧ _))

theorem Polled.alive {revents : EventMask} (polled : Polled c revents) (sound : Sound c)
    (established : c.state ≠ .kConnecting) : Open c := by
  cases state : c.state with
  | kDisconnected =>
      have none := sound.closed state
      rw [polled.1] at none
      cases none
  | kConnecting => exact absurd state established
  | kConnected => exact Or.inl state
  | kDisconnecting => exact Or.inr state

/-- Nobody asks for `POLLPRI`, so it is never returned. -/
theorem Polled.no_priority {revents : EventMask} (polled : Polled c revents)
    (sound : Sound c) :
    EventMask.has revents (pollIn ||| pollPri) = EventMask.has revents pollIn := by
  have unasked :
      ~~~(c.channel.events ||| (pollErr ||| pollHup ||| pollNval)) &&& pollPri = pollPri := by
    rcases sound.interest with events | events | events | events <;> rw [events] <;> decide
  have absent : revents &&& pollPri = 0#32 := by
    rw [← unasked, ← BitVec.and_assoc, polled.2, BitVec.zero_and]
  unfold EventMask.has
  rw [BitVec.and_or_distrib_left, absent, BitVec.or_zero]

theorem Closes.andThen {result : Except Assertion TcpConnection}
    {later : TcpConnection → Except Assertion TcpConnection} (closes : Closes c result)
    (proceedsLater : ∀ next, Sound next → Proceeds next (later next)) :
    Closes c (result >>= later) := by
  rcases closes with ⟨closed, ran, sound, down, reported⟩
  rcases proceedsLater closed sound with ⟨next, ranLater, nextSound, quiet⟩
  refine ⟨next, ?_, nextSound, quiet.disconnected_iff.mpr down, ?_⟩
  · rw [ran]
    exact ranLater
  · rw [quiet.lifecycle, reported]

theorem Proceeds.andThen {result : Except Assertion TcpConnection}
    {later : TcpConnection → Except Assertion TcpConnection} (proceeds : Proceeds c result)
    (proceedsLater : ∀ next, Sound next → Proceeds next (later next)) :
    Proceeds c (result >>= later) := by
  rcases proceeds with ⟨middle, ran, sound, quiet⟩
  rw [ran]
  exact (proceedsLater middle sound).after quiet

/-- The three callbacks behind the hang-up, on a connection that is already
down: nothing is left to read, and writing is off. -/
theorem handleEvent_outcome (sound : Sound c) (alive : Open c) (answers : Answers)
    (noPriority : EventMask.has c.channel.revents (pollIn ||| pollPri) =
      EventMask.has c.channel.revents pollIn) :
    Proceeds c (c.handleEvent answers) ∨ Closes c (c.handleEvent answers) := by
  have noted : ∀ middle : TcpConnection, Sound middle →
      Proceeds middle (.ok (if EventMask.has c.channel.revents (pollErr ||| pollNval) then
        middle.handleError else middle)) := by
    intro middle middleSound
    split
    · exact ⟨_, rfl, handleError_sound middleSound, handleError_quiet middle⟩
    · exact ⟨_, rfl, middleSound, Quiet.refl middle⟩
  have writes : ∀ middle : TcpConnection, Sound middle →
      Proceeds middle (if EventMask.has c.channel.revents pollOut then
        middle.handleWrite answers.sending else .ok middle) := by
    intro middle middleSound
    split
    · exact handleWrite_proceeds middleSound answers.sending
    · exact ⟨_, rfl, middleSound, Quiet.refl middle⟩
  unfold handleEvent
  dsimp only
  rw [noPriority]
  by_cases hangUp : (EventMask.has c.channel.revents pollHup &&
      !EventMask.has c.channel.revents pollIn) = true
  · have unreadable : EventMask.has c.channel.revents pollIn = false := by
      simpa using (Bool.and_eq_true_iff.mp hangUp).2
    rw [if_pos hangUp, unreadable]
    simp only [Bool.false_eq_true, if_false]
    right
    apply (handleClose_closes sound alive answers.closing).andThen
    intro closed closedSound
    exact (noted closed closedSound).andThen writes
  · rw [if_neg hangUp]
    rcases noted c sound with ⟨middle, same, middleSound, quiet⟩
    cases same
    cases readable : EventMask.has c.channel.revents pollIn with
    | false =>
        left
        exact (writes _ middleSound).after quiet
    | true =>
        rcases handleRead_outcome middleSound (quiet.open_iff.mpr alive) answers.receive
          answers.reading with proceeds | closes
        · left
          exact (proceeds.andThen writes).after quiet
        · right
          exact (closes.andThen writes).after quiet

theorem perform_outcome (sound : Sound c) (functor : Functor) (direct : SendResult)
    (user : List UserCall) :
    Proceeds c (c.perform functor direct user) ∨
      Open c ∧ Closes c (c.perform functor direct user) := by
  cases functor with
  | sendInLoop message => exact Or.inl (sendInLoop_proceeds sound message direct)
  | shutdownInLoop =>
      exact Or.inl ⟨_, rfl, shutdownInLoop_sound sound, shutdownInLoop_quiet c⟩
  | forceCloseInLoop =>
      simp only [perform, forceCloseInLoop]
      split
      · next alive => exact Or.inr ⟨alive, handleClose_closes sound alive user⟩
      · exact Or.inl ⟨c, rfl, sound, Quiet.refl c⟩
  | writeCompleteCallback => exact Or.inl (userCode_proceeds sound user)
  | highWaterMarkCallback size => exact Or.inl (userCode_proceeds sound user)

/-! ## Whole lives -/

/-- The connection was reported up; it is either still open and nothing else
happened to it, or it was closed and reported down once. -/
structure Living (c : TcpConnection) : Prop where
  sound : Sound c
  history :
    Open c ∧ lifecycle c.log = [.connectionCallback true] ∨
    c.state = .kDisconnected ∧ lifecycle c.log =
      [.connectionCallback true, .handleClose, .connectionCallback false, .closeCallback]

theorem Living.established (living : Living c) : c.state ≠ .kConnecting := by
  rcases living.history with ⟨connected | disconnecting, -⟩ | ⟨down, -⟩
  · simp [connected]
  · simp [disconnecting]
  · simp [down]

/-- The steps of a connection's life: it is established once, and then polled,
called, and run by the loop's queue. -/
def LifeStep (c : TcpConnection) : Event → Prop
  | .connectEstablished _ => c.state = .kConnecting
  | .handleEvent revents _ => Polled c revents
  | .call _ _ => True
  | .functor _ _ => True
  | _ => False

instance (c : TcpConnection) : ∀ event : Event, Decidable (LifeStep c event)
  | .connectEstablished _ => inferInstanceAs (Decidable (c.state = .kConnecting))
  | .handleEvent revents _ => inferInstanceAs (Decidable (Polled c revents))
  | .call _ _ | .functor _ _ => inferInstanceAs (Decidable True)
  | .connectDestroyed _ | .sendInLoop _ _ | .handleWrite _ | .shutdownInLoop
  | .handleClose _ => inferInstanceAs (Decidable False)

theorem Living.proceeds (living : Living c) {result : Except Assertion TcpConnection}
    (proceeds : Proceeds c result) : ∃ next, result = .ok next ∧ Living next := by
  rcases proceeds with ⟨next, ran, sound, quiet⟩
  refine ⟨next, ran, sound, ?_⟩
  rw [quiet.open_iff, quiet.disconnected_iff, quiet.lifecycle]
  exact living.history

theorem Living.closes (living : Living c) (alive : Open c)
    {result : Except Assertion TcpConnection} (closes : Closes c result) :
    ∃ next, result = .ok next ∧ Living next := by
  rcases closes with ⟨next, ran, sound, down, reported⟩
  refine ⟨next, ran, sound, Or.inr ⟨down, ?_⟩⟩
  rcases living.history with ⟨-, only⟩ | ⟨dead, -⟩
  · rw [reported, only]
    rfl
  · rcases alive with state | state <;> simp [state] at dead

theorem step_living (living : Living c) (event : Event) (admitted : LifeStep c event) :
    ∃ next, step c event = .ok next ∧ Living next := by
  cases event with
  | connectEstablished user => exact absurd admitted living.established
  | handleEvent revents answers =>
      have alive := Polled.alive admitted living.sound living.established
      have polled : Living { c with channel := { c.channel with revents := revents } } :=
        ⟨living.sound.withRevents revents, living.history⟩
      rcases handleEvent_outcome polled.sound alive answers
        (Polled.no_priority admitted living.sound) with proceeds | closes
      · exact polled.proceeds proceeds
      · exact polled.closes alive closes
  | call thread userCall => exact living.proceeds (call_proceeds living.sound thread userCall)
  | functor direct user =>
      simp only [step]
      split
      · exact ⟨c, rfl, living⟩
      · next functor rest _ =>
        have dequeued : Living { c with pendingFunctors := rest } :=
          ⟨living.sound.withFunctors rest, living.history⟩
        rcases perform_outcome dequeued.sound functor direct user with
          proceeds | ⟨alive, closes⟩
        · exact dequeued.proceeds proceeds
        · exact dequeued.closes alive closes
  | connectDestroyed user => exact admitted.elim
  | sendInLoop message direct => exact admitted.elim
  | handleWrite result => exact admitted.elim
  | shutdownInLoop => exact admitted.elim
  | handleClose user => exact admitted.elim

/-- No assertion failed, the connection was reported up and then down once
each, it was closed at most once, and the destructor accepts it. -/
def EndsWell (result : Except Assertion TcpConnection) : Prop :=
  ∃ final, result = .ok final ∧ reports final.log = [true, false] ∧ closes final.log ≤ 1 ∧
    final.destructor = .ok ()

theorem endsWell_of_lifecycle {result : Except Assertion TcpConnection}
    {final : TcpConnection} (ran : result = .ok final) (down : final.state = .kDisconnected)
    (reported : reports (lifecycle final.log) = [true, false])
    (closed : closes (lifecycle final.log) ≤ 1) : EndsWell result := by
  refine ⟨final, ran, ?_, ?_, require_ok down⟩
  · rwa [reports_lifecycle] at reported
  · rwa [closes_lifecycle] at closed

theorem connectDestroyed_endsWell_iff (living : Living c) (user : List UserCall) :
    EndsWell (c.connectDestroyed user) ↔ c.state ≠ .kDisconnecting := by
  rcases living.history with ⟨connected | disconnecting, only⟩ | ⟨down, closed⟩
  · rcases connectDestroyed_connected living.sound connected user with
      ⟨final, ran, -, down, reported⟩
    rw [only] at reported
    simp only [connected, ne_eq, reduceCtorEq, not_false_eq_true, iff_true]
    exact endsWell_of_lifecycle ran down (by rw [reported]; decide) (by rw [reported]; decide)
  · rw [connectDestroyed_disconnecting living.sound disconnecting]
    simp [EndsWell, disconnecting]
  · have ran := connectDestroyed_disconnected living.sound down user
    have reported : lifecycle (c.record .removeChannel).log =
        [.connectionCallback true, .handleClose, .connectionCallback false, .closeCallback,
          .removeChannel] := by
      simp [record, closed, Effect.isLifecycle]
    simp only [down, ne_eq, reduceCtorEq, not_false_eq_true, iff_true]
    exact endsWell_of_lifecycle ran down (by rw [reported]; decide) (by rw [reported]; decide)

end

/-- `connectDestroyed` is not called while the connection is shutting down. -/
def DestroyedInTime (c : TcpConnection) : Event → Prop
  | .connectDestroyed _ => c.state ≠ .kDisconnecting
  | _ => True

instance (c : TcpConnection) : ∀ event : Event, Decidable (DestroyedInTime c event)
  | .connectDestroyed _ => inferInstanceAs (Decidable (c.state ≠ .kDisconnecting))
  | .connectEstablished _ | .handleEvent _ _ | .call _ _ | .functor _ _ | .sendInLoop _ _
  | .handleWrite _ | .shutdownInLoop | .handleClose _ => inferInstanceAs (Decidable True)

theorem destroyedInTime_of_lifeStep {c : TcpConnection} {event : Event}
    (admitted : LifeStep c event) : DestroyedInTime c event := by
  cases event with
  | connectDestroyed user => exact admitted.elim
  | _ => trivial

/-- For every life of a connection, from `connectEstablished` through any poll
events, calls and functors to `connectDestroyed`: it is reported up and down
once each, closed at most once, removed from the poller without interest and
destroyed disconnected, if and only if it is not destroyed while it is shutting
down. -/
theorem life_ends_well_iff (sockfd : Int) (options : Options) (onUp onDown : List UserCall)
    (middle : List Event)
    (admitted : AllSteps step LifeStep (new sockfd options)
      (.connectEstablished onUp :: middle)) :
    EndsWell (run step (new sockfd options)
        (.connectEstablished onUp :: middle ++ [.connectDestroyed onDown])) ↔
      AllSteps step DestroyedInTime (new sockfd options)
        (.connectEstablished onUp :: middle ++ [.connectDestroyed onDown]) := by
  rcases connectEstablished_opens (new_sound sockfd options) rfl onUp with
    ⟨opened, established, openedSound, alive, reported⟩
  have taken : step (new sockfd options) (.connectEstablished onUp) = .ok opened := established
  have openedLiving : Living opened := ⟨openedSound, Or.inl ⟨alive, reported⟩⟩
  rcases run_succeeds Living (fun _ event living => step_living living event) openedLiving
    (admitted.tail taken) with ⟨last, ran, living⟩
  have ranAll : run step (new sockfd options) (.connectEstablished onUp :: middle) = .ok last :=
    (run_cons_ok middle taken).trans ran
  have earlier : AllSteps step DestroyedInTime (new sockfd options)
      (.connectEstablished onUp :: middle) :=
    admitted.weaken fun _ _ => destroyedInTime_of_lifeStep
  rw [run_append _ ranAll, all_steps_append _ ranAll, run_singleton, all_steps_singleton]
  exact (connectDestroyed_endsWell_iff living onDown).trans
    ⟨fun inTime => ⟨earlier, inTime⟩, fun inTime => inTime.2⟩

/-- The peer hangs up, the closing callback is run, and the connection goes. -/
theorem closed_life_ends_well :
    EndsWell (run step (new 5 ⟨true, false, 64⟩)
      (.connectEstablished [.send [1, 2] (.wrote 2)] ::
        [.functor (.wrote 0) [], .handleEvent pollHup ⟨[], .received [], [], .wrote 0⟩] ++
        [.connectDestroyed []])) :=
  (life_ends_well_iff 5 ⟨true, false, 64⟩ [.send [1, 2] (.wrote 2)] []
    [.functor (.wrote 0) [], .handleEvent pollHup ⟨[], .received [], [], .wrote 0⟩]
    (by decide)).mpr (by decide)

/-- A connection that is shutting down when its server goes away: the removal
of its channel fails, and before that nobody was told that it is down. -/
theorem shutting_down_life_fails :
    AllSteps step LifeStep (new 5 ⟨false, false, 64⟩)
      [.connectEstablished [], .call .loop .shutdown] ∧
    run step (new 5 ⟨false, false, 64⟩)
      [.connectEstablished [], .call .loop .shutdown, .connectDestroyed []] =
        .error .removeNoneEvent ∧
    ¬EndsWell (run step (new 5 ⟨false, false, 64⟩)
      [.connectEstablished [], .call .loop .shutdown, .connectDestroyed []]) := by
  refine ⟨by decide, by rfl, ?_⟩
  rintro ⟨final, ran, -⟩
  cases ran

/-! ## A failed receive -/

/-- The entries of the log that run a callback of the owner or the user. -/
def Effect.isCallback : Effect → Bool
  | .connectionCallback _ | .messageCallback | .closeCallback => true
  | _ => false

/-- `handleRead` closes the connection only at the end of the stream, and after
a failed receive it leaves everything as it was. -/
def ClosesOnlyAtEof (c : TcpConnection) (receive : Receive) (user : List UserCall) : Prop :=
  ∃ result next, c.inputBuffer.readFd receive = .ok result ∧
    c.handleRead receive user = .ok next ∧
    (closes next.log = closes c.log ∨ receive = .received []) ∧
    ∀ code, receive = .failed code →
      result.retReadCnt < 0 ∧ next.inputBuffer = c.inputBuffer ∧ next.state = c.state ∧
        next.log.filter Effect.isCallback = c.log.filter Effect.isCallback

/-- `retReadCnt` is zero for nothing received only. -/
theorem toInt_eq_zero_iff (size : Nat) (fits : size < sizeTModulus) :
    toInt size = 0 ↔ size = 0 := by
  constructor
  · intro zero
    rw [← toSizeT_toInt size fits, zero]
    rfl
  · rintro rfl
    rfl

section

variable {c : TcpConnection}

/-- A count other than zero never closes the connection. -/
theorem handleRead_proceeds (sound : Sound c) {receive : Receive} {buffer : Buffer}
    {count : Int} {savedErrno : Option Int}
    (read : c.inputBuffer.readFd receive = .ok ⟨buffer, count, savedErrno⟩) (nonzero : count ≠ 0)
    (user : List UserCall) : Proceeds c (c.handleRead receive user) := by
  rcases readFd_sound sound receive with ⟨other, same, readSound⟩
  rw [read] at same
  cases same
  have unchanged : Quiet c { c with inputBuffer := buffer } := ⟨Or.inl rfl, rfl⟩
  simp only [handleRead, read, inBuffer, Except.mapError, bind, Except.bind]
  rw [if_neg nonzero]
  split
  · exact (messageCallback_proceeds readSound user).after unchanged
  · exact ⟨_, rfl, handleError_sound readSound, unchanged.trans (handleError_quiet _)⟩

theorem handleRead_received (sound : Sound c) (alive : Open c) {data : List Byte}
    (fits : data.length < sizeTModulus) (user : List UserCall) :
    ClosesOnlyAtEof c (.received data) user := by
  rcases readFd_received sound.input data with ⟨buffer, read, -⟩
  by_cases empty : data = []
  · subst empty
    rcases handleRead_outcome sound alive (.received []) user with
      ⟨next, ran, -⟩ | ⟨next, ran, -⟩
    · exact ⟨_, next, read, ran, Or.inr rfl, by nofun⟩
    · exact ⟨_, next, read, ran, Or.inr rfl, by nofun⟩
  · have nonzero : toInt data.length ≠ 0 := by
      rw [Ne, toInt_eq_zero_iff data.length fits, List.length_eq_zero_iff]
      exact empty
    rcases handleRead_proceeds sound read nonzero user with ⟨next, ran, -, quiet⟩
    have unclosed : closes next.log = closes c.log := by
      rw [← closes_lifecycle, quiet.lifecycle, closes_lifecycle]
    exact ⟨_, next, read, ran, Or.inl unclosed, by nofun⟩

/-- The error branch of `readFd` leaves its count at zero, so `handleRead` takes
it for the end of the stream. -/
theorem handleRead_failed (sound : Sound c) (alive : Open c) (code : Int)
    (user : List UserCall) : Closes c (c.handleRead (.failed code) user) := by
  have closes := handleClose_closes sound alive user
  simp only [handleRead, readFd, inBuffer, Except.mapError, bind, Except.bind]
  exact closes

end

/-- In every state a connection can reach with reading enabled, and for every
outcome of the receive: `handleRead` closes only at the end of the stream and
leaves the connection alone after an error, if and only if the receive did not
fail. -/
theorem handleRead_closes_only_at_eof_iff (sockfd : Int) (options : Options)
    (events : List Event) (c : TcpConnection)
    (ran : run step (new sockfd options) events = .ok c)
    (reading : c.channel.isReading = true) (receive : Receive)
    (counted : ∀ data, receive = .received data → data.length < sizeTModulus)
    (user : List UserCall) :
    ClosesOnlyAtEof c receive user ↔ ∃ data, receive = .received data := by
  have sound := run_sound sockfd options ran
  have alive := sound.reading.mp reading
  cases receive with
  | received data =>
      simp only [Receive.received.injEq, exists_eq', iff_true]
      exact handleRead_received sound alive (counted data rfl) user
  | failed code =>
      simp only [reduceCtorEq, exists_false, iff_false]
      rintro ⟨result, next, -, handled, -, unchanged⟩
      rcases handleRead_failed sound alive code user with ⟨closed, same, -, down, -⟩
      cases handled.symm.trans same
      have state : c.state = .kDisconnected := by
        rw [← (unchanged code rfl).2.2.1]
        exact down
      rcases alive with open_ | open_ <;> simp [open_] at state

/-- A message arrives on a fresh connection. -/
theorem received_message_keeps_open :
    ClosesOnlyAtEof
      (((new 5 ⟨false, false, 64⟩).setState .kConnected).setInterest .enableReading
        |>.record (.connectionCallback true)) (.received [104, 105]) [.retrieve 2] :=
  (handleRead_closes_only_at_eof_iff 5 ⟨false, false, 64⟩ [.connectEstablished []] _ rfl
    (by decide) (.received [104, 105]) (by rintro data ⟨⟩; decide) [.retrieve 2]).mpr
    ⟨[104, 105], rfl⟩

/-- `WSAEWOULDBLOCK` after a spurious wakeup: the count is zero, and the
connection is closed and reported down. -/
theorem failed_receive_closes :
    ∃ c next, run step (new 5 ⟨false, false, 64⟩) [.connectEstablished []] = .ok c ∧
      c.channel.isReading = true ∧
      c.handleRead (.failed 10035) [] = .ok next ∧ next.state = .kDisconnected ∧
      closes next.log = 1 ∧ ¬ClosesOnlyAtEof c (.failed 10035) [] := by
  refine ⟨_, _, rfl, by decide, rfl, rfl, rfl, ?_⟩
  rintro ⟨result, next, read, handled, -, unchanged⟩
  cases read
  exact absurd (unchanged 10035 rfl).1 (by decide)

end Msmuduo.TcpConnection
