import Msmuduo.BufferDeque
import Msmuduo.TcpConnection

/-!
# The output stream of a connection

`Sound` is what every reachable connection keeps: while the connection is not
down, the bytes the kernel took followed by the queued ones are the messages
handed to `sendInLoop`, and the writable event is asked for exactly while
something is queued. Every function is shown once to succeed on a sound
connection, to keep it sound, and to touch its life cycle only where it should.
-/

namespace Msmuduo.TcpConnection

open Msmuduo.Machine Msmuduo.Buffer

set_option autoImplicit false

/-! ## What the log says -/

/-- The bytes an entry of the log gave to the kernel. -/
def Effect.accepted : Effect → List Byte
  | .sendInLoop message (some direct) => direct.taken message
  | .handleWrite queued result => result.taken queued
  | _ => []

/-- The bytes an entry of the log asks to be sent: the message of every
`sendInLoop`, unless its direct write failed with `EPIPE` or `ECONNRESET`. -/
def Effect.offered : Effect → List Byte
  | .sendInLoop message (some (.failed errno)) => if errno.isFault then [] else message
  | .sendInLoop message _ => message
  | _ => []

def Effect.isLifecycle : Effect → Bool
  | .connectionCallback _ | .handleClose | .closeCallback | .removeChannel => true
  | _ => false

def accepted (log : List Effect) : List Byte := log.flatMap Effect.accepted

def offered (log : List Effect) : List Byte := log.flatMap Effect.offered

def lifecycle (log : List Effect) : List Effect := log.filter Effect.isLifecycle

@[simp]
theorem accepted_snoc (log : List Effect) (effect : Effect) :
    accepted (log ++ [effect]) = accepted log ++ effect.accepted := by
  simp [accepted]

@[simp]
theorem offered_snoc (log : List Effect) (effect : Effect) :
    offered (log ++ [effect]) = offered log ++ effect.offered := by
  simp [offered]

@[simp]
theorem lifecycle_snoc (log : List Effect) (effect : Effect) :
    lifecycle (log ++ [effect]) =
      lifecycle log ++ if effect.isLifecycle then [effect] else [] := by
  cases kind : effect.isLifecycle <;> simp [lifecycle, kind]

section Projections

variable (c : TcpConnection)

@[simp]
theorem queueWhen_state (condition : Bool) (functor : Functor) :
    (c.queueWhen condition functor).state = c.state := by
  cases condition <;> rfl

@[simp]
theorem queueWhen_channel (condition : Bool) (functor : Functor) :
    (c.queueWhen condition functor).channel = c.channel := by
  cases condition <;> rfl

@[simp]
theorem queueWhen_inputBuffer (condition : Bool) (functor : Functor) :
    (c.queueWhen condition functor).inputBuffer = c.inputBuffer := by
  cases condition <;> rfl

@[simp]
theorem queueWhen_outputBuffer (condition : Bool) (functor : Functor) :
    (c.queueWhen condition functor).outputBuffer = c.outputBuffer := by
  cases condition <;> rfl

@[simp]
theorem queueWhen_log (condition : Bool) (functor : Functor) :
    (c.queueWhen condition functor).log = c.log := by
  cases condition <;> rfl

end Projections

/-! ## The invariant -/

/-- The connection is up or on its way down: between `connectEstablished` and
the close. -/
def Open (c : TcpConnection) : Prop := c.state = .kConnected ∨ c.state = .kDisconnecting

instance (c : TcpConnection) : Decidable (Open c) :=
  inferInstanceAs (Decidable (_ ∨ _))

structure Sound (c : TcpConnection) : Prop where
  input : Represents c.inputBuffer c.inputBuffer.content
  output : Represents c.outputBuffer c.outputBuffer.content
  stream : c.state ≠ .kDisconnected →
    accepted c.log ++ c.outputBuffer.content = offered c.log
  writing : c.state ≠ .kDisconnected →
    (c.channel.isWriting = true ↔ c.outputBuffer.content ≠ [])
  reading : c.channel.isReading = true ↔ Open c
  closed : c.state = .kDisconnected → c.channel.isNoneEvent = true
  interest : Channel.Interested c.channel.events

/-- What a function may do that does not close the connection: it starts the
shutdown at most, and runs none of the callbacks of the life cycle. -/
structure Quiet (c next : TcpConnection) : Prop where
  state : next.state = c.state ∨ c.state = .kConnected ∧ next.state = .kDisconnecting
  lifecycle : lifecycle next.log = lifecycle c.log

theorem Quiet.refl (c : TcpConnection) : Quiet c c := ⟨Or.inl rfl, rfl⟩

theorem Quiet.trans {c middle next : TcpConnection} (first : Quiet c middle)
    (second : Quiet middle next) : Quiet c next where
  state := by
    rcases first.state with same | ⟨connected, disconnecting⟩
    · rw [← same]
      exact second.state
    · rcases second.state with same | ⟨connected', -⟩
      · exact Or.inr ⟨connected, same.trans disconnecting⟩
      · rw [disconnecting] at connected'
        cases connected'
  lifecycle := second.lifecycle.trans first.lifecycle

theorem Quiet.disconnected_iff {c next : TcpConnection} (quiet : Quiet c next) :
    next.state = .kDisconnected ↔ c.state = .kDisconnected := by
  rcases quiet.state with same | ⟨connected, disconnecting⟩
  · rw [same]
  · simp [connected, disconnecting]

theorem Quiet.open_iff {c next : TcpConnection} (quiet : Quiet c next) :
    Open next ↔ Open c := by
  rcases quiet.state with same | ⟨connected, disconnecting⟩
  · simp only [Open, same]
  · simp [Open, connected, disconnecting]

/-- The function succeeds, and leaves a sound connection that is as much alive
as before. -/
def Proceeds (c : TcpConnection) (result : Except Assertion TcpConnection) : Prop :=
  ∃ next, result = .ok next ∧ Sound next ∧ Quiet c next

theorem new_sound (sockfd : Int) (options : Options) : Sound (new sockfd options) where
  input := (new_represents kInitialSize).self
  output := (new_represents kInitialSize).self
  stream := fun _ => (new_represents kInitialSize).content
  writing := by
    intro _
    have empty : (Buffer.new kInitialSize).content = [] := (new_represents kInitialSize).content
    simp [empty, new, Channel.new, Channel.isWriting, EventMask.has, Channel.kNoneEvent]
  reading := by
    simp [Open, new, Channel.new, Channel.isReading, EventMask.has, Channel.kNoneEvent]
  closed := by
    intro down
    cases down
  interest := Or.inl rfl

section

variable {c : TcpConnection}

/-- An empty queue, as the source tests it. -/
theorem Sound.readable_eq_zero_iff (sound : Sound c) :
    c.outputBuffer.readableBytes = 0 ↔ c.outputBuffer.content = [] := by
  rw [sound.output.readable, List.length_eq_zero_iff]

/-! ## Sending -/

/-- The direct write touches the log and the queue of functors only, and the
prefix of the message it gave away goes behind an empty queue. -/
structure Attempted (c : TcpConnection) (message : List Byte) (attempt : Attempt) : Prop where
  state : attempt.connection.state = c.state
  channel : attempt.connection.channel = c.channel
  inputBuffer : attempt.connection.inputBuffer = c.inputBuffer
  outputBuffer : attempt.connection.outputBuffer = c.outputBuffer
  lifecycle : lifecycle attempt.connection.log = lifecycle c.log
  total : attempt.remaining + attempt.nwrote = message.length
  accepted : accepted attempt.connection.log = accepted c.log ++ message.take attempt.nwrote
  offered : offered attempt.connection.log =
    offered c.log ++ if attempt.faultError then [] else message
  fault : attempt.faultError = true → attempt.nwrote = 0
  ordered : c.outputBuffer.content = [] ∨ attempt.nwrote = 0

theorem directWrite_attempted (sound : Sound c) (message : List Byte) (direct : SendResult) :
    Attempted c message (c.directWrite message direct) := by
  unfold directWrite
  split
  · next idle =>
    have empty : c.outputBuffer.content = [] := by
      apply sound.readable_eq_zero_iff.mp
      simp only [Bool.and_eq_true, beq_iff_eq] at idle
      exact idle.2
    cases direct with
    | wrote room =>
        exact
          { state := by simp [record]
            channel := by simp [record]
            inputBuffer := by simp [record]
            outputBuffer := by simp [record]
            lifecycle := by simp [record, Effect.isLifecycle]
            total := Nat.sub_add_cancel (Nat.min_le_right _ _)
            accepted := by simp [record, Effect.accepted, SendResult.taken]
            offered := by simp [record, Effect.offered]
            fault := by simp
            ordered := Or.inl empty }
    | failed errno =>
        constructor <;>
          simp [record, Effect.accepted, Effect.offered, Effect.isLifecycle, SendResult.taken]
  · constructor <;> simp [record, Effect.accepted, Effect.offered, Effect.isLifecycle]

/-- What `queueOutput` changes besides the queue of functors. -/
structure Queued (c : TcpConnection) (rest : List Byte) (next : TcpConnection) : Prop where
  state : next.state = c.state
  log : next.log = c.log
  inputBuffer : next.inputBuffer = c.inputBuffer
  output : Represents next.outputBuffer (c.outputBuffer.content ++ rest)
  writing : next.channel.isWriting = true
  reading : next.channel.isReading = c.channel.isReading
  interest : Channel.Interested c.channel.events → Channel.Interested next.channel.events

theorem queueOutput_queued (represents : Represents c.outputBuffer c.outputBuffer.content)
    (rest : List Byte) : ∃ next, c.queueOutput rest = .ok next ∧ Queued c rest next := by
  rcases append_represents represents rest with ⟨outputBuffer, appended, output⟩
  unfold queueOutput
  rw [appended]
  refine ⟨_, rfl, ?_⟩
  dsimp only [inBuffer, Except.mapError]
  split
  · next writing => exact ⟨by simp, by simp, by simp, output, writing, by simp, by simp⟩
  · exact
      { state := by simp [setInterest]
        log := by simp [setInterest]
        inputBuffer := by simp [setInterest]
        output := output
        writing := by simp [setInterest, Channel.isWriting_setInterest]
        reading := by simp [setInterest, Channel.isReading_setInterest]
        interest := by
          simpa [setInterest, Channel.setInterest] using
            Channel.interested_apply _ .enableWriting }

section

variable {message : List Byte} {attempt : Attempt} {next : TcpConnection}

/-- What the kernel did not take is queued behind what was queued before. -/
theorem Attempted.queued_sound (attempted : Attempted c message attempt) (sound : Sound c)
    (up : c.state ≠ .kDisconnected) (clean : attempt.faultError = false)
    (left : 0 < attempt.remaining)
    (queued : Queued attempt.connection (message.drop attempt.nwrote) next) : Sound next := by
  have state : next.state = c.state := queued.state.trans attempted.state
  have content : next.outputBuffer.content =
      c.outputBuffer.content ++ message.drop attempt.nwrote := by
    rw [queued.output.content, attempted.outputBuffer]
  have someLeft : message.drop attempt.nwrote ≠ [] := by
    have total := attempted.total
    simp only [ne_eq, List.drop_eq_nil_iff]
    omega
  exact
    { input := by
        rw [queued.inputBuffer, attempted.inputBuffer]
        exact sound.input
      output := queued.output.self
      stream := by
        intro _
        rw [queued.log, content, attempted.accepted, attempted.offered, clean,
          ← sound.stream up]
        -- Either nothing was queued or nothing was written directly.
        rcases attempted.ordered with empty | nothing
        · simp [empty]
        · simp [nothing]
      writing := by
        intro _
        rw [content]
        simp [queued.writing, someLeft]
      reading := by
        rw [queued.reading, attempted.channel, sound.reading]
        simp only [Open, state]
      closed := by
        intro down
        exact absurd (state.symm.trans down) up
      interest := by
        apply queued.interest
        rw [attempted.channel]
        exact sound.interest }

/-- The message was taken whole, or given up. -/
theorem Attempted.finished_sound (attempted : Attempted c message attempt) (sound : Sound c)
    (up : c.state ≠ .kDisconnected)
    (finished : attempt.faultError = true ∨ attempt.faultError = false ∧ attempt.remaining = 0) :
    Sound attempt.connection where
  input := by
    rw [attempted.inputBuffer]
    exact sound.input
  output := by
    rw [attempted.outputBuffer]
    exact sound.output
  stream := by
    intro _
    rw [attempted.outputBuffer, attempted.accepted, attempted.offered, ← sound.stream up]
    rcases finished with fault | ⟨clean, complete⟩
    · simp [fault, attempted.fault fault]
    · have total := attempted.total
      rw [complete, Nat.zero_add] at total
      rcases attempted.ordered with empty | nothing
      · simp [clean, total, empty]
      · have blank : message = [] := List.length_eq_zero_iff.mp (by omega)
        simp [blank]
  writing := by
    intro _
    rw [attempted.channel, attempted.outputBuffer]
    exact sound.writing up
  reading := by
    rw [attempted.channel, sound.reading]
    simp only [Open, attempted.state]
  closed := by
    intro down
    exact absurd (attempted.state.symm.trans down) up
  interest := by
    rw [attempted.channel]
    exact sound.interest

end

theorem sendInLoop_proceeds (sound : Sound c) (message : List Byte) (direct : SendResult) :
    Proceeds c (c.sendInLoop message direct) := by
  unfold sendInLoop
  by_cases down : c.state = .kDisconnected
  · rw [if_pos down]
    exact ⟨c, rfl, sound, Quiet.refl c⟩
  rw [if_neg down]
  have attempted := directWrite_attempted sound message direct
  generalize c.directWrite message direct = attempt at attempted
  have within : attempt.remaining ≤ message.length := by
    have total := attempted.total
    omega
  dsimp only
  rw [require_ok attempted.total, require_ok within]
  by_cases keep : (!attempt.faultError && decide (0 < attempt.remaining)) = true
  · have represents : Represents attempt.connection.outputBuffer
        attempt.connection.outputBuffer.content := by
      rw [attempted.outputBuffer]
      exact sound.output
    rcases queueOutput_queued represents (message.drop attempt.nwrote) with
      ⟨next, ran, queued⟩
    refine ⟨next, by simp only [bind, Except.bind, keep, if_true, ran], ?_, ?_⟩
    · simp only [Bool.and_eq_true, Bool.not_eq_true', decide_eq_true_eq] at keep
      exact attempted.queued_sound sound down keep.1 keep.2 queued
    · exact ⟨Or.inl (queued.state.trans attempted.state),
        by rw [queued.log, attempted.lifecycle]⟩
  · refine ⟨attempt.connection, by simp [bind, Except.bind, keep, pure, Except.pure],
      attempted.finished_sound sound down ?_, Or.inl attempted.state, attempted.lifecycle⟩
    cases fault : attempt.faultError with
    | true => exact Or.inl rfl
    | false =>
        simp only [fault, Bool.not_false, Bool.true_and, decide_eq_true_eq] at keep
        exact Or.inr ⟨rfl, Nat.eq_zero_of_not_pos keep⟩

/-- A change of the queue of functors alone. -/
theorem Sound.queueInLoop (sound : Sound c) (functor : Functor) :
    Sound (c.queueInLoop functor) :=
  ⟨sound.input, sound.output, sound.stream, sound.writing, sound.reading, sound.closed,
    sound.interest⟩

/-- An entry of the log that sends nothing. -/
theorem Sound.record (sound : Sound c) {effect : Effect} (silent : effect.accepted = [])
    (nothing : effect.offered = []) : Sound (c.record effect) where
  input := sound.input
  output := sound.output
  stream := by
    intro up
    simp only [TcpConnection.record, accepted_snoc, offered_snoc, silent, nothing,
      List.append_nil]
    exact sound.stream up
  writing := sound.writing
  reading := sound.reading
  closed := sound.closed
  interest := sound.interest

theorem send_proceeds (sound : Sound c) (thread : Thread) (message : List Byte)
    (direct : SendResult) : Proceeds c (c.send thread message direct) := by
  unfold send
  split
  · cases thread with
    | loop => exact sendInLoop_proceeds sound message direct
    | other => exact ⟨_, rfl, sound.queueInLoop _, Or.inl rfl, rfl⟩
  · exact ⟨c, rfl, sound, Quiet.refl c⟩

/-! ## Closing -/

theorem shutdownInLoop_sound (sound : Sound c) : Sound c.shutdownInLoop := by
  unfold shutdownInLoop
  split
  · exact sound
  · exact sound.record rfl rfl

theorem shutdownInLoop_quiet (c : TcpConnection) : Quiet c c.shutdownInLoop := by
  unfold shutdownInLoop
  split
  · exact Quiet.refl c
  · exact ⟨Or.inl rfl, by simp [record, Effect.isLifecycle]⟩

theorem disconnecting_sound (sound : Sound c) (alive : Open c) :
    Sound (c.setState .kDisconnecting) := by
  have up : c.state ≠ .kDisconnected := by
    rcases alive with state | state <;> simp [state]
  exact
    { input := sound.input
      output := sound.output
      stream := fun _ => sound.stream up
      writing := fun _ => sound.writing up
      reading := by
        rw [show (c.setState .kDisconnecting).channel = c.channel from rfl, sound.reading]
        exact ⟨fun _ => Or.inr rfl, fun _ => alive⟩
      closed := by
        intro down
        cases down
      interest := sound.interest }

theorem disconnecting_quiet (alive : Open c) : Quiet c (c.setState .kDisconnecting) where
  state := by
    rcases alive with state | state
    · exact Or.inr ⟨state, rfl⟩
    · exact Or.inl state.symm
  lifecycle := rfl

theorem shutdown_proceeds (sound : Sound c) (thread : Thread) :
    Sound (c.shutdown thread) ∧ Quiet c (c.shutdown thread) := by
  unfold shutdown
  split
  · next connected =>
    have changed := disconnecting_sound sound (Or.inl connected)
    have quiet := disconnecting_quiet (Or.inl connected)
    cases thread with
    | loop =>
        exact ⟨shutdownInLoop_sound changed, quiet.trans (shutdownInLoop_quiet _)⟩
    | other => exact ⟨changed.queueInLoop _, quiet.trans ⟨Or.inl rfl, rfl⟩⟩
  · exact ⟨sound, Quiet.refl c⟩

theorem forceClose_proceeds (sound : Sound c) :
    Sound c.forceClose ∧ Quiet c c.forceClose := by
  unfold forceClose
  split
  · next alive =>
    exact ⟨(disconnecting_sound sound alive).queueInLoop _,
      (disconnecting_quiet alive).trans ⟨Or.inl rfl, rfl⟩⟩
  · exact ⟨sound, Quiet.refl c⟩

theorem SendResult.taken_eq_take (result : SendResult) (data : List Byte) :
    result.taken data = data.take (result.count data.length).toNat := by
  cases result with
  | failed errno => simp [SendResult.taken, SendResult.count]
  | wrote room =>
      simp only [SendResult.taken, SendResult.count]
      rcases Nat.le_total room data.length with fits | exceeds
      · rw [Int.min_eq_left (by exact_mod_cast fits), Int.toNat_natCast]
      · rw [Int.min_eq_right (by exact_mod_cast exceeds), Int.toNat_natCast, List.take_length,
          List.take_of_length_le exceeds]

theorem SendResult.count_le (result : SendResult) (len : Nat) :
    (result.count len).toNat ≤ len := by
  cases result with
  | failed errno => simp [SendResult.count]
  | wrote room =>
      simp only [SendResult.count]
      omega

/-- Writing is asked for only while the connection is not down. -/
theorem Sound.up_of_writing (sound : Sound c) (writing : c.channel.isWriting = true) :
    c.state ≠ .kDisconnected := by
  intro down
  rw [Channel.not_isWriting_of_isNoneEvent (sound.closed down)] at writing
  cases writing

/-- The writable event keeps the stream when the queue loses exactly what the
kernel took. -/
theorem Sound.written {next : TcpConnection} (sound : Sound c)
    (up : c.state ≠ .kDisconnected) (result : SendResult)
    (state : next.state = c.state)
    (log : next.log = c.log ++ [.handleWrite c.outputBuffer.content result])
    (inputBuffer : next.inputBuffer = c.inputBuffer)
    (output : Represents next.outputBuffer
      (c.outputBuffer.content.drop (result.count c.outputBuffer.readableBytes).toNat))
    (reading : next.channel.isReading = c.channel.isReading)
    (writing : next.channel.isWriting = true ↔ next.outputBuffer.content ≠ [])
    (interest : Channel.Interested next.channel.events) : Sound next where
  input := by
    rw [inputBuffer]
    exact sound.input
  output := output.self
  stream := by
    intro _
    have nothing : (Effect.handleWrite c.outputBuffer.content result).offered = [] := rfl
    rw [log, output.content, accepted_snoc, offered_snoc, nothing, Effect.accepted,
      SendResult.taken_eq_take, sound.output.readable, List.append_assoc,
      List.take_append_drop, List.append_nil]
    exact sound.stream up
  writing := fun _ => writing
  reading := by
    rw [reading, sound.reading]
    simp only [Open, state]
  closed := by
    intro down
    exact absurd (state.symm.trans down) up
  interest := interest

theorem handleWrite_proceeds (sound : Sound c) (result : SendResult) :
    Proceeds c (c.handleWrite result) := by
  unfold handleWrite
  cases writing : c.channel.isWriting with
  | false => exact ⟨c, rfl, sound, Quiet.refl c⟩
  | true =>
      have up := sound.up_of_writing writing
      simp only [if_true]
      by_cases progress : 0 < result.count c.outputBuffer.readableBytes
      · rcases retrieve_represents sound.output _
          (result.count_le c.outputBuffer.readableBytes) with ⟨outputBuffer, retrieved, output⟩
        rw [if_pos progress, retrieved]
        simp only [inBuffer, Except.mapError, bind, Except.bind]
        by_cases drained : outputBuffer.readableBytes = 0
        · have empty : outputBuffer.content = [] := by
            rw [← List.length_eq_zero_iff, ← output.self.readable]
            exact drained
          let idle := ({ c.record (.handleWrite c.outputBuffer.content result) with
              outputBuffer := outputBuffer }.setInterest .disableWriting).queueWhen
              c.writeCompleteCallback .writeCompleteCallback
          have idleSound : Sound idle :=
            sound.written up result (by simp [idle, setInterest, record])
              (by simp [idle, setInterest, record]) (by simp [idle, setInterest, record])
              (by simpa [idle, setInterest] using output)
              (by simp [idle, setInterest, record, Channel.isReading_setInterest])
              (by simp [idle, setInterest, Channel.isWriting_setInterest, empty])
              (by simpa [idle, setInterest, Channel.setInterest, record] using
                Channel.interested_apply _ .disableWriting sound.interest)
          have idleQuiet : Quiet c idle :=
            ⟨Or.inl (by simp [idle, setInterest, record]),
              by simp [idle, setInterest, record, Effect.isLifecycle]⟩
          rw [if_pos drained]
          refine ⟨_, rfl, ?_⟩
          split
          · exact ⟨shutdownInLoop_sound idleSound, idleQuiet.trans (shutdownInLoop_quiet _)⟩
          · exact ⟨idleSound, idleQuiet⟩
        · have queued : outputBuffer.content ≠ [] := by
            intro empty
            rw [output.self.readable, empty] at drained
            exact drained rfl
          rw [if_neg drained]
          exact ⟨_, rfl,
            sound.written up result rfl rfl rfl output rfl (by simp [record, writing, queued])
              sound.interest,
            Or.inl rfl, by simp [record, Effect.isLifecycle]⟩
      · have none : (result.count c.outputBuffer.readableBytes).toNat = 0 := by omega
        rw [if_neg progress]
        refine ⟨_, rfl, sound.record ?_ rfl, Or.inl rfl, by simp [record, Effect.isLifecycle]⟩
        rw [Effect.accepted, SendResult.taken_eq_take, ← sound.output.readable, none,
          List.take_zero]

/-! ## User code and the life cycle -/

theorem call_proceeds (sound : Sound c) (thread : Thread) (userCall : UserCall) :
    Proceeds c (c.call thread userCall) := by
  cases userCall with
  | send message direct => exact send_proceeds sound thread message direct
  | shutdown => exact ⟨_, rfl, shutdown_proceeds sound thread⟩
  | forceClose => exact ⟨_, rfl, forceClose_proceeds sound⟩
  | retrieve len =>
      rcases retrieve_represents sound.input (min len c.inputBuffer.readableBytes)
        (Nat.min_le_right _ _) with ⟨inputBuffer, retrieved, input⟩
      refine ⟨{ c with inputBuffer := inputBuffer }, ?_, ?_, Or.inl rfl, rfl⟩
      · simp only [call, retrieved]
        rfl
      · exact ⟨input.self, sound.output, sound.stream, sound.writing, sound.reading,
          sound.closed, sound.interest⟩

theorem userCode_proceeds (sound : Sound c) (user : List UserCall) :
    Proceeds c (c.userCode user) := by
  rcases run_succeeds (fun next => Sound next ∧ Quiet c next)
      (fun middle userCall invariant _ => by
        rcases call_proceeds invariant.1 .loop userCall with ⟨next, called, nextSound, quiet⟩
        exact ⟨next, called, nextSound, invariant.2.trans quiet⟩)
      ⟨sound, Quiet.refl c⟩
      (all_steps_of_forall (fun _ _ => True) (fun _ _ _ => trivial) c)
    with ⟨final, ran, finalSound, quiet⟩
  exact ⟨final, ran, finalSound, quiet⟩

/-- A callback of the life cycle is one entry of the log, then user code. -/
theorem connectionCallback_reports (sound : Sound c) (user : List UserCall) :
    ∃ next, c.connectionCallback user = .ok next ∧ Sound next ∧
      (next.state = c.state ∨ c.state = .kConnected ∧ next.state = .kDisconnecting) ∧
      lifecycle next.log = lifecycle c.log ++ [.connectionCallback c.connected] := by
  have recorded : Sound (c.record (.connectionCallback c.connected)) := sound.record rfl rfl
  rcases userCode_proceeds recorded user with ⟨next, ran, nextSound, quiet⟩
  refine ⟨next, ran, nextSound, quiet.state, ?_⟩
  rw [quiet.lifecycle]
  simp [record, Effect.isLifecycle]

theorem messageCallback_proceeds (sound : Sound c) (user : List UserCall) :
    Proceeds c (c.messageCallback user) := by
  have recorded : Sound (c.record .messageCallback) := sound.record rfl rfl
  rcases userCode_proceeds recorded user with ⟨next, ran, nextSound, quiet⟩
  refine ⟨next, ran, nextSound, quiet.state, ?_⟩
  rw [quiet.lifecycle]
  simp [record, Effect.isLifecycle]

theorem disconnected_sound (sound : Sound c) :
    Sound ((c.setState .kDisconnected).setInterest .disableAll) where
  input := sound.input
  output := sound.output
  stream := fun up => absurd rfl up
  writing := fun up => absurd rfl up
  reading := by
    simp [setInterest, Channel.isReading_setInterest, Open, setState]
  closed := fun _ => Channel.isNoneEvent_disableAll _
  interest := Or.inl rfl

/-- Taking the connection down and reporting it: nothing the callback does can
bring it up again. -/
theorem down_reports (sound : Sound c) (user : List UserCall) :
    ∃ next, ((c.setState .kDisconnected).setInterest .disableAll).connectionCallback user =
        .ok next ∧ Sound next ∧ next.state = .kDisconnected ∧
      lifecycle next.log = lifecycle c.log ++ [.connectionCallback false] := by
  rcases connectionCallback_reports (disconnected_sound sound) user with
    ⟨next, ran, nextSound, state | ⟨impossible, -⟩, reported⟩
  · exact ⟨next, ran, nextSound, state, reported⟩
  · cases impossible

/-- The function succeeds and has closed the connection once. -/
def Closes (c : TcpConnection) (result : Except Assertion TcpConnection) : Prop :=
  ∃ next, result = .ok next ∧ Sound next ∧ next.state = .kDisconnected ∧
    lifecycle next.log = lifecycle c.log ++
      [.handleClose, .connectionCallback false, .closeCallback]

theorem handleClose_closes (sound : Sound c) (alive : Open c) (user : List UserCall) :
    Closes c (c.handleClose user) := by
  have entered : Sound (c.record .handleClose) := sound.record rfl rfl
  rcases down_reports entered user with ⟨down, ran, downSound, state, reported⟩
  refine ⟨down.record .closeCallback, ?_, downSound.record rfl rfl, state, ?_⟩
  · have asserted : (c.record .handleClose).state = .kConnected ∨
        (c.record .handleClose).state = .kDisconnecting := alive
    simp only [handleClose]
    rw [require_ok asserted, ran]
    rfl
  · simp [record, reported, Effect.isLifecycle]

theorem handleClose_fails (dead : ¬Open c) (user : List UserCall) :
    c.handleClose user = .error .handleCloseState := by
  have violated : ¬((c.record .handleClose).state = .kConnected ∨
      (c.record .handleClose).state = .kDisconnecting) := dead
  simp only [handleClose]
  rw [require_error violated]
  rfl

theorem established_sound (sound : Sound c) (fresh : c.state = .kConnecting) :
    Sound ((c.setState .kConnected).setInterest .enableReading) := by
  have up : c.state ≠ .kDisconnected := by simp [fresh]
  exact
    { input := sound.input
      output := sound.output
      stream := fun _ => sound.stream up
      writing := by
        intro _
        simpa [setInterest, setState, Channel.isWriting_setInterest] using sound.writing up
      reading := by
        simp [setInterest, Channel.isReading_setInterest, Open, setState]
      closed := by
        intro down
        cases down
      interest := Channel.interested_apply _ .enableReading sound.interest }

theorem connectEstablished_opens (sound : Sound c) (fresh : c.state = .kConnecting)
    (user : List UserCall) :
    ∃ next, c.connectEstablished user = .ok next ∧ Sound next ∧ Open next ∧
      lifecycle next.log = lifecycle c.log ++ [.connectionCallback true] := by
  have opened := established_sound sound fresh
  rcases connectionCallback_reports opened user with ⟨next, ran, nextSound, state, reported⟩
  refine ⟨next, ?_, nextSound, ?_, reported⟩
  · simp only [connectEstablished]
    rw [require_ok fresh]
    exact ran
  · rcases state with same | ⟨-, disconnecting⟩
    · exact Or.inl same
    · exact Or.inr disconnecting

theorem connectDestroyed_connected (sound : Sound c) (connected : c.state = .kConnected)
    (user : List UserCall) :
    ∃ next, c.connectDestroyed user = .ok next ∧ Sound next ∧ next.state = .kDisconnected ∧
      lifecycle next.log = lifecycle c.log ++ [.connectionCallback false, .removeChannel] := by
  rcases down_reports sound user with ⟨down, ran, downSound, state, reported⟩
  refine ⟨down.record .removeChannel, ?_, downSound.record rfl rfl, state, ?_⟩
  · simp only [connectDestroyed, if_pos connected, ran, removeChannel, bind, Except.bind,
      require_ok (downSound.closed state)]
    rfl
  · simp [record, reported, Effect.isLifecycle]

/-- Without the callback: only the removal of the channel is left. -/
theorem connectDestroyed_other (notConnected : c.state ≠ .kConnected) (user : List UserCall) :
    c.connectDestroyed user = c.removeChannel := by
  simp only [connectDestroyed, if_neg notConnected]
  rfl

theorem connectDestroyed_disconnected (sound : Sound c) (down : c.state = .kDisconnected)
    (user : List UserCall) :
    c.connectDestroyed user = .ok (c.record .removeChannel) := by
  rw [connectDestroyed_other (by simp [down]), removeChannel, require_ok (sound.closed down)]
  rfl

/-- A connection that is shutting down still reads, so its channel cannot be
removed. -/
theorem connectDestroyed_disconnecting (sound : Sound c)
    (disconnecting : c.state = .kDisconnecting) (user : List UserCall) :
    c.connectDestroyed user = .error .removeNoneEvent := by
  have reading : c.channel.isReading = true := sound.reading.mpr (Or.inr disconnecting)
  have watching : ¬c.channel.isNoneEvent = true := by
    intro none
    rw [Channel.not_isReading_of_isNoneEvent none] at reading
    cases reading
  rw [connectDestroyed_other (by simp [disconnecting]), removeChannel, require_error watching]
  rfl

/-! ## Events -/

theorem Proceeds.after {middle : TcpConnection} {result : Except Assertion TcpConnection}
    (proceeds : Proceeds middle result) (quiet : Quiet c middle) : Proceeds c result := by
  rcases proceeds with ⟨next, ran, sound, later⟩
  exact ⟨next, ran, sound, quiet.trans later⟩

theorem Closes.after {middle : TcpConnection} {result : Except Assertion TcpConnection}
    (closes : Closes middle result) (quiet : Quiet c middle) : Closes c result := by
  rcases closes with ⟨next, ran, sound, down, reported⟩
  exact ⟨next, ran, sound, down, by rw [reported, quiet.lifecycle]⟩

theorem Sound.withInput (sound : Sound c) {buffer : Buffer} {bytes : List Byte}
    (input : Represents buffer bytes) : Sound { c with inputBuffer := buffer } :=
  ⟨input.self, sound.output, sound.stream, sound.writing, sound.reading, sound.closed,
    sound.interest⟩

/-- The receive never fails on a sound connection, and leaves its stream and
its life cycle alone. -/
theorem readFd_sound (sound : Sound c) (receive : Receive) :
    ∃ result, inBuffer (c.inputBuffer.readFd receive) = .ok result ∧
      Sound { c with inputBuffer := result.buffer } := by
  cases receive with
  | failed code => exact ⟨⟨c.inputBuffer, 0, some code⟩, rfl, sound.withInput sound.input⟩
  | received data =>
      rcases readFd_received sound.input data with ⟨buffer, read, represents⟩
      refine ⟨⟨buffer, toInt data.length, none⟩, ?_, sound.withInput represents⟩
      rw [read]
      rfl

theorem handleError_sound (sound : Sound c) : Sound c.handleError := sound.record rfl rfl

theorem handleError_quiet (c : TcpConnection) : Quiet c c.handleError :=
  ⟨Or.inl rfl, by simp [handleError, record, Effect.isLifecycle]⟩

theorem handleRead_outcome (sound : Sound c) (alive : Open c) (receive : Receive)
    (user : List UserCall) :
    Proceeds c (c.handleRead receive user) ∨ Closes c (c.handleRead receive user) := by
  rcases readFd_sound sound receive with ⟨result, read, readSound⟩
  have same : Quiet c { c with inputBuffer := result.buffer } := ⟨Or.inl rfl, rfl⟩
  simp only [handleRead, read, bind, Except.bind]
  split
  · exact Or.inl ((messageCallback_proceeds readSound user).after same)
  · split
    · exact Or.inr ((handleClose_closes readSound alive user).after same)
    · exact Or.inl ⟨_, rfl, handleError_sound readSound, same.trans (handleError_quiet _)⟩

theorem Proceeds.sound {result : Except Assertion TcpConnection} {next : TcpConnection}
    (proceeds : Proceeds c result) (ran : result = .ok next) : Sound next := by
  rcases proceeds with ⟨other, same, sound, -⟩
  cases ran.symm.trans same
  exact sound

theorem Closes.sound {result : Except Assertion TcpConnection} {next : TcpConnection}
    (closes : Closes c result) (ran : result = .ok next) : Sound next := by
  rcases closes with ⟨other, same, sound, -⟩
  cases ran.symm.trans same
  exact sound

theorem handleClose_sound {next : TcpConnection} {user : List UserCall} (sound : Sound c)
    (ran : c.handleClose user = .ok next) : Sound next := by
  by_cases alive : Open c
  · exact (handleClose_closes sound alive user).sound ran
  · rw [handleClose_fails alive] at ran
    cases ran

theorem handleRead_sound {next : TcpConnection} {receive : Receive} {user : List UserCall}
    (sound : Sound c) (ran : c.handleRead receive user = .ok next) : Sound next := by
  rcases readFd_sound sound receive with ⟨result, read, readSound⟩
  simp only [handleRead, read, bind, Except.bind] at ran
  split at ran
  · exact (messageCallback_proceeds readSound user).sound ran
  · split at ran
    · exact handleClose_sound readSound ran
    · cases ran
      exact handleError_sound readSound

theorem handleEvent_sound {next : TcpConnection} {answers : Answers} (sound : Sound c)
    (ran : c.handleEvent answers = .ok next) : Sound next := by
  rcases bind_ok_inv ran with ⟨closed, closing, ran⟩
  have closedSound : Sound closed := by
    split at closing
    · exact handleClose_sound sound closing
    · cases closing
      exact sound
  rcases bind_ok_inv ran with ⟨read, reading, ran⟩
  have readSound : Sound read := by
    have notedSound := handleError_sound closedSound
    split at reading
    · split at reading
      · exact handleRead_sound notedSound reading
      · exact handleRead_sound closedSound reading
    · cases reading
      split
      · exact notedSound
      · exact closedSound
  split at ran
  · exact (handleWrite_proceeds readSound answers.sending).sound ran
  · cases ran
    exact readSound

theorem connectDestroyed_sound {next : TcpConnection} {user : List UserCall} (sound : Sound c)
    (ran : c.connectDestroyed user = .ok next) : Sound next := by
  by_cases connected : c.state = .kConnected
  · rcases connectDestroyed_connected sound connected user with ⟨down, same, downSound, -⟩
    cases ran.symm.trans same
    exact downSound
  · rw [connectDestroyed_other connected] at ran
    rcases bind_ok_inv ran with ⟨-, -, removed⟩
    cases removed
    exact sound.record rfl rfl

theorem perform_sound {next : TcpConnection} {functor : Functor} {direct : SendResult}
    {user : List UserCall} (sound : Sound c)
    (ran : c.perform functor direct user = .ok next) : Sound next := by
  cases functor with
  | sendInLoop message => exact (sendInLoop_proceeds sound message direct).sound ran
  | shutdownInLoop =>
      cases ran
      exact shutdownInLoop_sound sound
  | forceCloseInLoop =>
      simp only [perform, forceCloseInLoop] at ran
      split at ran
      · exact handleClose_sound sound ran
      · cases ran
        exact sound
  | writeCompleteCallback => exact (userCode_proceeds sound user).sound ran
  | highWaterMarkCallback size => exact (userCode_proceeds sound user).sound ran

theorem Sound.withFunctors (sound : Sound c) (functors : List Functor) :
    Sound { c with pendingFunctors := functors } :=
  ⟨sound.input, sound.output, sound.stream, sound.writing, sound.reading, sound.closed,
    sound.interest⟩

theorem Sound.withRevents (sound : Sound c) (revents : EventMask) :
    Sound { c with channel := { c.channel with revents := revents } } :=
  ⟨sound.input, sound.output, sound.stream, sound.writing, sound.reading, sound.closed,
    sound.interest⟩

theorem step_sound (c : TcpConnection) (event : Event) (next : TcpConnection)
    (sound : Sound c) (taken : step c event = .ok next) : Sound next := by
  cases event with
  | connectEstablished user =>
      rcases bind_ok_inv taken with ⟨passed, required, reported⟩
      have fresh : c.state = .kConnecting := require_inv required
      rcases connectEstablished_opens sound fresh user with ⟨opened, same, openedSound, -⟩
      cases taken.symm.trans same
      exact openedSound
  | connectDestroyed user => exact connectDestroyed_sound sound taken
  | handleEvent revents answers => exact handleEvent_sound (sound.withRevents revents) taken
  | call thread userCall => exact (call_proceeds sound thread userCall).sound taken
  | functor direct user =>
      simp only [step] at taken
      split at taken
      · cases taken
        exact sound
      · next functor rest _ => exact perform_sound (sound.withFunctors rest) taken
  | sendInLoop message direct => exact (sendInLoop_proceeds sound message direct).sound taken
  | handleWrite result => exact (handleWrite_proceeds sound result).sound taken
  | shutdownInLoop =>
      cases taken
      exact shutdownInLoop_sound sound
  | handleClose user => exact handleClose_sound sound taken

end

/-- Everything a connection reaches from its construction is sound. -/
theorem run_sound (sockfd : Int) (options : Options) {events : List Event}
    {final : TcpConnection} (ran : run step (new sockfd options) events = .ok final) :
    Sound final :=
  run_invariant Sound step_sound (new_sound sockfd options) ran

end Msmuduo.TcpConnection
