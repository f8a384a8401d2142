import Msmuduo.TcpConnectionRace

/-!
# One close of a connection

`kDisconnected` is final, and the connection is closed once, as long as no store of
another thread finds it closed. Before the close at most one task on the agenda can
begin it; behind it only its callbacks are left, which `Ended` counts.
-/

namespace Msmuduo.TcpConnection

open Msmuduo.Machine Msmuduo.Buffer

set_option autoImplicit false

/-! ## What one task does -/

/-- How often `closeCallback_` was called. -/
def closeCallbacks (log : List Effect) : Nat := log.count .closeCallback

theorem closeCallbacks_lifecycle (log : List Effect) :
    closeCallbacks (lifecycle log) = closeCallbacks log :=
  List.count_filter rfl

section

variable {c next : TcpConnection}

/-- Nothing of a close has happened. -/
structure Steady (c next : TcpConnection) : Prop where
  down_iff : next.state = .kDisconnected ↔ c.state = .kDisconnected
  established : c.state ≠ .kConnecting → next.state ≠ .kConnecting
  closes : closes next.log = closes c.log
  closeCallbacks : closeCallbacks next.log = closeCallbacks c.log

theorem Steady.up (steady : Steady c next) (up : c.state ≠ .kDisconnected) :
    next.state ≠ .kDisconnected :=
  fun state => up (steady.down_iff.mp state)

theorem Quiet.steady (quiet : Quiet c next) : Steady c next where
  down_iff := quiet.disconnected_iff
  established := by
    intro established
    rcases quiet.state with same | ⟨-, disconnecting⟩
    · rwa [same]
    · simp [disconnecting]
  closes := by rw [← closes_lifecycle, quiet.lifecycle, closes_lifecycle]
  closeCallbacks := by
    rw [← closeCallbacks_lifecycle, quiet.lifecycle, closeCallbacks_lifecycle]

/-- The outcome of a task that has no part in a close. -/
structure Harmless (c next : TcpConnection) (more : List Task) : Prop where
  sound : Sound next
  steady : Steady c next
  calm : ∀ task ∈ more, task.calm = true

theorem calls_calm (user : List UserCall) :
    ∀ task ∈ user.map Task.call, task.calm = true := by
  intro task member
  rcases List.mem_map.mp member with ⟨userCall, -, rfl⟩
  rfl

theorem Proceeds.harmless {result : Except Assertion TcpConnection} (proceeds : Proceeds c result)
    (ran : result = .ok next) : Harmless c next [] := by
  rcases proceeds with ⟨other, same, sound, quiet⟩
  cases ran.symm.trans same
  exact ⟨sound, quiet.steady, by simp⟩

theorem connectionCallback_harmless (sound : Sound c) (user : List UserCall) :
    Harmless c (c.record (.connectionCallback c.connected)) (user.map .call) where
  sound := sound.record rfl rfl
  steady := by
    constructor <;> simp [record, TcpConnection.closes, TcpConnection.closeCallbacks]
  calm := calls_calm user

theorem removeChannel_harmless (sound : Sound c) (ran : c.removeChannel = .ok next) :
    Harmless c next [] := by
  rcases bind_ok_inv ran with ⟨passed, -, done⟩
  cases done
  refine ⟨sound.record rfl rfl, ?_, by simp⟩
  constructor <;> simp [record, TcpConnection.closes, TcpConnection.closeCallbacks]

theorem calm_harmless {task : Task} (calm : task.calm = true) (sound : Sound c)
    {more : List Task} (ran : task.perform c = .ok (next, more)) : Harmless c next more := by
  cases task with
  | handleClose _ | goDown | downCallback _ | closeCallback | handleRead _ _ => cases calm
  | connectEstablished user =>
      rcases bind_ok_inv ran with ⟨passed, required, done⟩
      have fresh := require_inv required
      cases done
      refine ⟨established_sound sound fresh, ?_, by simp [Task.calm, Task.closes,
        Task.isDownCallback, Task.isCloseCallback]⟩
      constructor <;> simp [setInterest, setState, fresh]
  | connectionCallback user =>
      cases ran
      exact connectionCallback_harmless sound user
  | call userCall =>
      rcases bind_ok_inv ran with ⟨called, calls, done⟩
      cases done
      exact (call_proceeds sound .loop userCall).harmless calls
  | handleError =>
      cases ran
      exact ⟨handleError_sound sound, (handleError_quiet c).steady, by simp⟩
  | handleWrite result =>
      rcases bind_ok_inv ran with ⟨written, writes, done⟩
      cases done
      exact (handleWrite_proceeds sound result).harmless writes
  | removeChannel =>
      rcases bind_ok_inv ran with ⟨removed, removes, done⟩
      cases done
      exact removeChannel_harmless sound removes

/-- A receive leaves the close to the next task. -/
theorem handleRead_harmless (sound : Sound c) {receive : Receive} {user : List UserCall}
    {more : List Task} (ran : Task.perform c (.handleRead receive user) = .ok (next, more)) :
    Harmless c next more ∨ Harmless c next [] ∧ more = [.handleClose user] := by
  rcases readFd_sound sound receive with ⟨result, read, readSound⟩
  have same : Quiet c { c with inputBuffer := result.buffer } := ⟨Or.inl rfl, rfl⟩
  simp only [Task.perform, read, bind, Except.bind] at ran
  split at ran
  · cases ran
    left
    refine ⟨readSound.record rfl rfl, Quiet.steady ⟨Or.inl rfl, ?_⟩, calls_calm user⟩
    simp [record, Effect.isLifecycle]
  split at ran
  · cases ran
    exact Or.inr ⟨⟨readSound, same.steady, by simp⟩, rfl⟩
  · cases ran
    exact Or.inl ⟨handleError_sound readSound, (same.trans (handleError_quiet _)).steady,
      by simp⟩

/-- A functor that does not close the connection is harmless. -/
theorem startFunctor_harmless (sound : Sound c) {functor : Functor} {direct : SendResult}
    {user : List UserCall} {tasks : List Task}
    (ran : c.startFunctor functor direct user = .ok (next, tasks)) :
    Harmless c next tasks ∨ Open c ∧ next = c ∧ tasks = [.handleClose user] := by
  cases functor with
  | sendInLoop message =>
      rcases bind_ok_inv ran with ⟨sent, sends, done⟩
      cases done
      exact Or.inl ((sendInLoop_proceeds sound message direct).harmless sends)
  | shutdownInLoop =>
      cases ran
      exact Or.inl ⟨shutdownInLoop_sound sound, (shutdownInLoop_quiet c).steady, by simp⟩
  | forceCloseInLoop =>
      simp only [startFunctor] at ran
      split at ran
      · next alive =>
        cases ran
        exact Or.inr ⟨alive, rfl, rfl⟩
      · cases ran
        exact Or.inl ⟨sound, (Quiet.refl c).steady, by simp⟩
  | writeCompleteCallback | highWaterMarkCallback _ =>
      cases ran
      exact Or.inl ⟨sound, (Quiet.refl c).steady, calls_calm user⟩

end

/-! ## The invariant -/

namespace Raced

/-- `state_` does not change any more once it was `kDisconnected`, and each part of
a close happened at most once. -/
structure Final (r : Raced) : Prop where
  state : r.down = true → r.connection.state = .kDisconnected
  closes : closes r.connection.log ≤ 1
  downs : r.downs ≤ 1
  closeCallbacks : closeCallbacks r.connection.log ≤ 1

/-- A store of another thread does not find the connection closed. -/
def StoresInTime (r : Raced) : Event → Prop
  | .store i => r.tested[i]?.isSome = true → r.connection.state ≠ .kDisconnected
  | _ => True

/-- No close has begun, and at most one is ahead. -/
structure Waiting (r : Raced) : Prop where
  single : r.agenda.countP Task.closes ≤ 1
  calm : ∀ task ∈ r.agenda, task.closes = false → task.calm = true
  notDown : .goDown ∉ r.agenda
  down : r.down = false
  closes : closes r.connection.log = 0
  downs : r.downs = 0
  closeCallbacks : closeCallbacks r.connection.log = 0

/-- The close is done but for its callbacks. -/
structure Ended (r : Raced) : Prop where
  none : r.agenda.countP Task.closes = 0
  closes : closes r.connection.log ≤ 1
  downs : r.downs + r.agenda.countP Task.isDownCallback ≤ 1
  closeCallbacks : closeCallbacks r.connection.log + r.agenda.countP Task.isCloseCallback ≤ 1

inductive Phase (r : Raced) : Prop
  | waiting (up : r.connection.state ≠ .kDisconnected) (waiting : Waiting r)
  | falling (rest : List Task) (up : r.connection.state ≠ .kDisconnected)
      (agenda : r.agenda = .goDown :: rest) (down : r.down = false)
      (ended : Ended { r with agenda := rest })
  | ended (state : r.connection.state = .kDisconnected) (down : r.down = true) (ended : Ended r)

structure Kept (r : Raced) : Prop where
  sound : Sound r.connection
  established : r.tested ≠ [] → r.connection.state ≠ .kConnecting
  phase : Phase r

theorem new_kept (sockfd : Int) (options : Options) : Kept (new sockfd options) where
  sound := new_sound sockfd options
  established := by simp [new]
  phase := by
    apply Phase.waiting
    · simp [new, TcpConnection.new]
    · constructor <;> simp [new, TcpConnection.new, TcpConnection.closes,
        TcpConnection.closeCallbacks]

section

variable {r next : Raced}

theorem Kept.final (kept : Kept r) : Final r := by
  rcases kept.phase with ⟨up, waiting⟩ | ⟨rest, up, agenda, down, ended⟩ | ⟨state, down, ended⟩
  · constructor
    · simp [waiting.down]
    · simp [waiting.closes]
    · simp [waiting.downs]
    · simp [waiting.closeCallbacks]
  · constructor
    · simp [down]
    · exact ended.closes
    · exact Nat.le_trans (Nat.le_add_right _ _) ended.downs
    · exact Nat.le_trans (Nat.le_add_right _ _) ended.closeCallbacks
  · constructor
    · intro _
      exact state
    · exact ended.closes
    · exact Nat.le_trans (Nat.le_add_right _ _) ended.downs
    · exact Nat.le_trans (Nat.le_add_right _ _) ended.closeCallbacks

theorem countP_cons_toNat (p : Task → Bool) (task : Task) (rest : List Task) :
    (task :: rest).countP p = rest.countP p + (p task).toNat := by
  rw [List.countP_cons]
  cases p task <;> rfl

theorem calm_iff (task : Task) :
    task.calm = true ↔
      task.closes = false ∧ task.isDownCallback = false ∧ task.isCloseCallback = false := by
  simp only [Task.calm, Bool.and_eq_true, Bool.not_eq_true', and_assoc]

theorem calm_counts {tasks : List Task} (calm : ∀ task ∈ tasks, task.calm = true) :
    tasks.countP Task.closes = 0 ∧ tasks.countP Task.isDownCallback = 0 ∧
      tasks.countP Task.isCloseCallback = 0 := by
  simp only [List.countP_eq_zero]
  refine ⟨?_, ?_, ?_⟩ <;>
  · intro task member
    simp [(calm_iff task).mp (calm task member)]

section

variable {task : Task} {rest more : List Task} {c : TcpConnection}

theorem Waiting.advance (waiting : Waiting r) (agenda : r.agenda = task :: rest)
    (up : c.state ≠ .kDisconnected) (steady : Steady r.connection c)
    (reporting : task.isDownCallback = false)
    (single : more.countP Task.closes ≤ task.closes.toNat)
    (calm : ∀ later ∈ more, later.closes = false → later.calm = true)
    (notDown : .goDown ∉ more) : Waiting (r.advance task rest c more) where
  single := by
    have before := waiting.single
    rw [agenda, countP_cons_toNat] at before
    simp only [Raced.advance, List.countP_append]
    omega
  calm := by
    intro later member
    rcases List.mem_append.mp member with new | old
    · exact calm later new
    · exact waiting.calm later (by simp [agenda, old])
  notDown := by
    intro member
    rcases List.mem_append.mp member with new | old
    · exact notDown new
    · exact waiting.notDown (by simp [agenda, old])
  down := by simp [Raced.advance, waiting.down, up]
  closes := steady.closes.trans waiting.closes
  downs := by simp [Raced.advance, waiting.downs, reporting]
  closeCallbacks := steady.closeCallbacks.trans waiting.closeCallbacks

/-- Without a new task that has a part in a close. -/
theorem Waiting.advance_calm (waiting : Waiting r) (agenda : r.agenda = task :: rest)
    (up : c.state ≠ .kDisconnected) (harmless : Harmless r.connection c more)
    (reporting : task.isDownCallback = false) : Waiting (r.advance task rest c more) := by
  apply waiting.advance agenda up harmless.steady reporting
  · rw [(calm_counts harmless.calm).1]
    exact Nat.zero_le _
  · intro later member _
    exact harmless.calm later member
  · intro member
    cases harmless.calm _ member

theorem Ended.advance (ended : Ended r) (agenda : r.agenda = task :: rest)
    (same : TcpConnection.closes c.log = TcpConnection.closes r.connection.log)
    (called : TcpConnection.closeCallbacks c.log =
      TcpConnection.closeCallbacks r.connection.log + task.isCloseCallback.toNat)
    (calm : ∀ later ∈ more, later.calm = true) : Ended (r.advance task rest c more) := by
  rcases ended with ⟨none, closes, downs, closeCallbacks⟩
  rw [agenda, countP_cons_toNat] at none downs closeCallbacks
  rcases calm_counts calm with ⟨noClose, noDown, noCallback⟩
  constructor
  · simp only [Raced.advance, List.countP_append, noClose]
    omega
  · exact same.trans_le closes
  · simp only [Raced.advance, List.countP_append, noDown]
    omega
  · simp only [Raced.advance, List.countP_append, noCallback, called]
    omega

/-- A task that closes the connection, the store apart, finds it waiting. -/
theorem Phase.waiting_of_closes (phase : Phase r) (agenda : r.agenda = task :: rest)
    (closes : task.closes = true) (other : task ≠ .goDown) :
    r.connection.state ≠ .kDisconnected ∧ Waiting r := by
  rcases phase with ⟨up, waiting⟩ | ⟨later, -, falling, -, -⟩ | ⟨-, -, ended⟩
  · exact ⟨up, waiting⟩
  · rw [agenda, List.cons.injEq] at falling
    exact absurd falling.1 other
  · have none := ended.none
    rw [agenda, countP_cons_toNat, closes] at none
    cases none

/-- The two callbacks of a close come when the connection is down. -/
theorem Phase.ended_of_reports (phase : Phase r) (agenda : r.agenda = task :: rest)
    (reports : task.calm = false) (closes : task.closes = false) :
    r.connection.state = .kDisconnected ∧ r.down = true ∧ Ended r := by
  rcases phase with ⟨-, waiting⟩ | ⟨later, -, falling, -, -⟩ | ⟨state, down, ended⟩
  · have calm := waiting.calm task (by simp [agenda]) closes
    rw [reports] at calm
    cases calm
  · rw [agenda, List.cons.injEq] at falling
    rw [falling.1] at closes
    cases closes
  · exact ⟨state, down, ended⟩

/-- Between two events of the loop thread no close is underway. -/
theorem Phase.of_idle (phase : Phase r) (idle : r.agenda = []) :
    (r.connection.state ≠ .kDisconnected ∧ Waiting r) ∨
      (r.connection.state = .kDisconnected ∧ r.down = true ∧ Ended r) := by
  rcases phase with ⟨up, waiting⟩ | ⟨later, -, falling, -, -⟩ | ⟨state, down, ended⟩
  · exact Or.inl ⟨up, waiting⟩
  · rw [idle] at falling
    cases falling
  · exact Or.inr ⟨state, down, ended⟩

/-- A task without a part in a close, in any phase. -/
theorem Phase.calm (phase : Phase r) (agenda : r.agenda = task :: rest)
    (calm : task.calm = true) (harmless : Harmless r.connection c more) :
    Phase (r.advance task rest c more) := by
  have steady := harmless.steady
  rcases (calm_iff task).mp calm with ⟨-, reporting, calling⟩
  rcases phase with ⟨up, waiting⟩ | ⟨later, up, falling, -, -⟩ | ⟨state, down, ended⟩
  · exact .waiting (steady.up up)
      (waiting.advance_calm agenda (steady.up up) harmless reporting)
  · rw [agenda, List.cons.injEq] at falling
    rw [falling.1] at calm
    cases calm
  · refine .ended (steady.down_iff.mpr state) (by simp [advance, down])
      (ended.advance agenda steady.closes ?_ harmless.calm)
    rw [steady.closeCallbacks, calling]
    rfl

theorem Phase.handleClose (phase : Phase r) {user : List UserCall}
    (agenda : r.agenda = .handleClose user :: rest) :
    Phase (r.advance (.handleClose user) rest (r.connection.record .handleClose)
      [.goDown, .downCallback user, .closeCallback]) := by
  rcases phase.waiting_of_closes agenda rfl (by simp) with ⟨up, waiting⟩
  have single := waiting.single
  rw [agenda, countP_cons_toNat] at single
  have calm : ∀ task ∈ rest, task.calm = true := by
    intro task member
    apply waiting.calm task (by simp [agenda, member])
    have none : rest.countP Task.closes = 0 := by
      simp only [Task.closes, Bool.toNat_true] at single
      omega
    simpa using List.countP_eq_zero.mp none task member
  rcases calm_counts calm with ⟨noClose, noDown, noCallback⟩
  refine .falling (.downCallback user :: .closeCallback :: rest) up rfl ?_ ?_
  · simp [advance, waiting.down, up, record]
  · constructor
    · simp [noClose, Task.closes]
    · have fresh := waiting.closes
      simp only [TcpConnection.closes] at fresh
      simp [advance, record, TcpConnection.closes, fresh]
    · simp [advance, countP_cons_toNat, noDown, Task.isDownCallback, waiting.downs]
    · have fresh := waiting.closeCallbacks
      simp only [TcpConnection.closeCallbacks] at fresh
      simp [advance, record, TcpConnection.closeCallbacks, countP_cons_toNat, noCallback,
        Task.isCloseCallback, fresh]

theorem Phase.handleRead (phase : Phase r) {receive : Receive} {user : List UserCall}
    (agenda : r.agenda = .handleRead receive user :: rest)
    (harmless : Harmless r.connection c more ∨
      Harmless r.connection c [] ∧ more = [.handleClose user]) :
    Phase (r.advance (.handleRead receive user) rest c more) := by
  rcases phase.waiting_of_closes agenda rfl (by simp) with ⟨up, waiting⟩
  rcases harmless with harmless | ⟨harmless, rfl⟩
  · have stillUp := harmless.steady.up up
    exact .waiting stillUp (waiting.advance_calm agenda stillUp harmless rfl)
  · have stillUp := harmless.steady.up up
    refine .waiting stillUp (waiting.advance agenda stillUp harmless.steady rfl ?_ ?_ ?_)
    · simp [Task.closes]
    · simp [Task.closes]
    · simp

theorem Phase.goDown (phase : Phase r) (agenda : r.agenda = .goDown :: rest) :
    Phase (r.advance .goDown rest
      ((r.connection.setState .kDisconnected).setInterest .disableAll) []) := by
  rcases phase with ⟨-, waiting⟩ | ⟨later, -, falling, -, closing⟩ | ⟨-, -, ended⟩
  · exact absurd (by simp [agenda]) waiting.notDown
  · rw [agenda, List.cons.injEq] at falling
    rw [← falling.2] at closing
    apply Phase.ended
    · rfl
    · simp [advance, setInterest, setState]
    · exact ⟨closing.none, closing.closes, closing.downs, closing.closeCallbacks⟩
  · have none := ended.none
    rw [agenda, countP_cons_toNat] at none
    cases Nat.eq_zero_of_add_eq_zero_left none

theorem Kept.perform (kept : Kept r) (agenda : r.agenda = task :: rest)
    (ran : task.perform r.connection = .ok (c, more)) : Kept (r.advance task rest c more) := by
  cases calm : task.calm with
  | true =>
      have harmless := calm_harmless calm kept.sound ran
      exact ⟨harmless.sound, fun tested => harmless.steady.established (kept.established tested),
        kept.phase.calm agenda calm harmless⟩
  | false =>
      cases task with
      | connectEstablished _ | connectionCallback _ | call _ | handleError | handleWrite _
      | removeChannel => cases calm
      | handleClose user =>
          rcases bind_ok_inv ran with ⟨passed, -, done⟩
          cases done
          exact ⟨kept.sound.record rfl rfl, kept.established, kept.phase.handleClose agenda⟩
      | handleRead receive user =>
          have outcome := handleRead_harmless kept.sound ran
          have phase := kept.phase.handleRead agenda outcome
          rcases outcome with harmless | ⟨harmless, -⟩ <;>
            exact ⟨harmless.sound,
              fun tested => harmless.steady.established (kept.established tested), phase⟩
      | goDown =>
          cases ran
          exact ⟨disconnected_sound kept.sound, by simp [Raced.advance, setInterest, setState],
            kept.phase.goDown agenda⟩
      | downCallback user =>
          cases ran
          rcases kept.phase.ended_of_reports agenda calm rfl with ⟨state, down, ended⟩
          have harmless := connectionCallback_harmless kept.sound user
          refine ⟨harmless.sound, kept.established, .ended state (by simp [Raced.advance, down]) ?_⟩
          apply ended.advance agenda harmless.steady.closes _ harmless.calm
          exact harmless.steady.closeCallbacks
      | closeCallback =>
          cases ran
          rcases kept.phase.ended_of_reports agenda calm rfl with ⟨state, down, ended⟩
          refine ⟨kept.sound.record rfl rfl, kept.established,
            .ended state (by simp [Raced.advance, down]) ?_⟩
          apply ended.advance agenda
          · simp [record, TcpConnection.closes]
          · simp [record, TcpConnection.closeCallbacks, Task.isCloseCallback]
          · simp

/-! ## The steps -/

variable {tasks : List Task}

theorem Waiting.begin (waiting : Waiting r) (steady : Steady r.connection c)
    (single : tasks.countP Task.closes ≤ 1)
    (calm : ∀ task ∈ tasks, task.closes = false → task.calm = true) (notDown : .goDown ∉ tasks) :
    Waiting { r with connection := c, agenda := tasks } :=
  ⟨single, calm, notDown, waiting.down, steady.closes.trans waiting.closes, waiting.downs,
    steady.closeCallbacks.trans waiting.closeCallbacks⟩

theorem Phase.begin (phase : Phase r) (idle : r.agenda = [])
    (harmless : Harmless r.connection c tasks) :
    Phase { r with connection := c, agenda := tasks } := by
  have steady := harmless.steady
  rcases calm_counts harmless.calm with ⟨noClose, noDown, noCallback⟩
  rcases phase.of_idle idle with ⟨up, waiting⟩ | ⟨state, down, ended⟩
  · apply Phase.waiting (steady.up up)
    apply waiting.begin steady (by omega)
    · intro task member _
      exact harmless.calm task member
    · intro member
      cases harmless.calm _ member
  · rcases ended with ⟨-, closes, downs, closeCallbacks⟩
    rw [idle] at downs closeCallbacks
    refine .ended (steady.down_iff.mpr state) down ⟨noClose, steady.closes.trans_le closes, ?_, ?_⟩
    · rw [noDown]
      exact downs
    · rw [noCallback, steady.closeCallbacks]
      exact closeCallbacks

/-- A change of the connection between two tasks. -/
theorem Phase.update (phase : Phase r) (steady : Steady r.connection c)
    (tested stored : List Close) :
    Phase { r with connection := c, tested := tested, stored := stored } := by
  rcases phase with ⟨up, waiting⟩ | ⟨rest, up, agenda, down, closing⟩ | ⟨state, down, ended⟩
  · apply Phase.waiting
    · exact steady.up up
    · exact ⟨waiting.single, waiting.calm, waiting.notDown, waiting.down,
        steady.closes.trans waiting.closes, waiting.downs,
        steady.closeCallbacks.trans waiting.closeCallbacks⟩
  · exact .falling rest (steady.up up) agenda down
      ⟨closing.none, steady.closes.trans_le closing.closes,
        closing.downs, steady.closeCallbacks.symm ▸ closing.closeCallbacks⟩
  · have stillDown := steady.down_iff.mpr state
    exact .ended stillDown down ⟨ended.none, steady.closes.trans_le ended.closes, ended.downs,
      steady.closeCallbacks.symm ▸ ended.closeCallbacks⟩

/-- As long as the connection is up, one task that closes it may be begun. -/
theorem Phase.begin_close (phase : Phase r) (idle : r.agenda = [])
    (up : r.connection.state ≠ .kDisconnected) (steady : Steady r.connection c)
    (single : tasks.countP Task.closes ≤ 1)
    (calm : ∀ task ∈ tasks, task.closes = false → task.calm = true) (notDown : .goDown ∉ tasks) :
    Phase { r with connection := c, agenda := tasks } := by
  rcases phase.of_idle idle with ⟨-, waiting⟩ | ⟨state, -⟩
  · apply Phase.waiting
    · exact steady.up up
    · exact waiting.begin steady single calm notDown
  · exact absurd state up

theorem Kept.begin (kept : Kept r) (idle : r.agenda = [])
    (harmless : Harmless r.connection c tasks) :
    Kept { r with connection := c, agenda := tasks } :=
  ⟨harmless.sound, fun tested => harmless.steady.established (kept.established tested),
    kept.phase.begin idle harmless⟩

theorem Kept.begin_calm (kept : Kept r) (calm : ∀ task ∈ tasks, task.calm = true) :
    Kept (r.begin tasks) := by
  unfold Raced.begin
  split
  · next idle => exact kept.begin idle ⟨kept.sound, (Quiet.refl _).steady, calm⟩
  · exact kept

theorem Kept.connectDestroyed (kept : Kept r) (user : List UserCall) :
    Kept (r.begin (destroyTasks r.connection user)) := by
  by_cases connected : r.connection.state = .kConnected
  · unfold Raced.begin
    split
    · next idle =>
      rw [destroyTasks, if_pos connected]
      refine ⟨kept.sound, kept.established, ?_⟩
      rcases kept.phase.of_idle idle with ⟨up, waiting⟩ | ⟨state, -⟩
      · refine .falling [.downCallback user, .removeChannel] up rfl waiting.down ?_
        constructor
        · simp [Task.closes]
        · simp [waiting.closes]
        · simp [countP_cons_toNat, Task.isDownCallback, waiting.downs]
        · simp [Task.isCloseCallback, waiting.closeCallbacks]
      · cases connected.symm.trans state
    · exact kept
  · rw [destroyTasks, if_neg connected]
    apply kept.begin_calm
    simp [Task.calm, Task.closes, Task.isDownCallback, Task.isCloseCallback]

theorem eventTasks_closing {revents : EventMask}
    (noPriority : EventMask.has revents (pollIn ||| pollPri) = EventMask.has revents pollIn)
    (answers : Answers) :
    (eventTasks revents answers).countP Task.closes ≤ 1 ∧
      (∀ task ∈ eventTasks revents answers, task.closes = false → task.calm = true) ∧
      .goDown ∉ eventTasks revents answers := by
  unfold eventTasks
  rw [noPriority]
  cases EventMask.has revents pollHup <;> cases EventMask.has revents pollIn <;>
    cases EventMask.has revents (pollErr ||| pollNval) <;>
    cases EventMask.has revents pollOut <;>
    simp [countP_cons_toNat, Task.closes, Task.calm, Task.isDownCallback, Task.isCloseCallback]

theorem Kept.handleEvent (kept : Kept r) (idle : r.agenda = []) {revents : EventMask}
    (polled : Polled r.connection revents) (answers : Answers) :
    Kept { r with
      connection :=
        { r.connection with channel := { r.connection.channel with revents := revents } }
      agenda := eventTasks revents answers } := by
  have up : r.connection.state ≠ .kDisconnected := by
    intro down
    cases polled.1.symm.trans (kept.sound.closed down)
  rcases eventTasks_closing (polled.no_priority kept.sound) answers with ⟨single, calm, notDown⟩
  refine ⟨kept.sound.withRevents revents, kept.established, ?_⟩
  exact kept.phase.begin_close idle up (Quiet.steady ⟨Or.inl rfl, rfl⟩) single calm notDown

theorem Kept.functor (kept : Kept r) (idle : r.agenda = []) {functor : Functor}
    {rest : List Functor} {direct : SendResult} {user : List UserCall}
    (ran : { r.connection with pendingFunctors := rest }.startFunctor functor direct user =
      .ok (c, tasks)) : Kept { r with connection := c, agenda := tasks } := by
  have unchanged : Quiet r.connection { r.connection with pendingFunctors := rest } :=
    ⟨Or.inl rfl, rfl⟩
  have dequeued : Kept { r with connection := { r.connection with pendingFunctors := rest } } :=
    ⟨kept.sound.withFunctors rest, kept.established,
      kept.phase.update unchanged.steady r.tested r.stored⟩
  rcases startFunctor_harmless dequeued.sound ran with harmless | ⟨alive, rfl, rfl⟩
  · exact dequeued.begin idle harmless
  · have up : r.connection.state ≠ .kDisconnected := by
      rcases alive with state | state <;> simp_all
    refine ⟨dequeued.sound, kept.established, ?_⟩
    apply dequeued.phase.begin_close idle up (Quiet.refl _).steady
    · simp [Task.closes]
    · simp [Task.closes]
    · simp

theorem Kept.test (kept : Kept r) {close : Close} (passes : close.passes r.connection) :
    Kept { r with tested := r.tested ++ [close] } := by
  refine ⟨kept.sound, ?_, kept.phase.update (Quiet.refl _).steady _ _⟩
  intro _
  cases close with
  | shutdown =>
      have connected : r.connection.state = .kConnected := passes
      simp [connected]
  | forceClose => rcases passes with state | state <;> simp [state]

theorem Kept.store (kept : Kept r) {i : Nat} {close : Close} (tested : r.tested[i]? = some close)
    (inTime : r.connection.state ≠ .kDisconnected) :
    Kept { r with
      connection := r.connection.setState .kDisconnecting
      tested := r.tested.eraseIdx i
      stored := r.stored ++ [close] } := by
  have established : r.connection.state ≠ .kConnecting :=
    kept.established (List.ne_nil_of_mem (List.mem_of_getElem? tested))
  have alive : Open r.connection := by
    cases state : r.connection.state with
    | kDisconnected => exact absurd state inTime
    | kConnecting => exact absurd state established
    | kConnected => exact Or.inl state
    | kDisconnecting => exact Or.inr state
  exact ⟨disconnecting_sound kept.sound alive, fun _ => by simp [setState],
    kept.phase.update (disconnecting_quiet alive).steady _ _⟩

theorem Kept.post (kept : Kept r) (functor : Functor) (stored : List Close) :
    Kept { r with connection := r.connection.queueInLoop functor, stored := stored } := by
  have unchanged : Quiet r.connection (r.connection.queueInLoop functor) := ⟨Or.inl rfl, rfl⟩
  exact ⟨kept.sound.queueInLoop functor, kept.established,
    kept.phase.update unchanged.steady r.tested stored⟩

theorem step_kept {event : Event} (kept : Kept r) (inTime : StoresInTime r event)
    (taken : step r event = .ok next) : Kept next := by
  cases event with
  | connectEstablished user =>
      cases taken
      apply kept.begin_calm
      simp [Task.calm, Task.closes, Task.isDownCallback, Task.isCloseCallback]
  | connectDestroyed user =>
      cases taken
      exact kept.connectDestroyed user
  | handleEvent revents answers =>
      rcases handleEvent_cases taken with rfl | ⟨⟨idle, polled⟩, rfl⟩
      · exact kept
      · exact kept.handleEvent idle polled answers
  | call userCall =>
      cases taken
      apply kept.begin_calm
      simp [Task.calm, Task.closes, Task.isDownCallback, Task.isCloseCallback]
  | functor direct user =>
      rcases functor_cases taken with ⟨rfl, -⟩ | ⟨functor, rest, c, tasks, idle, queue, ran, rfl⟩
      · exact kept
      · exact kept.functor idle ran
  | proceed =>
      rcases proceed_cases taken with rfl | ⟨task, rest, c, more, agenda, ran, rfl⟩
      · exact kept
      · exact kept.perform agenda ran
  | test close =>
      cases taken
      split
      · next passes => exact kept.test passes
      · exact kept
  | store i =>
      rcases store_cases taken with rfl | ⟨close, tested, rfl⟩
      · exact kept
      · exact kept.store tested (inTime (by simp [tested]))
  | post i =>
      rcases post_cases taken with rfl | ⟨close, stored, rfl⟩
      · exact kept
      · exact kept.post close.functor _

/-- A store that comes too late takes `kDisconnected` back. -/
theorem store_not_final {i : Nat} (kept : Kept r) (late : ¬StoresInTime r (.store i))
    (taken : step r (.store i) = .ok next) : ¬Final next := by
  rcases Classical.not_imp.mp late with ⟨waiting, stored⟩
  have state := not_not.mp stored
  rcases Option.isSome_iff_exists.mp waiting with ⟨close, tested⟩
  simp only [step, tested] at taken
  cases taken
  intro final
  have down : r.down = true := by
    rcases kept.phase with ⟨up, -⟩ | ⟨-, up, -⟩ | ⟨-, down, -⟩
    · exact absurd state up
    · exact absurd state up
    · exact down
  cases final.state down

end

end

/-- In every run of the loop thread and of any number of calls on other threads:
`kDisconnected` is final, and the connection is closed, reported down and given
back to its owner at most once each, exactly if no store of another thread finds the
connection closed. -/
theorem final_iff_stores_in_time (sockfd : Int) (options : Options) (events : List Event) :
    Throughout step Final (new sockfd options) events ↔
      AllSteps step StoresInTime (new sockfd options) events := by
  apply throughout_iff_all_steps (fun r => Final r → Kept r)
  · intro r next event _ invariant final taken
    have kept := invariant final
    by_cases inTime : StoresInTime r event
    · have nextKept := step_kept kept inTime taken
      exact ⟨fun _ => nextKept, fun _ => inTime, fun _ => nextKept.final⟩
    · cases event with
      | store i =>
          have lost := store_not_final kept inTime taken
          exact ⟨fun final => absurd final lost, fun final => absurd final lost,
            fun later => absurd later inTime⟩
      | _ => exact absurd trivial inTime
  · intro r fault event _ invariant final failed
    cases event with
    | store i =>
        simp only [step] at failed
        split at failed <;> cases failed
    | _ => trivial
  · intro _
    exact new_kept sockfd options
  · exact (new_kept sockfd options).final

/-- Another thread calls `forceClose` while the peer hangs up. Its functor closes the
connection a second time. -/
theorem late_store_closes_twice :
    ∃ r, run step (new 5 ⟨false, false, 64⟩)
      [.connectEstablished [], .proceed, .proceed, .test .forceClose,
        .handleEvent pollHup ⟨[], .received [], [], .wrote 0⟩, .proceed, .proceed, .proceed,
        .proceed, .store 0, .post 0, .functor (.wrote 0) [], .proceed, .proceed, .proceed,
        .proceed] = .ok r ∧
      TcpConnection.closes r.connection.log = 2 ∧ r.downs = 2 ∧
      TcpConnection.closeCallbacks r.connection.log = 2 ∧ ¬Final r := by
  refine ⟨_, rfl, rfl, rfl, rfl, ?_⟩
  intro final
  exact absurd final.downs (by decide)

end Raced

end Msmuduo.TcpConnection
