import Msmuduo.PollPollerTable
import Msmuduo.TcpServerLoops

/-!
# Who has a connection in hand

A connection goes through six stages. At every moment exactly one party is to
take it to the next: the functor that establishes it, the handlers of its loop,
its own `handleClose`, the functor that takes it out of the map, the functor
that destroys it, or nobody any more. `Good` says for each stage where the
connection is found: in the map, in the queues, on the stacks and in the poll
tables. It only looks at the `View` of the connection, so a piece of a thread
that leaves the view alone leaves the connection alone.
-/

namespace Msmuduo.ServerLoops

open Msmuduo.Machine Msmuduo.PollPoller

set_option autoImplicit false

/-! ## What poll returns -/

/-- A hang-up without readable bytes leaves nothing to read. -/
def Calm (revents : EventMask) : Prop :=
  EventMask.has revents (pollIn ||| pollPri) = EventMask.has revents pollIn

theorem reported_calm {pfd : PollFd} (interested : Channel.Interested (promote pfd.events))
    (revents : Int → EventMask) : Calm (reported pfd revents) := by
  unfold reported
  split_ifs
  · rfl
  · have unasked :
        (promote pfd.events ||| (pollErr ||| pollHup ||| pollNval)) &&& pollPri = 0#32 := by
      rcases interested with events | events | events | events <;> rw [events] <;> decide
    unfold Calm EventMask.has
    rw [BitVec.and_or_distrib_left, BitVec.and_assoc _ _ pollPri, unasked, BitVec.and_zero,
      BitVec.or_zero]

/-- What an entry leads to: a registered channel that is asking for something
unless the entry is skipped. -/
def Leads (p : Poller) (pfd : PollFd) : Prop :=
  ∃ id, p.channels (decode pfd.fd) = some id ∧ (p.object id).fd = decode pfd.fd ∧
    Channel.Interested (promote pfd.events) ∧
    (0 ≤ pfd.fd → (p.object id).events ≠ Channel.kNoneEvent)

theorem entries_lead {p : Poller} (tabled : Tabled p) :
    ∀ pfd ∈ p.pollfds, Leads p pfd := by
  intro pfd member
  obtain ⟨idx, bound, entry⟩ := List.mem_iff_getElem.mp member
  have atIdx : p.pollfds[idx]? = some pfd := by
    rw [List.getElem?_eq_getElem bound, entry]
  obtain ⟨id, known, index⟩ := tabled.indexed.covered idx pfd atIdx
  have owned := (tabled.indexed.owned _ id known).1
  have registered : Registered p id := by
    unfold Registered
    rw [owned]
    exact known
  obtain ⟨watchedPfd, watchedEntry, events, -, negated⟩ := tabled.watches id registered
  rw [entryOf_index index, atIdx] at watchedEntry
  cases watchedEntry
  refine ⟨id, known, owned, ?_, ?_⟩
  · rw [events]
    exact tabled.indexed.interested id
  · intro plain empty
    have skipped := negated empty
    have nonneg := tabled.indexed.nonneg id
    omega

/-- What `fillActiveChannels` makes of a part of the table. -/
structure Filled (p : Poller) (pollfds : List PollFd) (active : List Active) : Prop where
  nodup : (active.map Prod.fst).Nodup
  owners : ∀ item ∈ active, ∃ pfd ∈ pollfds, p.channels (decode pfd.fd) = some item.1
  asking : ∀ item ∈ active, (∃ fd, p.channels fd = some item.1) ∧
    (p.object item.1).events ≠ Channel.kNoneEvent
  calm : ∀ item ∈ active, Calm item.2

theorem fillActiveChannels_filled {p : Poller} (revents : Int → EventMask)
    {pollfds : List PollFd} (lead : ∀ pfd ∈ pollfds, Leads p pfd)
    (differ : pollfds.Pairwise fun first second =>
      p.channels (decode first.fd) ≠ p.channels (decode second.fd)) :
    ∃ active, fillActiveChannels p revents pollfds = .ok active ∧ Filled p pollfds active := by
  induction pollfds with
  | nil =>
      refine ⟨[], rfl, List.nodup_nil, ?_, ?_, ?_⟩ <;>
        · intro item member
          cases member
  | cons pfd pollfds ih =>
      rw [List.pairwise_cons] at differ
      obtain ⟨active, filled, nodup, owners, asking, calm⟩ :=
        ih (fun other member => lead other (List.mem_cons_of_mem _ member)) differ.2
      unfold fillActiveChannels
      by_cases happened : reported pfd revents ≠ 0#32
      · obtain ⟨id, known, fd, interested, asks⟩ := lead pfd List.mem_cons_self
        have plain : 0 ≤ pfd.fd := by
          by_contra negative
          apply happened
          unfold reported
          rw [if_pos (by omega)]
        rw [decode_plain _ plain] at known fd
        rw [if_pos happened, known]
        refine ⟨(id, reported pfd revents) :: active, ?_, ?_, ?_, ?_, ?_⟩
        · dsimp only
          rw [require_ok fd, filled]
          rfl
        · rw [List.map_cons, List.nodup_cons]
          refine ⟨?_, nodup⟩
          intro again
          obtain ⟨item, member, same⟩ := List.mem_map.mp again
          obtain ⟨other, otherMember, owner⟩ := owners item member
          apply differ.1 other otherMember
          rw [owner, same, decode_plain _ plain, known]
        · intro item member
          rcases List.mem_cons.mp member with here | later
          · refine ⟨pfd, List.mem_cons_self, ?_⟩
            rw [here, decode_plain _ plain]
            exact known
          · obtain ⟨other, otherMember, owner⟩ := owners item later
            exact ⟨other, List.mem_cons_of_mem _ otherMember, owner⟩
        · intro item member
          rcases List.mem_cons.mp member with here | later
          · rw [here]
            exact ⟨⟨pfd.fd, known⟩, asks plain⟩
          · exact asking item later
        · intro item member
          rcases List.mem_cons.mp member with here | later
          · rw [here]
            exact reported_calm interested revents
          · exact calm item later
      · rw [if_neg happened]
        refine ⟨active, filled, nodup, ?_, asking, calm⟩
        intro item member
        obtain ⟨other, otherMember, owner⟩ := owners item member
        exact ⟨other, List.mem_cons_of_mem _ otherMember, owner⟩

/-! ## The view of a connection -/

/-- The functors the life of a connection hangs on, and the one that may be
queued any number of times. -/
inductive Call where
  | establish
  | remove
  | destroy
  | force
  deriving DecidableEq, Repr

def Call.functor (conn : ChannelId) : Call → Functor
  | .establish => .connectEstablished conn
  | .remove => .removeConnectionInLoop conn
  | .destroy => .connectDestroyed conn
  | .force => .forceCloseInLoop conn

/-- `handleClose` of the connection, if it is on the stack. -/
def Control.closing (conn : ChannelId) : Control → Option CloseStage
  | .handleEvent other _ _ closing _ => if other = conn then closing else none
  | .forceCloseInLoop other closing _ _ => if other = conn then some closing else none
  | _ => none

/-- `handleEvent` of the connection, if it is on the stack. -/
def Control.handling (conn : ChannelId) : Control → Option (EventMask × EventStage)
  | .handleEvent other revents stage _ _ => if other = conn then some (revents, stage) else none
  | _ => none

@[ext]
structure LoopView where
  calls : Call → Nat
  closing : Option CloseStage
  handling : Option (EventMask × EventStage)
  active : Nat
  standing : Standing

def Loop.view (loop : Loop) (conn : ChannelId) : LoopView where
  calls := fun call =>
    (loop.control.rest ++ loop.pendingFunctors).count (call.functor conn)
  closing := loop.control.closing conn
  handling := loop.control.handling conn
  active := (loop.control.active.map Prod.fst).count conn
  standing := loop.poller.standing conn

/-- How often the log has each effect of the connection. -/
@[ext]
structure History where
  created : Nat
  closes : Nat
  returns : Nat
  removals : Nat
  destroyed : LoopId → Nat

def historyOf (log : List Effect) (conn : ChannelId) : History where
  created := log.count (.newConnection conn)
  closes := log.count (.handleClose conn)
  returns := log.count (.handleCloseReturned conn)
  removals := log.count (.removeConnectionInLoop conn)
  destroyed := fun loop => log.count (.connectDestroyed conn loop)

@[ext]
structure View where
  conn : Conn
  listed : Nat
  loops : LoopId → LoopView
  history : History

def System.view {Name : Type} (s : System Name) (conn : ChannelId) : View where
  conn := s.conns conn
  listed := (s.connections.map Prod.snd).count conn
  loops := fun loop => (s.loops loop).view conn
  history := historyOf s.log conn

/-! ## The stages -/

/-- Created and not established; open; in `handleClose`; waiting to be taken
out of the map; waiting to be destroyed; destroyed. -/
inductive Stage where
  | starting
  | up
  | closing
  | removing
  | destroying
  | gone
  deriving DecidableEq, Repr

namespace Stage

/-- The stages with an entry in `connections_`. -/
def listed : Stage → Bool
  | starting | up | closing | removing => true
  | destroying | gone => false

/-- The stages with an entry in the poll table. -/
def registered : Stage → Bool
  | up | closing | removing | destroying => true
  | starting | gone => false

/-- The stages from `handleClose` on. -/
def closed : Stage → Bool
  | closing | removing | destroying | gone => true
  | starting | up => false

def admits : Stage → TcpConnection.StateE → Bool
  | starting, state => state = .kConnecting
  | up, state => state = .kConnected ∨ state = .kDisconnecting
  | closing, state | removing, state | destroying, state | gone, state => state = .kDisconnected

end Stage

/-- Where `handleEvent` can be when the connection is in the given stage. -/
def Stage.Handles (stage : Stage) (revents : EventMask) : EventStage → Prop
  | .hangUp => stage = .up ∧ Calm revents
  | .read => Calm revents ∧
      (stage = .up ∨ EventMask.has revents (pollIn ||| pollPri) = false)
  | .write | .done => True

/-- What the channel asks for. -/
def Stage.Asks (stage : Stage) (standing : Standing) : Prop :=
  match stage with
  | .starting => standing.events = Channel.kNoneEvent ∧ standing.fresh = true
  | .up => EventMask.has standing.events Channel.kReadEvent = true
  | .closing | .removing | .destroying => standing.events = Channel.kNoneEvent
  | .gone => True

/-- The connection in its own loop. -/
structure AtHome (view : LoopView) (fd : Int) (stage : Stage) : Prop where
  establish : view.calls .establish = if stage = .starting then 1 else 0
  destroy : view.calls .destroy = if stage = .destroying then 1 else 0
  closing : view.closing = some .calling ↔ stage = .closing
  closed : view.closing = some .called → stage = .removing ∨ stage = .destroying
  handling : ∀ revents eventStage, view.handling = some (revents, eventStage) →
    stage.registered = true ∧ view.active = 0 ∧ stage.Handles revents eventStage
  active : view.active ≤ if stage = .up then 1 else 0
  known : ∀ other, view.standing.known other = true ↔ stage.registered = true ∧ other = fd
  fd : view.standing.fd = fd
  asks : stage.Asks view.standing

/-- The connection in any other loop, where at most its removal is queued. -/
structure Away (view : LoopView) : Prop where
  calls : ∀ call, call ≠ .remove → view.calls call = 0
  closing : view.closing = none
  handling : view.handling = none
  active : view.active = 0
  known : ∀ fd, view.standing.known fd = false

/-- What has happened to the connection. `handleClose` has returned unless it is
still on the stack. -/
structure Recorded (history : History) (stage : Stage) (loop : LoopId)
    (closing : Option CloseStage) : Prop where
  created : history.created = 1
  closes : history.closes = if stage.closed then 1 else 0
  returned : stage.closed = true → 0 < history.returns ∨ closing ≠ none
  removals : history.removals = if stage = .destroying ∨ stage = .gone then 1 else 0
  destroyed : ∀ other, history.destroyed other = if stage = .gone ∧ other = loop then 1 else 0

/-- Everything but the functor that takes the connection out of the map, which
may be in the hands of a thread. -/
structure Placed (view : View) (stage : Stage) : Prop where
  state : stage.admits view.conn.state = true
  listed : view.listed = if stage.listed then 1 else 0
  home : AtHome (view.loops view.conn.loop) view.conn.fd stage
  away : ∀ loop, loop ≠ view.conn.loop → Away (view.loops loop)
  recorded : Recorded view.history stage view.conn.loop (view.loops view.conn.loop).closing

structure Good (view : View) (stage : Stage) : Prop extends Placed view stage where
  remove : ∀ loop, (view.loops loop).calls .remove =
    if stage = .removing ∧ loop = baseLoop then 1 else 0

/-- A name that no connection has yet. -/
structure Absent (view : View) : Prop where
  listed : view.listed = 0
  away : ∀ loop, Away (view.loops loop)
  remove : ∀ loop, (view.loops loop).calls .remove = 0
  history : view.history = ⟨0, 0, 0, 0, fun _ => 0⟩

/-! ## The invariant -/

/-- The connection whose function is on the stack. -/
def Control.conn : Control → Option ChannelId
  | .newConnection conn _ _ => some conn
  | .handleEvent conn _ _ _ _ => some conn
  | .connectEstablished conn _ _ => some conn
  | .forceCloseInLoop conn _ _ _ => some conn
  | .connectDestroyed conn _ _ => some conn
  | _ => none

structure LoopOk (config : Config) (id : LoopId) (loop : Loop) : Prop where
  tabled : Tabled loop.poller
  inner : ∀ fd channel, loop.poller.channels fd = some channel → channel < firstConn →
    (channel = wakeupChannel ∧ fd = config.wakeupFd id) ∨
      (channel = acceptChannel ∧ id = baseLoop ∧ fd = config.listenFd)
  accepts : ∀ revents, (acceptChannel, revents) ∈ loop.control.active → id = baseLoop
  calm : ∀ item ∈ loop.control.active, Calm item.2
  subject : ∀ conn, loop.control.conn = some conn → firstConn ≤ conn
  functors : ∀ functor ∈ loop.control.rest ++ loop.pendingFunctors, ∀ conn,
    functor.conn = some conn → firstConn ≤ conn
  /-- `connectDestroyed` never finds a connection still up. -/
  destroyed : ∀ conn called rest, loop.control ≠ .connectDestroyed conn called rest

/-- The descriptors of the connections that have not been destroyed. -/
structure Ledger {Name : Type} (s : System Name) (stage : ChannelId → Stage) : Prop where
  homes : ∀ conn, s.Created conn → (s.conns conn).loop ≤ s.config.threads
  distinct : ∀ conn other, s.Created conn → s.Created other →
    stage conn ≠ .gone → stage other ≠ .gone →
      (s.conns conn).fd = (s.conns other).fd → conn = other
  outer : ∀ conn, s.Created conn → stage conn ≠ .gone →
    (s.conns conn).fd ≠ s.config.listenFd ∧
      ∀ loop, loop ≤ s.config.threads → (s.conns conn).fd ≠ s.config.wakeupFd loop

structure Inv {Name : Type} (connName : ChannelId → Name) (s : System Name)
    (stage : ChannelId → Stage) : Prop where
  first : firstConn ≤ s.nextConn
  next : s.config.threads = 0 ∨ s.next < s.config.threads
  loops : ∀ loop, LoopOk s.config loop (s.loops loop)
  good : ∀ conn, s.Created conn → Good (s.view conn) (stage conn)
  absent : ∀ conn, s.nextConn ≤ conn → Absent (s.view conn)
  ledger : Ledger s stage
  names : ∀ entry ∈ s.connections, entry.1 = connName entry.2
  outer : ∀ entry ∈ s.connections, firstConn ≤ entry.2

/-! ## Changes and views -/

section

variable {Name : Type} {s next : System Name} {conn : ChannelId}

theorem view_setLoop (s : System Name) (loop : LoopId) (value : Loop) (conn : ChannelId) :
    (s.setLoop loop value).view conn = { s.view conn with
      loops := Function.update (s.view conn).loops loop (value.view conn) } := by
  unfold System.view System.setLoop
  simp only [View.mk.injEq, true_and, and_true]
  funext other
  by_cases here : other = loop
  · subst here
    rw [Function.update_self, Function.update_self]
  · rw [Function.update_of_ne here, Function.update_of_ne here]

theorem view_setLoop_same {loop : LoopId} {value : Loop}
    (same : value.view conn = (s.loops loop).view conn) :
    (s.setLoop loop value).view conn = s.view conn := by
  rw [view_setLoop, same]
  exact congrArg (fun loops => { s.view conn with loops := loops })
    (Function.update_eq_self loop (s.view conn).loops)

theorem view_setState_self (s : System Name) (conn : ChannelId)
    (state : TcpConnection.StateE) :
    (s.setState conn state).view conn =
      { s.view conn with conn := { s.conns conn with state := state } } := by
  unfold System.view System.setState
  simp

theorem historyOf_other {log : List Effect} {effect : Effect} (different : effect.conn ≠ conn) :
    historyOf (log ++ [effect]) conn = historyOf log conn := by
  have absent : ∀ other : Effect, other.conn = conn → [effect].count other = 0 := by
    intro other owned
    apply List.count_eq_zero.mpr
    intro member
    rw [List.mem_singleton] at member
    rw [member] at owned
    exact different owned
  unfold historyOf
  simp only [List.count_append, History.mk.injEq]
  refine ⟨?_, ?_, ?_, ?_, ?_⟩
  · rw [absent _ rfl, Nat.add_zero]
  · rw [absent _ rfl, Nat.add_zero]
  · rw [absent _ rfl, Nat.add_zero]
  · rw [absent _ rfl, Nat.add_zero]
  · funext loop
    rw [absent _ rfl, Nat.add_zero]

/-- The history with one more effect of the connection. -/
def History.add (history : History) : Effect → History
  | .newConnection _ => { history with created := history.created + 1 }
  | .handleClose _ => { history with closes := history.closes + 1 }
  | .handleCloseReturned _ => { history with returns := history.returns + 1 }
  | .removeConnectionInLoop _ => { history with removals := history.removals + 1 }
  | .connectDestroyed _ loop => { history with
      destroyed := fun other => history.destroyed other + if other = loop then 1 else 0 }

theorem historyOf_own {log : List Effect} {effect : Effect} (own : effect.conn = conn) :
    historyOf (log ++ [effect]) conn = (historyOf log conn).add effect := by
  subst own
  cases effect with
  | newConnection conn => simp [historyOf, History.add, Effect.conn]
  | handleClose conn => simp [historyOf, History.add, Effect.conn]
  | handleCloseReturned conn => simp [historyOf, History.add, Effect.conn]
  | removeConnectionInLoop conn => simp [historyOf, History.add, Effect.conn]
  | connectDestroyed conn loop =>
      simp only [historyOf, History.add, Effect.conn, History.mk.injEq, List.count_append,
        List.count_singleton]
      refine ⟨by simp, by simp, by simp, by simp, ?_⟩
      funext other
      by_cases here : other = loop
      · simp [here]
      · simp [here, Ne.symm here]

/-- What moves one connection and leaves the view of every other alone. -/
structure Moves (s next : System Name) (conn : ChannelId) : Prop where
  config : next.config = s.config
  pool : next.next = s.next
  nextConn : next.nextConn = s.nextConn
  conns : ∀ other, (next.conns other).loop = (s.conns other).loop ∧
    (next.conns other).fd = (s.conns other).fd
  connections : next.connections ⊆ s.connections
  views : ∀ other, firstConn ≤ other → other ≠ conn → next.view other = s.view other

theorem Moves.trans {final : System Name} (first : Moves s next conn)
    (second : Moves next final conn) : Moves s final conn where
  config := second.config.trans first.config
  pool := second.pool.trans first.pool
  nextConn := second.nextConn.trans first.nextConn
  conns := fun other => ⟨(second.conns other).1.trans (first.conns other).1,
    (second.conns other).2.trans (first.conns other).2⟩
  connections := fun _ member => first.connections (second.connections member)
  views := fun other large different =>
    (second.views other large different).trans (first.views other large different)

theorem moves_setLoop {loop : LoopId} {value : Loop}
    (same : ∀ other, firstConn ≤ other → other ≠ conn →
      value.view other = (s.loops loop).view other) : Moves s (s.setLoop loop value) conn where
  config := rfl
  pool := rfl
  nextConn := rfl
  conns := fun _ => ⟨rfl, rfl⟩
  connections := fun _ member => member
  views := fun other large different => view_setLoop_same (same other large different)

theorem moves_setState (s : System Name) (conn : ChannelId) (state : TcpConnection.StateE) :
    Moves s (s.setState conn state) conn where
  config := rfl
  pool := rfl
  nextConn := rfl
  conns := by
    intro other
    by_cases same : other = conn
    · subst same
      simp [System.setState]
    · simp [System.setState, same]
  connections := fun _ member => member
  views := by
    intro other large different
    unfold System.view System.setState
    simp [different]

theorem moves_record (s : System Name) (effect : Effect) :
    Moves s (s.record effect) effect.conn where
  config := rfl
  pool := rfl
  nextConn := rfl
  conns := fun _ => ⟨rfl, rfl⟩
  connections := fun _ member => member
  views := by
    intro other large different
    unfold System.view System.record
    simp only [View.mk.injEq, true_and]
    exact historyOf_other (Ne.symm different)

theorem Moves.created (moves : Moves s next conn) (other : ChannelId) :
    next.Created other ↔ s.Created other := by
  unfold System.Created
  rw [moves.nextConn]

/-- One connection goes on to another stage, or stays in its own. -/
theorem Inv.moved {connName : ChannelId → Name} {stage : ChannelId → Stage} {later : Stage}
    (inv : Inv connName s stage) (moves : Moves s next conn) (known : conn < s.nextConn)
    (loops : ∀ loop, LoopOk s.config loop (next.loops loop))
    (good : s.Created conn → Good (next.view conn) later)
    (forward : later ≠ .gone → stage conn ≠ .gone) :
    Inv connName next (Function.update stage conn later) := by
  have notGone : ∀ other,
      Function.update stage conn later other ≠ .gone → stage other ≠ .gone := by
    intro other still
    by_cases same : other = conn
    · subst same
      rw [Function.update_self] at still
      exact forward still
    · rwa [Function.update_of_ne same] at still
  constructor
  · rw [moves.nextConn]
    exact inv.first
  · rw [moves.config, moves.pool]
    exact inv.next
  · intro loop
    rw [moves.config]
    exact loops loop
  · intro other otherCreated
    rw [moves.created] at otherCreated
    by_cases same : other = conn
    · subst same
      rw [Function.update_self]
      exact good otherCreated
    · rw [Function.update_of_ne same, moves.views other otherCreated.1 same]
      exact inv.good other otherCreated
  · intro other fresh
    rw [moves.nextConn] at fresh
    have different : other ≠ conn := by
      intro same
      rw [same] at fresh
      exact absurd known (Nat.not_lt.mpr fresh)
    rw [moves.views other (Nat.le_trans inv.first fresh) different]
    exact inv.absent other fresh
  · constructor
    · intro other otherCreated
      rw [moves.created] at otherCreated
      rw [(moves.conns other).1, moves.config]
      exact inv.ledger.homes other otherCreated
    · intro first second firstCreated secondCreated firstOpen secondOpen same
      rw [moves.created] at firstCreated secondCreated
      rw [(moves.conns first).2, (moves.conns second).2] at same
      exact inv.ledger.distinct first second firstCreated secondCreated (notGone first firstOpen)
        (notGone second secondOpen) same
    · intro other otherCreated otherOpen
      rw [moves.created] at otherCreated
      rw [(moves.conns other).2, moves.config]
      exact inv.ledger.outer other otherCreated (notGone other otherOpen)
  · intro entry member
    exact inv.names entry (moves.connections member)
  · intro entry member
    exact inv.outer entry (moves.connections member)

/-- Nothing the connections look at changes. -/
theorem Inv.kept {connName : ChannelId → Name} {stage : ChannelId → Stage}
    (inv : Inv connName s stage) (moves : Moves s next wakeupChannel)
    (loops : ∀ loop, LoopOk s.config loop (next.loops loop)) : Inv connName next stage := by
  have inner : wakeupChannel < firstConn := by decide
  rw [← Function.update_eq_self wakeupChannel stage]
  apply inv.moved moves (Nat.lt_of_lt_of_le inner inv.first) loops
  · intro created
    exact absurd created.1 (Nat.not_le.mpr inner)
  · exact id

/-! ## One connection in its own loop -/

/-- A step that is seen in the connection's own loop only. -/
theorem Good.homeStep {view : View} {stage later : Stage} {value : LoopView}
    {state : TcpConnection.StateE} {history : History} (good : Good view stage)
    (admits : later.admits state = true) (listed : later.listed = stage.listed)
    (home : AtHome value view.conn.fd later)
    (remove : value.calls .remove = (view.loops view.conn.loop).calls .remove)
    (removing : later = .removing ↔ stage = .removing)
    (recorded : Recorded history later view.conn.loop value.closing) :
    Good ⟨{ view.conn with state := state }, view.listed,
      Function.update view.loops view.conn.loop value, history⟩ later where
  state := admits
  listed := by
    rw [listed]
    exact good.listed
  home := by
    dsimp only
    rw [Function.update_self]
    exact home
  away := by
    intro loop elsewhere
    dsimp only
    rw [Function.update_of_ne elsewhere]
    exact good.away loop elsewhere
  remove := by
    intro loop
    simp only [removing]
    rw [← good.remove loop]
    by_cases here : loop = view.conn.loop
    · subst here
      rw [Function.update_self]
      exact remove
    · rw [Function.update_of_ne here]
  recorded := by
    dsimp only
    rw [Function.update_self]
    exact recorded

/-! ## Changes of a loop -/

theorem loops_setLoop {loop : LoopId} {value : Loop}
    (ok : ∀ other, LoopOk s.config other (s.loops other)) (new : LoopOk s.config loop value) :
    ∀ other, LoopOk s.config other ((s.setLoop loop value).loops other) := by
  intro other
  unfold System.setLoop
  dsimp only
  by_cases here : other = loop
  · subst here
    rw [Function.update_self]
    exact new
  · rw [Function.update_of_ne here]
    exact ok other

end

section

variable {config : Config} {id : LoopId} {loop : Loop}

theorem LoopOk.setControl (ok : LoopOk config id loop) {control : Control}
    (active : control.active ⊆ loop.control.active) (rest : control.rest ⊆ loop.control.rest)
    (subject : ∀ conn, control.conn = some conn → firstConn ≤ conn)
    (destroyed : ∀ conn called rest, control ≠ .connectDestroyed conn called rest) :
    LoopOk config id { loop with control := control } where
  tabled := ok.tabled
  inner := ok.inner
  accepts := fun revents member => ok.accepts revents (active member)
  calm := fun item member => ok.calm item (active member)
  subject := subject
  functors := by
    intro functor member
    apply ok.functors functor
    rcases List.mem_append.mp member with swapped | pending
    · exact List.mem_append_left _ (rest swapped)
    · exact List.mem_append_right _ pending
  destroyed := destroyed

theorem LoopOk.setPoller (ok : LoopOk config id loop) {poller : Poller} (tabled : Tabled poller)
    (channels : ∀ fd channel, channel < firstConn → poller.channels fd = some channel →
      loop.poller.channels fd = some channel) :
    LoopOk config id { loop with poller := poller } where
  tabled := tabled
  inner := fun fd channel known small =>
    ok.inner fd channel (channels fd channel small known) small
  accepts := ok.accepts
  calm := ok.calm
  subject := ok.subject
  functors := ok.functors
  destroyed := ok.destroyed

theorem LoopOk.queue (ok : LoopOk config id loop) {functor : Functor}
    (large : ∀ conn, functor.conn = some conn → firstConn ≤ conn) :
    LoopOk config id { loop with pendingFunctors := loop.pendingFunctors ++ [functor] } where
  tabled := ok.tabled
  inner := ok.inner
  accepts := ok.accepts
  calm := ok.calm
  subject := ok.subject
  functors := by
    intro other member
    rw [← List.append_assoc] at member
    rcases List.mem_append.mp member with old | new
    · exact ok.functors other old
    · rw [List.mem_singleton] at new
      rw [new]
      exact large
  destroyed := ok.destroyed

end

end Msmuduo.ServerLoops
