import Msmuduo.TcpServerProgress

/-!
# The teardown protocol

What holds in every state a server and its loops can reach, and what finally
happens to a connection that has been closed as long as every loop keeps
running.
-/

namespace Msmuduo.ServerLoops

open Msmuduo.Machine Msmuduo.PollPoller

set_option autoImplicit false

/-! ## What the log says -/

theorem Recorded.closed_iff {log : List Effect} {conn : ChannelId} {stage : Stage}
    {home : LoopId} {closing : Option CloseStage}
    (recorded : Recorded (historyOf log conn) stage home closing) :
    .handleClose conn ∈ log ↔ stage.closed = true := by
  have closes : log.count (.handleClose conn) = if stage.closed then 1 else 0 := recorded.closes
  rw [← List.count_pos_iff, closes]
  split_ifs with closed <;> simp [closed]

theorem Recorded.removed_iff {log : List Effect} {conn : ChannelId} {stage : Stage}
    {home : LoopId} {closing : Option CloseStage}
    (recorded : Recorded (historyOf log conn) stage home closing) :
    .removeConnectionInLoop conn ∈ log ↔ stage = .destroying ∨ stage = .gone := by
  have removals : log.count (.removeConnectionInLoop conn) =
      if stage = .destroying ∨ stage = .gone then 1 else 0 := recorded.removals
  rw [← List.count_pos_iff, removals]
  split_ifs with removed <;> simp [removed]

theorem Recorded.destroyed_iff {log : List Effect} {conn : ChannelId} {stage : Stage}
    {home : LoopId} {closing : Option CloseStage}
    (recorded : Recorded (historyOf log conn) stage home closing) (loop : LoopId) :
    .connectDestroyed conn loop ∈ log ↔ stage = .gone ∧ loop = home := by
  have destroyed : log.count (.connectDestroyed conn loop) =
      if stage = .gone ∧ loop = home then 1 else 0 := recorded.destroyed loop
  rw [← List.count_pos_iff, destroyed]
  split_ifs with gone <;> simp [gone]

section

variable {Name : Type} {connName : ChannelId → Name} {s : System Name}
  {stage : ChannelId → Stage} {conn : ChannelId}

/-- Only connections that have been created are in the log. -/
theorem Inv.created_of_log (inv : Inv connName s stage) {effect : Effect}
    (member : effect ∈ s.log) (large : firstConn ≤ effect.conn) : s.Created effect.conn := by
  apply inv.created large
  intro absent
  have history := absent.history
  simp only [System.view, historyOf, History.mk.injEq] at history
  obtain ⟨created, closes, returns, removals, destroyed⟩ := history
  have none : s.log.count effect = 0 := by
    cases effect with
    | newConnection conn => exact created
    | handleClose conn => exact closes
    | handleCloseReturned conn => exact returns
    | removeConnectionInLoop conn => exact removals
    | connectDestroyed conn loop => exact congrFun destroyed loop
  exact List.count_eq_zero.mp none member

theorem Inv.recorded (inv : Inv connName s stage) (created : s.Created conn) :
    Recorded (historyOf s.log conn) (stage conn) (s.conns conn).loop
      ((s.loops (s.conns conn).loop).control.closing conn) :=
  (inv.good conn created).recorded

/-- The functor that destroys the connection is queued in its own loop. -/
theorem Inv.destroy_queued (inv : Inv connName s stage) (created : s.Created conn)
    (destroying : stage conn = .destroying) :
    (s.loops (s.conns conn).loop).Queued (.connectDestroyed conn) := by
  have one := (inv.good conn created).home.destroy
  rw [if_pos destroying] at one
  exact mem_of_count_eq_one one

theorem Inv.remove_queued (inv : Inv connName s stage) (created : s.Created conn)
    (removing : stage conn = .removing) :
    (s.loops baseLoop).Queued (.removeConnectionInLoop conn) := by
  have one := (inv.good conn created).remove baseLoop
  rw [if_pos ⟨removing, rfl⟩] at one
  exact mem_of_count_eq_one one

/-- Behind `closeCallback_` the connection is in other hands. -/
theorem Inv.called_stage {loop : LoopId} (inv : Inv connName s stage) (created : s.Created conn)
    (called : (s.loops loop).control.closing conn = some .called) : stage conn ≠ .closing := by
  have seen : ((s.view conn).loops loop).closing = some .called := called
  have good := inv.good conn created
  intro closing
  by_cases home : loop = (s.view conn).conn.loop
  · rw [home, good.home.closing.mpr closing] at seen
    cases seen
  · rw [(good.away loop home).closing] at seen
    cases seen

end

section

variable {Name : Type} [DecidableEq Name] {connName : ChannelId → Name} {config : Config}

theorem step_succeeds (distinct : Function.Injective connName) (s : System Name) (event : Event)
    (known : ∃ stage, Inv connName s stage) :
    ∃ next, step connName s event = .ok next ∧ ∃ stage, Inv connName next stage := by
  obtain ⟨stage, inv⟩ := known
  obtain ⟨next, later, taken, nextInv⟩ := step_inv distinct inv event
  exact ⟨next, taken, later, nextInv⟩

/-- The invariant holds wherever a run ends. -/
theorem inv_reached (distinct : Function.Injective connName) {events : List Event}
    {s : System Name} (ran : run (step connName) (System.new Name config) events = .ok s) :
    ∃ stage, Inv connName s stage := by
  apply run_invariant (fun s => ∃ stage, Inv connName s stage) _ ⟨_, new_inv connName config⟩ ran
  intro s event next known taken
  obtain ⟨other, stepped, otherInv⟩ := step_succeeds distinct s event known
  rw [taken] at stepped
  cases stepped
  exact otherInv

/-! ## Loops that keep running -/

section

variable (endless : Endless (step connName) (System.new Name config))
  {conn : ChannelId} {loop : LoopId} {functor : Functor} {time : Nat}

theorem inv_at (distinct : Function.Injective connName) (time : Nat) :
    ∃ stage, Inv connName (endless.states time) stage := by
  obtain ⟨events, ran⟩ := endless.reached time
  exact inv_reached distinct ran

theorem logs_since {later : Nat} (after : time ≤ later) :
    Logs (endless.states time) (endless.states later) := by
  induction later, after using Nat.le_induction with
  | base => exact Logs.refl _
  | succ later after ih => exact ih.trans (step_others (endless.taken later)).2

theorem config_at (time : Nat) : (endless.states time).config = config := by
  rw [(logs_since endless (Nat.zero_le time)).2, endless.starts]
  rfl

/-- The functor gets to the front. -/
theorem functor_due (fair : endless.Fair (Event.Runs loop))
    (queued : ((endless.states time).loops loop).Queued functor) :
    ∃ later, time ≤ later ∧ ((endless.states later).loops loop).Due functor := by
  let Waiting : System Name → Prop := fun s =>
    (s.loops loop).Queued functor ∧ ¬(s.loops loop).Due functor
  let Done : System Name → Prop := fun s => (s.loops loop).Due functor
  let rank : System Name → Nat × Nat := fun s => (s.loops loop).control.rank functor
  have waits : ∀ time, Waiting (endless.states time) → ¬(endless.events time).Runs loop →
      Done (endless.states (time + 1)) ∨ Waiting (endless.states (time + 1)) ∧
        rank (endless.states (time + 1)) = rank (endless.states time) := by
    intro time waiting other
    have extends_ := (step_others (endless.taken time)).1 loop other
    refine .inr ⟨⟨extends_.queued waiting.1, ?_⟩, ?_⟩
    · unfold Loop.Due
      rw [extends_.control]
      exact waiting.2
    · exact congrArg (Control.rank functor) extends_.control
  have advances : ∀ time, Waiting (endless.states time) → (endless.events time).Runs loop →
      Done (endless.states (time + 1)) ∨ Waiting (endless.states (time + 1)) ∧
        lower (rank (endless.states (time + 1))) (rank (endless.states time)) := by
    intro time waiting runs
    obtain ⟨answer, event⟩ := runs
    have taken := endless.taken time
    rw [event] at taken
    obtain ⟨still, less⟩ := (advance_piece taken).1.nearer waiting.1 waiting.2
    by_cases due : Done (endless.states (time + 1))
    · exact .inl due
    · exact .inr ⟨⟨still, due⟩, less⟩
  by_cases due : Done (endless.states time)
  · exact ⟨time, Nat.le_refl _, due⟩
  · exact endless.leads_to fair lower_founded waits advances ⟨queued, due⟩

/-- The thread stays where it is until it runs. -/
theorem control_stays (fair : endless.Fair (Event.Runs loop)) (At : Control → Prop)
    (here : At ((endless.states time).loops loop).control) :
    ∃ later, time ≤ later ∧ (endless.events later).Runs loop ∧
      At ((endless.states later).loops loop).control := by
  let Waiting : System Name → Prop := fun s => At (s.loops loop).control
  have kept : ∀ time, Waiting (endless.states time) → ¬(endless.events time).Runs loop →
      Waiting (endless.states (time + 1)) := by
    intro time still other
    show At ((endless.states (time + 1)).loops loop).control
    rw [((step_others (endless.taken time)).1 loop other).control]
    exact still
  exact endless.persists fair kept here

/-- A functor that is queued is called, and leaves its effect in the log. -/
theorem functor_leaves {effect : Effect} (fair : endless.Fair (Event.Runs loop))
    (logged : ∀ (s next : System Name) called rest,
      s.callFunctor connName loop functor called rest = .ok next → effect ∈ next.log)
    (queued : ((endless.states time).loops loop).Queued functor) :
    ∃ later, time ≤ later ∧ effect ∈ (endless.states later).log := by
  obtain ⟨front, since, due⟩ := functor_due endless fair queued
  obtain ⟨later, after, ⟨answer, event⟩, called, rest, control⟩ := control_stays endless fair
    (fun control => ∃ called rest, control = .nextFunctor called (functor :: rest)) due
  refine ⟨later + 1, Nat.le_succ_of_le (Nat.le_trans since after), ?_⟩
  have taken : (endless.states later).advance connName loop answer =
      .ok (endless.states (later + 1)) := by
    have stepped := endless.taken later
    rwa [event] at stepped
  unfold System.advance at taken
  rw [control] at taken
  exact logged _ _ _ _ taken

end

/-! ## From `handleClose` to `connectDestroyed` -/

theorem removal_logged {s next : System Name} {conn : ChannelId} {loop : LoopId}
    {called rest : List Functor}
    (ran : s.callFunctor connName loop (.removeConnectionInLoop conn) called rest = .ok next) :
    .removeConnectionInLoop conn ∈ next.log := by
  obtain ⟨_, _, checked⟩ := bind_ok_inv ran
  obtain ⟨_, _, returned⟩ := bind_ok_inv checked
  cases returned
  exact List.mem_append_right _ (List.mem_singleton_self _)

theorem destruction_logged {s next : System Name} {conn : ChannelId} {loop : LoopId}
    {called rest : List Functor}
    (ran : s.callFunctor connName loop (.connectDestroyed conn) called rest = .ok next) :
    .connectDestroyed conn loop ∈ next.log := by
  have entered : Effect.connectDestroyed conn loop ∈
      ((s.taken loop called rest).record (.connectDestroyed conn loop)).log :=
    List.mem_append_right _ (List.mem_singleton_self _)
  obtain ⟨_, _, checked⟩ := bind_ok_inv ran
  dsimp only at checked
  split_ifs at checked
  · obtain ⟨down, interest, returned⟩ := bind_ok_inv checked
    cases returned
    exact (extended_onChannel interest).2.1 entered
  · exact (extended_removeChannel checked).2.1 entered

/-- The thread is inside `handleClose` of the connection and comes behind
`closeCallback_`. -/
theorem advance_called {s next : System Name} {conn : ChannelId} {loop : LoopId}
    {answer : Answer} (closing : (s.loops loop).control.closing conn = some .calling)
    (ran : s.advance connName loop answer = .ok next) :
    (next.loops loop).control.closing conn = some .called := by
  have reached : ∀ {control : Control}, control.closing conn = some .called →
      (s.setControl loop control).removeConnection connName loop conn = .ok next →
      (next.loops loop).control.closing conn = some .called := by
    intro control behind removed
    rw [((extended_removeConnection removed).1 loop).control]
    simpa [System.setControl, System.setLoop] using behind
  unfold System.advance at ran
  cases control : (s.loops loop).control with
  | handleEvent other revents stage closeStage active =>
      rw [control] at closing ran
      simp only [Control.closing] at closing
      split_ifs at closing with same
      rw [closing, same] at ran
      exact reached (by simp [Control.closing]) ran
  | forceCloseInLoop other closeStage called rest =>
      rw [control] at closing ran
      simp only [Control.closing] at closing
      split_ifs at closing with same
      cases closing
      rw [same] at ran
      exact reached (by simp [Control.closing]) ran
  | atPoll | nextChannel | newConnection | nextFunctor | connectEstablished | connectDestroyed =>
      rw [control] at closing
      cases closing

section

variable (endless : Endless (step connName) (System.new Name config))
  {conn : ChannelId} {time : Nat}

/-- Once it is out of the map the connection is destroyed. -/
theorem removed_destroyed (distinct : Function.Injective connName)
    (fair : ∀ loop, loop ≤ config.threads → endless.Fair (Event.Runs loop))
    (large : firstConn ≤ conn)
    (removed : .removeConnectionInLoop conn ∈ (endless.states time).log) :
    ∃ later, time ≤ later ∧ ∃ home, .connectDestroyed conn home ∈ (endless.states later).log := by
  obtain ⟨stage, inv⟩ := inv_at endless distinct time
  have created : (endless.states time).Created conn := inv.created_of_log removed large
  have recorded := inv.recorded created
  rcases recorded.removed_iff.mp removed with destroying | gone
  · have served := inv.ledger.homes conn created
    rw [config_at endless time] at served
    obtain ⟨later, since, logged⟩ := functor_leaves endless (fair _ served)
      (fun _ _ _ _ => destruction_logged) (inv.destroy_queued created destroying)
    exact ⟨later, since, _, logged⟩
  · exact ⟨time, Nat.le_refl _, _, (recorded.destroyed_iff _).mpr ⟨gone, rfl⟩⟩

/-- Once `closeCallback_` has been called. -/
theorem called_destroyed (distinct : Function.Injective connName)
    (fair : ∀ loop, loop ≤ config.threads → endless.Fair (Event.Runs loop))
    {stage : ChannelId → Stage} (inv : Inv connName (endless.states time) stage)
    (created : (endless.states time).Created conn) (closed : (stage conn).closed = true)
    (called : stage conn ≠ .closing) :
    ∃ later, time ≤ later ∧ ∃ home, .connectDestroyed conn home ∈ (endless.states later).log := by
  have outOfMap : stage conn = .destroying ∨ stage conn = .gone →
      ∃ later, time ≤ later ∧
        ∃ home, .connectDestroyed conn home ∈ (endless.states later).log := by
    intro removed
    exact removed_destroyed endless distinct fair created.1
      ((inv.recorded created).removed_iff.mpr removed)
  cases at_ : stage conn with
  | starting =>
      rw [at_] at closed
      cases closed
  | up =>
      rw [at_] at closed
      cases closed
  | closing => exact absurd at_ called
  | removing =>
      obtain ⟨middle, since, logged⟩ := functor_leaves endless (fair _ (Nat.zero_le _))
        (fun _ _ _ _ => removal_logged) (inv.remove_queued created at_)
      obtain ⟨later, after, destroyed⟩ :=
        removed_destroyed endless distinct fair created.1 logged
      exact ⟨later, Nat.le_trans since after, destroyed⟩
  | destroying => exact outOfMap (.inl at_)
  | gone => exact outOfMap (.inr at_)

/-- A connection that has been closed is destroyed. -/
theorem closed_destroyed (distinct : Function.Injective connName)
    (fair : ∀ loop, loop ≤ config.threads → endless.Fair (Event.Runs loop))
    (large : firstConn ≤ conn) (closed : .handleClose conn ∈ (endless.states time).log) :
    ∃ later, time ≤ later ∧ ∃ home, .connectDestroyed conn home ∈ (endless.states later).log := by
  obtain ⟨stage, inv⟩ := inv_at endless distinct time
  have created : (endless.states time).Created conn := inv.created_of_log closed large
  have isClosed := (inv.recorded created).closed_iff.mp closed
  by_cases closing : stage conn = .closing
  · have served := inv.ledger.homes conn created
    rw [config_at endless time] at served
    obtain ⟨middle, since, ⟨answer, event⟩, calling⟩ := control_stays endless (fair _ served)
      (fun control => control.closing conn = some .calling)
      ((inv.good conn created).home.closing.mpr closing)
    have taken := endless.taken middle
    rw [event] at taken
    have called := advance_called calling taken
    have still : .handleClose conn ∈ (endless.states (middle + 1)).log :=
      (logs_since endless (Nat.le_succ_of_le since)).1 closed
    obtain ⟨laterStage, laterInv⟩ := inv_at endless distinct (middle + 1)
    have laterCreated : (endless.states (middle + 1)).Created conn :=
      laterInv.created_of_log still large
    obtain ⟨later, after, destroyed⟩ := called_destroyed endless distinct fair laterInv
      laterCreated ((laterInv.recorded laterCreated).closed_iff.mp still)
      (laterInv.called_stage laterCreated called)
    exact ⟨later, Nat.le_trans (Nat.le_succ_of_le since) after, destroyed⟩
  · exact called_destroyed endless distinct fair inv created isClosed closing

end

end

/-! ## The protocol -/

def Effect.destroys (conn : ChannelId) : Effect → Bool
  | .connectDestroyed other _ => other = conn
  | _ => false

/-- What `connectDestroyed` relies on when it is called. -/
structure Orderly {Name : Type} (s : System Name) (loop : LoopId) (conn : ChannelId) : Prop where
  home : loop = (s.conns conn).loop
  closed : .handleClose conn ∈ s.log
  returned : .handleCloseReturned conn ∈ s.log
  /-- Neither `handleEvent` nor `handleClose` of the connection is on a stack. -/
  unhandled : ∀ other, (s.loops other).control.handling conn = none ∧
    (s.loops other).control.closing conn = none
  first : ∀ other, .connectDestroyed conn other ∉ s.log

/-- What the destructors of a connection, its channel and its socket rely on. -/
structure Dropped {Name : Type} (s : System Name) (conn : ChannelId) : Prop where
  destroyed : .connectDestroyed conn (s.conns conn).loop ∈ s.log
  state : (s.conns conn).state = .kDisconnected
  unhandled : ∀ loop, (s.loops loop).control.handling conn = none
  /-- No poll table has an entry for the channel. -/
  unknown : ∀ loop fd, (s.loops loop).poller.channels fd ≠ some conn

/-- The promises of the protocol in one state. -/
structure Teardown {Name : Type} (connName : ChannelId → Name) (s : System Name) : Prop where
  /-- `connections_` has the connections that were accepted and not removed. -/
  entries : ∀ entry, entry ∈ s.connections ↔ entry.1 = connName entry.2 ∧
    firstConn ≤ entry.2 ∧ .newConnection entry.2 ∈ s.log ∧ .removeConnectionInLoop entry.2 ∉ s.log
  once : ∀ conn, firstConn ≤ conn → s.log.countP (Effect.destroys conn) ≤ 1
  after : ∀ conn loop, firstConn ≤ conn → .connectDestroyed conn loop ∈ s.log →
    loop = (s.conns conn).loop ∧ .handleClose conn ∈ s.log ∧ .handleCloseReturned conn ∈ s.log
  orderly : ∀ conn loop, (s.loops loop).Due (.connectDestroyed conn) → Orderly s loop conn
  /-- The socket outlives the entry of the poll table. -/
  socket : ∀ conn, s.SocketClosed conn → Dropped s conn
  /-- A descriptor the kernel may give out is in no table. -/
  reused : ∀ loop, loop ≤ s.config.threads → ∀ fd, ¬s.FdOpen fd →
    (s.loops loop).poller.channels fd = none

section

variable {Name : Type} {connName : ChannelId → Name} {s : System Name}
  {stage : ChannelId → Stage} {conn : ChannelId}

theorem Inv.entries (inv : Inv connName s stage) (entry : Name × ChannelId) :
    entry ∈ s.connections ↔ entry.1 = connName entry.2 ∧ firstConn ≤ entry.2 ∧
      .newConnection entry.2 ∈ s.log ∧ .removeConnectionInLoop entry.2 ∉ s.log := by
  constructor
  · intro member
    have large := inv.outer entry member
    have listed : 0 < (s.view entry.2).listed :=
      List.count_pos_iff.mpr (List.mem_map_of_mem member)
    have created : s.Created entry.2 := by
      apply inv.created large
      intro absent
      rw [absent.listed] at listed
      exact absurd listed (Nat.lt_irrefl 0)
    have recorded := inv.recorded created
    refine ⟨inv.names entry member, large, mem_of_count_eq_one recorded.created, ?_⟩
    intro removed
    rw [(inv.good entry.2 created).listed] at listed
    rcases recorded.removed_iff.mp removed with destroying | gone
    · rw [destroying] at listed
      exact absurd listed (Nat.lt_irrefl 0)
    · rw [gone] at listed
      exact absurd listed (Nat.lt_irrefl 0)
  · intro both
    obtain ⟨name, large, accepted, unremoved⟩ := both
    have created : s.Created entry.2 := inv.created_of_log accepted large
    have still : (stage entry.2).listed = true := by
      have kept := fun removed => unremoved ((inv.recorded created).removed_iff.mpr removed)
      cases at_ : stage entry.2 <;> simp_all [Stage.listed]
    have one := (inv.good entry.2 created).listed
    rw [if_pos still] at one
    obtain ⟨other, member, same⟩ := List.mem_map.mp (mem_of_count_eq_one one)
    have equal : other = entry := by
      apply Prod.ext
      · rw [inv.names other member, same, name]
      · exact same
    rw [← equal]
    exact member

/-- All that `handleClose` leaves behind is there before the destruction. -/
theorem Inv.closed_before (inv : Inv connName s stage) (created : s.Created conn)
    (gone : stage conn = .gone) :
    .handleClose conn ∈ s.log ∧ .handleCloseReturned conn ∈ s.log := by
  have recorded := inv.recorded created
  have home := (inv.good conn created).home
  rw [gone] at recorded home
  refine ⟨recorded.closed_iff.mpr rfl, ?_⟩
  rcases recorded.returned rfl with returned | closing
  · exact List.count_pos_iff.mp returned
  · exfalso
    apply closing
    cases at_ : (s.loops (s.conns conn).loop).control.closing conn with
    | none => rfl
    | some closeStage =>
        cases closeStage with
        | calling => cases home.closing.mp at_
        | called => rcases home.closed at_ with same | same <;> cases same

theorem Inv.count_destroys (inv : Inv connName s stage) (created : s.Created conn) :
    s.log.countP (Effect.destroys conn) = if stage conn = .gone then 1 else 0 := by
  have recorded := inv.recorded created
  have atHome : s.log.countP (Effect.destroys conn) =
      s.log.count (.connectDestroyed conn (s.conns conn).loop) := by
    rw [List.count_eq_countP]
    apply List.countP_congr
    intro effect member
    cases effect with
    | connectDestroyed other loop =>
        simp only [Effect.destroys, decide_eq_true_eq, beq_iff_eq, Effect.connectDestroyed.injEq]
        refine ⟨?_, fun both => both.1⟩
        intro same
        rw [same] at member
        exact ⟨same, ((recorded.destroyed_iff loop).mp member).2⟩
    | newConnection | handleClose | handleCloseReturned | removeConnectionInLoop =>
        simp [Effect.destroys]
  have destroyed := recorded.destroyed (s.conns conn).loop
  simp only [and_true] at destroyed
  exact atHome.trans destroyed

theorem Inv.once (inv : Inv connName s stage) (large : firstConn ≤ conn) :
    s.log.countP (Effect.destroys conn) ≤ 1 := by
  by_cases created : s.Created conn
  · rw [inv.count_destroys created]
    split_ifs <;> simp
  · have none : s.log.countP (Effect.destroys conn) = 0 := by
      rw [List.countP_eq_zero]
      intro effect member
      cases effect with
      | connectDestroyed other loop =>
          simp only [Effect.destroys, decide_eq_true_eq]
          intro same
          rw [same] at member
          exact created (inv.created_of_log member large)
      | newConnection | handleClose | handleCloseReturned | removeConnectionInLoop =>
          simp [Effect.destroys]
    rw [none]
    exact Nat.zero_le 1

theorem Inv.orderly {loop : LoopId} (inv : Inv connName s stage)
    (due : (s.loops loop).Due (.connectDestroyed conn)) : Orderly s loop conn := by
  obtain ⟨called, rest, control⟩ := due
  obtain ⟨created, destroying, home, recorded, unhandled⟩ := inv.destroyable control
  refine ⟨home, recorded.closed_iff.mpr rfl, ?_, unhandled, ?_⟩
  · rcases recorded.returned rfl with returned | closing
    · exact List.count_pos_iff.mp returned
    · exact absurd rfl closing
  · intro other destroyed
    cases ((recorded.destroyed_iff other).mp destroyed).1

theorem Inv.dropped (inv : Inv connName s stage) (closed : s.SocketClosed conn) :
    Dropped s conn := by
  obtain ⟨created, unreferenced⟩ := closed
  have gone : stage conn = .gone := by
    by_contra still
    exact unreferenced (inv.referenced created still)
  have good := inv.good conn created
  have home := good.home
  have state := good.state
  rw [gone] at home state
  refine ⟨((inv.recorded created).destroyed_iff _).mpr ⟨gone, rfl⟩, of_decide_eq_true state, ?_, ?_⟩
  · intro loop
    by_cases here : loop = (s.conns conn).loop
    · cases handling : (s.loops loop).control.handling conn with
      | none => rfl
      | some handled =>
          rw [here] at handling
          cases (home.handling handled.1 handled.2 handling).1
    · exact (good.away loop here).handling
  · intro loop fd known
    have seen : ((s.view conn).loops loop).standing.known fd = true :=
      (standing_known fd).mpr known
    by_cases here : loop = (s.view conn).conn.loop
    · rw [here, home.known fd] at seen
      cases seen.1
    · rw [(good.away loop here).known fd] at seen
      cases seen

theorem Inv.teardown (inv : Inv connName s stage) : Teardown connName s where
  entries := inv.entries
  once := fun conn large => inv.once large
  after := by
    intro conn loop large destroyed
    have created : s.Created conn := inv.created_of_log destroyed large
    obtain ⟨gone, home⟩ := ((inv.recorded created).destroyed_iff loop).mp destroyed
    exact ⟨home, inv.closed_before created gone⟩
  orderly := fun conn loop due => inv.orderly due
  socket := fun conn closed => inv.dropped closed
  reused := fun loop served fd free => inv.fd_free served free

end

/-- Whatever the loops, the kernel and the program do, no assertion of the
server, its connections or its pollers fails and the protocol is kept; and when
every loop keeps running, a closed connection is destroyed once. -/
theorem teardown_protocol {Name : Type} [DecidableEq Name] (connName : ChannelId → Name)
    (distinct : Function.Injective connName) (config : Config) :
    (∀ events, ∃ s, run (step connName) (System.new Name config) events = .ok s ∧
      Teardown connName s) ∧
    ∀ endless : Endless (step connName) (System.new Name config),
      (∀ loop, loop ≤ config.threads → endless.Fair (Event.Runs loop)) →
      ∀ conn time, firstConn ≤ conn → .handleClose conn ∈ (endless.states time).log →
        ∃ since, ∀ later, since ≤ later →
          (endless.states later).log.countP (Effect.destroys conn) = 1 := by
  constructor
  · intro events
    have admitted : AllSteps (step connName) (fun _ _ => True) (System.new Name config) events :=
      all_steps_of_forall _ (fun _ _ _ => trivial) _
    obtain ⟨s, ran, stage, inv⟩ := run_succeeds (fun s => ∃ stage, Inv connName s stage)
      (fun s event known _ => step_succeeds distinct s event known)
      ⟨_, new_inv connName config⟩ admitted
    exact ⟨s, ran, inv.teardown⟩
  · intro endless fair conn time large closed
    obtain ⟨since, -, home, destroyed⟩ := closed_destroyed endless distinct fair large closed
    refine ⟨since, ?_⟩
    intro later after
    obtain ⟨stage, inv⟩ := inv_at endless distinct later
    have still := (logs_since endless after).1 destroyed
    have created : (endless.states later).Created conn := inv.created_of_log still large
    rw [inv.count_destroys created,
      if_pos (((inv.recorded created).destroyed_iff home).mp still).1]

/-- An io loop and the base loop take turns. One peer connects and hangs up. -/
def oneHangUp : Config where
  threads := 1
  listenFd := 3
  wakeupFd := fun loop => loop + 10
  writeCompleteCallback := false
  listenFd_other := by decide

def hangingUp : Answer where
  revents := fun fd => if fd = 3 then pollIn else if fd = 5 then pollHup else 0#32
  connfd := some 5
  received := 0
  drained := true

theorem hang_up_destroyed :
    ∃ endless : Endless (step id) (System.new Nat oneHangUp),
      (∀ loop, loop ≤ oneHangUp.threads → endless.Fair (Event.Runs loop)) ∧
      Effect.handleClose 2 ∈ (endless.states 20).log ∧
      ∃ since, ∀ later, since ≤ later →
        (endless.states later).log.countP (Effect.destroys 2) = 1 := by
  obtain ⟨endless, events, states⟩ := exists_endless
    (fun s : System Nat => ∃ stage, Inv id s stage)
    (fun s event => step_succeeds Function.injective_id s event)
    ⟨_, new_inv id oneHangUp⟩ fun time => .advance (time % 2) hangingUp
  have fair : ∀ loop, loop ≤ oneHangUp.threads → endless.Fair (Event.Runs loop) := by
    intro loop served time
    have small : loop < 2 := Nat.lt_succ_of_le served
    refine ⟨2 * time + loop, by omega, hangingUp, ?_⟩
    rw [events]
    show Event.advance ((2 * time + loop) % 2) hangingUp = _
    rw [Nat.mul_add_mod, Nat.mod_eq_of_lt small]
  have closed : Effect.handleClose 2 ∈ (endless.states 20).log := by
    rw [states]
    decide
  exact ⟨endless, fair, closed, (teardown_protocol id Function.injective_id oneHangUp).2 endless
    fair 2 20 (by decide) closed⟩

end Msmuduo.ServerLoops
