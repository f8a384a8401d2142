import Msmuduo.TcpServerCustody

/-!
# Polling and handling events

The pieces of a loop thread between `poll` and the swap of the functors. Each of
them meets the invariant, succeeds and leaves the invariant behind, with at most
one connection in a later stage. A connection whose `handleEvent` is on the
stack has not been destroyed, although the channel refers to nothing.
-/

namespace Msmuduo.ServerLoops

open Msmuduo.Machine Msmuduo.PollPoller

set_option autoImplicit false

section

variable {Name : Type} {connName : ChannelId → Name} {s : System Name}
  {stage : ChannelId → Stage} {conn : ChannelId} {loop : LoopId}

/-! ## What the invariant says -/

theorem mem_of_count_eq_one {Value : Type} [DecidableEq Value] {values : List Value}
    {value : Value} (one : values.count value = 1) : value ∈ values := by
  apply List.count_pos_iff.mp
  rw [one]
  exact Nat.one_pos

/-- A connection exists until it has been destroyed. -/
theorem Inv.referenced (inv : Inv connName s stage) (created : s.Created conn)
    (still : stage conn ≠ .gone) : s.Referenced conn := by
  have good := inv.good conn created
  cases listed : (stage conn).listed with
  | true =>
      left
      have one := good.listed
      rw [listed, if_pos rfl] at one
      obtain ⟨entry, member, same⟩ := List.mem_map.mp (mem_of_count_eq_one one)
      exact ⟨entry, member, same⟩
  | false =>
      have destroying : stage conn = .destroying := by
        cases at_ : stage conn <;> simp_all [Stage.listed]
      right
      left
      have one := good.home.destroy
      rw [if_pos destroying] at one
      refine ⟨(s.conns conn).loop, ?_, ?_⟩
      · rw [List.mem_range]
        exact Nat.lt_succ_of_le (inv.ledger.homes conn created)
      · unfold Loop.references
        apply List.mem_append_right
        rw [List.mem_filterMap]
        refine ⟨.connectDestroyed conn, ?_, rfl⟩
        rw [List.append_assoc]
        exact List.mem_append_right _ (mem_of_count_eq_one one)

theorem registered_not_gone {stage : Stage} (registered : stage.registered = true) :
    stage ≠ .gone := by
  intro gone
  rw [gone] at registered
  cases registered

theorem Inv.created (inv : Inv connName s stage) (large : firstConn ≤ conn)
    (present : ¬Absent (s.view conn)) : s.Created conn := by
  refine ⟨large, ?_⟩
  by_contra fresh
  exact present (inv.absent conn (Nat.not_lt.mp fresh))

/-- The tables have open descriptors only. -/
theorem Inv.fd_open (inv : Inv connName s stage) (served : loop ≤ s.config.threads) {fd : Int}
    {channel : ChannelId} (known : (s.loops loop).poller.channels fd = some channel) :
    s.FdOpen fd := by
  have inRange : loop ∈ List.range (s.config.threads + 1) :=
    List.mem_range.mpr (Nat.lt_succ_of_le served)
  by_cases inner : channel < firstConn
  · rcases (inv.loops loop).inner fd channel known inner with ⟨-, same⟩ | ⟨-, -, same⟩
    · exact .inr (.inl ⟨loop, inRange, same⟩)
    · exact .inl same
  · have seen : ((s.view channel).loops loop).standing.known fd = true :=
      (standing_known fd).mpr known
    have created : s.Created channel := by
      apply inv.created (Nat.not_lt.mp inner)
      intro absent
      rw [(absent.away loop).known fd] at seen
      cases seen
    have good := inv.good channel created
    have home : loop = (s.conns channel).loop := by
      by_contra elsewhere
      rw [(good.away loop elsewhere).known fd] at seen
      cases seen
    subst home
    obtain ⟨registered, same⟩ := (good.home.known fd).mp seen
    refine .inr (.inr ⟨channel, List.mem_range.mpr created.2, created, ?_, same.symm⟩)
    exact inv.referenced created (registered_not_gone registered)

theorem Inv.fd_free (inv : Inv connName s stage) (served : loop ≤ s.config.threads) {fd : Int}
    (free : ¬s.FdOpen fd) : (s.loops loop).poller.channels fd = none := by
  cases known : (s.loops loop).poller.channels fd with
  | none => rfl
  | some channel => exact absurd (inv.fd_open served known) free

/-! ## Pieces no connection notices -/

/-- Two places a connection cannot tell apart. -/
structure Control.Alike (control other : Control) (conn : ChannelId) : Prop where
  rest : control.rest = other.rest
  closing : control.closing conn = other.closing conn
  handling : control.handling conn = other.handling conn
  active : (control.active.map Prod.fst).count conn = (other.active.map Prod.fst).count conn

theorem Control.closing_other {control : Control} (other : control.conn ≠ some conn) :
    control.closing conn = none := by
  cases control <;> simp_all [Control.conn, Control.closing]

theorem Control.handling_other {control : Control} (other : control.conn ≠ some conn) :
    control.handling conn = none := by
  cases control <;> simp_all [Control.conn, Control.handling]

/-- A connection that is not on the stack looks at the two lists only. -/
theorem Control.alike {control old : Control} (rest : control.rest = old.rest)
    (active : (control.active.map Prod.fst).count conn = (old.active.map Prod.fst).count conn)
    (first : control.conn ≠ some conn) (second : old.conn ≠ some conn) :
    control.Alike old conn where
  rest := rest
  closing := (closing_other first).trans (closing_other second).symm
  handling := (handling_other first).trans (handling_other second).symm
  active := active

theorem Control.Alike.view {control : Control} {loop : Loop}
    (alike : control.Alike loop.control conn) :
    ({ loop with control := control } : Loop).view conn = loop.view conn := by
  unfold Loop.view
  dsimp only
  rw [alike.rest, alike.closing, alike.handling, alike.active]

theorem Inv.setControl_kept (inv : Inv connName s stage) {control : Control}
    (alike : ∀ other, firstConn ≤ other → control.Alike (s.loops loop).control other)
    (ok : LoopOk s.config loop { s.loops loop with control := control }) :
    Inv connName (s.setControl loop control) stage := by
  apply inv.kept
  · exact moves_setLoop fun other large _ => (alike other large).view
  · exact loops_setLoop inv.loops ok

theorem swapFunctors_inv (inv : Inv connName s stage)
    (control : (s.loops loop).control = .nextChannel []) :
    Inv connName (s.swapFunctors loop) stage := by
  apply inv.kept
  · apply moves_setLoop
    intro other large different
    unfold Loop.view
    rw [control]
    simp [Control.rest, Control.closing, Control.handling, Control.active]
  · apply loops_setLoop inv.loops
    have ok := inv.loops loop
    constructor
    · exact ok.tabled
    · exact ok.inner
    · intro revents member
      cases member
    · intro item member
      cases member
    · intro subject none
      cases none
    · intro functor member
      apply ok.functors functor
      rw [control]
      simpa [Control.rest] using member
    · intro subject called rest
      simp

/-- The thread is done with an inner channel, or leaves a function on the stack
that the connection has already finished with. -/
theorem leave_inv (inv : Inv connName s stage) {control : Control}
    (alike : ∀ other, firstConn ≤ other → control.Alike (s.loops loop).control other)
    (active : control.active ⊆ (s.loops loop).control.active)
    (subject : ∀ conn, control.conn = some conn → (s.loops loop).control.conn = some conn)
    (destroyed : ∀ conn called rest, control ≠ .connectDestroyed conn called rest) :
    Inv connName (s.setControl loop control) stage := by
  apply inv.setControl_kept alike
  apply (inv.loops loop).setControl active
  · rw [(alike firstConn (Nat.le_refl _)).rest]
    exact List.Subset.refl _
  · intro other same
    exact (inv.loops loop).subject other (subject other same)
  · exact destroyed

/-! ## Polling -/

/-- A connection is found active at home, and only while it is up. -/
theorem Good.polled {view : View} {stage : Stage} {active : Nat} (good : Good view stage)
    (idle : (view.loops loop).handling = none) (few : active ≤ 1)
    (asking : 0 < active → stage = .up ∧ loop = view.conn.loop) :
    Good { view with loops :=
      Function.update view.loops loop { view.loops loop with active := active } } stage := by
  by_cases here : loop = view.conn.loop
  · subst here
    refine good.homeStep good.state rfl ?_ rfl Iff.rfl good.recorded
    have home := good.home
    refine ⟨home.establish, home.destroy, home.closing, home.closed, ?_, ?_, home.known, home.fd,
      home.asks⟩
    · intro revents eventStage handling
      dsimp only at handling
      rw [idle] at handling
      cases handling
    · dsimp only
      split_ifs with up
      · exact few
      · exact Nat.not_lt.mp fun positive => up (asking positive).1
  · have none : active = 0 := by
      by_contra some
      exact here (asking (Nat.pos_of_ne_zero some)).2
    have same : { view.loops loop with active := active } = view.loops loop := by
      rw [none, ← (good.away loop here).active]
    rw [same, Function.update_eq_self]
    exact good

theorem LoopOk.polled {config : Config} {id : LoopId} {value : Loop} {active : List Active}
    (ok : LoopOk config id value) (control : value.control = .atPoll)
    (filled : Filled value.poller value.poller.pollfds active) :
    LoopOk config id { value with control := .nextChannel active } where
  tabled := ok.tabled
  inner := ok.inner
  accepts := by
    intro mask listed
    obtain ⟨⟨fd, known⟩, -⟩ := filled.asking _ listed
    have inner : acceptChannel < firstConn := by decide
    rcases ok.inner fd acceptChannel known inner with ⟨wrong, -⟩ | ⟨-, base, -⟩
    · exact absurd wrong (by decide)
    · exact base
  calm := filled.calm
  subject := by
    intro subject none
    cases none
  functors := by
    intro functor listed
    apply ok.functors functor
    rw [control]
    exact listed
  destroyed := by
    intro subject called rest
    simp

/-- Only a connection that is up is in a table and asks for something. -/
theorem Good.up_of_asking {view : View} {stage : Stage} {fd : Int} (good : Good view stage)
    (known : (view.loops loop).standing.known fd = true)
    (asking : (view.loops loop).standing.events ≠ Channel.kNoneEvent) :
    stage = .up ∧ loop = view.conn.loop := by
  have home : loop = view.conn.loop := by
    by_contra elsewhere
    rw [(good.away loop elsewhere).known fd] at known
    cases known
  refine ⟨?_, home⟩
  subst home
  have registered := ((good.home.known fd).mp known).1
  have asks := good.home.asks
  cases here : stage with
  | up => rfl
  | starting | gone =>
      rw [here] at registered
      cases registered
  | closing | removing | destroying =>
      rw [here] at asks
      exact absurd asks asking

theorem poll_inv (inv : Inv connName s stage) (control : (s.loops loop).control = .atPoll)
    (revents : Int → EventMask) :
    ∃ next, s.poll loop revents = .ok next ∧ Inv connName next stage := by
  have ok := inv.loops loop
  obtain ⟨active, returned, filled⟩ := fillActiveChannels_filled revents
    (entries_lead ok.tabled) (owners_differ ok.tabled.indexed)
  refine ⟨s.setControl loop (.nextChannel active), ?_, ?_⟩
  · unfold System.poll
    rw [returned]
    rfl
  have idle : ∀ other, ({ s.loops loop with control := .nextChannel active } : Loop).view other =
      { (s.loops loop).view other with active := (active.map Prod.fst).count other } := by
    intro other
    unfold Loop.view
    rw [control]
    rfl
  have member : ∀ other, 0 < (active.map Prod.fst).count other →
      (∃ fd, (s.loops loop).poller.channels fd = some other) ∧
        ((s.loops loop).poller.object other).events ≠ Channel.kNoneEvent := by
    intro other positive
    obtain ⟨item, listed, same⟩ := List.mem_map.mp (List.count_pos_iff.mp positive)
    rw [← same]
    exact filled.asking item listed
  have seen : ∀ other, 0 < (active.map Prod.fst).count other →
      ∃ fd, ((s.view other).loops loop).standing.known fd = true := by
    intro other positive
    obtain ⟨fd, known⟩ := (member other positive).1
    exact ⟨fd, (standing_known fd).mpr known⟩
  have views : ∀ other, (s.setControl loop (.nextChannel active)).view other =
      { s.view other with
        loops := Function.update (s.view other).loops loop
          { (s.view other).loops loop with active := (active.map Prod.fst).count other } } := by
    intro other
    unfold System.setControl
    rw [view_setLoop, idle]
    rfl
  refine ⟨inv.first, inv.next, loops_setLoop inv.loops (ok.polled control filled), ?_, ?_,
    ⟨inv.ledger.homes, inv.ledger.distinct, inv.ledger.outer⟩, inv.names, inv.outer⟩
  · intro other created
    have good := inv.good other created
    rw [views other]
    apply good.polled
    · show (s.loops loop).control.handling other = none
      rw [control]
      rfl
    · exact List.nodup_iff_count.mp filled.nodup other
    · intro positive
      obtain ⟨fd, known⟩ := seen other positive
      exact good.up_of_asking known (member other positive).2
  · intro other fresh
    have absent := inv.absent other fresh
    have none : (active.map Prod.fst).count other = 0 := by
      by_contra some
      obtain ⟨fd, known⟩ := seen other (Nat.pos_of_ne_zero some)
      rw [(absent.away loop).known fd] at known
      cases known
    have same : { (s.view other).loops loop with active := (active.map Prod.fst).count other } =
        (s.view other).loops loop := by
      rw [none, ← (absent.away loop).active]
    rw [views other, same, Function.update_eq_self]
    exact absent

/-! ## A connection in its own loop -/

theorem setControl_setLoop (s : System Name) (loop : LoopId) (value : Loop) (control : Control) :
    (s.setLoop loop value).setControl loop control =
      s.setLoop loop { value with control := control } := by
  unfold System.setControl System.setLoop
  dsimp only
  rw [Function.update_self, Function.update_idem]

/-- The view of a connection after a change of its state, of the log and of one
loop. -/
theorem view_changed (s : System Name) (conn : ChannelId) (state : TcpConnection.StateE)
    (effects : List Effect) (loop : LoopId) (value : Loop) :
    ({ s.setState conn state with log := s.log ++ effects }.setLoop loop value).view conn =
      ⟨{ s.conns conn with state := state }, (s.view conn).listed,
        Function.update (s.view conn).loops loop (value.view conn),
        historyOf (s.log ++ effects) conn⟩ := by
  rw [view_setLoop]
  unfold System.view System.setState
  simp

/-- A step in the loop of the connection that shows in its state, its history
and that loop only. -/
theorem Inv.homeMoved {next : System Name} {state : TcpConnection.StateE} {value : LoopView}
    {history : History} {later : Stage} (inv : Inv connName s stage) (created : s.Created conn)
    (moves : Moves s next conn) (loops : ∀ loop, LoopOk s.config loop (next.loops loop))
    (viewed : next.view conn = ⟨{ s.conns conn with state := state }, (s.view conn).listed,
      Function.update (s.view conn).loops (s.conns conn).loop value, history⟩)
    (admits : later.admits state = true) (listed : later.listed = (stage conn).listed)
    (home : AtHome value (s.conns conn).fd later)
    (remove : value.calls .remove =
      ((s.view conn).loops (s.conns conn).loop).calls .remove)
    (removing : later = .removing ↔ stage conn = .removing)
    (recorded : Recorded history later (s.conns conn).loop value.closing)
    (forward : later ≠ .gone → stage conn ≠ .gone) :
    Inv connName next (Function.update stage conn later) := by
  apply inv.moved moves created.2 loops
  · intro _
    rw [viewed]
    exact (inv.good conn created).homeStep admits listed home remove removing recorded
  · exact forward

/-- The thread goes on inside or around `handleEvent` of the connection. -/
theorem Inv.homeControl (inv : Inv connName s stage) (created : s.Created conn)
    (home : loop = (s.conns conn).loop) {control : Control}
    (rest : control.rest = (s.loops loop).control.rest)
    (closing : control.closing conn = (s.loops loop).control.closing conn)
    (handling : ∀ revents eventStage, control.handling conn = some (revents, eventStage) →
      (stage conn).registered = true ∧ (control.active.map Prod.fst).count conn = 0 ∧
        (stage conn).Handles revents eventStage)
    (active : (control.active.map Prod.fst).count conn ≤ if stage conn = .up then 1 else 0)
    (others : ∀ other, firstConn ≤ other → other ≠ conn →
      control.Alike (s.loops loop).control other)
    (ok : LoopOk s.config loop { s.loops loop with control := control }) :
    Inv connName (s.setControl loop control) stage := by
  have good := inv.good conn created
  have viewed : (s.setControl loop control).view conn =
      ⟨{ s.conns conn with state := (s.conns conn).state }, (s.view conn).listed,
        Function.update (s.view conn).loops (s.conns conn).loop
          (({ s.loops loop with control := control } : Loop).view conn),
        (s.view conn).history⟩ := by
    unfold System.setControl
    rw [view_setLoop, ← home]
    rfl
  have calls : (({ s.loops loop with control := control } : Loop).view conn).calls =
      ((s.view conn).loops loop).calls := by
    unfold Loop.view
    dsimp only
    rw [rest]
    rfl
  have atHome := good.home
  have recorded := good.recorded
  rw [show (s.view conn).conn.loop = loop from home.symm] at atHome recorded
  rw [← Function.update_eq_self conn stage]
  refine inv.homeMoved created (moves_setLoop fun other large different =>
    (others other large different).view) (loops_setLoop inv.loops ok) viewed good.state rfl ?_ ?_
    Iff.rfl ?_ id
  · refine ⟨?_, ?_, ?_, ?_, handling, active, atHome.known, atHome.fd, atHome.asks⟩
    · rw [calls]
      exact atHome.establish
    · rw [calls]
      exact atHome.destroy
    · show control.closing conn = some .calling ↔ _
      rw [closing]
      exact atHome.closing
    · show control.closing conn = some .called → _
      rw [closing]
      exact atHome.closed
  · rw [calls, home]
  · show Recorded _ _ _ (control.closing conn)
    rw [closing, ← home]
    exact recorded

/-! ## Calls on the channel -/

theorem onChannel_ok {call : PollPoller.Event} {poller : Poller}
    (home : loop = (s.conns conn).loop)
    (taken : PollPoller.step (s.loops loop).poller call = .ok poller) :
    s.onChannel loop conn call =
      .ok (s.setLoop loop { s.loops loop with poller := poller }) := by
  unfold System.onChannel
  rw [require_ok home, taken]
  rfl

theorem Inv.registered (inv : Inv connName s stage) (created : s.Created conn)
    (registered : (stage conn).registered = true) (home : loop = (s.conns conn).loop) :
    Registered (s.loops loop).poller conn := by
  subst home
  have good := inv.good conn created
  have fd : ((s.loops (s.conns conn).loop).poller.object conn).fd = (s.conns conn).fd :=
    good.home.fd
  unfold Registered
  rw [fd]
  exact (standing_known _).mp ((good.home.known _).mpr ⟨registered, rfl⟩)

/-- A change of interest of a registered connection, seen from its loop. The
thread may go on to another place at once. -/
theorem Inv.interest (inv : Inv connName s stage) (created : s.Created conn)
    (registered : (stage conn).registered = true) (home : loop = (s.conns conn).loop)
    (interest : Channel.Interest)
    (stays : ((s.loops loop).poller.object conn).events = Channel.kNoneEvent →
      interest.apply ((s.loops loop).poller.object conn).events = Channel.kNoneEvent) :
    ∃ poller, PollPoller.step (s.loops loop).poller (.interest conn interest) = .ok poller ∧
      (∀ value, LoopOk s.config loop value → value.poller = (s.loops loop).poller →
        LoopOk s.config loop { value with poller := poller }) ∧
      poller.standing conn = { (s.loops loop).poller.standing conn with
        events := interest.apply ((s.loops loop).poller.object conn).events } ∧
      ∀ other, other ≠ conn → poller.standing other = (s.loops loop).poller.standing other := by
  obtain ⟨poller, taken, tabled, channels, own, others⟩ :=
    tabled_interest_known (inv.loops loop).tabled interest
      (inv.registered created registered home) stays
  refine ⟨poller, taken, ?_, own, others⟩
  intro value ok same
  apply ok.setPoller tabled
  intro fd channel _ known
  rw [same, ← channels]
  exact known

/-- Another connection sees neither the new place nor the new table. -/
theorem Control.Alike.view_poller {control : Control} {value : Loop} {poller : Poller}
    (alike : control.Alike value.control conn)
    (standing : poller.standing conn = value.poller.standing conn) :
    ({ value with poller := poller, control := control } : Loop).view conn = value.view conn := by
  have same := alike.view
  unfold Loop.view at same ⊢
  dsimp only at same ⊢
  rw [standing]
  exact same

theorem Recorded.closed {log : List Effect}
    (recorded : Recorded (historyOf log conn) .up loop none) :
    Recorded (historyOf (log ++ [.handleClose conn]) conn) .closing loop (some .calling) := by
  have own : (Effect.handleClose conn).conn = conn := rfl
  rw [historyOf_own own]
  constructor
  · exact recorded.created
  · exact congrArg (· + 1) recorded.closes
  · intro _
    right
    simp
  · exact recorded.removals
  · exact recorded.destroyed

theorem AtHome.not_closing {view : LoopView} {fd : Int} (home : AtHome view fd .up) :
    view.closing = none := by
  cases closing : view.closing with
  | none => rfl
  | some closeStage =>
      cases closeStage with
      | calling => exact absurd (home.closing.mp closing) (by decide)
      | called => exact absurd (home.closed closing) (by decide)

/-- `handleClose` of a connection that is up, with the place the thread has in
it. The assertion on the state holds, and the channel asks for nothing. -/
theorem handleClose_inv (inv : Inv connName s stage) (created : s.Created conn)
    (up : stage conn = .up) (home : loop = (s.conns conn).loop) {control : Control}
    (rest : control.rest = (s.loops loop).control.rest)
    (closing : control.closing conn = some .calling)
    (handling : ∀ revents eventStage, control.handling conn = some (revents, eventStage) →
      Stage.closing.Handles revents eventStage)
    (active : (control.active.map Prod.fst).count conn = 0)
    (others : ∀ other, firstConn ≤ other → other ≠ conn →
      control.Alike (s.loops loop).control other)
    (ok : LoopOk s.config loop { s.loops loop with control := control }) :
    ∃ closed, s.handleClose loop conn = .ok closed ∧
      Inv connName (closed.setControl loop control) (Function.update stage conn .closing) := by
  subst home
  have good := inv.good conn created
  have atHome := good.home
  have recorded := good.recorded
  have state := good.state
  rw [up] at atHome recorded state
  have open_ : (s.conns conn).state = .kConnected ∨ (s.conns conn).state = .kDisconnecting :=
    of_decide_eq_true state
  obtain ⟨poller, taken, pollerOk, own, standings⟩ :=
    inv.interest created (by rw [up]; rfl) rfl .disableAll fun _ => rfl
  let down := (s.setState conn .kDisconnected).record (.handleClose conn)
  have sameHome : (s.conns conn).loop = (down.conns conn).loop := by
    simp [down, System.setState, System.record]
  have ran : s.handleClose (s.conns conn).loop conn =
      .ok (down.setLoop (s.conns conn).loop
        { s.loops (s.conns conn).loop with poller := poller }) := by
    unfold System.handleClose
    rw [require_ok rfl, require_ok open_]
    exact onChannel_ok sameHome taken
  refine ⟨_, ran, ?_⟩
  rw [setControl_setLoop]
  have calls : (({ s.loops (s.conns conn).loop with
      poller := poller, control := control } : Loop).view conn).calls =
        ((s.view conn).loops (s.conns conn).loop).calls := by
    unfold Loop.view
    dsimp only
    rw [rest]
    rfl
  refine inv.homeMoved created ?_ (loops_setLoop (s := down) inv.loops (pollerOk _ ok rfl))
    (view_changed s conn .kDisconnected [.handleClose conn] _ _) rfl (by rw [up]; rfl) ?_ ?_
    (by simp [up]) ?_ (by simp [up])
  · apply ((moves_setState s conn .kDisconnected).trans (moves_record _ (.handleClose conn))).trans
    apply moves_setLoop
    intro other large different
    exact (others other large different).view_poller (standings other different)
  · constructor
    · rw [calls]
      exact atHome.establish
    · rw [calls]
      exact atHome.destroy
    · show control.closing conn = some .calling ↔ _
      simp [closing]
    · show control.closing conn = some .called → _
      simp [closing]
    · intro revents eventStage handled
      exact ⟨rfl, active, handling revents eventStage handled⟩
    · exact Nat.le_of_eq active
    · intro other
      show (poller.standing conn).known other = true ↔ _
      rw [own]
      exact atHome.known other
    · show (poller.standing conn).fd = _
      rw [own]
      exact atHome.fd
    · show (poller.standing conn).events = Channel.kNoneEvent
      rw [own]
      rfl
  · rw [calls]
  · rw [atHome.not_closing] at recorded
    show Recorded _ _ _ (control.closing conn)
    rw [closing]
    exact recorded.closed

/-! ## Handling an event -/

/-- What is known of a connection whose `handleEvent` is on the stack. -/
structure Handled (s : System Name) (stage : ChannelId → Stage) (loop : LoopId)
    (conn : ChannelId) (revents : EventMask) (eventStage : EventStage)
    (active : List Active) : Prop where
  created : s.Created conn
  home : loop = (s.conns conn).loop
  registered : (stage conn).registered = true
  inactive : (active.map Prod.fst).count conn = 0
  handles : (stage conn).Handles revents eventStage

theorem Inv.handled {revents : EventMask} {eventStage : EventStage}
    {closing : Option CloseStage} {active : List Active} (inv : Inv connName s stage)
    (control : (s.loops loop).control = .handleEvent conn revents eventStage closing active) :
    Handled s stage loop conn revents eventStage active := by
  have handling : ((s.view conn).loops loop).handling = some (revents, eventStage) := by
    show (s.loops loop).control.handling conn = _
    rw [control]
    simp [Control.handling]
  have large : firstConn ≤ conn := by
    apply (inv.loops loop).subject
    rw [control]
    rfl
  have created : s.Created conn := by
    apply inv.created large
    intro absent
    rw [(absent.away loop).handling] at handling
    cases handling
  have good := inv.good conn created
  have home : loop = (s.conns conn).loop := by
    by_contra elsewhere
    rw [(good.away loop elsewhere).handling] at handling
    cases handling
  subst home
  obtain ⟨registered, inactive, handles⟩ := good.home.handling revents eventStage handling
  refine ⟨created, rfl, registered, ?_, handles⟩
  have same : ((s.loops (s.conns conn).loop).control.active.map Prod.fst).count conn = 0 :=
    inactive
  rw [control] at same
  exact same

/-- The place inside `handleEvent` of a connection, or behind it. -/
theorem Inv.handleEvent_ok {revents : EventMask} {eventStage later : EventStage}
    {closing closingLater : Option CloseStage} {active : List Active}
    (inv : Inv connName s stage)
    (control : (s.loops loop).control = .handleEvent conn revents eventStage closing active) :
    LoopOk s.config loop { s.loops loop with
      control := .handleEvent conn revents later closingLater active } := by
  have ok := inv.loops loop
  apply ok.setControl
  · rw [control]
    exact List.Subset.refl _
  · rw [control]
    exact List.Subset.refl _
  · intro other same
    apply ok.subject other
    rw [control]
    exact same
  · intro other called rest
    simp

theorem alike_handleEvent {other : ChannelId} {revents : EventMask}
    {eventStage later : EventStage} {closing closingLater : Option CloseStage}
    {active : List Active} {old : Control} (different : other ≠ conn)
    (control : old = .handleEvent conn revents eventStage closing active) :
    (Control.handleEvent conn revents later closingLater active).Alike old other := by
  have notThis : some conn ≠ some other := fun same => different (Option.some.inj same).symm
  subst control
  exact Control.alike rfl rfl notThis notThis

/-- The test fell through and the next one follows. -/
theorem fallThrough_inv {revents : EventMask} {eventStage : EventStage}
    {active : List Active} (inv : Inv connName s stage)
    (control : (s.loops loop).control = .handleEvent conn revents eventStage none active)
    (later : EventStage) (handles : (stage conn).Handles revents later) :
    Inv connName (s.setControl loop (.handleEvent conn revents later none active)) stage := by
  have handled := inv.handled control
  apply inv.homeControl handled.created handled.home
  · rw [control]
    rfl
  · rw [control]
    simp [Control.closing]
  · intro mask eventStage same
    simp only [Control.handling, if_true, Option.some.injEq, Prod.mk.injEq] at same
    rw [← same.1, ← same.2]
    exact ⟨handled.registered, handled.inactive, handles⟩
  · show (active.map Prod.fst).count conn ≤ _
    rw [handled.inactive]
    exact Nat.zero_le _
  · intro other large different
    exact alike_handleEvent different control
  · exact inv.handleEvent_ok control

/-- The test found the connection closed by the peer. -/
theorem closed_inv {revents : EventMask} {eventStage : EventStage}
    {active : List Active} (inv : Inv connName s stage)
    (control : (s.loops loop).control = .handleEvent conn revents eventStage none active)
    (up : stage conn = .up) (later : EventStage) (handles : Stage.closing.Handles revents later) :
    ∃ closed, s.handleClose loop conn = .ok closed ∧
      Inv connName (closed.setControl loop
        (.handleEvent conn revents later (some .calling) active))
        (Function.update stage conn .closing) := by
  have handled := inv.handled control
  apply handleClose_inv inv handled.created up handled.home
  · rw [control]
    rfl
  · simp [Control.closing]
  · intro mask eventStage same
    simp only [Control.handling, if_true, Option.some.injEq, Prod.mk.injEq] at same
    rw [← same.1, ← same.2]
    exact handles
  · exact handled.inactive
  · intro other large different
    exact alike_handleEvent different control
  · exact inv.handleEvent_ok control

/-! ## Writing -/

/-- A functor that moves no connection. -/
theorem queueInLoop_inv (inv : Inv connName s stage) {functor : Functor}
    (other : ∀ call conn, functor ≠ Call.functor conn call)
    (large : ∀ conn, functor.conn = some conn → firstConn ≤ conn) :
    Inv connName (s.queueInLoop loop functor) stage := by
  apply inv.kept
  · apply moves_setLoop
    intro conn _ _
    have calls : ∀ call, [functor].count (Call.functor conn call) = 0 := by
      intro call
      apply List.count_eq_zero.mpr
      intro member
      exact other call conn (List.mem_singleton.mp member).symm
    unfold Loop.view
    dsimp only
    simp only [LoopView.mk.injEq, and_true]
    funext call
    rw [← List.append_assoc, List.count_append, calls call, Nat.add_zero]
  · exact loops_setLoop inv.loops ((inv.loops loop).queue large)

/-- A callback of the program with a pointer to the connection. -/
theorem queueCallback_inv (inv : Inv connName s stage) (large : firstConn ≤ conn)
    {functor : Functor} (callback : functor = .writeCompleteCallback conn ∨
      functor = .highWaterMarkCallback conn) : Inv connName (s.queueInLoop loop functor) stage := by
  apply queueInLoop_inv inv
  · intro call other
    rcases callback with same | same <;> rw [same] <;> cases call <;> simp [Call.functor]
  · intro other named
    rcases callback with same | same <;>
      · rw [same] at named
        cases named
        exact large

/-- A connection that is up asks for the writable event or stops asking. -/
theorem setInterest_inv (inv : Inv connName s stage) (created : s.Created conn)
    (up : stage conn = .up) (home : loop = (s.conns conn).loop) {interest : Channel.Interest}
    (reads : ∀ mask, EventMask.has mask Channel.kReadEvent = true →
      EventMask.has (interest.apply mask) Channel.kReadEvent = true) :
    ∃ next, s.setInterest loop conn interest = .ok next ∧ Inv connName next stage ∧
      next.config = s.config ∧ (next.loops loop).control = (s.loops loop).control := by
  subst home
  have good := inv.good conn created
  have atHome := good.home
  rw [up] at atHome
  have reading : EventMask.has
      ((s.loops (s.conns conn).loop).poller.object conn).events Channel.kReadEvent = true :=
    atHome.asks
  obtain ⟨poller, taken, pollerOk, own, standings⟩ :=
    inv.interest created (by rw [up]; rfl) rfl interest (by
      intro empty
      rw [empty] at reading
      exact absurd reading (by decide))
  have updated : (s.setLoop (s.conns conn).loop
      { s.loops (s.conns conn).loop with poller := poller }).loops (s.conns conn).loop =
      { s.loops (s.conns conn).loop with poller := poller } := by
    simp [System.setLoop]
  refine ⟨_, onChannel_ok rfl taken, ?_, rfl, by rw [updated]⟩
  rw [← Function.update_eq_self conn stage]
  refine inv.homeMoved created ?_ (loops_setLoop inv.loops (pollerOk _ (inv.loops _) rfl))
    (view_setLoop s _ _ conn) good.state rfl ?_ rfl Iff.rfl good.recorded id
  · apply moves_setLoop
    intro other large different
    unfold Loop.view
    dsimp only
    rw [standings other different]
  · rw [up]
    refine ⟨atHome.establish, atHome.destroy, atHome.closing, atHome.closed, atHome.handling,
      atHome.active, ?_, ?_, ?_⟩
    · intro other
      show (poller.standing conn).known other = true ↔ _
      rw [own]
      exact atHome.known other
    · show (poller.standing conn).fd = _
      rw [own]
      exact atHome.fd
    · show EventMask.has (poller.standing conn).events Channel.kReadEvent = true
      rw [own]
      exact reads _ reading

theorem reads_disableWriting (mask : EventMask)
    (reads : EventMask.has mask Channel.kReadEvent = true) :
    EventMask.has (Channel.Interest.disableWriting.apply mask) Channel.kReadEvent = true := by
  rw [← reads]
  exact EventMask.has_and_not_other _ _ _ (by decide)

theorem reads_enableWriting (mask : EventMask)
    (reads : EventMask.has mask Channel.kReadEvent = true) :
    EventMask.has (Channel.Interest.enableWriting.apply mask) Channel.kReadEvent = true := by
  rw [← reads]
  exact EventMask.has_or_other _ _ _ (by decide)

/-- Only a connection that is up waits for the writable event. -/
theorem Inv.up_of_isWriting (inv : Inv connName s stage) (created : s.Created conn)
    (registered : (stage conn).registered = true)
    (writing : (s.channel conn).isWriting = true) : stage conn = .up := by
  have asks := (inv.good conn created).home.asks
  have quiet : (s.channel conn).events ≠ Channel.kNoneEvent := by
    intro empty
    have none : (s.channel conn).isNoneEvent = true := by
      simp [Channel.isNoneEvent, empty]
    rw [Channel.not_isWriting_of_isNoneEvent none] at writing
    cases writing
  cases here : stage conn with
  | up => rfl
  | starting | gone =>
      rw [here] at registered
      cases registered
  | closing | removing | destroying =>
      rw [here] at asks
      exact absurd asks quiet

theorem handleWrite_inv (inv : Inv connName s stage) (created : s.Created conn)
    (registered : (stage conn).registered = true) (home : loop = (s.conns conn).loop)
    (drained : Bool) :
    ∃ next, s.handleWrite loop conn drained = .ok next ∧ Inv connName next stage ∧
      (next.loops loop).control = (s.loops loop).control := by
  unfold System.handleWrite
  by_cases writing : ((s.channel conn).isWriting && drained) = true
  · rw [if_pos writing]
    have up := inv.up_of_isWriting created registered (Bool.and_eq_true_iff.mp writing).1
    obtain ⟨idle, ran, idleInv, -, control⟩ :=
      setInterest_inv inv created up home reads_disableWriting
    rw [ran]
    cases s.config.writeCompleteCallback with
    | false => exact ⟨idle, rfl, idleInv, control⟩
    | true =>
        refine ⟨idle.queueInLoop loop (.writeCompleteCallback conn), rfl, ?_, ?_⟩
        · exact queueCallback_inv idleInv created.1 (.inl rfl)
        · rw [← control]
          simp [System.queueInLoop, System.setLoop]
  · rw [if_neg writing]
    exact ⟨s, rfl, inv, rfl⟩

/-- The last test is behind the thread. -/
theorem handleEvent_done_inv {revents : EventMask} {active : List Active}
    (inv : Inv connName s stage)
    (control : (s.loops loop).control = .handleEvent conn revents .done none active) :
    Inv connName (s.setControl loop (.nextChannel active)) stage := by
  have handled := inv.handled control
  have ok := inv.loops loop
  apply inv.homeControl handled.created handled.home
  · rw [control]
    rfl
  · rw [control]
    simp [Control.closing]
  · intro mask eventStage same
    cases same
  · show (active.map Prod.fst).count conn ≤ _
    rw [handled.inactive]
    exact Nat.zero_le _
  · intro other large different
    rw [control]
    refine Control.alike rfl rfl ?_ ?_
    · simp [Control.conn]
    · simpa [Control.conn] using Ne.symm different
  · apply ok.setControl
    · rw [control]
      exact List.Subset.refl _
    · rw [control]
      exact List.Subset.refl _
    · intro other same
      cases same
    · intro other called rest
      simp

/-- The connection is there for every test, and a hang-up or the end of the
stream finds it up. -/
theorem handleEvent_inv {revents : EventMask} {eventStage : EventStage}
    {active : List Active} (inv : Inv connName s stage)
    (control : (s.loops loop).control = .handleEvent conn revents eventStage none active)
    (answer : Answer) :
    ∃ next later, s.handleEvent loop conn revents eventStage active answer = .ok next ∧
      Inv connName next later := by
  have handled := inv.handled control
  have referenced := inv.referenced handled.created (registered_not_gone handled.registered)
  have handles := handled.handles
  unfold System.handleEvent
  rw [require_ok referenced]
  cases eventStage with
  | hangUp =>
      by_cases hangUp : (EventMask.has revents pollHup && !EventMask.has revents pollIn) = true
      · have unreadable : EventMask.has revents (pollIn ||| pollPri) = false := by
          rw [handles.2]
          simpa using (Bool.and_eq_true_iff.mp hangUp).2
        obtain ⟨closed, ran, next⟩ :=
          closed_inv inv control handles.1 .read ⟨handles.2, .inr unreadable⟩
        refine ⟨_, _, ?_, next⟩
        simp only [bind, Except.bind, if_pos hangUp, ran]
        rfl
      · refine ⟨_, stage, ?_, fallThrough_inv inv control .read ⟨handles.2, .inl handles.1⟩⟩
        simp only [bind, Except.bind, if_neg hangUp]
        rfl
  | read =>
      by_cases ended : (EventMask.has revents (pollIn ||| pollPri) && answer.received == 0) = true
      · have readable := (Bool.and_eq_true_iff.mp ended).1
        have up : stage conn = .up := by
          rcases handles.2 with up | unreadable
          · exact up
          · rw [readable] at unreadable
            cases unreadable
        obtain ⟨closed, ran, next⟩ := closed_inv inv control up .write trivial
        refine ⟨_, _, ?_, next⟩
        simp only [bind, Except.bind, if_pos ended, ran]
        rfl
      · refine ⟨_, stage, ?_, fallThrough_inv inv control .write trivial⟩
        simp only [bind, Except.bind, if_neg ended]
        rfl
  | write =>
      have written : ∃ next, (if EventMask.has revents pollOut then
          s.handleWrite loop conn answer.drained else .ok s) = .ok next ∧
          Inv connName next stage ∧ (next.loops loop).control = (s.loops loop).control := by
        split_ifs
        · exact handleWrite_inv inv handled.created handled.registered handled.home _
        · exact ⟨s, rfl, inv, rfl⟩
      obtain ⟨next, ran, nextInv, same⟩ := written
      refine ⟨_, stage, ?_, fallThrough_inv nextInv (same.trans control) .done trivial⟩
      simp only [bind, Except.bind, ran]
      rfl
  | done => exact ⟨_, stage, rfl, handleEvent_done_inv inv control⟩

end

end Msmuduo.ServerLoops
