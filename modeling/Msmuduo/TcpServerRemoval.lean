import Msmuduo.TcpServerHandlers

/-!
# From `handleClose` to `connectDestroyed`

The pieces in which a connection changes hands: `closeCallback_`, which takes it
out of the map or queues that in the base loop, the functor that does so there,
and the functor that destroys it in its own loop. Between two of them the
connection is in the hands of a thread.
-/

namespace Msmuduo.ServerLoops

open Msmuduo.Machine Msmuduo.PollPoller

set_option autoImplicit false

/-! ## Queueing for a connection -/

/-- One more call of the given kind. -/
def LoopView.queued (view : LoopView) (call : Call) : LoopView :=
  { view with calls := fun other => view.calls other + if call = other then 1 else 0 }

theorem Call.functor_injective {conn : ChannelId} {first second : Call} :
    first.functor conn = second.functor conn ↔ first = second := by
  cases first <;> cases second <;> simp [Call.functor]

section

variable {Name : Type} {connName : ChannelId → Name} {s : System Name}
  {stage : ChannelId → Stage} {conn : ChannelId} {loop : LoopId}

theorem view_queueInLoop (s : System Name) (loop : LoopId) (conn : ChannelId) (call : Call) :
    (s.queueInLoop loop (call.functor conn)).view conn = { s.view conn with
      loops := Function.update (s.view conn).loops loop
        (((s.view conn).loops loop).queued call) } := by
  have queued : ({ s.loops loop with
      pendingFunctors := (s.loops loop).pendingFunctors ++ [call.functor conn] } : Loop).view conn =
        ((s.view conn).loops loop).queued call := by
    unfold Loop.view LoopView.queued
    dsimp only
    simp only [LoopView.mk.injEq]
    refine ⟨?_, rfl, rfl, rfl, rfl⟩
    funext other
    rw [← List.append_assoc, List.count_append, List.count_singleton]
    simp only [beq_iff_eq, Call.functor_injective]
    rfl
  unfold System.queueInLoop
  rw [view_setLoop, queued]

theorem Call.functor_conn (conn : ChannelId) (call : Call) :
    (call.functor conn).conn = some conn := by
  cases call <;> rfl

theorem moves_queueInLoop (s : System Name) (loop : LoopId) (conn : ChannelId) (call : Call) :
    Moves s (s.queueInLoop loop (call.functor conn)) conn := by
  apply moves_setLoop
  intro other large different
  have none : ∀ kind : Call, [call.functor conn].count (kind.functor other) = 0 := by
    intro kind
    apply List.count_eq_zero.mpr
    intro member
    have same := congrArg Functor.conn (List.mem_singleton.mp member)
    rw [Call.functor_conn, Call.functor_conn] at same
    exact different (Option.some.inj same)
  unfold Loop.view
  dsimp only
  simp only [LoopView.mk.injEq, and_true]
  funext kind
  rw [← List.append_assoc, List.count_append, none kind, Nat.add_zero]

theorem loops_queueInLoop (call : Call) (ok : ∀ other, LoopOk s.config other (s.loops other))
    (large : firstConn ≤ conn) :
    ∀ other, LoopOk s.config other ((s.queueInLoop loop (call.functor conn)).loops other) := by
  apply loops_setLoop ok
  apply (ok loop).queue
  intro other same
  rw [Call.functor_conn] at same
  cases same
  exact large

theorem Away.queued {view : LoopView} (away : Away view) : Away (view.queued .remove) where
  calls := by
    intro call different
    unfold LoopView.queued
    dsimp only
    rw [if_neg (Ne.symm different), Nat.add_zero]
    exact away.calls call different
  closing := away.closing
  handling := away.handling
  active := away.active
  known := away.known

theorem AtHome.queued {view : LoopView} {fd : Int} {stage : Stage} {call : Call}
    (home : AtHome view fd stage) (notEstablish : call ≠ .establish)
    (notDestroy : call ≠ .destroy) : AtHome (view.queued call) fd stage where
  establish := by
    unfold LoopView.queued
    dsimp only
    rw [if_neg notEstablish, Nat.add_zero]
    exact home.establish
  destroy := by
    unfold LoopView.queued
    dsimp only
    rw [if_neg notDestroy, Nat.add_zero]
    exact home.destroy
  closing := home.closing
  closed := home.closed
  handling := home.handling
  active := home.active
  known := home.known
  fd := home.fd
  asks := home.asks

/-! ## In the hands of a thread -/

/-- The thread has left `handleClose` behind or holds the functor that takes the
connection out of the map. -/
structure InHand (view : View) : Prop where
  placed : Placed view .removing
  remove : ∀ loop, (view.loops loop).calls .remove = 0

/-- Another view of one loop, be it the connection's own or not. -/
theorem Placed.setLoop {view : View} {stage : Stage} {value : LoopView}
    (placed : Placed view stage)
    (home : loop = view.conn.loop → AtHome value view.conn.fd stage)
    (away : loop ≠ view.conn.loop → Away value)
    (closing : value.closing = (view.loops loop).closing) :
    Placed { view with loops := Function.update view.loops loop value } stage := by
  refine ⟨placed.state, placed.listed, ?_, ?_, ?_⟩
  · dsimp only
    by_cases here : view.conn.loop = loop
    · rw [here, Function.update_self]
      exact home here.symm
    · rw [Function.update_of_ne here]
      exact placed.home
  · intro other elsewhere
    dsimp only
    by_cases here : other = loop
    · subst here
      rw [Function.update_self]
      exact away elsewhere
    · rw [Function.update_of_ne here]
      exact placed.away other elsewhere
  · have same : (Function.update view.loops loop value view.conn.loop).closing =
        (view.loops view.conn.loop).closing := by
      by_cases here : view.conn.loop = loop
      · rw [here, Function.update_self]
        exact closing
      · rw [Function.update_of_ne here]
    dsimp only
    rw [same]
    exact placed.recorded

/-- `removeConnection` in an io loop. -/
theorem InHand.queueRemove (inHand : InHand (s.view conn)) :
    Good ((s.queueInLoop baseLoop (.removeConnectionInLoop conn)).view conn) .removing := by
  have placed := inHand.placed
  have viewed := view_queueInLoop s baseLoop conn .remove
  change (s.queueInLoop baseLoop (.removeConnectionInLoop conn)).view conn = _ at viewed
  rw [viewed]
  refine ⟨placed.setLoop ?_ ?_ rfl, ?_⟩
  · intro here
    have home := placed.home
    rw [← here] at home
    exact home.queued (by decide) (by decide)
  · intro elsewhere
    exact (placed.away baseLoop elsewhere).queued
  · intro other
    dsimp only
    by_cases here : other = baseLoop
    · subst here
      rw [Function.update_self]
      simp [LoopView.queued, inHand.remove]
    · rw [Function.update_of_ne here, inHand.remove]
      simp [here]

theorem Recorded.removed {log : List Effect} {closing : Option CloseStage}
    (recorded : Recorded (historyOf log conn) .removing loop closing) :
    Recorded (historyOf (log ++ [.removeConnectionInLoop conn]) conn) .destroying loop closing := by
  have own : (Effect.removeConnectionInLoop conn).conn = conn := rfl
  rw [historyOf_own own]
  constructor
  · exact recorded.created
  · exact recorded.closes
  · exact recorded.returned
  · exact congrArg (· + 1) recorded.removals
  · exact recorded.destroyed

/-- Only a connection that is up can be found closed by its handler. -/
theorem Stage.Handles.other {stage later : Stage} {revents : EventMask}
    {eventStage : EventStage} (handles : stage.Handles revents eventStage)
    (down : stage ≠ .up) : later.Handles revents eventStage := by
  cases eventStage with
  | hangUp => exact absurd handles.1 down
  | read => exact ⟨handles.1, .inr (handles.2.resolve_left down)⟩
  | write => trivial
  | done => trivial

theorem AtHome.destroying {view : LoopView} {fd : Int} (home : AtHome view fd .removing) :
    AtHome (view.queued .destroy) fd .destroying where
  establish := by
    unfold LoopView.queued
    dsimp only
    rw [if_neg (by decide), Nat.add_zero]
    exact home.establish
  destroy := by
    unfold LoopView.queued
    dsimp only
    rw [home.destroy]
    rfl
  closing := by
    show view.closing = some .calling ↔ _
    rw [home.closing]
    decide
  closed := fun _ => .inr rfl
  handling := by
    intro revents eventStage handled
    obtain ⟨-, inactive, handles⟩ := home.handling revents eventStage handled
    exact ⟨rfl, inactive, handles.other (by decide)⟩
  active := home.active
  known := home.known
  fd := home.fd
  asks := home.asks

/-! ## The map -/

theorem name_iff (names : ∀ entry ∈ s.connections, entry.1 = connName entry.2)
    (distinct : Function.Injective connName) :
    ∀ entry ∈ s.connections, entry.1 = connName conn ↔ entry.2 = conn := by
  intro entry member
  rw [names entry member]
  exact distinct.eq_iff

section

variable [DecidableEq Name]

/-- The map without the name of a connection. -/
def System.erased (s : System Name) (connName : ChannelId → Name) (conn : ChannelId) :
    System Name :=
  { s with connections := s.connections.filter fun entry => entry.1 ≠ connName conn }

/-- With distinct names the map is erased by name as if by connection. -/
theorem length_named (names : ∀ entry ∈ s.connections, entry.1 = connName entry.2)
    (distinct : Function.Injective connName) :
    (s.connections.filter fun entry => entry.1 = connName conn).length =
      (s.view conn).listed := by
  show _ = (s.connections.map Prod.snd).count conn
  rw [List.count_eq_countP, List.countP_map, List.countP_eq_length_filter]
  congr 1
  apply List.filter_congr
  intro entry member
  rw [Bool.eq_iff_iff]
  simpa using name_iff names distinct entry member

theorem erased_listed (names : ∀ entry ∈ s.connections, entry.1 = connName entry.2)
    (distinct : Function.Injective connName) :
    ((s.erased connName conn).view conn).listed = 0 := by
  apply List.count_eq_zero.mpr
  intro member
  obtain ⟨entry, kept, same⟩ := List.mem_map.mp member
  obtain ⟨listed, other⟩ := List.mem_filter.mp kept
  have named := (name_iff names distinct entry listed).mpr same
  simp [named] at other

theorem erased_moves (names : ∀ entry ∈ s.connections, entry.1 = connName entry.2)
    (distinct : Function.Injective connName) : Moves s (s.erased connName conn) conn where
  config := rfl
  pool := rfl
  nextConn := rfl
  conns := fun _ => ⟨rfl, rfl⟩
  connections := List.filter_subset_self _
  views := by
    intro other large different
    unfold System.view System.erased
    simp only [View.mk.injEq, true_and, and_true]
    rw [List.count_eq_countP, List.countP_map, List.count_eq_countP, List.countP_map,
      List.countP_filter]
    apply List.countP_congr
    intro entry member
    have named : entry.1 = connName conn ↔ entry.2 = conn :=
      name_iff names distinct entry member
    simp only [Function.comp, beq_iff_eq, decide_not, Bool.not_eq_eq_eq_not, Bool.not_true,
      decide_eq_false_iff_not, Bool.and_eq_true, named]
    constructor
    · intro both
      exact both.1
    · intro same
      refine ⟨same, ?_⟩
      rw [same]
      exact different

/-- The removal goes through, `assert(n == 1)` included, and leaves the
connection to its own loop. -/
theorem InHand.removeConnectionInLoop (inHand : InHand (s.view conn))
    (names : ∀ entry ∈ s.connections, entry.1 = connName entry.2)
    (distinct : Function.Injective connName) (large : firstConn ≤ conn)
    (ok : ∀ other, LoopOk s.config other (s.loops other)) :
    ∃ removed, s.removeConnectionInLoop connName baseLoop conn = .ok removed ∧
      Moves s removed conn ∧ (∀ other, LoopOk s.config other (removed.loops other)) ∧
      Good (removed.view conn) .destroying := by
  have placed := inHand.placed
  have one : (s.connections.filter fun entry => entry.1 = connName conn).length = 1 := by
    rw [length_named names distinct]
    exact placed.listed
  have queued := view_queueInLoop (s.erased connName conn) (s.conns conn).loop conn .destroy
  refine ⟨((s.erased connName conn).queueInLoop (s.conns conn).loop
    (.connectDestroyed conn)).record (.removeConnectionInLoop conn), ?_, ?_, ?_, ?_⟩
  · unfold System.removeConnectionInLoop
    rw [require_ok rfl, require_ok one]
    rfl
  · apply ((erased_moves names distinct).trans
      (moves_queueInLoop (s.erased connName conn) (s.conns conn).loop conn .destroy)).trans
    exact moves_record _ (.removeConnectionInLoop conn)
  · exact loops_queueInLoop (s := s.erased connName conn) .destroy ok large
  · have viewed : (((s.erased connName conn).queueInLoop (s.conns conn).loop
        (.connectDestroyed conn)).record (.removeConnectionInLoop conn)).view conn =
        ⟨s.conns conn, 0, Function.update (s.view conn).loops (s.conns conn).loop
          (((s.view conn).loops (s.conns conn).loop).queued .destroy),
          historyOf (s.log ++ [.removeConnectionInLoop conn]) conn⟩ := by
      apply View.ext
      · rfl
      · exact erased_listed names distinct
      · have loops := congrArg View.loops queued
        exact loops
      · rfl
    rw [viewed]
    refine ⟨⟨placed.state, rfl, ?_, ?_, ?_⟩, ?_⟩
    · dsimp only
      rw [Function.update_self]
      exact placed.home.destroying
    · intro other elsewhere
      dsimp only
      rw [Function.update_of_ne elsewhere]
      exact placed.away other elsewhere
    · dsimp only
      rw [Function.update_self]
      exact placed.recorded.removed
    · intro other
      dsimp only
      rw [if_neg (by simp)]
      by_cases here : other = (s.conns conn).loop
      · subst here
        rw [Function.update_self]
        exact inHand.remove _
      · rw [Function.update_of_ne here]
        exact inHand.remove other

end

/-! ## Leaving `handleClose` -/

theorem Recorded.removing {history : History}
    (recorded : Recorded history .closing loop (some .calling)) :
    Recorded history .removing loop (some .called) where
  created := recorded.created
  closes := recorded.closes
  returned := by
    intro _
    right
    simp
  removals := recorded.removals
  destroyed := recorded.destroyed

/-- The connection is in hand once the thread is about to call
`closeCallback_`. -/
theorem Inv.inHand (inv : Inv connName s stage) (created : s.Created conn)
    (closing : stage conn = .closing) (home : loop = (s.conns conn).loop) {control : Control}
    (rest : control.rest = (s.loops loop).control.rest)
    (called : control.closing conn = some .called)
    (handling : control.handling conn = (s.loops loop).control.handling conn)
    (active : (control.active.map Prod.fst).count conn =
      ((s.loops loop).control.active.map Prod.fst).count conn) :
    InHand ((s.setControl loop control).view conn) := by
  subst home
  have good := inv.good conn created
  have atHome := good.home
  have recorded := good.recorded
  have state := good.state
  have listed := good.listed
  have remove := good.remove
  rw [closing] at atHome recorded state listed remove
  have value : ({ s.loops (s.conns conn).loop with control := control } : Loop).view conn =
      { (s.view conn).loops (s.conns conn).loop with closing := some .called } := by
    unfold Loop.view
    dsimp only
    rw [rest, called, handling, active]
    rfl
  have viewed : (s.setControl (s.conns conn).loop control).view conn = { s.view conn with
      loops := Function.update (s.view conn).loops (s.conns conn).loop
        { (s.view conn).loops (s.conns conn).loop with closing := some .called } } := by
    unfold System.setControl
    rw [view_setLoop, value]
  rw [viewed]
  refine ⟨⟨state, listed, ?_, ?_, ?_⟩, ?_⟩
  · have updated : Function.update (s.view conn).loops (s.conns conn).loop
        { (s.view conn).loops (s.conns conn).loop with closing := some .called }
          (s.view conn).conn.loop =
        { (s.view conn).loops (s.conns conn).loop with closing := some .called } :=
      Function.update_self _ _ _
    dsimp only
    rw [updated]
    refine ⟨atHome.establish, atHome.destroy, ?_, fun _ => .inl rfl, ?_, atHome.active,
      atHome.known, atHome.fd, atHome.asks⟩
    · simp
    · intro revents eventStage handled
      obtain ⟨-, inactive, handles⟩ := atHome.handling revents eventStage handled
      exact ⟨rfl, inactive, handles.other (by decide)⟩
  · intro other elsewhere
    have unchanged : Function.update (s.view conn).loops (s.conns conn).loop
        { (s.view conn).loops (s.conns conn).loop with closing := some .called } other =
        (s.view conn).loops other := Function.update_of_ne elsewhere _ _
    dsimp only
    rw [unchanged]
    exact good.away other elsewhere
  · have updated : (Function.update (s.view conn).loops (s.conns conn).loop
        { (s.view conn).loops (s.conns conn).loop with closing := some .called }
          (s.view conn).conn.loop).closing = some .called := by
      rw [show (s.view conn).conn.loop = (s.conns conn).loop from rfl, Function.update_self]
    dsimp only
    rw [updated]
    rw [atHome.closing.mpr rfl] at recorded
    exact recorded.removing
  · intro other
    have none : ((s.view conn).loops other).calls .remove = 0 := by
      rw [remove other, if_neg (by simp)]
    dsimp only
    by_cases here : other = (s.conns conn).loop
    · subst here
      rw [Function.update_self]
      exact none
    · rw [Function.update_of_ne here]
      exact none

/-- `closeCallback_` on a connection in `handleClose`: from its own loop the
removal is queued in the base loop, and the base loop makes it at once. -/
theorem removeConnection_inv [DecidableEq Name] (inv : Inv connName s stage)
    (distinct : Function.Injective connName) (created : s.Created conn)
    (closing : stage conn = .closing) (home : loop = (s.conns conn).loop) {control : Control}
    (rest : control.rest = (s.loops loop).control.rest)
    (called : control.closing conn = some .called)
    (handling : control.handling conn = (s.loops loop).control.handling conn)
    (active : (control.active.map Prod.fst).count conn =
      ((s.loops loop).control.active.map Prod.fst).count conn)
    (others : ∀ other, firstConn ≤ other → other ≠ conn →
      control.Alike (s.loops loop).control other)
    (ok : LoopOk s.config loop { s.loops loop with control := control }) :
    ∃ next later, (s.setControl loop control).removeConnection connName loop conn = .ok next ∧
      Inv connName next later := by
  have inHand := inv.inHand created closing home rest called handling active
  have moves : Moves s (s.setControl loop control) conn :=
    moves_setLoop fun other large different => (others other large different).view
  have loops : ∀ other, LoopOk s.config other ((s.setControl loop control).loops other) :=
    loops_setLoop inv.loops ok
  unfold System.removeConnection
  split_ifs with base
  · subst base
    obtain ⟨removed, ran, removedMoves, removedLoops, good⟩ :=
      inHand.removeConnectionInLoop inv.names distinct created.1 loops
    exact ⟨removed, _, ran, inv.moved (moves.trans removedMoves) created.2 removedLoops
      (fun _ => good) (by simp [closing])⟩
  · refine ⟨_, _, rfl, inv.moved (moves.trans (moves_queueInLoop _ baseLoop conn .remove)) created.2
      (loops_queueInLoop (s := s.setControl loop control) .remove loops created.1)
      (fun _ => inHand.queueRemove) (by simp [closing])⟩

theorem Recorded.returns {log : List Effect} {stage : Stage} {closing : Option CloseStage}
    (recorded : Recorded (historyOf log conn) stage loop closing) :
    Recorded (historyOf (log ++ [.handleCloseReturned conn]) conn) stage loop none := by
  have own : (Effect.handleCloseReturned conn).conn = conn := rfl
  rw [historyOf_own own]
  constructor
  · exact recorded.created
  · exact recorded.closes
  · intro _
    left
    exact Nat.succ_pos _
  · exact recorded.removals
  · exact recorded.destroyed

/-- `handleClose` returns. -/
theorem returned_inv (inv : Inv connName s stage) (created : s.Created conn)
    (home : loop = (s.conns conn).loop)
    (called : (s.loops loop).control.closing conn = some .called) {control : Control}
    (rest : control.rest = (s.loops loop).control.rest)
    (closing : control.closing conn = none)
    (handling : control.handling conn = (s.loops loop).control.handling conn)
    (active : (control.active.map Prod.fst).count conn =
      ((s.loops loop).control.active.map Prod.fst).count conn)
    (others : ∀ other, firstConn ≤ other → other ≠ conn →
      control.Alike (s.loops loop).control other)
    (ok : LoopOk s.config loop { s.loops loop with control := control }) :
    Inv connName ((s.record (.handleCloseReturned conn)).setControl loop control) stage := by
  subst home
  have good := inv.good conn created
  have atHome := good.home
  have value : ({ s.loops (s.conns conn).loop with control := control } : Loop).view conn =
      { (s.view conn).loops (s.conns conn).loop with closing := none } := by
    unfold Loop.view
    dsimp only
    rw [rest, closing, handling, active]
    rfl
  have viewed : ((s.record (.handleCloseReturned conn)).setControl (s.conns conn).loop
      control).view conn = ⟨s.conns conn, (s.view conn).listed,
        Function.update (s.view conn).loops (s.conns conn).loop
          { (s.view conn).loops (s.conns conn).loop with closing := none },
        historyOf (s.log ++ [.handleCloseReturned conn]) conn⟩ := by
    rw [← value]
    exact view_setLoop _ _ _ conn
  have down : stage conn ≠ .closing := by
    intro here
    have calling := atHome.closing.mpr here
    change (s.loops (s.conns conn).loop).control.closing conn = _ at calling
    rw [called] at calling
    cases calling
  rw [← Function.update_eq_self conn stage]
  refine inv.homeMoved created ?_ (loops_setLoop (s := s.record _) inv.loops ok) viewed good.state
    rfl ?_ rfl Iff.rfl good.recorded.returns id
  · apply (moves_record s (.handleCloseReturned conn)).trans
    exact moves_setLoop fun other large different => (others other large different).view
  · refine ⟨atHome.establish, atHome.destroy, ?_, ?_, atHome.handling, atHome.active,
      atHome.known, atHome.fd, atHome.asks⟩
    · simpa using down
    · intro impossible
      cases impossible

end

end Msmuduo.ServerLoops
