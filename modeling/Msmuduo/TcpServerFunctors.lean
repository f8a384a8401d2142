import Msmuduo.TcpServerRemoval

/-!
# Calling the functors

The pieces of a loop thread in `doPendingFunctors`. A functor that is called is
found in the loop it belongs to and in the stage it was queued for, so no
assertion fails; `connectDestroyed` finds the connection closed, `handleClose`
returned, and no handler on the stack.
-/

namespace Msmuduo.ServerLoops

open Msmuduo.Machine Msmuduo.PollPoller

set_option autoImplicit false

section

variable {Name : Type} {connName : ChannelId → Name} {s : System Name}
  {stage : ChannelId → Stage} {conn : ChannelId} {loop : LoopId} {called rest : List Functor}

/-! ## Taking a functor -/

/-- The functor is off the list and about to be called. -/
def System.taken (s : System Name) (loop : LoopId) (called rest : List Functor) : System Name :=
  s.setControl loop (.nextFunctor called rest)

theorem taken_ok {functor : Functor} {before : List Functor} (inv : Inv connName s stage)
    (control : (s.loops loop).control = .nextFunctor before (functor :: rest)) :
    ∀ other, LoopOk s.config other ((s.taken loop called rest).loops other) := by
  apply loops_setLoop inv.loops
  apply (inv.loops loop).setControl
  · exact List.nil_subset _
  · rw [control]
    exact List.subset_cons_self functor rest
  · intro other same
    cases same
  · intro other called rest
    simp

/-- A loop with another list of functors to be called. -/
def Loop.taken (value : Loop) (called rest : List Functor) : Loop :=
  { value with control := .nextFunctor called rest }

theorem taken_other {value : Loop} (call : Call) {before : List Functor} {other : ChannelId}
    (control : value.control = .nextFunctor before (call.functor conn :: rest))
    (different : other ≠ conn) : (value.taken called rest).view other = value.view other := by
  have skipped : ∀ kind : Call, call.functor conn ≠ kind.functor other := by
    intro kind same
    have sameConn := congrArg Functor.conn same
    rw [Call.functor_conn, Call.functor_conn] at sameConn
    exact different (Option.some.inj sameConn).symm
  unfold Loop.view Loop.taken
  rw [control]
  simp only [LoopView.mk.injEq, Control.closing, Control.handling, Control.active, and_true]
  funext kind
  simp only [Control.rest, List.cons_append]
  rw [List.count_cons_of_ne (skipped kind)]

theorem taken_moves (call : Call) {before : List Functor}
    (control : (s.loops loop).control = .nextFunctor before (call.functor conn :: rest)) :
    Moves s (s.taken loop called rest) conn :=
  moves_setLoop fun _ _ different => taken_other call control different

/-- The connection had one more call queued before. -/
theorem taken_queued {value : Loop} (call : Call) {before : List Functor}
    (control : value.control = .nextFunctor before (call.functor conn :: rest)) :
    value.view conn = ((value.taken called rest).view conn).queued call := by
  unfold Loop.view LoopView.queued Loop.taken
  rw [control]
  simp only [LoopView.mk.injEq, Control.closing, Control.handling, Control.active, and_true]
  funext kind
  simp only [Control.rest, List.cons_append]
  rw [List.count_cons]
  simp only [beq_iff_eq, Call.functor_injective]

theorem taken_loops (s : System Name) (loop : LoopId) (called rest : List Functor) :
    (s.taken loop called rest).loops loop = (s.loops loop).taken called rest := by
  simp [System.taken, System.setControl, System.setLoop, Loop.taken]

theorem taken_view (s : System Name) (loop : LoopId) (called rest : List Functor)
    (conn : ChannelId) : (s.taken loop called rest).view conn = { s.view conn with
      loops := Function.update (s.view conn).loops loop
        (((s.loops loop).taken called rest).view conn) } :=
  view_setLoop s loop _ conn

/-- A functor that is to be called belongs to a connection. -/
theorem Inv.created_of_call (call : Call) (inv : Inv connName s stage)
    (member : call.functor conn ∈ (s.loops loop).control.rest ++ (s.loops loop).pendingFunctors) :
    s.Created conn ∧ 0 < ((s.view conn).loops loop).calls call := by
  have positive : 0 < ((s.view conn).loops loop).calls call := List.count_pos_iff.mpr member
  refine ⟨?_, positive⟩
  apply inv.created
  · exact (inv.loops loop).functors _ member conn (Call.functor_conn conn call)
  · intro absent
    by_cases removal : call = .remove
    · rw [removal, absent.remove loop] at positive
      exact absurd positive (Nat.lt_irrefl 0)
    · rw [(absent.away loop).calls call removal] at positive
      exact absurd positive (Nat.lt_irrefl 0)

/-- It is found in the loop it belongs to. -/
theorem Good.home_of_call {view : View} {stage : Stage} {call : Call} (good : Good view stage)
    (notRemove : call ≠ .remove) (positive : 0 < (view.loops loop).calls call) :
    loop = view.conn.loop := by
  by_contra elsewhere
  rw [(good.away loop elsewhere).calls call notRemove] at positive
  exact absurd positive (Nat.lt_irrefl 0)

/-! ## `forceCloseInLoop` -/

theorem AtHome.of_queued {view : LoopView} {fd : Int} {stage : Stage} {call : Call}
    (home : AtHome (view.queued call) fd stage) (notEstablish : call ≠ .establish)
    (notDestroy : call ≠ .destroy) : AtHome view fd stage where
  establish := by
    rw [← home.establish]
    simp [LoopView.queued, notEstablish]
  destroy := by
    rw [← home.destroy]
    simp [LoopView.queued, notDestroy]
  closing := home.closing
  closed := home.closed
  handling := home.handling
  active := home.active
  known := home.known
  fd := home.fd
  asks := home.asks

theorem forceTaken_inv {before : List Functor} (inv : Inv connName s stage)
    (created : s.Created conn) (home : loop = (s.conns conn).loop)
    (control : (s.loops loop).control = .nextFunctor before (.forceCloseInLoop conn :: rest)) :
    Inv connName (s.taken loop called rest) stage := by
  subst home
  have good := inv.good conn created
  have atHome := good.home
  have recorded := good.recorded
  have queued : (s.view conn).loops (s.view conn).conn.loop =
      ((((s.loops (s.conns conn).loop).taken called rest).view conn)).queued .force :=
    taken_queued .force control
  rw [queued] at atHome recorded
  rw [← Function.update_eq_self conn stage]
  refine inv.homeMoved created (taken_moves .force control) (taken_ok inv control)
    (taken_view s _ called rest conn) good.state rfl
    (atHome.of_queued (by decide) (by decide)) ?_ Iff.rfl recorded id
  rw [show (s.view conn).loops (s.conns conn).loop = _ from queued]
  rfl

/-- The state tells whether the connection is up. -/
theorem Good.up_iff {view : View} {stage : Stage} (good : Good view stage) :
    (view.conn.state = .kConnected ∨ view.conn.state = .kDisconnecting) ↔ stage = .up := by
  have state := good.state
  cases stage <;> simp_all [Stage.admits]

theorem mem_first {functor : Functor} {before : List Functor} {value : Loop}
    (control : value.control = .nextFunctor before (functor :: rest)) :
    functor ∈ value.control.rest ++ value.pendingFunctors := by
  rw [control]
  exact List.mem_append_left _ List.mem_cons_self

theorem taken_control (s : System Name) (loop : LoopId) (called rest : List Functor) :
    ((s.taken loop called rest).loops loop).control = .nextFunctor called rest := by
  simp [System.taken, System.setControl, System.setLoop]

theorem forceCloseInLoop_inv [DecidableEq Name] {before : List Functor}
    (inv : Inv connName s stage)
    (control : (s.loops loop).control = .nextFunctor before (.forceCloseInLoop conn :: rest)) :
    ∃ next later, s.callFunctor connName loop (.forceCloseInLoop conn) called rest = .ok next ∧
      Inv connName next later := by
  obtain ⟨created, positive⟩ := Inv.created_of_call .force inv (mem_first control)
  have home : loop = (s.conns conn).loop :=
    (inv.good conn created).home_of_call (by decide) positive
  have taken : Inv connName (s.taken loop called rest) stage :=
    forceTaken_inv inv created home control
  have same := taken_control s loop called rest
  have called_ : s.callFunctor connName loop (.forceCloseInLoop conn) called rest =
      if (s.conns conn).state = .kConnected ∨ (s.conns conn).state = .kDisconnecting then
        (s.taken loop called rest).handleClose loop conn >>= fun closed =>
          .ok (closed.setControl loop (.forceCloseInLoop conn .calling called rest))
      else .ok (s.taken loop called rest) := by
    have thread : loop = ((s.setControl loop (.nextFunctor called rest)).conns conn).loop := home
    unfold System.callFunctor
    dsimp only
    rw [require_ok thread]
    rfl
  rw [called_]
  have up := (inv.good conn created).up_iff
  split_ifs with open_
  · have closing : ∃ closed, (s.taken loop called rest).handleClose loop conn = .ok closed ∧
        Inv connName (closed.setControl loop (.forceCloseInLoop conn .calling called rest))
          (Function.update stage conn .closing) := by
      apply handleClose_inv taken created (up.mp open_) home
      · rw [same]
        rfl
      · simp [Control.closing]
      · intro revents eventStage none
        cases none
      · rfl
      · intro other large different
        rw [same]
        refine Control.alike rfl rfl ?_ ?_
        · simpa [Control.conn] using Ne.symm different
        · simp [Control.conn]
      · apply (taken.loops loop).setControl
        · exact List.nil_subset _
        · rw [same]
          exact List.Subset.refl _
        · intro other subject
          cases subject
          exact created.1
        · intro other called rest
          simp
    obtain ⟨closed, ran, closedInv⟩ := closing
    refine ⟨_, _, ?_, closedInv⟩
    rw [ran]
    rfl
  · exact ⟨s.taken loop called rest, stage, rfl, taken⟩

/-! ## `removeConnectionInLoop` -/

theorem Away.of_queued {view : LoopView} (away : Away (view.queued .remove)) : Away view where
  calls := by
    intro call different
    have none := away.calls call different
    simp only [LoopView.queued] at none
    omega
  closing := away.closing
  handling := away.handling
  active := away.active
  known := away.known

/-- The base loop has the functor in hand. -/
theorem removeTaken_inHand {before : List Functor} (called : List Functor)
    (inv : Inv connName s stage) (created : s.Created conn) (removing : stage conn = .removing)
    (control : (s.loops baseLoop).control =
      .nextFunctor before (.removeConnectionInLoop conn :: rest)) :
    InHand ((s.taken baseLoop called rest).view conn) := by
  have good := inv.good conn created
  rw [removing] at good
  have queued : (s.view conn).loops baseLoop =
      (((s.loops baseLoop).taken called rest).view conn).queued .remove :=
    taken_queued .remove control
  rw [taken_view]
  refine ⟨good.toPlaced.setLoop ?_ ?_ ?_, ?_⟩
  · intro here
    have home := good.home
    rw [← here, queued] at home
    exact home.of_queued (by decide) (by decide)
  · intro elsewhere
    have away := good.away baseLoop elsewhere
    rw [queued] at away
    exact away.of_queued
  · rw [queued]
    rfl
  · intro other
    have calls := good.remove other
    dsimp only
    by_cases here : other = baseLoop
    · subst here
      rw [Function.update_self]
      rw [queued, if_pos ⟨rfl, rfl⟩] at calls
      simp only [LoopView.queued, if_true] at calls
      omega
    · rw [Function.update_of_ne here, calls, if_neg (fun both => here both.2)]

theorem removeConnectionInLoop_inv [DecidableEq Name] {before : List Functor}
    (inv : Inv connName s stage) (distinct : Function.Injective connName)
    (control : (s.loops loop).control =
      .nextFunctor before (.removeConnectionInLoop conn :: rest)) :
    ∃ next later,
      s.callFunctor connName loop (.removeConnectionInLoop conn) called rest = .ok next ∧
      Inv connName next later := by
  obtain ⟨created, positive⟩ := Inv.created_of_call .remove inv (mem_first control)
  have good := inv.good conn created
  have owed : stage conn = .removing ∧ loop = baseLoop := by
    by_contra none
    rw [good.remove loop, if_neg none] at positive
    exact absurd positive (Nat.lt_irrefl 0)
  obtain ⟨removing, base⟩ := owed
  subst base
  have inHand := removeTaken_inHand called inv created removing control
  obtain ⟨removed, ran, moves, loops, removedGood⟩ := inHand.removeConnectionInLoop inv.names
    distinct created.1 (taken_ok inv control)
  refine ⟨removed, _, ran, inv.moved ((taken_moves .remove control).trans moves) created.2 loops
    (fun _ => removedGood) ?_⟩
  simp [removing]

/-! ## `connectDestroyed` -/

theorem Recorded.gone {log : List Effect}
    (recorded : Recorded (historyOf log conn) .destroying loop none) :
    Recorded (historyOf (log ++ [.connectDestroyed conn loop]) conn) .gone loop none := by
  have own : (Effect.connectDestroyed conn loop).conn = conn := rfl
  rw [historyOf_own own]
  constructor
  · exact recorded.created
  · exact recorded.closes
  · exact recorded.returned
  · exact recorded.removals
  · intro other
    have none := recorded.destroyed other
    rw [if_neg (by simp)] at none
    simp [History.add, none]

/-- What is known of a connection whose `connectDestroyed` is called next. -/
structure Destroyable (s : System Name) (stage : ChannelId → Stage) (loop : LoopId)
    (conn : ChannelId) : Prop where
  created : s.Created conn
  destroying : stage conn = .destroying
  home : loop = (s.conns conn).loop
  returned : Recorded (historyOf s.log conn) .destroying loop none
  unhandled : ∀ other, (s.loops other).control.handling conn = none ∧
    (s.loops other).control.closing conn = none

theorem Inv.destroyable {before : List Functor} (inv : Inv connName s stage)
    (control : (s.loops loop).control = .nextFunctor before (.connectDestroyed conn :: rest)) :
    Destroyable s stage loop conn := by
  obtain ⟨created, positive⟩ := Inv.created_of_call .destroy inv (mem_first control)
  have good := inv.good conn created
  have home : loop = (s.conns conn).loop := good.home_of_call (by decide) positive
  subst home
  have destroying : stage conn = .destroying := by
    by_contra none
    have calls : ((s.view conn).loops (s.conns conn).loop).calls .destroy = _ := good.home.destroy
    rw [calls, if_neg none] at positive
    exact absurd positive (Nat.lt_irrefl 0)
  have recorded := good.recorded
  have idle : ((s.view conn).loops (s.view conn).conn.loop).closing = none := by
    show (s.loops (s.conns conn).loop).control.closing conn = none
    rw [control]
    rfl
  rw [idle, destroying] at recorded
  refine ⟨created, destroying, rfl, recorded, ?_⟩
  intro other
  by_cases here : other = (s.conns conn).loop
  · subst here
    rw [control]
    exact ⟨rfl, rfl⟩
  · have away := good.away other here
    exact ⟨away.handling, away.closing⟩

theorem AtHome.gone {view : LoopView} {fd : Int} {standing : Standing}
    (home : AtHome (view.queued .destroy) fd .destroying) (idle : view.closing = none)
    (free : view.handling = none) (unknown : standing.known = fun _ => false)
    (sameFd : standing.fd = fd) : AtHome { view with standing := standing } fd .gone where
  establish := by
    have none := home.establish
    simpa [LoopView.queued] using none
  destroy := by
    have one := home.destroy
    simp only [LoopView.queued, if_true] at one
    rw [if_neg (by decide)]
    dsimp only
    omega
  closing := by
    simp [idle]
  closed := by
    simp [idle]
  handling := by
    simp [free]
  active := home.active
  known := by
    intro other
    simp [unknown, Stage.registered]
  fd := sameFd
  asks := trivial

theorem connectDestroyed_ran [DecidableEq Name] {poller : Poller}
    (home : loop = (s.conns conn).loop) (down : (s.conns conn).state ≠ .kConnected)
    (removed : PollPoller.step (s.loops loop).poller (.remove conn) = .ok poller) :
    s.callFunctor connName loop (.connectDestroyed conn) called rest =
      .ok ((s.record (.connectDestroyed conn loop)).setLoop loop
        { (s.loops loop).taken called rest with poller := poller }) := by
  let entered := (s.taken loop called rest).record (.connectDestroyed conn loop)
  have loopAt : entered.loops loop = (s.loops loop).taken called rest :=
    taken_loops s loop called rest
  have thread : loop = ((s.setControl loop (.nextFunctor called rest)).conns conn).loop := home
  have idle : (entered.loops loop).control.eventHandling = false := by
    rw [loopAt]
    rfl
  have ran : PollPoller.step (entered.loops loop).poller (.remove conn) = .ok poller := by
    rw [loopAt]
    exact removed
  have final : entered.setLoop loop { entered.loops loop with poller := poller } =
      (s.record (.connectDestroyed conn loop)).setLoop loop
        { (s.loops loop).taken called rest with poller := poller } := by
    rw [loopAt]
    unfold entered System.taken System.setControl System.setLoop System.record
    dsimp only
    rw [Function.update_idem]
  unfold System.callFunctor
  dsimp only
  rw [require_ok thread]
  refine (if_neg down).trans ?_
  change entered.removeChannel loop conn = _
  unfold System.removeChannel
  rw [require_ok idle]
  refine (onChannel_ok (s := entered) home ran).trans ?_
  rw [final]

/-- `connectDestroyed` takes the channel out of the poll table. -/
theorem connectDestroyed_inv [DecidableEq Name] {before : List Functor}
    (inv : Inv connName s stage)
    (control : (s.loops loop).control = .nextFunctor before (.connectDestroyed conn :: rest)) :
    ∃ next, s.callFunctor connName loop (.connectDestroyed conn) called rest = .ok next ∧
      Inv connName next (Function.update stage conn .gone) := by
  obtain ⟨created, destroying, home, recorded, -⟩ := inv.destroyable control
  subst home
  have good := inv.good conn created
  have atHome := good.home
  have state := good.state
  rw [destroying] at atHome state
  have disconnected : (s.conns conn).state = .kDisconnected := of_decide_eq_true state
  have down : (s.conns conn).state ≠ .kConnected := by
    rw [disconnected]
    decide
  obtain ⟨poller, removed, tabled, channels, unknown, sameFd, standings⟩ :=
    tabled_remove (inv.loops _).tabled (inv.registered created (by rw [destroying]; rfl) rfl)
      atHome.asks
  have ok : LoopOk s.config (s.conns conn).loop
      { (s.loops (s.conns conn).loop).taken called rest with poller := poller } := by
    have takenOk : LoopOk s.config (s.conns conn).loop
        ((s.taken (s.conns conn).loop called rest).loops (s.conns conn).loop) :=
      taken_ok inv control (s.conns conn).loop
    rw [taken_loops] at takenOk
    apply takenOk.setPoller tabled
    intro fd channel _ known
    rw [channels, Function.update_apply] at known
    split_ifs at known
    exact known
  have queued : (s.view conn).loops (s.view conn).conn.loop =
      (((s.loops (s.conns conn).loop).taken called rest).view conn).queued .destroy :=
    taken_queued .destroy control
  rw [queued] at atHome
  refine ⟨_, connectDestroyed_ran rfl down removed, ?_⟩
  refine inv.homeMoved created ?_ (loops_setLoop (s := s.record _) inv.loops ok)
    (view_setLoop _ _ _ conn) state (by rw [destroying]; rfl)
    (atHome.gone rfl rfl unknown (sameFd.trans good.home.fd)) ?_ (by simp [destroying])
    recorded.gone (by simp)
  · apply (moves_record s (.connectDestroyed conn (s.conns conn).loop)).trans
    apply moves_setLoop
    intro other large different
    have same : ((s.loops (s.conns conn).loop).taken called rest).view other =
        (s.loops (s.conns conn).loop).view other := taken_other .destroy control different
    have standing := standings other different
    calc ({ (s.loops (s.conns conn).loop).taken called rest with poller := poller } : Loop).view other
        = { ((s.loops (s.conns conn).loop).taken called rest).view other with
            standing := poller.standing other } := rfl
      _ = (s.loops (s.conns conn).loop).view other := by
          rw [same, standing]
          rfl
  · rw [show (s.view conn).loops (s.conns conn).loop = _ from queued]
    rfl

end

end Msmuduo.ServerLoops
