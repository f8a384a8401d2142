import Msmuduo.TcpServerAccept

/-!
# Teardown over several loops

The invariant holds in every reachable state, whatever the loops, the kernel
and the program around the server do. What the server relies on when a
connection goes down follows from it.
-/

namespace Msmuduo.ServerLoops

open Msmuduo.Machine Msmuduo.PollPoller

set_option autoImplicit false

section

variable {Name : Type} {connName : ChannelId → Name} {s : System Name}
  {stage : ChannelId → Stage} {conn : ChannelId} {loop : LoopId}

/-! ## One piece of a loop thread -/

/-- `handleClose` is on the stack of the connection's own loop only. -/
theorem Inv.closing_home {closeStage : CloseStage} (inv : Inv connName s stage)
    (subject : (s.loops loop).control.conn = some conn)
    (closing : (s.loops loop).control.closing conn = some closeStage) :
    s.Created conn ∧ loop = (s.conns conn).loop := by
  have seen : ((s.view conn).loops loop).closing = some closeStage := closing
  have created : s.Created conn := by
    apply inv.created ((inv.loops loop).subject conn subject)
    intro absent
    rw [(absent.away loop).closing] at seen
    cases seen
  refine ⟨created, ?_⟩
  by_contra elsewhere
  rw [((inv.good conn created).away loop elsewhere).closing] at seen
  cases seen

theorem Inv.closing_stage (inv : Inv connName s stage)
    (subject : (s.loops loop).control.conn = some conn)
    (closing : (s.loops loop).control.closing conn = some .calling) : stage conn = .closing := by
  obtain ⟨created, home⟩ := inv.closing_home subject closing
  subst home
  exact (inv.good conn created).home.closing.mp closing

/-- The next active channel is an inner one and leaves nothing behind. -/
theorem skip_inv {channel : ChannelId} {revents : EventMask} {active : List Active}
    (inv : Inv connName s stage) (inner : channel < firstConn)
    (control : (s.loops loop).control = .nextChannel ((channel, revents) :: active)) :
    Inv connName (s.setControl loop (.nextChannel active)) stage := by
  apply leave_inv inv
  · intro other large
    rw [control]
    exact ⟨rfl, rfl, rfl, (count_inner inner revents active large).symm⟩
  · rw [control]
    exact List.subset_cons_self _ _
  · intro other none
    cases none
  · intro other called rest
    simp

/-- `handleEvent` of an active connection is entered while it is up. -/
theorem enterHandleEvent_inv {revents : EventMask} {active : List Active}
    (inv : Inv connName s stage) (large : firstConn ≤ conn)
    (control : (s.loops loop).control = .nextChannel ((conn, revents) :: active)) :
    Inv connName (s.setControl loop (.handleEvent conn revents .hangUp none active)) stage := by
  have count : ((s.view conn).loops loop).active = (active.map Prod.fst).count conn + 1 := by
    show ((s.loops loop).control.active.map Prod.fst).count conn = _
    rw [control]
    simp [Control.active]
  have created : s.Created conn := by
    apply inv.created large
    intro absent
    rw [(absent.away loop).active] at count
    cases count
  have good := inv.good conn created
  have home : loop = (s.conns conn).loop := by
    by_contra elsewhere
    rw [(good.away loop elsewhere).active] at count
    cases count
  have bound : ((s.view conn).loops loop).active ≤ if stage conn = .up then 1 else 0 := by
    rw [home]
    exact good.home.active
  rw [count] at bound
  have up : stage conn = .up := by
    by_contra down
    rw [if_neg down] at bound
    exact absurd bound (Nat.not_succ_le_zero _)
  rw [if_pos up] at bound
  have inactive : (active.map Prod.fst).count conn = 0 :=
    Nat.le_zero.mp (Nat.le_of_succ_le_succ bound)
  have calm : Calm revents := by
    apply (inv.loops loop).calm (conn, revents)
    rw [control]
    exact List.mem_cons_self
  apply inv.homeControl created home
  · rw [control]
    rfl
  · rw [control]
    simp [Control.closing]
  · intro mask eventStage same
    simp only [Control.handling, if_true, Option.some.injEq, Prod.mk.injEq] at same
    rw [← same.1, ← same.2, up]
    exact ⟨rfl, inactive, rfl, calm⟩
  · show (active.map Prod.fst).count conn ≤ _
    rw [inactive]
    exact Nat.zero_le _
  · intro other _ different
    rw [control]
    refine Control.alike rfl ?_ ?_ ?_
    · show (active.map Prod.fst).count other = _
      simp [Control.active, Ne.symm different]
    · simpa [Control.conn] using Ne.symm different
    · simp [Control.conn]
  · apply (inv.loops loop).setControl
    · rw [control]
      exact List.subset_cons_self _ _
    · rw [control]
      exact List.Subset.refl _
    · intro other subject
      cases subject
      exact large
    · intro other called rest
      simp

theorem handleChannel_inv [DecidableEq Name] {id : ChannelId} {revents : EventMask}
    {active : List Active} (inv : Inv connName s stage) (distinct : Function.Injective connName)
    (control : (s.loops loop).control = .nextChannel ((id, revents) :: active))
    (answer : Answer) :
    ∃ next later, s.handleChannel connName loop id revents active answer = .ok next ∧
      Inv connName next later := by
  unfold System.handleChannel
  split_ifs with wakeup accept readable
  · exact ⟨_, stage, rfl, skip_inv inv (by rw [wakeup]; decide) control⟩
  · subst accept
    have base : loop = baseLoop := by
      apply (inv.loops loop).accepts revents
      rw [control]
      exact List.mem_cons_self
    have inner : acceptChannel < firstConn := by decide
    unfold System.accept
    split
    · exact ⟨_, stage, rfl, skip_inv inv inner control⟩
    · split_ifs with open_
      · exact ⟨_, stage, rfl, skip_inv inv inner control⟩
      · exact newConnection_inv inv distinct base control open_
  · exact ⟨_, stage, rfl, skip_inv inv (by rw [accept]; decide) control⟩
  · refine ⟨_, stage, rfl, enterHandleEvent_inv inv ?_ control⟩
    unfold wakeupChannel at wakeup
    unfold acceptChannel at accept
    show 2 ≤ id
    rcases id with _ | _ | id
    · exact absurd rfl wakeup
    · exact absurd rfl accept
    · exact Nat.le_add_left 2 id

/-- A functor that moves no connection is called. -/
theorem otherTaken_inv {functor : Functor} {before called rest : List Functor}
    (inv : Inv connName s stage) (other : ∀ call conn, functor ≠ Call.functor conn call)
    (control : (s.loops loop).control = .nextFunctor before (functor :: rest)) :
    Inv connName (s.taken loop called rest) stage := by
  apply inv.kept
  · apply moves_setLoop
    intro conn _ _
    unfold Loop.view
    rw [control]
    simp only [LoopView.mk.injEq, Control.closing, Control.handling, Control.active, and_true]
    funext call
    simp only [Control.rest, List.cons_append]
    rw [List.count_cons_of_ne (other call conn)]
  · exact taken_ok inv control

theorem callFunctor_inv [DecidableEq Name] {functor : Functor} {before called rest : List Functor}
    (inv : Inv connName s stage) (distinct : Function.Injective connName)
    (control : (s.loops loop).control = .nextFunctor before (functor :: rest)) :
    ∃ next later, s.callFunctor connName loop functor called rest = .ok next ∧
      Inv connName next later := by
  cases functor with
  | connectEstablished conn => exact connectEstablished_inv inv control
  | removeConnectionInLoop conn => exact removeConnectionInLoop_inv inv distinct control
  | connectDestroyed conn =>
      obtain ⟨next, ran, nextInv⟩ := connectDestroyed_inv inv control
      exact ⟨next, _, ran, nextInv⟩
  | forceCloseInLoop conn => exact forceCloseInLoop_inv inv control
  | writeCompleteCallback conn | highWaterMarkCallback conn =>
      refine ⟨_, stage, rfl, otherTaken_inv inv ?_ control⟩
      intro call other
      cases call <;> simp [Call.functor]
  | task =>
      refine ⟨_, stage, rfl, otherTaken_inv inv ?_ control⟩
      intro call other
      cases call <;> simp [Call.functor]

/-- `closeCallback_` inside `handleEvent`. -/
theorem closeInHandler_inv [DecidableEq Name] {revents : EventMask} {eventStage : EventStage}
    {active : List Active} (inv : Inv connName s stage) (distinct : Function.Injective connName)
    (control : (s.loops loop).control =
      .handleEvent conn revents eventStage (some .calling) active) :
    ∃ next later, (s.setControl loop
        (.handleEvent conn revents eventStage (some .called) active)).removeConnection
          connName loop conn = .ok next ∧ Inv connName next later := by
  have subject : (s.loops loop).control.conn = some conn := by
    rw [control]
    rfl
  have closing : (s.loops loop).control.closing conn = some .calling := by
    rw [control]
    simp [Control.closing]
  obtain ⟨created, home⟩ := inv.closing_home subject closing
  apply removeConnection_inv inv distinct created (inv.closing_stage subject closing) home
  · rw [control]
    rfl
  · simp [Control.closing]
  · rw [control]
    simp [Control.handling]
  · rw [control]
    rfl
  · intro other _ different
    exact alike_handleEvent different control
  · exact inv.handleEvent_ok control

theorem returnInHandler_inv {revents : EventMask} {eventStage : EventStage}
    {active : List Active} (inv : Inv connName s stage)
    (control : (s.loops loop).control =
      .handleEvent conn revents eventStage (some .called) active) :
    Inv connName ((s.record (.handleCloseReturned conn)).setControl loop
      (.handleEvent conn revents eventStage none active)) stage := by
  have handled := inv.handled control
  apply returned_inv inv handled.created handled.home
  · rw [control]
    simp [Control.closing]
  · rw [control]
    rfl
  · simp [Control.closing]
  · rw [control]
    simp [Control.handling]
  · rw [control]
    rfl
  · intro other _ different
    exact alike_handleEvent different control
  · exact inv.handleEvent_ok control

/-- The place inside or behind `forceCloseInLoop`. -/
theorem Inv.forced_ok {closing : CloseStage} {called rest : List Functor}
    (inv : Inv connName s stage) (later : Control)
    (control : (s.loops loop).control = .forceCloseInLoop conn closing called rest)
    (sameRest : later.rest = rest) (inactive : later.active = [])
    (subject : ∀ other, later.conn = some other → other = conn)
    (destroyed : ∀ conn called rest, later ≠ .connectDestroyed conn called rest) :
    LoopOk s.config loop { s.loops loop with control := later } ∧
      ∀ other, firstConn ≤ other → other ≠ conn → later.Alike (s.loops loop).control other := by
  constructor
  · apply (inv.loops loop).setControl
    · rw [inactive]
      exact List.nil_subset _
    · rw [sameRest, control]
      exact List.Subset.refl _
    · intro other same
      rw [subject other same]
      apply (inv.loops loop).subject
      rw [control]
      rfl
    · exact destroyed
  · intro other _ different
    rw [control]
    refine Control.alike sameRest (by rw [inactive]; rfl) ?_ ?_
    · intro same
      exact different (subject other same)
    · simpa [Control.conn] using Ne.symm different

theorem closeInFunctor_inv [DecidableEq Name] {called rest : List Functor}
    (inv : Inv connName s stage) (distinct : Function.Injective connName)
    (control : (s.loops loop).control = .forceCloseInLoop conn .calling called rest) :
    ∃ next later, (s.setControl loop (.forceCloseInLoop conn .called called
        rest)).removeConnection connName loop conn = .ok next ∧ Inv connName next later := by
  have subject : (s.loops loop).control.conn = some conn := by
    rw [control]
    rfl
  have closing : (s.loops loop).control.closing conn = some .calling := by
    rw [control]
    simp [Control.closing]
  obtain ⟨created, home⟩ := inv.closing_home subject closing
  obtain ⟨ok, others⟩ := inv.forced_ok (.forceCloseInLoop conn .called called rest) control
    rfl rfl (by intro other same; cases same; rfl) (by simp)
  apply removeConnection_inv inv distinct created (inv.closing_stage subject closing) home
  · rw [control]
    rfl
  · simp [Control.closing]
  · rw [control]
    rfl
  · rw [control]
    rfl
  · exact others
  · exact ok

theorem returnInFunctor_inv {called rest : List Functor} (inv : Inv connName s stage)
    (control : (s.loops loop).control = .forceCloseInLoop conn .called called rest) :
    Inv connName ((s.record (.handleCloseReturned conn)).setControl loop
      (.nextFunctor called rest)) stage := by
  have subject : (s.loops loop).control.conn = some conn := by
    rw [control]
    rfl
  have closing : (s.loops loop).control.closing conn = some .called := by
    rw [control]
    simp [Control.closing]
  obtain ⟨created, home⟩ := inv.closing_home subject closing
  obtain ⟨ok, others⟩ := inv.forced_ok (.nextFunctor called rest) control rfl rfl
    (by intro other same; cases same) (by simp)
  apply returned_inv inv created home closing
  · rw [control]
    rfl
  · rfl
  · rw [control]
    rfl
  · rw [control]
    rfl
  · exact others
  · exact ok

/-- A loop goes on to a place that is like the one it is at. -/
theorem goesOn_inv (inv : Inv connName s stage) {before after : Control}
    (control : (s.loops loop).control = before) (alike : ∀ other, after.Alike before other)
    (active : after.active ⊆ before.active)
    (subject : ∀ conn, after.conn = some conn → before.conn = some conn)
    (destroyed : ∀ conn called rest, after ≠ .connectDestroyed conn called rest) :
    Inv connName (s.setControl loop after) stage := by
  subst control
  exact leave_inv inv (fun other _ => alike other) active subject destroyed

theorem advance_inv [DecidableEq Name] (inv : Inv connName s stage)
    (distinct : Function.Injective connName) (loop : LoopId) (answer : Answer) :
    ∃ next later, s.advance connName loop answer = .ok next ∧ Inv connName next later := by
  unfold System.advance
  split
  · next control =>
    obtain ⟨next, ran, nextInv⟩ := poll_inv inv control answer.revents
    exact ⟨next, stage, ran, nextInv⟩
  · next control => exact ⟨_, stage, rfl, swapFunctors_inv inv control⟩
  · next id revents active control => exact handleChannel_inv inv distinct control answer
  · next conn active control =>
    exact ⟨_, stage, rfl, goesOn_inv inv control (fun _ => ⟨rfl, rfl, rfl, rfl⟩)
      (List.Subset.refl _) (fun _ same => same) (by simp)⟩
  · next conn active control =>
    exact ⟨_, stage, rfl, goesOn_inv inv control (fun _ => ⟨rfl, rfl, rfl, rfl⟩)
      (List.Subset.refl _) (fun _ none => nomatch none) (by simp)⟩
  · next conn revents eventStage active control => exact handleEvent_inv inv control answer
  · next conn revents eventStage active control => exact closeInHandler_inv inv distinct control
  · next conn revents eventStage active control =>
    exact ⟨_, stage, rfl, returnInHandler_inv inv control⟩
  · next called control =>
    exact ⟨_, stage, rfl, goesOn_inv inv control (fun _ => ⟨rfl, rfl, rfl, rfl⟩)
      (List.nil_subset _) (fun _ none => nomatch none) (by simp)⟩
  · next called functor rest control => exact callFunctor_inv inv distinct control
  · next conn called rest control =>
    exact ⟨_, stage, rfl, goesOn_inv inv control (fun _ => ⟨rfl, rfl, rfl, rfl⟩)
      (List.nil_subset _) (fun _ none => nomatch none) (by simp)⟩
  · next conn called rest control => exact closeInFunctor_inv inv distinct control
  · next conn called rest control =>
    exact ⟨_, stage, rfl, returnInFunctor_inv inv control⟩
  · next conn called rest control =>
    exact absurd control ((inv.loops loop).destroyed conn called rest)

/-! ## Calls of the program -/

/-- `shutdown` and the first half of `forceClose`. -/
theorem setDisconnecting_inv (inv : Inv connName s stage) (created : s.Created conn)
    (up : stage conn = .up) : Inv connName (s.setState conn .kDisconnecting) stage := by
  have good := inv.good conn created
  rw [← Function.update_eq_self conn stage]
  apply inv.moved (moves_setState s conn .kDisconnecting) created.2 inv.loops
  · intro _
    rw [view_setState_self, up]
    rw [up] at good
    exact ⟨⟨rfl, good.listed, good.home, good.away, good.recorded⟩, good.remove⟩
  · exact id

/-- The second half: one more functor that closes the connection if it is open. -/
theorem queueForceClose_inv (inv : Inv connName s stage) (created : s.Created conn) :
    Inv connName (s.queueInLoop (s.conns conn).loop (.forceCloseInLoop conn)) stage := by
  have good := inv.good conn created
  rw [← Function.update_eq_self conn stage]
  exact inv.homeMoved created (moves_queueInLoop s (s.conns conn).loop conn .force)
    (loops_queueInLoop .force inv.loops created.1)
    (view_queueInLoop s (s.conns conn).loop conn .force) good.state rfl
    (good.home.queued (by decide) (by decide)) rfl Iff.rfl good.recorded id

theorem keepRemaining_inv (inv : Inv connName s stage) (created : s.Created conn)
    (up : stage conn = .up) (highWaterMark : Bool) :
    ∃ next, s.keepRemaining conn highWaterMark = .ok next ∧ Inv connName next stage := by
  have asks : ∀ {marked : System Name}, Inv connName marked stage → marked.Created conn →
      (s.conns conn).loop = (marked.conns conn).loop →
      ∃ next, marked.setInterest (s.conns conn).loop conn .enableWriting = .ok next ∧
        Inv connName next stage := by
    intro marked markedInv markedCreated home
    obtain ⟨next, ran, nextInv, -⟩ :=
      setInterest_inv markedInv markedCreated up home reads_enableWriting
    exact ⟨next, ran, nextInv⟩
  have queued : Inv connName
      (s.queueInLoop (s.conns conn).loop (.highWaterMarkCallback conn)) stage :=
    queueCallback_inv inv created.1 (.inr rfl)
  unfold System.keepRemaining
  dsimp only
  split_ifs
  · exact ⟨_, rfl, queued⟩
  · exact ⟨s, rfl, inv⟩
  · exact asks queued created rfl
  · exact asks inv created rfl

theorem call_inv (inv : Inv connName s stage) (created : s.Created conn) (userCall : UserCall) :
    ∃ next, s.call conn userCall = .ok next ∧ Inv connName next stage := by
  have up := (inv.good conn created).up_iff
  change (s.conns conn).state = .kConnected ∨ (s.conns conn).state = .kDisconnecting ↔ _ at up
  cases userCall with
  | forceClose =>
      unfold System.call
      dsimp only
      split_ifs with open_
      · have disconnecting := setDisconnecting_inv inv created (up.mp open_)
        have home : ((s.setState conn .kDisconnecting).conns conn).loop = (s.conns conn).loop := by
          simp [System.setState]
        have next := queueForceClose_inv disconnecting created
        rw [home] at next
        exact ⟨_, rfl, next⟩
      · exact ⟨s, rfl, inv⟩
  | shutdown =>
      unfold System.call
      dsimp only
      split_ifs with connected
      · exact ⟨_, rfl, setDisconnecting_inv inv created (up.mp (.inl connected))⟩
      · exact ⟨s, rfl, inv⟩
  | send remaining highWaterMark =>
      unfold System.call
      dsimp only
      split_ifs with connected left complete
      · exact keepRemaining_inv inv created (up.mp (.inl connected)) highWaterMark
      · exact ⟨_, rfl, queueCallback_inv inv created.1 (.inl rfl)⟩
      · exact ⟨s, rfl, inv⟩
      · exact ⟨s, rfl, inv⟩

/-- The references the program holds are nothing to the loops. -/
theorem held_inv (inv : Inv connName s stage) (held : ChannelId → Nat) :
    Inv connName { s with held := held } stage :=
  inv.kept ⟨rfl, rfl, rfl, fun _ => ⟨rfl, rfl⟩, List.Subset.refl _, fun _ _ _ => rfl⟩ inv.loops

/-! ## Whole runs -/

theorem step_inv [DecidableEq Name] (distinct : Function.Injective connName)
    (inv : Inv connName s stage) (event : Event) :
    ∃ next later, step connName s event = .ok next ∧ Inv connName next later := by
  cases event with
  | advance loop answer => exact advance_inv inv distinct loop answer
  | call conn userCall =>
      unfold step
      dsimp only
      split_ifs with alive
      · obtain ⟨next, ran, nextInv⟩ := call_inv inv alive.1 userCall
        exact ⟨next, stage, ran, nextInv⟩
      · exact ⟨s, stage, rfl, inv⟩
  | queueInLoop loop =>
      refine ⟨_, stage, rfl, queueInLoop_inv inv ?_ ?_⟩
      · intro call conn
        cases call <;> simp [Call.functor]
      · intro conn none
        cases none
  | hold conn =>
      unfold step
      dsimp only
      split_ifs
      · exact ⟨_, stage, rfl, held_inv inv _⟩
      · exact ⟨s, stage, rfl, inv⟩
  | release conn => exact ⟨_, stage, rfl, held_inv inv _⟩

end

/-! ## The start -/

theorem enableNew_tabled {p : Poller} (id : ChannelId) (tabled : Tabled p)
    (fresh : p.object id = Channel.new (p.object id).fd)
    (free : p.channels (p.object id).fd = none) :
    Tabled (enableNew p id) ∧
      (enableNew p id).channels = Function.update p.channels (p.object id).fd (some id) ∧
      ∀ other, other ≠ id → (enableNew p id).object other = p.object other := by
  have index : (p.object id).index < 0 := by
    rw [fresh]
    show (-1 : Int) < 0
    decide
  have events : (p.object id).events = Channel.kNoneEvent := by
    rw [fresh]
    rfl
  obtain ⟨next, taken, nextTabled, channels, -⟩ := tabled_interest_new tabled .enableReading index
    free (by rw [events]; decide)
  rw [step_interest_new .enableReading index free] at taken
  cases taken
  refine ⟨nextTabled, channels, ?_⟩
  intro other different
  unfold enableNew
  rw [added_object_other different]
  simp [Poller.setObject, different]

theorem initialPoller_ok (config : Config) (loop : LoopId) :
    Tabled (initialPoller config loop) ∧
      ∀ fd channel, (initialPoller config loop).channels fd = some channel →
        (channel = wakeupChannel ∧ fd = config.wakeupFd loop) ∨
          (channel = acceptChannel ∧ loop = baseLoop ∧ fd = config.listenFd) := by
  let start := Poller.new fun id =>
    if id = acceptChannel then config.listenFd else config.wakeupFd loop
  have tabled : Tabled start := ⟨new_indexed _, new_watches _⟩
  obtain ⟨wokenTabled, wokenChannels, wokenObject⟩ :=
    enableNew_tabled wakeupChannel tabled rfl rfl
  have wokenFd : (start.object wakeupChannel).fd = config.wakeupFd loop := rfl
  rw [wokenFd] at wokenChannels
  have acceptObject : (enableNew start wakeupChannel).object acceptChannel =
      Channel.new config.listenFd := wokenObject acceptChannel (by decide)
  unfold initialPoller
  dsimp only
  split_ifs with base
  · obtain ⟨bothTabled, bothChannels, -⟩ := enableNew_tabled acceptChannel wokenTabled
      (by rw [acceptObject]; rfl) (by
        rw [acceptObject, wokenChannels, base]
        show Function.update start.channels _ _ (config.listenFd : Int) = none
        rw [Function.update_of_ne]
        · rfl
        · exact_mod_cast config.listenFd_other)
    rw [acceptObject] at bothChannels
    refine ⟨bothTabled, ?_⟩
    intro fd channel known
    rw [bothChannels, wokenChannels, Function.update_apply, Function.update_apply] at known
    split_ifs at known with listen wakeup
    · cases known
      exact .inr ⟨rfl, base, listen⟩
    · cases known
      exact .inl ⟨rfl, wakeup⟩
    · cases known
  · refine ⟨wokenTabled, ?_⟩
    intro fd channel known
    rw [wokenChannels, Function.update_apply] at known
    split_ifs at known with wakeup
    · cases known
      exact .inl ⟨rfl, wakeup⟩
    · cases known

theorem new_inv {Name : Type} (connName : ChannelId → Name) (config : Config) :
    Inv connName (System.new Name config) fun _ => .starting := by
  have nobody : ∀ conn, ¬(System.new Name config).Created conn := by
    intro conn created
    exact absurd created.1 (Nat.not_le.mpr created.2)
  refine ⟨Nat.le_refl _, ?_, ?_, ?_, ?_, ?_, ?_, ?_⟩
  · exact Nat.eq_zero_or_pos _
  · intro loop
    obtain ⟨tabled, inner⟩ := initialPoller_ok config loop
    refine ⟨tabled, fun fd channel known _ => inner fd channel known, ?_, ?_, ?_, ?_, ?_⟩
    · intro revents member
      cases member
    · intro item member
      cases member
    · intro conn none
      cases none
    · intro functor member
      cases member
    · intro conn called rest
      simp [System.new]
  · intro conn created
    exact absurd created (nobody conn)
  · intro conn fresh
    refine ⟨rfl, ?_, fun _ => rfl, rfl⟩
    intro loop
    refine ⟨fun _ _ => rfl, rfl, rfl, rfl, ?_⟩
    intro fd
    show ((initialPoller config loop).channels fd == some conn) = false
    have unknown : (initialPoller config loop).channels fd ≠ some conn := by
      intro known
      have large : 2 ≤ conn := fresh
      rcases (initialPoller_ok config loop).2 fd conn known with ⟨inner, -⟩ | ⟨inner, -⟩
      · rw [inner] at large
        exact absurd large (by decide)
      · rw [inner] at large
        exact absurd large (by decide)
    simpa using unknown
  · exact ⟨fun conn created => absurd created (nobody conn),
      fun conn _ created => absurd created (nobody conn),
      fun conn created => absurd created (nobody conn)⟩
  · intro entry member
    cases member
  · intro entry member
    cases member

end Msmuduo.ServerLoops
