import Msmuduo.TcpServerFunctors

/-!
# Accepting and establishing

A new connection gets a descriptor that is not open, so no poll table has it
when the channel is added, whoever had the descriptor before. The connection is
established at once in the base loop and through a functor in an io loop.
-/

namespace Msmuduo.ServerLoops

open Msmuduo.Machine Msmuduo.PollPoller

set_option autoImplicit false

section

variable {Name : Type} {connName : ChannelId → Name} {s : System Name}
  {stage : ChannelId → Stage} {conn : ChannelId} {loop : LoopId}

/-! ## Establishing -/

/-- A connection whose `connectEstablished` is in the hands of a thread. But for
the functor it is as if that were queued. -/
structure Born (view : View) : Prop where
  state : view.conn.state = .kConnecting
  listed : view.listed = 1
  home : AtHome ((view.loops view.conn.loop).queued .establish) view.conn.fd .starting
  away : ∀ loop, loop ≠ view.conn.loop → Away (view.loops loop)
  remove : ∀ loop, (view.loops loop).calls .remove = 0
  recorded : Recorded view.history .starting view.conn.loop none

theorem AtHome.starting_idle {view : LoopView} {fd : Int} (home : AtHome view fd .starting) :
    view.closing = none ∧ view.handling = none ∧ view.active = 0 := by
  refine ⟨?_, ?_, Nat.le_zero.mp home.active⟩
  · cases closing : view.closing with
    | none => rfl
    | some closeStage =>
        cases closeStage with
        | calling => exact absurd (home.closing.mp closing) (by decide)
        | called => exact absurd (home.closed closing) (by decide)
  · cases handling : view.handling with
    | none => rfl
    | some handled => exact absurd (home.handling _ _ handling).1 (by decide)

theorem Born.queueEstablish (born : Born (s.view conn)) :
    Good ((s.queueInLoop (s.conns conn).loop (.connectEstablished conn)).view conn)
      .starting := by
  have viewed := view_queueInLoop s (s.conns conn).loop conn .establish
  change (s.queueInLoop (s.conns conn).loop (.connectEstablished conn)).view conn = _ at viewed
  have idle := born.home.starting_idle.1
  have listed := born.listed
  have updated : Function.update (s.view conn).loops (s.conns conn).loop
      (((s.view conn).loops (s.conns conn).loop).queued .establish) (s.view conn).conn.loop =
        ((s.view conn).loops (s.conns conn).loop).queued .establish :=
    Function.update_self _ _ _
  rw [viewed]
  refine ⟨⟨decide_eq_true born.state, born.listed, ?_, ?_, ?_⟩, ?_⟩
  · dsimp only
    rw [updated]
    exact born.home
  · intro other elsewhere
    have unchanged : Function.update (s.view conn).loops (s.conns conn).loop
        (((s.view conn).loops (s.conns conn).loop).queued .establish) other =
          (s.view conn).loops other := Function.update_of_ne elsewhere _ _
    dsimp only
    rw [unchanged]
    exact born.away other elsewhere
  · dsimp only
    rw [updated]
    change Recorded _ _ _ (((s.view conn).loops (s.view conn).conn.loop).queued .establish).closing
    rw [idle]
    exact born.recorded
  · intro other
    dsimp only
    rw [if_neg (by simp)]
    by_cases here : other = (s.conns conn).loop
    · subst here
      rw [Function.update_self]
      exact born.remove _
    · rw [Function.update_of_ne here]
      exact born.remove other

theorem AtHome.up {view : LoopView} {fd : Int}
    (home : AtHome (view.queued .establish) fd .starting) :
    AtHome { view with standing :=
      ⟨fun other => other == fd, fd, Channel.Interest.enableReading.apply Channel.kNoneEvent,
        false⟩ } fd .up where
  establish := by
    have one := home.establish
    simpa [LoopView.queued] using one
  destroy := by
    have none := home.destroy
    simpa [LoopView.queued] using none
  closing := by
    have idle : view.closing = none := home.starting_idle.1
    simp [idle]
  closed := by
    have idle : view.closing = none := home.starting_idle.1
    simp [idle]
  handling := by
    have idle : view.handling = none := home.starting_idle.2.1
    simp [idle]
  active := by
    have idle : view.active = 0 := home.starting_idle.2.2
    simp [idle]
  known := by
    intro other
    simp [Stage.registered]
  fd := rfl
  asks := by
    show EventMask.has (Channel.Interest.enableReading.apply Channel.kNoneEvent)
      Channel.kReadEvent = true
    decide

theorem Recorded.up {history : History} {closing : Option CloseStage}
    (recorded : Recorded history .starting loop closing) : Recorded history .up loop closing where
  created := recorded.created
  closes := recorded.closes
  returned := by
    intro closed
    cases closed
  removals := recorded.removals
  destroyed := recorded.destroyed

/-- The channel asks for reading, and nobody is to establish the connection any
more. -/
theorem Born.up {view : View} (born : Born view) :
    Good ⟨{ view.conn with state := .kConnected }, view.listed,
      Function.update view.loops view.conn.loop { view.loops view.conn.loop with standing :=
        ⟨fun other => other == view.conn.fd, view.conn.fd,
          Channel.Interest.enableReading.apply Channel.kNoneEvent, false⟩ },
      view.history⟩ .up := by
  have idle : (view.loops view.conn.loop).closing = none := born.home.starting_idle.1
  refine ⟨⟨rfl, born.listed, ?_, ?_, ?_⟩, ?_⟩
  · dsimp only
    rw [Function.update_self]
    exact born.home.up
  · intro other elsewhere
    dsimp only
    rw [Function.update_of_ne elsewhere]
    exact born.away other elsewhere
  · dsimp only
    rw [Function.update_self]
    dsimp only
    rw [idle]
    exact born.recorded.up
  · intro other
    dsimp only
    rw [if_neg (by simp)]
    by_cases here : other = view.conn.loop
    · subst here
      rw [Function.update_self]
      exact born.remove _
    · rw [Function.update_of_ne here]
      exact born.remove other

/-- `connectEstablished` on a connection whose descriptor the table of its loop
does not have. -/
theorem Born.connectEstablished (born : Born (s.view conn)) (large : firstConn ≤ conn)
    (home : loop = (s.conns conn).loop)
    (ok : ∀ other, LoopOk s.config other (s.loops other))
    (free : (s.loops loop).poller.channels (s.conns conn).fd = none) :
    ∃ established, s.connectEstablished loop conn = .ok established ∧
      Moves s established conn ∧
      (∀ other, LoopOk s.config other (established.loops other)) ∧
      Good (established.view conn) .up ∧
      (established.loops loop).control = (s.loops loop).control := by
  subst home
  have asks := born.home.asks
  have fd : ((s.loops (s.conns conn).loop).poller.object conn).fd = (s.conns conn).fd :=
    born.home.fd
  have events : ((s.loops (s.conns conn).loop).poller.object conn).events = Channel.kNoneEvent :=
    asks.1
  have fresh : ((s.loops (s.conns conn).loop).poller.object conn).index < 0 :=
    of_decide_eq_true asks.2
  obtain ⟨poller, taken, tabled, channels, own, standings⟩ :=
    tabled_interest_new (ok _).tabled .enableReading fresh (by rw [fd]; exact free)
      (by rw [events]; decide)
  rw [fd, events] at own
  rw [fd] at channels
  let up := s.setState conn .kConnected
  let value : Loop := { s.loops (s.conns conn).loop with poller := poller }
  have sameHome : (s.conns conn).loop = (up.conns conn).loop := by
    simp [up, System.setState]
  have valueOk : LoopOk s.config (s.conns conn).loop value := by
    apply (ok (s.conns conn).loop).setPoller tabled
    intro other channel small known
    rw [channels, Function.update_apply] at known
    split_ifs at known
    · cases known
      exact absurd large (Nat.not_le.mpr small)
    · exact known
  refine ⟨up.setLoop (s.conns conn).loop value, ?_, ?_, loops_setLoop (s := up) ok valueOk, ?_, ?_⟩
  · have connecting : (s.conns conn).state = .kConnecting := born.state
    unfold System.connectEstablished
    rw [require_ok rfl, require_ok connecting]
    exact onChannel_ok (s := up) sameHome taken
  · apply (moves_setState s conn .kConnected).trans
    apply moves_setLoop
    intro other _ different
    have standing := standings other different
    calc value.view other
        = { (s.loops (s.conns conn).loop).view other with
            standing := poller.standing other } := rfl
      _ = (s.loops (s.conns conn).loop).view other := by
          rw [standing]
          rfl
  · have viewed : (up.setLoop (s.conns conn).loop value).view conn =
        ⟨{ s.conns conn with state := .kConnected }, (s.view conn).listed,
          Function.update (s.view conn).loops (s.conns conn).loop
            { (s.view conn).loops (s.conns conn).loop with standing := poller.standing conn },
          (s.view conn).history⟩ := by
      rw [view_setLoop, view_setState_self]
      rfl
    rw [viewed, own]
    exact born.up
  · simp [System.setLoop, value]

/-- No other channel of the loop has the descriptor of a connection that waits
to be established. -/
theorem Inv.fd_unused (inv : Inv connName s stage) (created : s.Created conn)
    (starting : stage conn = .starting) :
    (s.loops (s.conns conn).loop).poller.channels (s.conns conn).fd = none := by
  cases known : (s.loops (s.conns conn).loop).poller.channels (s.conns conn).fd with
  | none => rfl
  | some channel =>
      exfalso
      have served := inv.ledger.homes conn created
      have open_ : stage conn ≠ .gone := by
        rw [starting]
        decide
      have outer := inv.ledger.outer conn created open_
      have good := inv.good conn created
      by_cases inner : channel < firstConn
      · rcases (inv.loops _).inner _ channel known inner with ⟨-, same⟩ | ⟨-, -, same⟩
        · exact outer.2 _ served same
        · exact outer.1 same
      · have seen : ((s.view channel).loops (s.conns conn).loop).standing.known
            (s.conns conn).fd = true := (standing_known _).mpr known
        have channelCreated : s.Created channel := by
          apply inv.created (Nat.not_lt.mp inner)
          intro absent
          rw [(absent.away _).known] at seen
          cases seen
        have channelGood := inv.good channel channelCreated
        have sameLoop : (s.conns conn).loop = (s.conns channel).loop := by
          by_contra elsewhere
          rw [(channelGood.away _ elsewhere).known] at seen
          cases seen
        have registered : (stage channel).registered = true ∧
            (s.conns conn).fd = (s.conns channel).fd := by
          rw [sameLoop] at seen
          exact (channelGood.home.known _).mp seen
        have same := inv.ledger.distinct conn channel created channelCreated open_
          (registered_not_gone registered.1) registered.2
        subst same
        rw [starting] at registered
        cases registered.1

section

variable {called rest : List Functor}

/-- The loop of the connection has the functor in hand. -/
theorem establishTaken_born {before : List Functor} (called : List Functor)
    (inv : Inv connName s stage) (created : s.Created conn) (starting : stage conn = .starting)
    (control : (s.loops (s.conns conn).loop).control =
      .nextFunctor before (.connectEstablished conn :: rest)) :
    Born ((s.taken (s.conns conn).loop called rest).view conn) := by
  have good := inv.good conn created
  rw [starting] at good
  have queued : (s.view conn).loops (s.view conn).conn.loop =
      (((s.loops (s.conns conn).loop).taken called rest).view conn).queued .establish :=
    taken_queued .establish control
  have home := good.home
  have recorded := good.recorded
  rw [home.starting_idle.1] at recorded
  rw [queued] at home
  have updated : Function.update (s.view conn).loops (s.conns conn).loop
      (((s.loops (s.conns conn).loop).taken called rest).view conn) (s.view conn).conn.loop =
        ((s.loops (s.conns conn).loop).taken called rest).view conn :=
    Function.update_self _ _ _
  rw [taken_view]
  refine ⟨of_decide_eq_true good.state, good.listed, ?_, ?_, ?_, recorded⟩
  · dsimp only
    rw [updated]
    exact home
  · intro other elsewhere
    have unchanged : Function.update (s.view conn).loops (s.conns conn).loop
        (((s.loops (s.conns conn).loop).taken called rest).view conn) other =
          (s.view conn).loops other := Function.update_of_ne elsewhere _ _
    dsimp only
    rw [unchanged]
    exact good.away other elsewhere
  · intro other
    have none := good.remove other
    rw [if_neg (by simp)] at none
    dsimp only
    by_cases here : other = (s.conns conn).loop
    · subst here
      rw [Function.update_self]
      rw [show (s.view conn).loops (s.conns conn).loop = _ from queued] at none
      simpa [LoopView.queued] using none
    · rw [Function.update_of_ne here]
      exact none

theorem connectEstablished_inv [DecidableEq Name] {before : List Functor}
    (inv : Inv connName s stage)
    (control : (s.loops loop).control = .nextFunctor before (.connectEstablished conn :: rest)) :
    ∃ next later,
      s.callFunctor connName loop (.connectEstablished conn) called rest = .ok next ∧
      Inv connName next later := by
  obtain ⟨created, positive⟩ := Inv.created_of_call .establish inv (mem_first control)
  have good := inv.good conn created
  have home : loop = (s.conns conn).loop := good.home_of_call (by decide) positive
  subst home
  have starting : stage conn = .starting := by
    by_contra none
    have calls : ((s.view conn).loops (s.conns conn).loop).calls .establish = _ :=
      good.home.establish
    rw [calls, if_neg none] at positive
    exact absurd positive (Nat.lt_irrefl 0)
  have born := establishTaken_born called inv created starting control
  have loopAt := taken_loops s (s.conns conn).loop called rest
  obtain ⟨established, ran, moves, loops, establishedGood, sameControl⟩ :=
    born.connectEstablished created.1 (rfl : (s.conns conn).loop = _) (taken_ok inv control) (by
      rw [loopAt]
      exact inv.fd_unused created starting)
  have next : Inv connName established (Function.update stage conn .up) :=
    inv.moved ((taken_moves .establish control).trans moves) created.2 loops
      (fun _ => establishedGood) (by simp [starting])
  have kept : Inv connName (established.setControl (s.conns conn).loop
      (.connectEstablished conn called rest)) (Function.update stage conn .up) := by
    apply next.setControl_kept
    · intro other _
      rw [sameControl, taken_control]
      exact ⟨rfl, rfl, rfl, rfl⟩
    · apply (next.loops _).setControl
      · exact List.nil_subset _
      · rw [sameControl, taken_control]
        exact List.Subset.refl _
      · intro other subject
        cases subject
        exact created.1
      · intro other called rest
        simp
  refine ⟨_, _, ?_, kept⟩
  unfold System.callFunctor
  dsimp only
  change (System.connectEstablished (s.taken (s.conns conn).loop called rest) _ conn >>= _) = _
  rw [ran]
  rfl

end

/-! ## Accepting -/

theorem getNextLoop_served (inv : Inv connName s stage) :
    s.getNextLoop.1 ≤ s.config.threads ∧
      (s.config.threads = 0 ∨ s.getNextLoop.2 < s.config.threads) := by
  unfold System.getNextLoop
  split_ifs with none last
  · exact ⟨Nat.zero_le _, .inl none⟩
  · have inside := inv.next.resolve_left none
    exact ⟨inside, .inr (Nat.pos_of_ne_zero none)⟩
  · have inside := inv.next.resolve_left none
    exact ⟨inside, .inr (Nat.not_le.mp last)⟩

/-- One connection more, and every other as it was. -/
structure Grows (connName : ChannelId → Name) (s next : System Name) (sockfd : Nat) : Prop where
  config : next.config = s.config
  pool : next.next = s.getNextLoop.2
  nextConn : next.nextConn = s.nextConn + 1
  own : (next.conns s.nextConn).loop = s.getNextLoop.1 ∧
    (next.conns s.nextConn).fd = sockfd
  conns : ∀ other, other ≠ s.nextConn → (next.conns other).loop = (s.conns other).loop ∧
    (next.conns other).fd = (s.conns other).fd
  names : ∀ entry ∈ next.connections, entry.1 = connName entry.2
  outer : ∀ entry ∈ next.connections, firstConn ≤ entry.2
  views : ∀ other, firstConn ≤ other → other ≠ s.nextConn → next.view other = s.view other

theorem Grows.moved {next final : System Name} {sockfd : Nat}
    (grows : Grows connName s next sockfd) (moves : Moves next final s.nextConn) :
    Grows connName s final sockfd where
  config := moves.config.trans grows.config
  pool := moves.pool.trans grows.pool
  nextConn := moves.nextConn.trans grows.nextConn
  own := ⟨(moves.conns _).1.trans grows.own.1, (moves.conns _).2.trans grows.own.2⟩
  conns := fun other different => ⟨(moves.conns other).1.trans (grows.conns other different).1,
    (moves.conns other).2.trans (grows.conns other different).2⟩
  names := fun entry member => grows.names entry (moves.connections member)
  outer := fun entry member => grows.outer entry (moves.connections member)
  views := fun other large different =>
    (moves.views other large different).trans (grows.views other large different)

/-- The new connection has a descriptor that nobody else has. -/
theorem Inv.grown {next : System Name} {sockfd : Nat} {first : Stage}
    (inv : Inv connName s stage) (grows : Grows connName s next sockfd)
    (free : ¬s.FdOpen sockfd) (loops : ∀ loop, LoopOk s.config loop (next.loops loop))
    (good : Good (next.view s.nextConn) first) :
    Inv connName next (Function.update stage s.nextConn first) := by
  have served := getNextLoop_served inv
  have older : ∀ other, next.Created other → other ≠ s.nextConn → s.Created other := by
    intro other created different
    have below : other < s.nextConn + 1 := by
      rw [← grows.nextConn]
      exact created.2
    exact ⟨created.1, Nat.lt_of_le_of_ne (Nat.le_of_lt_succ below) different⟩
  have unlike : ∀ other, next.Created other → other ≠ s.nextConn →
      Function.update stage s.nextConn first other ≠ .gone →
        (next.conns other).fd ≠ (next.conns s.nextConn).fd := by
    intro other created different still same
    rw [Function.update_of_ne different] at still
    rw [(grows.conns other different).2, grows.own.2] at same
    have before := older other created different
    exact free (.inr (.inr ⟨other, List.mem_range.mpr before.2, before,
      inv.referenced before still, same⟩))
  constructor
  · rw [grows.nextConn]
    exact Nat.le_succ_of_le inv.first
  · rw [grows.config, grows.pool]
    exact served.2
  · intro loop
    rw [grows.config]
    exact loops loop
  · intro other created
    by_cases same : other = s.nextConn
    · subst same
      rw [Function.update_self]
      exact good
    · rw [Function.update_of_ne same, grows.views other created.1 same]
      exact inv.good other (older other created same)
  · intro other fresh
    rw [grows.nextConn] at fresh
    have later : s.nextConn < other := fresh
    rw [grows.views other (Nat.le_trans inv.first (Nat.le_of_lt later)) (Nat.ne_of_gt later)]
    exact inv.absent other (Nat.le_of_lt later)
  · constructor
    · intro other created
      rw [grows.config]
      by_cases same : other = s.nextConn
      · rw [same, grows.own.1]
        exact served.1
      · rw [(grows.conns other same).1]
        exact inv.ledger.homes other (older other created same)
    · intro one two oneCreated twoCreated oneOpen twoOpen same
      by_cases oneNew : one = s.nextConn
      · by_cases twoNew : two = s.nextConn
        · exact oneNew.trans twoNew.symm
        · rw [oneNew] at same
          exact absurd same.symm (unlike two twoCreated twoNew twoOpen)
      · by_cases twoNew : two = s.nextConn
        · rw [twoNew] at same
          exact absurd same (unlike one oneCreated oneNew oneOpen)
        · rw [Function.update_of_ne oneNew] at oneOpen
          rw [Function.update_of_ne twoNew] at twoOpen
          rw [(grows.conns one oneNew).2, (grows.conns two twoNew).2] at same
          exact inv.ledger.distinct one two (older one oneCreated oneNew)
            (older two twoCreated twoNew) oneOpen twoOpen same
    · intro other created still
      rw [grows.config]
      by_cases same : other = s.nextConn
      · rw [same, grows.own.2]
        refine ⟨fun equal => free (.inl equal), ?_⟩
        intro loop inside equal
        exact free (.inr (.inl ⟨loop, List.mem_range.mpr (Nat.lt_succ_of_le inside), equal⟩))
      · rw [Function.update_of_ne same] at still
        rw [(grows.conns other same).2]
        exact inv.ledger.outer other (older other created same) still
  · exact grows.names
  · exact grows.outer

/-- The channel of the new connection in the loop it goes to. -/
theorem Inv.create_table (inv : Inv connName s stage) (loop : LoopId) (sockfd : Nat) :
    Tabled ((s.loops loop).poller.setObject s.nextConn (Channel.new sockfd)) ∧
      ((s.loops loop).poller.setObject s.nextConn (Channel.new sockfd)).standing s.nextConn =
        ⟨fun _ => false, sockfd, Channel.kNoneEvent, true⟩ ∧
      ∀ other, other ≠ s.nextConn →
        ((s.loops loop).poller.setObject s.nextConn (Channel.new sockfd)).standing other =
          (s.loops loop).poller.standing other := by
  apply tabled_create (inv.loops loop).tabled
  intro fd known
  have away := (inv.absent s.nextConn (Nat.le_refl _)).away loop
  have seen := (standing_known fd).mpr known
  change ((s.view s.nextConn).loops loop).standing.known fd = true at seen
  rw [away.known fd] at seen
  cases seen

section

variable [DecidableEq Name]

/-- A new name replaces no entry. -/
theorem Inv.unlisted (inv : Inv connName s stage) (distinct : Function.Injective connName) :
    (s.connections.filter fun entry => entry.1 ≠ connName s.nextConn) = s.connections := by
  rw [List.filter_eq_self]
  intro entry member
  have absent := (inv.absent s.nextConn (Nat.le_refl _)).listed
  have named : entry.1 = connName s.nextConn ↔ entry.2 = s.nextConn :=
    name_iff inv.names distinct entry member
  have different : entry.2 ≠ s.nextConn := by
    intro same
    apply List.count_eq_zero.mp absent
    rw [← same]
    exact List.mem_map_of_mem member
  simpa [named] using different

theorem create_loops (s : System Name) (sockfd : Nat) :
    (s.create connName sockfd).loops = Function.update s.loops s.getNextLoop.1
      { s.loops s.getNextLoop.1 with
        poller := (s.loops s.getNextLoop.1).poller.setObject s.nextConn (Channel.new sockfd) } :=
  rfl

theorem create_control (s : System Name) (sockfd : Nat) (loop : LoopId) :
    ((s.create connName sockfd).loops loop).control = (s.loops loop).control := by
  rw [create_loops, Function.update_apply]
  split_ifs with here
  · rw [here]
  · rfl

theorem create_channels (s : System Name) (sockfd : Nat) (loop : LoopId) :
    ((s.create connName sockfd).loops loop).poller.channels =
      (s.loops loop).poller.channels := by
  rw [create_loops, Function.update_apply]
  split_ifs with here
  · rw [here]
    rfl
  · rfl

theorem create_loopOk (inv : Inv connName s stage) (sockfd : Nat) :
    ∀ loop, LoopOk s.config loop ((s.create connName sockfd).loops loop) := by
  apply loops_setLoop (s := s) inv.loops
  apply (inv.loops _).setPoller (inv.create_table _ sockfd).1
  intro fd channel _ known
  exact known

theorem create_grows (inv : Inv connName s stage) (distinct : Function.Injective connName)
    (sockfd : Nat) : Grows connName s (s.create connName sockfd) sockfd where
  config := rfl
  pool := rfl
  nextConn := rfl
  own := by
    simp [System.create, System.record, System.setLoop]
  conns := by
    intro other different
    simp [System.create, System.record, System.setLoop, different]
  names := by
    intro entry member
    rcases List.mem_append.mp member with old | new
    · rw [inv.unlisted distinct] at old
      exact inv.names entry old
    · rw [List.mem_singleton] at new
      rw [new]
  outer := by
    intro entry member
    rcases List.mem_append.mp member with old | new
    · rw [inv.unlisted distinct] at old
      exact inv.outer entry old
    · rw [List.mem_singleton] at new
      rw [new]
      exact inv.first
  views := by
    intro other large different
    apply View.ext
    · simp [System.view, System.create, System.record, System.setLoop, different]
    · show ((s.connections.filter (fun entry => entry.1 ≠ connName s.nextConn) ++
        [(connName s.nextConn, s.nextConn)]).map Prod.snd).count other = _
      rw [inv.unlisted distinct, List.map_append, List.count_append]
      simp [System.view, Ne.symm different]
    · funext loop
      show ((s.create connName sockfd).loops loop).view other = (s.loops loop).view other
      rw [create_loops, Function.update_apply]
      split_ifs with here
      · rw [here]
        have standing := (inv.create_table s.getNextLoop.1 sockfd).2.2 other different
        unfold Loop.view
        dsimp only
        rw [standing]
      · rfl
    · exact historyOf_other (Ne.symm different)

theorem create_born (inv : Inv connName s stage) (distinct : Function.Injective connName)
    (sockfd : Nat) : Born ((s.create connName sockfd).view s.nextConn) := by
  have absent := inv.absent s.nextConn (Nat.le_refl _)
  have viewed : (s.create connName sockfd).view s.nextConn =
      ⟨⟨s.getNextLoop.1, sockfd, .kConnecting⟩, 1,
        Function.update (s.view s.nextConn).loops s.getNextLoop.1
          { (s.view s.nextConn).loops s.getNextLoop.1 with
            standing := ⟨fun _ => false, sockfd, Channel.kNoneEvent, true⟩ },
        ⟨1, 0, 0, 0, fun _ => 0⟩⟩ := by
    apply View.ext
    · simp [System.view, System.create, System.record, System.setLoop]
    · show ((s.connections.filter (fun entry => entry.1 ≠ connName s.nextConn) ++
        [(connName s.nextConn, s.nextConn)]).map Prod.snd).count s.nextConn = 1
      have none : (s.connections.map Prod.snd).count s.nextConn = 0 := absent.listed
      rw [inv.unlisted distinct, List.map_append, List.count_append, none]
      simp
    · funext loop
      show ((s.create connName sockfd).loops loop).view s.nextConn = _
      dsimp only
      rw [create_loops, Function.update_apply, Function.update_apply]
      split_ifs with here
      · have standing := (inv.create_table s.getNextLoop.1 sockfd).2.1
        rw [← standing]
        rfl
      · rfl
    · have before : historyOf s.log s.nextConn = _ := absent.history
      have own : (Effect.newConnection s.nextConn).conn = s.nextConn := rfl
      show historyOf (s.log ++ [.newConnection s.nextConn]) s.nextConn = _
      rw [historyOf_own own, before]
      rfl
  rw [viewed]
  refine ⟨rfl, rfl, ?_, ?_, ?_, ?_⟩
  · dsimp only
    rw [Function.update_self]
    have away := absent.away s.getNextLoop.1
    constructor
    · simp [LoopView.queued, away.calls]
    · simp [LoopView.queued, away.calls]
    · simp [LoopView.queued, away.closing]
    · simp [LoopView.queued, away.closing]
    · simp [LoopView.queued, away.handling]
    · simp [LoopView.queued, away.active]
    · simp [LoopView.queued, Stage.registered]
    · rfl
    · exact ⟨rfl, rfl⟩
  · intro loop elsewhere
    dsimp only
    rw [Function.update_of_ne elsewhere]
    exact absent.away loop
  · intro loop
    dsimp only
    rw [Function.update_apply]
    split_ifs with here
    · exact absent.remove _
    · exact absent.remove loop
  · refine ⟨rfl, rfl, ?_, rfl, ?_⟩
    · intro closed
      cases closed
    · intro loop
      rfl

end

/-- An inner channel counts for no connection. -/
theorem count_inner {channel : ChannelId} (inner : channel < firstConn) (revents : EventMask)
    (active : List Active) {other : ChannelId} (large : firstConn ≤ other) :
    ((((channel, revents) :: active).map Prod.fst).count other) =
      (active.map Prod.fst).count other := by
  rw [List.map_cons, List.count_cons_of_ne]
  intro same
  dsimp only at same
  rw [same] at inner
  exact absurd large (Nat.not_le.mpr inner)

/-- The acceptor's handler is inside `newConnection`. -/
theorem Inv.enterNewConnection {revents : EventMask} {active : List Active} (calling : Bool)
    (inv : Inv connName s stage) (large : firstConn ≤ conn)
    (control : (s.loops loop).control = .nextChannel ((acceptChannel, revents) :: active)) :
    Inv connName (s.setControl loop (.newConnection conn calling active)) stage := by
  apply inv.setControl_kept
  · intro other otherLarge
    rw [control]
    exact ⟨rfl, rfl, rfl, (count_inner (by decide) revents active otherLarge).symm⟩
  · apply (inv.loops loop).setControl
    · rw [control]
      exact List.subset_cons_self _ _
    · rw [control]
      exact List.Subset.refl _
    · intro other subject
      cases subject
      exact large
    · intro other called rest
      simp

theorem newConnection_inv [DecidableEq Name] {revents : EventMask} {active : List Active}
    {sockfd : Nat} (inv : Inv connName s stage) (distinct : Function.Injective connName)
    (base : loop = baseLoop)
    (control : (s.loops loop).control = .nextChannel ((acceptChannel, revents) :: active))
    (free : ¬s.FdOpen sockfd) :
    ∃ next later, s.newConnection connName loop sockfd active = .ok next ∧
      Inv connName next later := by
  subst base
  have grows := create_grows inv distinct sockfd
  have born := create_born inv distinct sockfd
  have loops := create_loopOk inv sockfd
  have ran : s.newConnection connName baseLoop sockfd active =
      if baseLoop = s.getNextLoop.1 then
        (s.create connName sockfd).connectEstablished baseLoop s.nextConn >>= fun established =>
          .ok (established.setControl baseLoop (.newConnection s.nextConn true active))
      else .ok (((s.create connName sockfd).queueInLoop s.getNextLoop.1
        (.connectEstablished s.nextConn)).setControl baseLoop
          (.newConnection s.nextConn false active)) := by
    unfold System.newConnection
    rw [require_ok rfl]
    rfl
  rw [ran]
  split_ifs with direct
  · obtain ⟨established, establishedRan, moves, establishedLoops, good, sameControl⟩ :=
      born.connectEstablished inv.first (direct.trans grows.own.1.symm) loops (by
        rw [create_channels, grows.own.2]
        exact inv.fd_free (Nat.zero_le _) free)
    have next := inv.grown (grows.moved moves) free establishedLoops good
    refine ⟨_, _, ?_, next.enterNewConnection true inv.first
      (sameControl.trans ((create_control s sockfd baseLoop).trans control))⟩
    rw [establishedRan]
    rfl
  · have good := born.queueEstablish
    have home : ((s.create connName sockfd).conns s.nextConn).loop = s.getNextLoop.1 :=
      grows.own.1
    rw [home] at good
    have next := inv.grown
      (grows.moved (moves_queueInLoop _ s.getNextLoop.1 s.nextConn .establish)) free
      (loops_queueInLoop (s := s.create connName sockfd) .establish loops inv.first) good
    have queued : (((s.create connName sockfd).queueInLoop s.getNextLoop.1
        (Call.establish.functor s.nextConn)).loops baseLoop).control =
          ((s.create connName sockfd).loops baseLoop).control := by
      unfold System.queueInLoop System.setLoop
      dsimp only
      rw [Function.update_of_ne direct]
    exact ⟨_, _, rfl, next.enterNewConnection false inv.first
      (queued.trans ((create_control s sockfd baseLoop).trans control))⟩

end

end Msmuduo.ServerLoops
