import Msmuduo.TcpConnection

/-!
# How long a connection lives

A connection lives as long as a `TcpConnectionPtr` to it: in the map of the server,
in user code, in `guardThis` of `handleClose`, or bound into a functor that is
queued. `send` and `shutdown` on another thread post functors that are bound to
`this` and keep nothing alive ("FIXME: use shared_from_this").

The loop of the connection swaps the queued functors out and calls them one by one;
what is bound into them lasts until the whole batch has been called. So
`connectDestroyed` keeps the connection for every functor that is queued in front
of it or goes into the same batch. A functor that is posted behind that batch is
`late`: nothing that belongs to the server waits for it. The server itself is there
all the time.
-/

namespace Msmuduo.Lifetime

open Msmuduo.Machine Msmuduo.TcpConnection

set_option autoImplicit false

/-- The calls that post a functor bound to `this`. -/
inductive Call where
  | send
  | shutdown
  deriving DecidableEq, Repr

/-- `postedBy` is `sendInLoop` or `shutdownInLoop`, and `callback` one of the two
flow-control callbacks. A `task` has nothing to do with the connection. -/
inductive Functor where
  | postedBy (call : Call) (late : Bool)
  | connectEstablished
  | connectDestroyed
  | forceCloseInLoop
  | callback
  | removeConnectionInLoop
  | task
  deriving DecidableEq, Repr

/-- A `TcpConnectionPtr` is bound into the functor. -/
def Functor.holds : Functor → Bool
  | .postedBy _ _ | .task => false
  | .connectEstablished | .connectDestroyed | .forceCloseInLoop | .callback
  | .removeConnectionInLoop => true

def Functor.isPosted : Functor → Bool
  | .postedBy _ _ => true
  | _ => false

def Functor.isLate : Functor → Bool
  | .postedBy _ late => late
  | _ => false

/-- The functors of a loop: `pendingFunctors_`, and those that `doPendingFunctors`
has swapped out and not called or has called. -/
structure Functors where
  pending : List Functor
  rest : List Functor
  called : List Functor
  deriving DecidableEq, Repr

namespace Functors

def queueInLoop (functors : Functors) (functor : Functor) : Functors :=
  { functors with pending := functors.pending ++ [functor] }

def references (functors : Functors) : Nat :=
  functors.pending.countP Functor.holds + functors.rest.countP Functor.holds +
    functors.called.countP Functor.holds

end Functors

/-- The loop of the connection and the loop of the server. -/
inductive LoopId where
  | ioLoop
  | baseLoop
  deriving DecidableEq, Repr

/-- `handleClose` in `connectionCallback_`, and behind `closeCallback_`. -/
inductive CloseStage where
  | calling
  | called
  deriving DecidableEq, Repr

inductive Fault where
  | connectEstablishedState
  | handleCloseState
  | erasedOne
  | removeNoneEvent
  deriving DecidableEq, Repr

/-- One connection and all that refers to it. -/
structure Shared where
  /-- The server has io threads, so the two loops are not the same. -/
  pooled : Bool
  state : StateE
  /-- The channel asks for events. -/
  enabled : Bool
  /-- The entry in `connections_`. -/
  inMap : Bool
  /-- The pointers of user code and of `newConnection`. -/
  held : Nat
  /-- Calls of `shutdown` on other threads in front of their store, and calls in
  front of their post. Each of them has a pointer of its own. -/
  storing : Nat
  posting : List Call
  /-- `handleClose` with its `guardThis`. -/
  closing : Option CloseStage
  io : Functors
  base : Functors
  /-- A `sendInLoop` or `shutdownInLoop` was dequeued for a connection that was gone. -/
  dangled : Bool
  deriving DecidableEq, Repr

namespace Shared

/-- `newConnection` has entered the connection into the map and handed it to its loop. -/
def new (pooled : Bool) : Shared where
  pooled := pooled
  state := if pooled then .kConnecting else .kConnected
  enabled := !pooled
  inMap := true
  held := 1
  storing := 0
  posting := []
  closing := none
  io := ⟨if pooled then [.connectEstablished] else [], [], []⟩
  base := ⟨[], [], []⟩
  dangled := false

/-- The strong references: the use count of the `TcpConnectionPtr`s. -/
def references (p : Shared) : Nat :=
  p.inMap.toNat + p.held + p.storing + p.posting.length + p.closing.isSome.toNat +
    p.io.references + p.base.references

def functors (p : Shared) : LoopId → Functors
  | .ioLoop => p.io
  | .baseLoop => p.base

def setFunctors (p : Shared) (loop : LoopId) (functors : Functors) : Shared :=
  match loop with
  | .ioLoop => { p with io := functors }
  | .baseLoop => { p with base := functors }

def queueInLoop (p : Shared) (loop : LoopId) (functor : Functor) : Shared :=
  p.setFunctors loop ((p.functors loop).queueInLoop functor)

/-- The thread of the loop is not in the middle of `handleClose`. -/
def Runs (p : Shared) : LoopId → Prop
  | .ioLoop => p.closing = none
  | .baseLoop => True

instance (p : Shared) : ∀ loop : LoopId, Decidable (p.Runs loop)
  | .ioLoop => inferInstanceAs (Decidable (p.closing = none))
  | .baseLoop => inferInstanceAs (Decidable True)

/-! ## The functions -/

/-- `handleClose` up to `connectionCallback_`. -/
def handleClose (p : Shared) : Except Fault Shared := do
  require (p.state = .kConnected ∨ p.state = .kDisconnecting) .handleCloseState
  return { p with state := .kDisconnected, enabled := false, closing := some .calling }

def removeConnectionInLoop (p : Shared) : Except Fault Shared := do
  require (p.inMap = true) .erasedOne
  return { p with inMap := false }.queueInLoop .ioLoop .connectDestroyed

/-- `closeCallback_`: in the loop of the server it removes the connection at once. -/
def removeConnection (p : Shared) : Except Fault Shared :=
  if p.pooled then .ok (p.queueInLoop .baseLoop .removeConnectionInLoop)
  else p.removeConnectionInLoop

def connectEstablished (p : Shared) : Except Fault Shared := do
  require (p.state = .kConnecting) .connectEstablishedState
  return { p with state := .kConnected, enabled := true }

def connectDestroyed (p : Shared) : Except Fault Shared := do
  let down :=
    if p.state = .kConnected then { p with state := .kDisconnected, enabled := false } else p
  require (down.enabled = false) .removeNoneEvent
  return down

def forceCloseInLoop (p : Shared) : Except Fault Shared :=
  if p.state = .kConnected ∨ p.state = .kDisconnecting then p.handleClose else .ok p

/-- `sendInLoop`. `more` says that it has a flow-control callback to queue. -/
def sendInLoop (p : Shared) (more : Bool) : Shared :=
  if p.state ≠ .kDisconnected ∧ more = true then p.queueInLoop .ioLoop .callback else p

/-- The call of a functor that has been dequeued. -/
def callFunctor (p : Shared) (functor : Functor) (more : Bool) : Except Fault Shared :=
  match functor with
  | .postedBy call _ =>
      if p.references = 0 then .ok { p with dangled := true }
      else match call with
        | .send => .ok (p.sendInLoop more)
        | .shutdown => .ok p
  | .connectEstablished => p.connectEstablished
  | .connectDestroyed => p.connectDestroyed
  | .forceCloseInLoop => p.forceCloseInLoop
  | .removeConnectionInLoop => p.removeConnectionInLoop
  | .callback | .task => .ok p

/-- The next functor of the batch is on its way to be called. -/
def dequeue (p : Shared) (loop : LoopId) (functor : Functor) (rest : List Functor) : Shared :=
  p.setFunctors loop { p.functors loop with
    rest := rest
    called := (p.functors loop).called ++ [functor] }

/-- The functor a call posts now. It is late when `connectDestroyed` has been swapped
out before. -/
def posted (p : Shared) (call : Call) : Functor :=
  .postedBy call (!p.inMap && !p.io.pending.contains .connectDestroyed)

/-! ## The threads -/

/-- `hold` and `release` copy and drop a pointer. `test`, `store` and `post` are the
steps of a call on another thread. `shutdown`, `forceClose` and `callback` are what
user code and the handlers do in the loop of the connection. -/
inductive Event where
  | hold
  | release
  | test (call : Call)
  | store
  | post (i : Nat)
  | shutdown
  | forceClose
  | callback
  | queueTask (loop : LoopId)
  | handleClose
  | closeCallback
  | closeReturned
  | swapFunctors (loop : LoopId)
  | callFunctor (loop : LoopId) (more : Bool)
  | finishFunctors (loop : LoopId)
  deriving DecidableEq, Repr

/-- A step that its thread cannot take changes nothing. Only somebody with a pointer
calls the connection. -/
def step (p : Shared) : Event → Except Fault Shared
  | .hold => .ok (if 0 < p.references then { p with held := p.held + 1 } else p)
  | .release => .ok { p with held := p.held - 1 }
  | .test call =>
      if 0 < p.held ∧ p.state = .kConnected then
        match call with
        | .send => .ok { p with held := p.held - 1, posting := p.posting ++ [.send] }
        | .shutdown => .ok { p with held := p.held - 1, storing := p.storing + 1 }
      else .ok p
  | .store =>
      if 0 < p.storing then
        .ok { p with
          state := .kDisconnecting
          storing := p.storing - 1
          posting := p.posting ++ [.shutdown] }
      else .ok p
  | .post i =>
      match p.posting[i]? with
      | some call =>
          .ok ({ p with posting := p.posting.eraseIdx i, held := p.held + 1 }.queueInLoop .ioLoop
            (p.posted call))
      | none => .ok p
  | .shutdown =>
      if 0 < p.references ∧ p.state = .kConnected then .ok { p with state := .kDisconnecting }
      else .ok p
  | .forceClose =>
      if 0 < p.references ∧ (p.state = .kConnected ∨ p.state = .kDisconnecting) then
        .ok ({ p with state := .kDisconnecting }.queueInLoop .ioLoop .forceCloseInLoop)
      else .ok p
  | .callback => .ok (if 0 < p.references then p.queueInLoop .ioLoop .callback else p)
  | .queueTask loop => .ok (p.queueInLoop loop .task)
  | .handleClose =>
      if p.closing = none ∧ p.enabled = true ∧ p.io.rest = [] ∧ p.io.called = [] then p.handleClose
      else .ok p
  | .closeCallback =>
      if p.closing = some .calling then { p with closing := some .called }.removeConnection
      else .ok p
  | .closeReturned =>
      if p.closing = some .called then .ok { p with closing := none } else .ok p
  | .swapFunctors loop =>
      if p.Runs loop ∧ (p.functors loop).rest = [] ∧ (p.functors loop).called = [] then
        .ok (p.setFunctors loop ⟨[], (p.functors loop).pending, []⟩)
      else .ok p
  | .callFunctor loop more =>
      match (p.functors loop).rest with
      | [] => .ok p
      | functor :: rest =>
          if p.Runs loop then (p.dequeue loop functor rest).callFunctor functor more else .ok p
  | .finishFunctors loop =>
      if p.Runs loop ∧ (p.functors loop).rest = [] then
        .ok (p.setFunctors loop { p.functors loop with called := [] })
      else .ok p

/-! ## The last reference -/

/-- The references a step gives up. -/
def givenUp (p : Shared) : Event → Nat
  | .release => min p.held 1
  | .closeReturned => if p.closing = some .called then 1 else 0
  | .finishFunctors loop =>
      if p.Runs loop ∧ (p.functors loop).rest = [] then
        (p.functors loop).called.countP Functor.holds
      else 0
  | _ => 0

/-- A functor that was posted behind the batch with `connectDestroyed` is queued. -/
def LateQueued (p : Shared) : Prop :=
  ∃ functor ∈ p.io.pending ++ p.io.rest, functor.isLate = true

instance (p : Shared) : Decidable p.LateQueued :=
  inferInstanceAs (Decidable (∃ functor ∈ _, _))

/-- The step does not give up the last references while a late functor is queued. -/
def KeepsLast (p : Shared) (event : Event) : Prop :=
  p.LateQueued → 0 < p.givenUp event → p.givenUp event < p.references

instance (p : Shared) (event : Event) : Decidable (p.KeepsLast event) :=
  inferInstanceAs (Decidable (_ → _ → _))

/-- No `sendInLoop` or `shutdownInLoop` was dequeued after the last reference was
released. -/
def NotDangled (p : Shared) : Prop := p.dangled = false

/-! ## The use count -/

section

variable {p next : Shared}

theorem countP_snoc (functors : List Functor) (functor : Functor) :
    (functors ++ [functor]).countP Functor.holds =
      functors.countP Functor.holds + functor.holds.toNat := by
  rw [List.countP_append, List.countP_singleton]
  cases functor.holds <;> rfl

theorem references_queueInLoop (p : Shared) (loop : LoopId) (functor : Functor) :
    (p.queueInLoop loop functor).references = p.references + functor.holds.toNat := by
  cases loop <;>
  · simp only [queueInLoop, setFunctors, Shared.functors, references, Functors.references,
      Functors.queueInLoop, countP_snoc]
    omega

theorem references_swap (p : Shared) (loop : LoopId) (rest : (p.functors loop).rest = [])
    (called : (p.functors loop).called = []) :
    (p.setFunctors loop ⟨[], (p.functors loop).pending, []⟩).references = p.references := by
  cases loop <;>
  · simp only [Shared.functors] at rest called
    simp only [setFunctors, Shared.functors, references, Functors.references, rest, called,
      List.countP_nil]
    omega

theorem references_dequeue (p : Shared) (loop : LoopId) {functor : Functor} {rest : List Functor}
    (queued : (p.functors loop).rest = functor :: rest) :
    (p.dequeue loop functor rest).references = p.references := by
  cases loop <;>
  · simp only [Shared.functors] at queued
    have counted : (functor :: rest).countP Functor.holds =
        rest.countP Functor.holds + functor.holds.toNat := by
      rw [List.countP_cons]
      cases functor.holds <;> rfl
    simp only [dequeue, setFunctors, Shared.functors, references, Functors.references, queued,
      countP_snoc, counted]
    omega

theorem references_finish (p : Shared) (loop : LoopId) :
    (p.setFunctors loop { p.functors loop with called := [] }).references +
      (p.functors loop).called.countP Functor.holds = p.references := by
  cases loop <;>
  · simp only [setFunctors, Shared.functors, references, Functors.references, List.countP_nil]
    omega

theorem handleClose_references (ran : p.handleClose = .ok next) :
    p.references ≤ next.references := by
  rcases bind_ok_inv ran with ⟨passed, -, done⟩
  cases done
  simp only [references, Option.isSome_some, Bool.toNat_true]
  have guarded := Bool.toNat_le p.closing.isSome
  omega

theorem removeConnectionInLoop_references (ran : p.removeConnectionInLoop = .ok next) :
    next.references = p.references := by
  rcases bind_ok_inv ran with ⟨passed, required, done⟩
  have listed := require_inv required
  cases done
  rw [references_queueInLoop]
  simp only [references, listed, Functor.holds, Bool.toNat_true, Bool.toNat_false]
  omega

theorem removeConnection_references (ran : p.removeConnection = .ok next) :
    p.references ≤ next.references := by
  unfold removeConnection at ran
  split at ran
  · cases ran
    rw [references_queueInLoop]
    exact Nat.le_add_right _ _
  · exact (removeConnectionInLoop_references ran).ge

theorem callFunctor_references {functor : Functor} {more : Bool}
    (ran : p.callFunctor functor more = .ok next) : p.references ≤ next.references := by
  cases functor with
  | postedBy call late =>
      simp only [callFunctor] at ran
      split at ran
      · cases ran
        exact le_rfl
      cases call with
      | shutdown =>
          cases ran
          exact le_rfl
      | send =>
          cases ran
          unfold sendInLoop
          split
          · rw [references_queueInLoop]
            exact Nat.le_add_right _ _
          · exact le_rfl
  | connectEstablished =>
      rcases bind_ok_inv ran with ⟨passed, -, done⟩
      cases done
      exact le_rfl
  | connectDestroyed =>
      rcases bind_ok_inv ran with ⟨passed, -, done⟩
      cases done
      split <;> exact le_rfl
  | forceCloseInLoop =>
      simp only [callFunctor, forceCloseInLoop] at ran
      split at ran
      · exact handleClose_references ran
      · cases ran
        exact le_rfl
  | removeConnectionInLoop => exact (removeConnectionInLoop_references ran).ge
  | callback | task =>
      cases ran
      exact le_rfl

/-- No step loses a reference that it does not give up. -/
theorem step_references {event : Event} (taken : step p event = .ok next) :
    p.references ≤ next.references + p.givenUp event := by
  cases event with
  | hold =>
      cases taken
      split <;> simp only [references] <;> omega
  | release =>
      cases taken
      simp only [references, givenUp]
      omega
  | test call =>
      simp only [step] at taken
      split at taken
      · next possible =>
        cases call <;> cases taken <;> simp only [references, List.length_append,
          List.length_singleton] <;> omega
      · cases taken
        omega
  | store =>
      rcases guarded_inv taken with ⟨-, rfl⟩ | ⟨-, rfl⟩
      · simp only [references, List.length_append, List.length_singleton]
        omega
      · omega
  | post i =>
      simp only [step] at taken
      split at taken
      · next call posting =>
        cases taken
        have bound := (List.getElem?_eq_some_iff.mp posting).1
        rw [references_queueInLoop]
        simp only [references, List.length_eraseIdx_of_lt bound]
        omega
      · cases taken
        omega
  | shutdown =>
      simp only [step] at taken
      split at taken <;> cases taken <;> exact Nat.le_add_right _ _
  | forceClose =>
      rcases guarded_inv taken with ⟨-, rfl⟩ | ⟨-, rfl⟩
      · rw [references_queueInLoop]
        exact Nat.le_add_right _ _
      · exact Nat.le_add_right _ _
  | callback =>
      cases taken
      split
      · rw [references_queueInLoop]
        omega
      · omega
  | queueTask loop =>
      cases taken
      rw [references_queueInLoop]
      omega
  | handleClose =>
      simp only [step] at taken
      split at taken
      · exact (handleClose_references taken).trans (Nat.le_add_right _ _)
      · cases taken
        omega
  | closeCallback =>
      simp only [step] at taken
      split at taken
      · next calling =>
        have removed := removeConnection_references taken
        simp only [references, calling] at removed ⊢
        exact removed.trans (Nat.le_add_right _ _)
      · cases taken
        omega
  | closeReturned =>
      rcases guarded_inv taken with ⟨called, rfl⟩ | ⟨-, rfl⟩
      · simp only [references, givenUp, called, Option.isSome_some, Option.isSome_none,
          Bool.toNat_true, Bool.toNat_false, if_true]
        omega
      · omega
  | swapFunctors loop =>
      rcases guarded_inv taken with ⟨idle, rfl⟩ | ⟨-, rfl⟩
      · rw [references_swap p loop idle.2.1 idle.2.2]
        omega
      · omega
  | callFunctor loop more =>
      simp only [step] at taken
      split at taken
      · cases taken
        omega
      · next functor rest queued =>
        split at taken
        · have called := callFunctor_references taken
          rw [references_dequeue p loop queued] at called
          omega
        · cases taken
          omega
  | finishFunctors loop =>
      rcases guarded_inv taken with ⟨finished, rfl⟩ | ⟨-, rfl⟩
      · simp only [givenUp, if_pos finished]
        exact (references_finish p loop).ge
      · omega

end

end Shared

end Msmuduo.Lifetime
