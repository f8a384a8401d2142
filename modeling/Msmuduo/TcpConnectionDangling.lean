import Msmuduo.TcpConnectionLifetime

/-!
# Functors that outlive their connection

As long as no step gives up the last reference while a late functor is queued, no
`sendInLoop` and no `shutdownInLoop` is dequeued for a connection that is gone. The
functors that are not late need no such care. When a late functor is left behind,
the loop comes to it in the end.
-/

namespace Msmuduo.Lifetime

open Msmuduo.Machine Msmuduo.TcpConnection

set_option autoImplicit false

namespace Shared

section

variable {p next : Shared}

/-! ## The invariant -/

/-- A functor that is not late is kept alive by the map or by `connectDestroyed`: for a
queued one it is queued as well, and for one of the batch it is at most called. -/
structure Kept (p : Shared) : Prop where
  pending : ∀ call, .postedBy call false ∈ p.io.pending →
    p.inMap = true ∨ .connectDestroyed ∈ p.io.pending
  rest : ∀ call, .postedBy call false ∈ p.io.rest →
    p.inMap = true ∨ .connectDestroyed ∈ p.io.pending ++ p.io.rest ++ p.io.called
  late : p.LateQueued → 0 < p.references
  base : ∀ functor ∈ p.base.pending ++ p.base.rest, functor.isPosted = false
  clean : p.NotDangled

theorem new_kept (pooled : Bool) : Kept (new pooled) where
  pending := fun _ _ => Or.inl rfl
  rest := fun _ _ => Or.inl rfl
  late := by
    cases pooled <;> decide
  base := by simp [new]
  clean := rfl

theorem references_of_inMap (inMap : p.inMap = true) : 0 < p.references := by
  simp only [references, inMap, Bool.toNat_true]
  omega

theorem references_of_destroyed
    (queued : .connectDestroyed ∈ p.io.pending ++ p.io.rest ++ p.io.called) :
    0 < p.references := by
  have counted : 0 < (p.io.pending ++ p.io.rest ++ p.io.called).countP Functor.holds :=
    List.countP_pos_iff.mpr ⟨_, queued, rfl⟩
  simp only [List.countP_append] at counted
  simp only [references, Functors.references]
  omega

/-- The connection is there for every functor of the batch. -/
theorem Kept.alive (kept : Kept p) {functor : Functor} (posted : functor.isPosted = true)
    (queued : functor ∈ p.io.rest) : 0 < p.references := by
  cases functor with
  | postedBy call late =>
      cases late with
      | true => exact kept.late ⟨_, List.mem_append_right _ queued, rfl⟩
      | false =>
          rcases kept.rest call queued with inMap | destroyed
          · exact references_of_inMap inMap
          · exact references_of_destroyed destroyed
  | _ => cases posted

/-- A step that leaves the queues and the map alone. -/
theorem Kept.same (kept : Kept p) (io : next.io = p.io) (base : next.base = p.base)
    (inMap : next.inMap = p.inMap) (dangled : next.dangled = p.dangled)
    (late : p.LateQueued → 0 < next.references) : Kept next where
  pending := by
    rw [io, inMap]
    exact kept.pending
  rest := by
    rw [io, inMap]
    exact kept.rest
  late := by
    intro queued
    apply late
    unfold LateQueued at queued ⊢
    rwa [io] at queued
  base := by
    rw [base]
    exact kept.base
  clean := dangled.trans kept.clean

theorem Kept.queue (kept : Kept p) {functor : Functor}
    (timely : ∀ call, functor = .postedBy call false →
      p.inMap = true ∨ .connectDestroyed ∈ p.io.pending)
    (late : functor.isLate = true → 0 < p.references) :
    Kept (p.queueInLoop .ioLoop functor) where
  pending := by
    intro call member
    rcases List.mem_append.mp member with old | new
    · exact (kept.pending call old).imp_right (List.mem_append_left _)
    · exact (timely call (List.mem_singleton.mp new).symm).imp_right (List.mem_append_left _)
  rest := by
    intro call member
    apply (kept.rest call member).imp_right
    intro destroyed
    simp only [queueInLoop, setFunctors, Shared.functors, Functors.queueInLoop, List.mem_append]
      at destroyed ⊢
    tauto
  late := by
    rintro ⟨queued, member, isLate⟩
    rw [references_queueInLoop]
    have alive : 0 < p.references := by
      simp only [queueInLoop, setFunctors, Shared.functors, Functors.queueInLoop,
        List.mem_append, List.mem_singleton] at member
      rcases member with (old | rfl) | swapped
      · exact kept.late ⟨queued, List.mem_append_left _ old, isLate⟩
      · exact late isLate
      · exact kept.late ⟨queued, List.mem_append_right _ swapped, isLate⟩
    omega
  base := kept.base
  clean := kept.clean

theorem Kept.queueBase (kept : Kept p) {functor : Functor} (other : functor.isPosted = false) :
    Kept (p.queueInLoop .baseLoop functor) where
  pending := kept.pending
  rest := kept.rest
  late := by
    intro queued
    rw [references_queueInLoop]
    exact Nat.lt_add_right _ (kept.late queued)
  base := by
    intro queued member
    simp only [queueInLoop, setFunctors, Shared.functors, Functors.queueInLoop, List.mem_append,
      List.mem_singleton] at member
    rcases member with (old | rfl) | swapped
    · exact kept.base queued (List.mem_append_left _ old)
    · exact other
    · exact kept.base queued (List.mem_append_right _ swapped)
  clean := kept.clean

/-- Out of the map, the connection is kept by the functor that destroys it. -/
theorem Kept.removeConnectionInLoop (kept : Kept p)
    (ran : p.removeConnectionInLoop = .ok next) : Kept next := by
  have references := removeConnectionInLoop_references ran
  rcases bind_ok_inv ran with ⟨passed, -, done⟩
  cases done
  constructor
  · intro call member
    right
    simp [queueInLoop, setFunctors, Shared.functors, Functors.queueInLoop]
  · intro call member
    right
    simp [queueInLoop, setFunctors, Shared.functors, Functors.queueInLoop]
  · rintro ⟨functor, member, isLate⟩
    rw [references]
    apply kept.late
    simp only [queueInLoop, setFunctors, Shared.functors, Functors.queueInLoop, List.mem_append,
      List.mem_singleton] at member
    rcases member with (old | rfl) | swapped
    · exact ⟨functor, List.mem_append_left _ old, isLate⟩
    · cases isLate
    · exact ⟨functor, List.mem_append_right _ swapped, isLate⟩
  · exact kept.base
  · exact kept.clean

theorem Kept.removeConnection (kept : Kept p) (ran : p.removeConnection = .ok next) :
    Kept next := by
  unfold Shared.removeConnection at ran
  split at ran
  · cases ran
    exact kept.queueBase rfl
  · exact kept.removeConnectionInLoop ran

theorem Kept.swap (kept : Kept p) (loop : LoopId) (rest : (p.functors loop).rest = [])
    (called : (p.functors loop).called = []) :
    Kept (p.setFunctors loop ⟨[], (p.functors loop).pending, []⟩) := by
  have references := references_swap p loop rest called
  cases loop with
  | ioLoop =>
      constructor
      · intro call member
        cases member
      · intro call member
        simpa [setFunctors, Shared.functors] using kept.pending call member
      · rintro ⟨functor, member, isLate⟩
        rw [references]
        simp only [setFunctors, Shared.functors, List.nil_append] at member
        exact kept.late ⟨functor, List.mem_append_left _ member, isLate⟩
      · exact kept.base
      · exact kept.clean
  | baseLoop =>
      constructor
      · exact kept.pending
      · exact kept.rest
      · intro queued
        rw [references]
        exact kept.late queued
      · intro functor member
        simp only [setFunctors, Shared.functors, List.nil_append] at member
        exact kept.base functor (List.mem_append_left _ member)
      · exact kept.clean

theorem Kept.dequeue (kept : Kept p) (loop : LoopId) {functor : Functor} {rest : List Functor}
    (queued : (p.functors loop).rest = functor :: rest) : Kept (p.dequeue loop functor rest) := by
  have references := references_dequeue p loop queued
  cases loop with
  | ioLoop =>
      simp only [Shared.functors] at queued
      constructor
      · exact kept.pending
      · intro call member
        apply (kept.rest call (by rw [queued]; exact List.mem_cons_of_mem _ member)).imp_right
        intro destroyed
        rw [queued] at destroyed
        simp only [Shared.dequeue, setFunctors, Shared.functors, List.mem_append, List.mem_cons,
          List.not_mem_nil, or_false] at destroyed ⊢
        tauto
      · rintro ⟨late, member, isLate⟩
        rw [references]
        apply kept.late
        simp only [Shared.dequeue, setFunctors, Shared.functors, List.mem_append] at member
        refine ⟨late, ?_, isLate⟩
        rw [queued]
        simp only [List.mem_append, List.mem_cons]
        tauto
      · exact kept.base
      · exact kept.clean
  | baseLoop =>
      simp only [Shared.functors] at queued
      constructor
      · exact kept.pending
      · exact kept.rest
      · intro late
        rw [references]
        exact kept.late late
      · intro later member
        apply kept.base later
        simp only [Shared.dequeue, setFunctors, Shared.functors, List.mem_append] at member
        rw [queued]
        simp only [List.mem_append, List.mem_cons]
        tauto
      · exact kept.clean

theorem Kept.handleClose (kept : Kept p) (ran : p.handleClose = .ok next) : Kept next := by
  have references := handleClose_references ran
  rcases bind_ok_inv ran with ⟨passed, -, done⟩
  cases done
  exact kept.same rfl rfl rfl rfl fun late => (kept.late late).trans_le references

theorem Kept.callFunctor (kept : Kept p) {functor : Functor} {more : Bool}
    (alive : functor.isPosted = true → 0 < p.references)
    (ran : p.callFunctor functor more = .ok next) : Kept next := by
  cases functor with
  | postedBy call late =>
      simp only [Shared.callFunctor] at ran
      split at ran
      · next gone => exact absurd gone (Nat.ne_of_gt (alive rfl))
      cases call with
      | shutdown =>
          cases ran
          exact kept
      | send =>
          cases ran
          unfold sendInLoop
          split
          · exact kept.queue (by simp) (by simp [Functor.isLate])
          · exact kept
  | connectEstablished =>
      rcases bind_ok_inv ran with ⟨passed, -, done⟩
      cases done
      exact kept.same rfl rfl rfl rfl kept.late
  | connectDestroyed =>
      rcases bind_ok_inv ran with ⟨passed, -, done⟩
      cases done
      split
      · exact kept.same rfl rfl rfl rfl kept.late
      · exact kept
  | forceCloseInLoop =>
      simp only [Shared.callFunctor, forceCloseInLoop] at ran
      split at ran
      · exact kept.handleClose ran
      · cases ran
        exact kept
  | removeConnectionInLoop => exact kept.removeConnectionInLoop ran
  | callback | task =>
      cases ran
      exact kept

theorem Kept.finish (kept : Kept p) (loop : LoopId) (rest : (p.functors loop).rest = [])
    (late : p.LateQueued →
      0 < (p.setFunctors loop { p.functors loop with called := [] }).references) :
    Kept (p.setFunctors loop { p.functors loop with called := [] }) := by
  cases loop with
  | ioLoop =>
      simp only [Shared.functors] at rest
      constructor
      · exact kept.pending
      · intro call member
        simp only [setFunctors, Shared.functors, rest] at member
        cases member
      · exact late
      · exact kept.base
      · exact kept.clean
  | baseLoop => exact ⟨kept.pending, kept.rest, late, kept.base, kept.clean⟩

/-- What a step leaves for a late functor. -/
theorem Kept.late_step (kept : Kept p) {event : Event} (keeps : KeepsLast p event)
    (taken : step p event = .ok next) (late : p.LateQueued) : 0 < next.references := by
  have before := kept.late late
  have lost := step_references taken
  have left := keeps late
  omega

theorem posted_timely {call : Call} {call' : Call}
    (timely : p.posted call = .postedBy call' false) :
    p.inMap = true ∨ .connectDestroyed ∈ p.io.pending := by
  simp only [posted, Functor.postedBy.injEq, Bool.and_eq_false_iff, Bool.not_eq_false',
    List.contains_iff_mem] at timely
  exact timely.2

/-- The call has dropped nothing when its functor is queued. -/
theorem Kept.post (kept : Kept p) (call : Call) (posting : List Call) :
    Kept ({ p with posting := posting, held := p.held + 1 }.queueInLoop .ioLoop
      (p.posted call)) := by
  have returned : 0 < { p with posting := posting, held := p.held + 1 }.references := by
    simp only [references]
    omega
  have same : Kept { p with posting := posting, held := p.held + 1 } :=
    kept.same rfl rfl rfl rfl fun _ => returned
  exact same.queue (fun _ timely => posted_timely timely) fun _ => returned

/-- The loop of the server calls no functor that is bound to `this`. -/
theorem Kept.alive_dequeued (kept : Kept p) {loop : LoopId} {functor : Functor}
    {rest : List Functor} (posted : functor.isPosted = true)
    (queued : (p.functors loop).rest = functor :: rest) : 0 < p.references := by
  cases loop with
  | ioLoop =>
      have member : functor ∈ p.io.rest := by
        rw [show p.io.rest = functor :: rest from queued]
        exact List.mem_cons_self
      exact kept.alive posted member
  | baseLoop =>
      have member : functor ∈ p.base.pending ++ p.base.rest := by
        rw [show p.base.rest = functor :: rest from queued]
        exact List.mem_append_right _ List.mem_cons_self
      cases posted.symm.trans (kept.base functor member)

theorem step_kept {event : Event} (kept : Kept p) (keeps : KeepsLast p event)
    (taken : step p event = .ok next) : Kept next := by
  have late := kept.late_step keeps taken
  cases event with
  | hold =>
      cases taken
      split
      · next alive =>
        rw [if_pos alive] at late
        exact kept.same rfl rfl rfl rfl late
      · exact kept
  | release =>
      cases taken
      exact kept.same rfl rfl rfl rfl late
  | test call =>
      simp only [step] at taken
      split at taken
      · cases call <;> cases taken <;> exact kept.same rfl rfl rfl rfl late
      · cases taken
        exact kept
  | store =>
      rcases guarded_inv taken with ⟨-, rfl⟩ | ⟨-, rfl⟩
      · exact kept.same rfl rfl rfl rfl late
      · exact kept
  | post i =>
      simp only [step] at taken
      split at taken
      · next call posting =>
        cases taken
        exact kept.post call (p.posting.eraseIdx i)
      · cases taken
        exact kept
  | shutdown =>
      rcases guarded_inv taken with ⟨-, rfl⟩ | ⟨-, rfl⟩
      · exact kept.same rfl rfl rfl rfl late
      · exact kept
  | forceClose =>
      rcases guarded_inv taken with ⟨-, rfl⟩ | ⟨-, rfl⟩
      · have same : Kept { p with state := .kDisconnecting } :=
          kept.same rfl rfl rfl rfl kept.late
        exact same.queue (by simp) (by simp [Functor.isLate])
      · exact kept
  | callback =>
      cases taken
      split
      · exact kept.queue (by simp) (by simp [Functor.isLate])
      · exact kept
  | queueTask loop =>
      cases taken
      cases loop with
      | ioLoop => exact kept.queue (by simp) (by simp [Functor.isLate])
      | baseLoop => exact kept.queueBase rfl
  | handleClose =>
      simp only [step] at taken
      split at taken
      · exact kept.handleClose taken
      · cases taken
        exact kept
  | closeCallback =>
      simp only [step] at taken
      split at taken
      · next calling =>
        have same : Kept { p with closing := some .called } := by
          refine kept.same rfl rfl rfl rfl fun queued => ?_
          have alive := kept.late queued
          simpa only [references, calling, Option.isSome_some] using alive
        exact same.removeConnection taken
      · cases taken
        exact kept
  | closeReturned =>
      rcases guarded_inv taken with ⟨-, rfl⟩ | ⟨-, rfl⟩
      · exact kept.same rfl rfl rfl rfl late
      · exact kept
  | swapFunctors loop =>
      rcases guarded_inv taken with ⟨idle, rfl⟩ | ⟨-, rfl⟩
      · exact kept.swap loop idle.2.1 idle.2.2
      · exact kept
  | callFunctor loop more =>
      simp only [step] at taken
      split at taken
      · cases taken
        exact kept
      · next functor rest queued =>
        split at taken
        · apply (kept.dequeue loop queued).callFunctor _ taken
          intro posted
          rw [references_dequeue p loop queued]
          exact kept.alive_dequeued posted queued
        · cases taken
          exact kept
  | finishFunctors loop =>
      rcases guarded_inv taken with ⟨finished, rfl⟩ | ⟨-, rfl⟩
      · exact kept.finish loop finished.2 late
      · exact kept

end

/-! ## Behind the last reference -/

section

variable {p : Shared}

theorem thread_idle (gone : p.references = 0) : p.closing = none := by
  simp only [references] at gone
  cases closing : p.closing with
  | none => rfl
  | some stage =>
      simp only [closing, Option.isSome_some, Bool.toNat_true] at gone
      omega

/-- What is left of the batch is called, until a functor is found dangling. -/
theorem batch_called (gone : p.references = 0) :
    ∃ events last, run step p events = .ok last ∧
      (last.dangled = true ∨ (∀ functor ∈ p.io.rest, functor.isPosted = false) ∧
        last.references = 0 ∧ last.io.rest = [] ∧ last.io.pending = p.io.pending) := by
  generalize batch : p.io.rest = rest
  induction rest generalizing p with
  | nil => exact ⟨[], p, rfl, Or.inr ⟨by simp, gone, batch, rfl⟩⟩
  | cons functor rest ih =>
      have queued : (p.functors .ioLoop).rest = functor :: rest := batch
      have dequeued := references_dequeue p .ioLoop queued
      have called : step p (.callFunctor .ioLoop false) =
          (p.dequeue .ioLoop functor rest).callFunctor functor false := by
        simp only [step, queued]
        exact if_pos (thread_idle gone)
      have free : functor.holds = false := by
        by_contra holds
        have counted : 0 < p.io.rest.countP Functor.holds :=
          List.countP_pos_iff.mpr ⟨functor, by simp [batch], by simpa using holds⟩
        simp only [references, Functors.references] at gone
        omega
      cases functor with
      | connectEstablished | connectDestroyed | forceCloseInLoop | callback
      | removeConnectionInLoop => cases free
      | postedBy call late =>
          have dangling : step p (.callFunctor .ioLoop false) =
              .ok { p.dequeue .ioLoop (.postedBy call late) rest with dangled := true } :=
            called.trans (if_pos (dequeued.trans gone))
          exact ⟨_, _, (run_singleton _ _).trans dangling, Or.inl rfl⟩
      | task =>
          have taken : step p (.callFunctor .ioLoop false) = .ok (p.dequeue .ioLoop .task rest) :=
            called
          rcases ih (dequeued.trans gone) rfl with ⟨events, last, ran, outcome⟩
          refine ⟨_, last, (run_cons_ok events taken).trans ran, ?_⟩
          apply outcome.imp_right
          rintro ⟨others, left⟩
          refine ⟨?_, left⟩
          intro later member
          rcases List.mem_cons.mp member with rfl | member
          · rfl
          · exact others later member

/-- Once the last reference is gone, the loop comes to every functor that is still
queued. -/
theorem queued_functor_dangles (gone : p.references = 0) {functor : Functor}
    (posted : functor.isPosted = true) (queued : functor ∈ p.io.pending ++ p.io.rest) :
    ∃ events last, run step p events = .ok last ∧ ¬NotDangled last := by
  have dangling {last : Shared} (dangled : last.dangled = true) : ¬NotDangled last := by
    simp [NotDangled, dangled]
  rcases batch_called gone with ⟨first, middle, ranFirst, dangled | ⟨others, left, rest, pending⟩⟩
  · exact ⟨first, middle, ranFirst, dangling dangled⟩
  have waiting : functor ∈ p.io.pending := by
    rcases List.mem_append.mp queued with pending | swapped
    · exact pending
    · cases posted.symm.trans (others functor swapped)
  have idle := thread_idle left
  let swapped : Shared := { middle with io := ⟨[], middle.io.pending, []⟩ }
  have finished : run step middle [.finishFunctors .ioLoop, .swapFunctors .ioLoop] =
      .ok swapped := by
    simp [run, step, Runs, Shared.functors, setFunctors, idle, rest, swapped]
  have swappedGone : swapped.references = 0 := by
    simp only [references, Functors.references, rest, List.countP_nil] at left
    simp only [swapped, references, Functors.references, List.countP_nil]
    omega
  rcases batch_called swappedGone with ⟨second, last, ranSecond, dangled | ⟨none, -⟩⟩
  · refine ⟨first ++ ([.finishFunctors .ioLoop, .swapFunctors .ioLoop] ++ second), last, ?_,
      dangling dangled⟩
    rw [run_append _ ranFirst, run_append _ finished]
    exact ranSecond
  · have absent := none functor (by simpa [swapped, pending] using waiting)
    cases posted.symm.trans absent

end

/-- In every run of the threads in which no step gives up the last references while a
functor that was posted behind the batch with `connectDestroyed` is queued: no
`sendInLoop` and no `shutdownInLoop` is dequeued after the last reference is gone. -/
theorem posted_functors_not_dangling (pooled : Bool) (events : List Event)
    (keeps : AllSteps step KeepsLast (new pooled) events) :
    Throughout step NotDangled (new pooled) events :=
  throughout_keeps Kept KeepsLast (fun _ _ _ kept admitted => step_kept kept admitted)
    (fun _ kept => kept.clean) (new_kept pooled) keeps

/-- A message is posted while the connection is closing. `connectDestroyed` goes into
the same batch, though the thread has dropped its pointer. -/
theorem posted_in_time_alive :
    Throughout step NotDangled (new false)
      [.hold, .release, .test .send, .handleClose, .closeCallback, .post 0, .release,
        .closeReturned, .swapFunctors .ioLoop, .callFunctor .ioLoop false,
        .callFunctor .ioLoop false, .finishFunctors .ioLoop] :=
  posted_functors_not_dangling false _ (by decide)

/-- The thread has tested `state_` and posts `sendInLoop` when `connectDestroyed` is
already in the batch that is called. It drops its pointer, the batch ends and with it
the connection, and the next batch has the functor. -/
theorem late_functor_dangles :
    ∃ p, run step (new false)
      [.hold, .release, .test .send, .handleClose, .closeCallback, .closeReturned,
        .swapFunctors .ioLoop, .post 0, .release, .callFunctor .ioLoop false,
        .finishFunctors .ioLoop, .swapFunctors .ioLoop, .callFunctor .ioLoop false] = .ok p ∧
      p.references = 0 ∧ ¬NotDangled p := by
  refine ⟨_, rfl, rfl, ?_⟩
  unfold NotDangled
  decide

end Shared

end Msmuduo.Lifetime
