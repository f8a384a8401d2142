import Msmuduo.AsyncLoggingOrder

/-!
# Stopping the logger

`stop` clears `running_` and waits for the backend, which leaves its loop at the
next test of the flag and does not look at the buffers of the front end again. So
whether the last lines are written is decided by where the backend is when the
flag is cleared: in front of a swap it takes them, anywhere else it does not.
-/

namespace Msmuduo.AsyncLogging

open Msmuduo.Machine

set_option autoImplicit false

variable {size : Nat}

/-- The test of `running_` has passed and the swap is still to come. -/
def WillSwap (l : AsyncLogging size) : Prop := l.stage = .lock ∨ l.stage = .wait

instance (l : AsyncLogging size) : Decidable l.WillSwap :=
  inferInstanceAs (Decidable (_ ∨ _))

/-! ## After the flag is cleared -/

/-- The flag is cleared, and `rest` is what the backend will leave in front. -/
structure Leaves (rest : List Byte) (l : AsyncLogging size) : Prop where
  sound : Sound l
  cleared : l.running = false
  stopping : l.owner = .stopping ∨ l.owner = .stopped ∧ l.stage = .exited
  left : l.WillSwap ∧ rest = [] ∨ ¬l.WillSwap ∧ l.inFront = rest

theorem swap_inFront {l next : AsyncLogging size} (sound : Sound l) (willSwap : l.WillSwap)
    (swapped : l.swap = .ok next) : ¬next.WillSwap ∧ next.inFront = [] := by
  have inHand := sound.inHand
  have drained : Spare l.newBuffer1 ∧ l.buffersToWrite = [] := by
    unfold InHand at inHand
    rcases willSwap with stage | stage <;> rw [stage] at inHand <;>
      exact ⟨inHand.1, inHand.2.2⟩
  rcases drained with ⟨⟨spare, first, empty⟩, drained⟩
  unfold swap at swapped
  rw [first] at swapped
  dsimp only at swapped
  split at swapped <;> cases swapped <;> simp [WillSwap, inFront, contents, drained, empty]

/-- Away from the swap the backend leaves the front alone, and with the flag
cleared it does not come to the swap again. -/
theorem threadFunc_inFront {l next : AsyncLogging size} (cleared : l.running = false)
    (away : ¬l.WillSwap) (ran : l.threadFunc = .ok next) :
    ¬next.WillSwap ∧ next.inFront = l.inFront := by
  unfold threadFunc at ran
  split at ran
  · split at ran
    · cases ran
      exact ⟨away, rfl⟩
    · rcases bind_ok_inv ran with ⟨-, -, done⟩
      cases done
      exact ⟨by simp [WillSwap], rfl⟩
  · cases ran
    exact ⟨by simp [WillSwap, cleared], rfl⟩
  · next stage => exact absurd (Or.inl stage) away
  · next stage => exact absurd (Or.inr stage) away
  · rcases bind_ok_inv ran with ⟨-, -, done⟩
    split at done <;> cases done <;> exact ⟨by simp [WillSwap], rfl⟩
  · split at ran <;> cases ran <;> exact ⟨by simp [WillSwap], rfl⟩
  · unfold recycle at ran
    rcases bind_ok_inv ran with ⟨first, -, more⟩
    rcases bind_ok_inv more with ⟨second, -, done⟩
    cases done
    exact ⟨by simp [WillSwap], rfl⟩
  · cases ran
    exact ⟨away, rfl⟩

/-- The part of `left` for one step of the backend. -/
theorem threadFunc_left {rest : List Byte} {l next : AsyncLogging size} (leaves : Leaves rest l)
    (ran : l.threadFunc = .ok next) :
    next.WillSwap ∧ rest = [] ∨ ¬next.WillSwap ∧ next.inFront = rest := by
  rcases leaves.left with ⟨willSwap, rfl⟩ | ⟨away, same⟩
  · rcases willSwap with stage | stage
    · simp only [threadFunc, stage] at ran
      split at ran
      · cases ran
        exact Or.inl ⟨Or.inr rfl, rfl⟩
      · exact Or.inr (swap_inFront leaves.sound (Or.inl stage) ran)
    · simp only [threadFunc, stage] at ran
      exact Or.inr (swap_inFront leaves.sound (Or.inr stage) ran)
  · rcases threadFunc_inFront leaves.cleared away ran with ⟨still, unchanged⟩
    exact Or.inr ⟨still, unchanged.trans same⟩

theorem step_leaves {rest : List Byte} {l next : AsyncLogging size} {event : Event size}
    (leaves : Leaves rest l) (silent : lines [event] = []) (taken : l.step event = .ok next) :
    Leaves rest next := by
  have sound : Sound next := by
    rcases step_sound leaves.sound event with ⟨other, same, after⟩
    cases taken.symm.trans same
    exact after
  cases event with
  | append logline memory => cases silent
  | backend =>
      rcases threadFunc_frame taken with ⟨-, running, owner⟩
      refine ⟨sound, running.trans leaves.cleared, ?_, threadFunc_left leaves taken⟩
      rcases leaves.stopping with stopping | ⟨stopped, exited⟩
      · exact Or.inl (owner.trans stopping)
      · simp only [step, threadFunc, exited] at taken
        cases taken
        exact Or.inr ⟨stopped, exited⟩
  | stopReturns =>
      simp only [step] at taken
      split at taken
      · next possible =>
        cases taken
        exact ⟨sound, leaves.cleared, Or.inr ⟨rfl, possible.2⟩, leaves.left⟩
      · cases taken
        exact leaves
  | _ =>
      -- The owner is behind its call of `start` and of `stop`.
      have elsewhere : l.owner = .stopping ∨ l.owner = .stopped :=
        leaves.stopping.imp_right And.left
      have same : l = next := by
        rcases elsewhere with owner | owner <;> simpa [step, owner] using taken
      rw [← same]
      exact leaves

theorem run_leaves {rest : List Byte} {l final : AsyncLogging size} {events : List (Event size)}
    (leaves : Leaves rest l) (silent : lines events = [])
    (ran : run step l events = .ok final) : Leaves rest final := by
  induction events generalizing l with
  | nil =>
      cases ran
      exact leaves
  | cons event later ih =>
      rw [lines_cons, List.append_eq_nil_iff] at silent
      rcases run_cons_inv ran with ⟨next, taken, ranLater⟩
      exact ih (step_leaves leaves silent.1 taken) silent.2 ranLater

/-! ## What is written when `stop` returns -/

theorem length_accepted_le (size : Nat) (lines : List (List Byte)) :
    (accepted size lines).flatten.length ≤ lines.flatten.length := by
  induction lines with
  | nil => exact Nat.le_refl 0
  | cons line rest ih =>
      simp only [accepted, List.filter_cons, List.flatten_cons, List.length_append] at ih ⊢
      split
      · simp only [List.flatten_cons, List.length_append]
        omega
      · omega

/-- A line that was passed by is missing from the bytes. -/
theorem short_of_length_accepted (positive : 0 < size) {lines : List (List Byte)}
    (same : (accepted size lines).flatten.length = lines.flatten.length) :
    ∀ line ∈ lines, line.length < size := by
  induction lines with
  | nil => simp
  | cons line rest ih =>
      have bound := length_accepted_le size rest
      simp only [accepted, List.filter_cons, List.flatten_cons, List.length_append] at same bound
      split at same
      · next short =>
        simp only [List.flatten_cons, List.length_append] at same
        rw [List.forall_mem_cons]
        exact ⟨of_decide_eq_true short, ih (Nat.add_left_cancel same)⟩
      · next long =>
        have least : ¬line.length < size := fun short => long (decide_eq_true short)
        omega

/-- For every run in which the owner calls `stop` and nothing is appended any
more, with at most 25 buffers in a batch: when `stop` has returned, every line was
passed to the output if and only if each line fits into a buffer and, when the
flag was cleared, the backend was in front of a swap or everything appended was
already taken. -/
theorem stop_flushes_iff (positive : 0 < size) {before after : List (Event size)}
    {l final : AsyncLogging size} (ran : run step (new size) before = .ok l)
    (started : l.owner = .started) (stopped : run step l (.stop :: after) = .ok final)
    (returned : final.owner = .stopped) (silent : lines after = [])
    (small : ∀ batch ∈ final.taken, batch.length ≤ 25) :
    written final.output = (lines before).flatten ↔
      (∀ line ∈ lines before, line.length < size) ∧ (l.WillSwap ∨ l.inFront = []) := by
  rcases run_cons_inv stopped with ⟨cleared, taken, later⟩
  have appended : final.appended = lines before := by
    rw [run_appended stopped, run_appended ran, lines_cons, silent]
    exact List.append_nil _
  have sound : Sound l := by
    rcases run_sound (new_sound size) before with ⟨other, same, sound⟩
    cases ran.symm.trans same
    exact sound
  have clearedSound : Sound cleared := by
    rcases step_sound sound .stop with ⟨other, same, after⟩
    cases taken.symm.trans same
    exact after
  simp only [step, if_pos started] at taken
  cases taken
  -- What will be left, decided when the flag is cleared.
  let rest := if l.WillSwap then [] else l.inFront
  have leaves : Leaves rest { l with running := false, owner := .stopping } := by
    refine ⟨clearedSound, rfl, Or.inl rfl, ?_⟩
    by_cases willSwap : l.WillSwap
    · exact Or.inl ⟨willSwap, if_pos willSwap⟩
    · exact Or.inr ⟨willSwap, (if_neg willSwap).symm⟩
  have ends := run_leaves leaves silent later
  have exited : final.stage = .exited := by
    rcases ends.stopping with stopping | ⟨-, exited⟩
    · cases returned.symm.trans stopping
    · exact exited
  have left : final.inFront = rest := by
    rcases ends.left with ⟨stage | stage, -⟩ | ⟨-, left⟩
    · cases exited.symm.trans stage
    · cases exited.symm.trans stage
    · exact left
  have front := ends.sound.front
  have back := ends.sound.back
  rw [map_kept small, unwritten, exited, List.flatten_nil, List.append_nil] at back
  rw [← back, left, appended] at front
  constructor
  · intro all
    have length := length_accepted_le size (lines before)
    rw [← front, all, List.length_append] at length
    have nothing : rest = [] := List.eq_nil_of_length_eq_zero (by omega)
    refine ⟨short_of_length_accepted positive ?_, ?_⟩
    · rw [← front, all, nothing, List.append_nil]
    · by_cases willSwap : l.WillSwap
      · exact Or.inl willSwap
      · exact Or.inr ((if_neg willSwap).symm.trans nothing)
  · rintro ⟨short, taken⟩
    have nothing : rest = [] := by
      rcases taken with willSwap | empty
      · exact if_pos willSwap
      · dsimp only [rest]
        rw [empty, ite_self]
    rw [nothing, List.append_nil, accepted_all short] at front
    exact front

/-- The backend waits for lines when the flag is cleared. -/
theorem waiting_backend_flushes :
    ∃ l final,
      run step (new 4) [.start, .backend, .startReturns, .backend, .backend,
        .append [1] ⟨[9, 9, 9, 9], rfl⟩] = .ok l ∧
      run step l [.stop, .backend, .backend, .backend, .backend, .backend, .backend,
        .stopReturns] = .ok final ∧
      final.owner = .stopped ∧ written final.output = [1] := by
  refine ⟨_, _, rfl, rfl, rfl, ?_⟩
  apply (stop_flushes_iff (by decide)
    (rfl : run step (new 4) [.start, .backend, .startReturns, .backend, .backend,
      .append [1] ⟨[9, 9, 9, 9], rfl⟩] = .ok _) rfl
    (rfl : run step _ (.stop :: [.backend, .backend, .backend, .backend, .backend, .backend,
      .stopReturns]) = .ok _) rfl rfl (by decide)).mpr
  decide

/-- The backend has not come to its first test when the flag is cleared. -/
theorem testing_backend_loses_line :
    ∃ final, run step (new 4)
        [.start, .backend, .startReturns, .append [1] ⟨[9, 9, 9, 9], rfl⟩, .stop, .backend,
          .stopReturns] = .ok final ∧
      final.owner = .stopped ∧ written final.output = [] :=
  ⟨_, rfl, rfl, rfl⟩

end Msmuduo.AsyncLogging
