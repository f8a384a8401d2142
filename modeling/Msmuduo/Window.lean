import Mathlib.Data.List.Basic

/-!
# Windows of a flat cell store

A contiguous store is a list of cells; a window is the part between two
indices. The lemmas say how the window changes when cells are written behind
it, in front of it, moved towards the front one cell at a time, or when an
index moves. They hold for any cell type.
-/

namespace Msmuduo.Window

set_option autoImplicit false

universe u

variable {Cell : Type u}

/-- The cells at the indices `first ≤ i < last`. -/
def window (cells : List Cell) (first last : Nat) : List Cell :=
  (cells.take last).drop first

/-- Writes `data` over the cells from index `start` on. -/
def overwrite (cells : List Cell) (start : Nat) (data : List Cell) : List Cell :=
  cells.take start ++ data ++ cells.drop (start + data.length)

/-- Copies `count` cells from `source` on to `target` on, lowest index first.
Each cell is read after the earlier ones were written, so a target range that
overlaps the source range is read back partly overwritten. -/
def copyForward (cells : List Cell) (source target : Nat) : Nat → List Cell
  | 0 => cells
  | count + 1 =>
      match cells[source]? with
      | none => cells
      | some cell =>
          copyForward (cells.set target cell) (source + 1) (target + 1) count

/-- Grows the store with `filler` cells, or cuts it, to exactly `size`. -/
def resize (cells : List Cell) (size : Nat) (filler : Cell) : List Cell :=
  cells.take size ++ List.replicate (size - cells.length) filler

@[simp]
theorem length_window (cells : List Cell) (first last : Nat) :
    (window cells first last).length = min last cells.length - first := by
  simp [window]

@[simp]
theorem length_resize (cells : List Cell) (size : Nat) (filler : Cell) :
    (resize cells size filler).length = size := by
  simp [resize]
  omega

theorem length_overwrite (cells : List Cell) (start : Nat) (data : List Cell)
    (room : start + data.length ≤ cells.length) :
    (overwrite cells start data).length = cells.length := by
  simp [overwrite]
  omega

@[simp]
theorem length_copyForward (cells : List Cell) (source target count : Nat) :
    (copyForward cells source target count).length = cells.length := by
  induction count generalizing cells source target with
  | zero => rfl
  | succ count ih =>
      unfold copyForward
      split
      · rfl
      · rw [ih, List.length_set]

theorem window_self (cells : List Cell) (index : Nat) :
    window cells index index = [] := by
  simp [window]

/-- The cells between two indices, read off from a split of the sequence. -/
theorem window_split (front middle back : List Cell) {cells : List Cell} {first last : Nat}
    (split : cells = front ++ middle ++ back) (firstEq : first = front.length)
    (lastEq : last = first + middle.length) : window cells first last = middle := by
  subst split firstEq lastEq
  unfold window
  rw [← List.length_append, List.take_left, List.drop_left]

theorem window_advance (cells : List Cell) (first last count : Nat) :
    window cells (first + count) last = (window cells first last).drop count := by
  simp [window]

theorem window_retract (cells : List Cell) (first last count : Nat)
    (inside : last ≤ cells.length) :
    window cells first (last - count) =
      (window cells first last).take ((window cells first last).length - count) := by
  rw [length_window, Nat.min_eq_left inside]
  unfold window
  rw [List.take_drop, List.take_take]
  by_cases behind : count + first ≤ last
  · have kept : min (first + (last - first - count)) last = last - count := by omega
    rw [kept]
  · have emptied : last - count ≤ first := by omega
    have kept : min (first + (last - first - count)) last ≤ first := by omega
    rw [List.drop_eq_nil_of_le (by rw [List.length_take]; omega),
      List.drop_eq_nil_of_le (by rw [List.length_take]; omega)]

theorem window_resize (cells : List Cell) (first last size : Nat) (filler : Cell)
    (inside : last ≤ cells.length) (grows : last ≤ size) :
    window (resize cells size filler) first last = window cells first last := by
  unfold window resize
  rw [List.take_append_of_le_length (by rw [List.length_take]; omega),
    List.take_take, Nat.min_eq_left grows]

/-- Cells written directly behind a window extend it at the back. -/
theorem window_overwrite_back (cells : List Cell) (first last : Nat)
    (data : List Cell) (ordered : first ≤ last)
    (room : last + data.length ≤ cells.length) :
    window (overwrite cells last data) first (last + data.length) =
      window cells first last ++ data := by
  have front : (cells.take last).length = last := by
    rw [List.length_take]
    omega
  have extended : (cells.take last ++ data).length = last + data.length := by
    rw [List.length_append, front]
  have written : (overwrite cells last data).take (last + data.length) =
      cells.take last ++ data := by
    unfold overwrite
    rw [List.take_append_of_le_length (Nat.le_of_eq extended.symm),
      List.take_of_length_le (Nat.le_of_eq extended)]
  unfold window
  rw [written, List.drop_append_of_le_length (by rw [front]; exact ordered)]

/-- Cells written over a stretch of the same length. -/
theorem overwrite_split (front : List Cell) {middle data : List Cell} (back : List Cell)
    (length : data.length = middle.length) :
    overwrite (front ++ middle ++ back) front.length data = front ++ data ++ back := by
  have kept : (front ++ middle ++ back).take front.length = front := by
    rw [List.append_assoc, List.take_left]
  have behind : (front ++ middle ++ back).drop (front.length + data.length) = back := by
    rw [length, ← List.length_append, List.drop_left]
  rw [overwrite, kept, behind]

/-- A cell and the cells behind it are written one after the other. -/
theorem overwrite_set (cells : List Cell) (start : Nat) (cell : Cell) (data : List Cell)
    (inside : start < cells.length) :
    overwrite (cells.set start cell) (start + 1) data = overwrite cells start (cell :: data) := by
  have front : (cells.take start).length = start := by
    rw [List.length_take]
    omega
  have one : (cells.take start ++ [cell]).length = start + 1 := by
    rw [List.length_append, front]
    rfl
  have split : cells.set start cell = cells.take start ++ [cell] ++ cells.drop (start + 1) := by
    rw [List.set_eq_take_append_cons_drop, if_pos inside, List.append_assoc]
    rfl
  have behind : start + 1 + data.length = start + (cell :: data).length := by
    rw [List.length_cons]
    omega
  have back : (cells.set start cell).drop (start + 1 + data.length) =
      cells.drop (start + (cell :: data).length) := by
    rw [← behind, List.drop_set_of_lt (by omega)]
  unfold overwrite
  rw [back, split, ← one, List.take_left, List.append_assoc (cells.take start)]
  rfl

/-- Cells written directly in front of a window extend it at the front. -/
theorem window_overwrite_front (cells : List Cell) (start last : Nat)
    (data : List Cell) (ordered : start + data.length ≤ last)
    (inside : last ≤ cells.length) :
    window (overwrite cells start data) start last =
      data ++ window cells (start + data.length) last := by
  have front : (cells.take start).length = start := by
    rw [List.length_take]
    omega
  unfold window overwrite
  rw [List.append_assoc, List.take_append, List.drop_append, front,
    List.drop_eq_nil_of_le (by rw [List.length_take, front]; omega),
    List.nil_append, List.length_take, front, Nat.min_eq_right (by omega),
    Nat.sub_self, List.drop_zero, List.take_append,
    List.take_of_length_le (by omega), List.drop_take]
  have rest : last - start - data.length = last - (start + data.length) := by omega
  rw [rest]

/-- The cells in front of the target range are not touched by the copy. -/
theorem getElem?_copyForward_before (cells : List Cell)
    (source target count index : Nat) (before : index < target) :
    (copyForward cells source target count)[index]? = cells[index]? := by
  induction count generalizing cells source target with
  | zero => rfl
  | succ count ih =>
      unfold copyForward
      split
      · rfl
      · rw [ih _ _ _ (by omega), List.getElem?_set_ne (by omega)]

/-- A copy towards the front reads every source cell before it is written,
so the target range ends up with the old source range. -/
theorem getElem?_copyForward (cells : List Cell)
    (source target count offset : Nat) (forward : target ≤ source)
    (room : source + count ≤ cells.length) (within : offset < count) :
    (copyForward cells source target count)[target + offset]? =
      cells[source + offset]? := by
  induction count generalizing cells source target offset with
  | zero => omega
  | succ count ih =>
      have sourceBound : source < cells.length := by omega
      unfold copyForward
      rw [List.getElem?_eq_getElem sourceBound]
      dsimp only
      cases offset with
      | zero =>
          simp only [Nat.add_zero]
          rw [getElem?_copyForward_before _ _ _ _ _ (by omega),
            List.getElem?_set_self (by omega), List.getElem?_eq_getElem sourceBound]
      | succ offset =>
          have step := ih (cells.set target cells[source]) (source + 1) (target + 1)
            offset (by omega) (by rw [List.length_set]; omega) (by omega)
          have targetIndex : target + (offset + 1) = target + 1 + offset := by omega
          have sourceIndex : source + (offset + 1) = source + 1 + offset := by omega
          rw [targetIndex, step, List.getElem?_set_ne (by omega), sourceIndex]

theorem window_copyForward (cells : List Cell) (source target count : Nat)
    (forward : target ≤ source) (room : source + count ≤ cells.length) :
    window (copyForward cells source target count) target (target + count) =
      window cells source (source + count) := by
  apply List.ext_getElem?
  intro offset
  unfold window
  rw [List.getElem?_drop, List.getElem?_drop]
  by_cases within : offset < count
  · rw [List.getElem?_take_of_lt (by omega), List.getElem?_take_of_lt (by omega)]
    exact getElem?_copyForward cells source target count offset forward room within
  · rw [List.getElem?_eq_none (by rw [List.length_take]; omega),
      List.getElem?_eq_none (by rw [List.length_take]; omega)]

end Msmuduo.Window
