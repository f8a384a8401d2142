import Mathlib.Data.List.Basic

/-!
# Reading a sequence in pieces

A reader takes a sequence in pieces. A piece ends behind the first stop, at a
limit, or where the sequence ends, whichever comes first. Reading that begins
later never takes more pieces, so a sequence put together from parts, each of
which could be a piece, is read in at most as many pieces as there are parts.
-/

namespace Msmuduo.Pieces

set_option autoImplicit false

universe u

variable {Cell : Type u}

/-- What could be a piece: no longer than the limit, and a stop only at the end. -/
structure Piece (stop : Cell) (limit : Nat) (cells : List Cell) : Prop where
  short : cells.length ≤ limit
  clean : stop ∉ cells.dropLast

theorem Piece.of_suffix {stop : Cell} {limit : Nat} {front cells : List Cell}
    (piece : Piece stop limit cells) (suffix : front <:+ cells) : Piece stop limit front where
  short := Nat.le_trans suffix.length_le piece.short
  clean := by
    rcases suffix with ⟨before, rfl⟩
    by_cases empty : front = []
    · simp [empty]
    · intro member
      apply piece.clean
      rw [List.dropLast_append_of_ne_nil empty]
      exact List.mem_append_right _ member

variable [DecidableEq Cell]

/-- The first piece and what is behind it. -/
def nextPiece (stop : Cell) : Nat → List Cell → List Cell × List Cell
  | 0, cells => ([], cells)
  | _ + 1, [] => ([], [])
  | limit + 1, cell :: cells =>
      if cell = stop then ([cell], cells)
      else (cell :: (nextPiece stop limit cells).1, (nextPiece stop limit cells).2)

theorem nextPiece_zero (stop : Cell) (cells : List Cell) :
    nextPiece stop 0 cells = ([], cells) := by
  cases cells <;> rfl

theorem nextPiece_nil (stop : Cell) (limit : Nat) : nextPiece stop limit [] = ([], []) := by
  cases limit <;> rfl

theorem nextPiece_append (stop : Cell) (limit : Nat) (cells : List Cell) :
    (nextPiece stop limit cells).1 ++ (nextPiece stop limit cells).2 = cells := by
  fun_induction nextPiece stop limit cells with
  | case1 cells => rfl
  | case2 limit => rfl
  | case3 limit cells => rfl
  | case4 limit cell cells elsewhere ih => rw [List.cons_append, ih]

/-- A stretch without a stop is read up to the limit. -/
theorem nextPiece_stretch {stop : Cell} {limit : Nat} {front : List Cell} (back : List Cell)
    (clean : stop ∉ front) (short : front.length ≤ limit) :
    nextPiece stop limit (front ++ back) =
      (front ++ (nextPiece stop (limit - front.length) back).1,
        (nextPiece stop (limit - front.length) back).2) := by
  induction front generalizing limit with
  | nil => rfl
  | cons cell front ih =>
      cases limit with
      | zero => exact absurd short (by simp)
      | succ limit =>
          have other : cell ≠ stop := fun same => clean (by simp [same])
          have rest := ih (fun member => clean (List.mem_cons_of_mem _ member))
            (Nat.le_of_succ_le_succ short)
          rw [List.cons_append, nextPiece, if_neg other, rest, List.length_cons,
            Nat.add_sub_add_right]
          rfl

/-- A piece that ends at a stop. -/
theorem nextPiece_stop {stop : Cell} {limit : Nat} {front : List Cell} (back : List Cell)
    (clean : stop ∉ front) (short : front.length < limit) :
    nextPiece stop limit (front ++ stop :: back) = (front ++ [stop], back) := by
  have room : limit - front.length = (limit - front.length - 1) + 1 := by omega
  rw [nextPiece_stretch _ clean (Nat.le_of_lt short), room, nextPiece, if_pos rfl]

/-- A piece that ends at the limit. -/
theorem nextPiece_full {stop : Cell} {front : List Cell} (back : List Cell)
    (clean : stop ∉ front) : nextPiece stop front.length (front ++ back) = (front, back) := by
  rw [nextPiece_stretch _ clean (Nat.le_refl _), Nat.sub_self, nextPiece_zero, List.append_nil]

/-- A piece that ends where the sequence does. -/
theorem nextPiece_last {stop : Cell} {limit : Nat} {cells : List Cell} (clean : stop ∉ cells)
    (short : cells.length ≤ limit) : nextPiece stop limit cells = (cells, []) := by
  have stretch : nextPiece stop limit (cells ++ []) = _ := nextPiece_stretch [] clean short
  rwa [List.append_nil, nextPiece_nil, List.append_nil] at stretch

/-- What is behind a stop does not matter in front of it. -/
theorem nextPiece_append_stop (stop : Cell) (limit : Nat) (front back : List Cell) :
    nextPiece stop limit (front ++ stop :: back) =
      ((nextPiece stop limit (front ++ [stop])).1,
        (nextPiece stop limit (front ++ [stop])).2 ++ back) := by
  induction front generalizing limit with
  | nil =>
      cases limit with
      | zero => rfl
      | succ limit =>
          rw [List.nil_append, List.nil_append, nextPiece, nextPiece, if_pos rfl, if_pos rfl]
          rfl
  | cons cell front ih =>
      cases limit with
      | zero =>
          rw [nextPiece_zero, nextPiece_zero, List.append_assoc]
          rfl
      | succ limit =>
          rw [List.cons_append, List.cons_append, nextPiece, nextPiece]
          split
          · rw [List.append_assoc]
            rfl
          · rw [ih]

theorem length_rest_lt (stop : Cell) {limit : Nat} (positive : 0 < limit) {cells : List Cell}
    (nonempty : cells ≠ []) : (nextPiece stop limit cells).2.length < cells.length := by
  cases limit with
  | zero => exact absurd positive (Nat.lt_irrefl 0)
  | succ limit =>
      cases cells with
      | nil => exact absurd rfl nonempty
      | cons cell cells =>
          have whole := congrArg List.length (nextPiece_append stop limit cells)
          rw [List.length_append] at whole
          unfold nextPiece
          split
          · exact Nat.lt_succ_self _
          · change (nextPiece stop limit cells).2.length < cells.length + 1
            omega

/-- The pieces of a sequence. -/
def pieces (stop : Cell) (limit : Nat) (positive : 0 < limit) (cells : List Cell) :
    List (List Cell) :=
  if cells = [] then []
  else
    (nextPiece stop limit cells).1 :: pieces stop limit positive (nextPiece stop limit cells).2
termination_by cells.length
decreasing_by exact length_rest_lt stop positive ‹_›

section

variable {stop : Cell} {limit : Nat} {positive : 0 < limit}

theorem pieces_nil : pieces stop limit positive [] = [] := by
  rw [pieces, if_pos rfl]

theorem pieces_next {cells : List Cell} (nonempty : cells ≠ []) :
    pieces stop limit positive cells =
      (nextPiece stop limit cells).1 ::
        pieces stop limit positive (nextPiece stop limit cells).2 := by
  rw [pieces, if_neg nonempty]

/-- A short part that ends with a stop is a piece. -/
theorem pieces_stop {front : List Cell} (back : List Cell) (clean : stop ∉ front)
    (short : front.length < limit) :
    pieces stop limit positive (front ++ stop :: back) =
      (front ++ [stop]) :: pieces stop limit positive back := by
  rw [pieces_next (by simp), nextPiece_stop back clean short]

/-- So is a short part at the end. -/
theorem pieces_last {cells : List Cell} (nonempty : cells ≠ []) (clean : stop ∉ cells)
    (short : cells.length ≤ limit) : pieces stop limit positive cells = [cells] := by
  rw [pieces_next nonempty, nextPiece_last clean short, pieces_nil]

/-- A part without a stop is cut at the limit. -/
theorem pieces_cut {front : List Cell} (back : List Cell) (clean : stop ∉ front)
    (full : front.length = limit) :
    pieces stop limit positive (front ++ back) = front :: pieces stop limit positive back := by
  have nonempty : front ++ back ≠ [] := by
    intro empty
    rw [(List.append_eq_nil_iff.mp empty).1] at full
    exact absurd full (Nat.ne_of_lt positive)
  have piece := nextPiece_full back clean
  rw [full] at piece
  rw [pieces_next nonempty, piece]

/-- The rest of a part that ends with a stop is empty or ends with it too. -/
theorem rest_ends_with_stop (stop : Cell) (limit : Nat) (front : List Cell) :
    (nextPiece stop limit (front ++ [stop])).2 = [] ∨
      ∃ later, (nextPiece stop limit (front ++ [stop])).2 = later ++ [stop] := by
  induction front generalizing limit with
  | nil =>
      cases limit with
      | zero => exact Or.inr ⟨[], rfl⟩
      | succ limit =>
          rw [List.nil_append, nextPiece, if_pos rfl]
          exact Or.inl rfl
  | cons cell front ih =>
      cases limit with
      | zero => exact Or.inr ⟨cell :: front, rfl⟩
      | succ limit =>
          rw [List.cons_append, nextPiece]
          split
          · exact Or.inr ⟨front, rfl⟩
          · exact ih limit

/-- Behind a stop a new piece begins. -/
theorem pieces_append_stop (front back : List Cell) :
    pieces stop limit positive (front ++ stop :: back) =
      pieces stop limit positive (front ++ [stop]) ++ pieces stop limit positive back := by
  have whole : front ++ stop :: back ≠ [] := by simp
  have ended : front ++ [stop] ≠ [] := by simp
  have shorter := length_rest_lt stop positive ended
  rw [pieces_next whole, nextPiece_append_stop, pieces_next ended]
  rcases rest_ends_with_stop stop limit front with none | ⟨later, some⟩
  · rw [none, pieces_nil]
    rfl
  · rw [some, List.length_append, List.length_append] at shorter
    have smaller : later.length < front.length := Nat.lt_of_add_lt_add_right shorter
    rw [some, List.append_assoc]
    exact congrArg _ (pieces_append_stop later back)
termination_by front.length

/-! ### The number of pieces -/

theorem nextPiece_piece (stop : Cell) (limit : Nat) (cells : List Cell) :
    Piece stop limit (nextPiece stop limit cells).1 := by
  fun_induction nextPiece stop limit cells with
  | case1 cells => exact ⟨Nat.le_refl _, by simp⟩
  | case2 limit => exact ⟨Nat.zero_le _, by simp⟩
  | case3 limit cells => exact ⟨by simp, by simp⟩
  | case4 limit cell cells elsewhere ih =>
      refine ⟨Nat.succ_le_succ ih.short, ?_⟩
      cases read : (nextPiece stop limit cells).1 with
      | nil => simp
      | cons next later =>
          have clean := ih.clean
          rw [read] at clean
          rw [List.dropLast_cons_of_ne_nil (by simp), List.mem_cons]
          rintro (same | member)
          · exact elsewhere same.symm
          · exact clean member

/-- A part that could be a piece is read in one go, perhaps with more. -/
theorem rest_suffix {front : List Cell} (piece : Piece stop limit front) (back : List Cell) :
    (nextPiece stop limit (front ++ back)).2 <:+ back := by
  induction front generalizing limit with
  | nil => exact ⟨_, nextPiece_append stop limit back⟩
  | cons cell front ih =>
      cases limit with
      | zero => exact absurd piece.short (by simp)
      | succ limit =>
          rw [List.cons_append, nextPiece]
          split
          · next here =>
            -- a stop is the last cell of a piece
            cases front with
            | nil => exact List.suffix_refl _
            | cons next later =>
                refine absurd ?_ piece.clean
                rw [List.dropLast_cons_of_ne_nil (by simp), here]
                exact List.mem_cons_self
          · exact ih ⟨Nat.le_of_succ_le_succ piece.short,
              (piece.of_suffix (List.suffix_cons _ _)).clean⟩

/-- Reading that begins later takes no more pieces. -/
theorem length_pieces_suffix {back cells : List Cell} (suffix : back <:+ cells) :
    (pieces stop limit positive back).length ≤ (pieces stop limit positive cells).length := by
  by_cases empty : back = []
  · rw [empty, pieces_nil]
    exact Nat.zero_le _
  · have nonempty : cells ≠ [] := by
      rintro rfl
      exact empty (List.suffix_nil.mp suffix)
    have whole := nextPiece_append stop limit cells
    have shorter := length_rest_lt stop positive nonempty
    rw [pieces_next nonempty, List.length_cons]
    rcases List.suffix_or_suffix_of_suffix suffix ⟨_, whole⟩ with later | ⟨part, same⟩
    · exact Nat.le_succ_of_le (length_pieces_suffix later)
    · -- the later reading begins inside the first piece
      have inside : part <:+ (nextPiece stop limit cells).1 := by
        rcases suffix with ⟨before, split⟩
        have both : before ++ part ++ (nextPiece stop limit cells).2 =
            (nextPiece stop limit cells).1 ++ (nextPiece stop limit cells).2 := by
          rw [List.append_assoc, same, split, whole]
        exact ⟨before, List.append_cancel_right both⟩
      have rest := rest_suffix ((nextPiece_piece stop limit cells).of_suffix inside)
        (nextPiece stop limit cells).2
      rw [same] at rest
      rw [pieces_next empty, List.length_cons]
      exact Nat.succ_le_succ (length_pieces_suffix rest)
termination_by cells.length

/-- A part that could be a piece adds at most one piece to what is behind it. -/
theorem length_pieces_append (positive : 0 < limit) {front : List Cell}
    (piece : Piece stop limit front) (back : List Cell) :
    (pieces stop limit positive (front ++ back)).length ≤
      (pieces stop limit positive back).length + 1 := by
  by_cases empty : front ++ back = []
  · rw [empty, pieces_nil]
    exact Nat.zero_le _
  · rw [pieces_next empty, List.length_cons]
    exact Nat.succ_le_succ (length_pieces_suffix (rest_suffix piece back))

theorem length_pieces_flatten (positive : 0 < limit) {parts : List (List Cell)}
    (back : List Cell) (each : ∀ part ∈ parts, Piece stop limit part) :
    (pieces stop limit positive (parts.flatten ++ back)).length ≤
      parts.length + (pieces stop limit positive back).length := by
  induction parts with
  | nil => simp
  | cons part parts ih =>
      have first := length_pieces_append positive (each part (by simp)) (parts.flatten ++ back)
      have rest := ih fun part member => each part (List.mem_cons_of_mem _ member)
      rw [List.flatten_cons, List.append_assoc, List.length_cons]
      omega

end

end Msmuduo.Pieces
