import Mathlib.Data.List.Nodup
import Mathlib.Data.Nat.Log
import Mathlib.Algebra.Order.Ring.Nat

/-!
# Red-black trees and their contexts

A coloured binary tree, the black height of a balanced one, and the contexts
that remain when a subtree is cut out. A context says which black height it
expects in its hole, so that a repair can be followed from the leaves to the
root: putting a subtree of the expected height back gives a balanced tree. The
depth of a balanced tree is logarithmic in the number of its keys.
-/

namespace Msmuduo.RedBlack

set_option autoImplicit false

universe u

inductive Color where
  | red
  | black
  deriving DecidableEq, Repr

/-- The two children of a node. -/
inductive Side where
  | left
  | right
  deriving DecidableEq, Repr

def Side.other : Side → Side
  | .left => .right
  | .right => .left

@[simp]
theorem Side.other_other (side : Side) : side.other.other = side := by
  cases side <;> rfl

theorem Side.other_ne (side : Side) : side.other ≠ side := by
  cases side <;> decide

inductive RbTree (Key : Type u) where
  | leaf
  | node (color : Color) (left : RbTree Key) (key : Key) (right : RbTree Key)
  deriving DecidableEq, Repr

/-- One node on the way to a hole: the hole is its child on the given side. -/
structure Frame (Key : Type u) where
  side : Side
  color : Color
  key : Key
  sibling : RbTree Key

variable {Key : Type u}

namespace RbTree

def inorder : RbTree Key → List Key
  | leaf => []
  | node _ left key right => left.inorder ++ key :: right.inorder

/-- A leaf counts as black. -/
def color : RbTree Key → Color
  | leaf => .black
  | node color _ _ _ => color

def blacken : RbTree Key → RbTree Key
  | leaf => leaf
  | node _ left key right => node .black left key right

/-- The longest way from the root to a leaf, in nodes. -/
def depth : RbTree Key → Nat
  | leaf => 0
  | node _ left _ right => max left.depth right.depth + 1

/-- A node from its child on one side and its child on the other. -/
def join (side : Side) (color : Color) (near : RbTree Key) (key : Key) (far : RbTree Key) :
    RbTree Key :=
  match side with
  | .left => node color near key far
  | .right => node color far key near

/-- No red node has a red child, and every way down meets `height` black
nodes. -/
def HasHeight : Nat → RbTree Key → Prop
  | height, leaf => height = 0
  | height, node .red left _ right =>
      left.color = .black ∧ right.color = .black ∧ HasHeight height left ∧ HasHeight height right
  | height, node .black left _ right =>
      ∃ below, height = below + 1 ∧ HasHeight below left ∧ HasHeight below right

/-- A red-black tree: balanced, with a black root. -/
def IsRedBlack (tree : RbTree Key) : Prop :=
  tree.color = .black ∧ ∃ height, HasHeight height tree

@[simp]
theorem color_join (side : Side) (color : Color) (near : RbTree Key) (key : Key)
    (far : RbTree Key) : (join side color near key far).color = color := by
  cases side <;> rfl

@[simp]
theorem color_blacken (tree : RbTree Key) : tree.blacken.color = .black := by
  cases tree <;> rfl

@[simp]
theorem inorder_blacken (tree : RbTree Key) : tree.blacken.inorder = tree.inorder := by
  cases tree <;> rfl

theorem blacken_black {tree : RbTree Key} (black : tree.color = .black) : tree.blacken = tree := by
  cases tree with
  | leaf => rfl
  | node color left key right =>
      cases black
      rfl

/-- A colour that is not red is black. -/
theorem color_cases (tree : RbTree Key) : tree.color = .red ∨ tree.color = .black := by
  cases tree.color <;> simp

theorem balanced_join_red {side : Side} {height : Nat} {near far : RbTree Key} {key : Key} :
    HasHeight height (join side .red near key far) ↔
      near.color = .black ∧ far.color = .black ∧ HasHeight height near ∧ HasHeight height far := by
  cases side
  · rfl
  · simp only [join, HasHeight]
    tauto

theorem balanced_join_black {side : Side} {height : Nat} {near far : RbTree Key} {key : Key} :
    HasHeight (height + 1) (join side .black near key far) ↔
      HasHeight height near ∧ HasHeight height far := by
  have exact_height : ∀ left right : RbTree Key,
      HasHeight (height + 1) (node .black left key right) ↔
        HasHeight height left ∧ HasHeight height right := by
    intro left right
    constructor
    · rintro ⟨below, same, balancedLeft, balancedRight⟩
      cases same
      exact ⟨balancedLeft, balancedRight⟩
    · rintro ⟨balancedLeft, balancedRight⟩
      exact ⟨height, rfl, balancedLeft, balancedRight⟩
  cases side
  · exact exact_height near far
  · rw [join, exact_height, and_comm]

theorem join_other (side : Side) (color : Color) (near far : RbTree Key) (key : Key) :
    join side.other color near key far = join side color far key near := by
  cases side <;> rfl

theorem inorder_join_perm (side : Side) (color : Color) (near : RbTree Key) (key : Key)
    (far : RbTree Key) :
    (join side color near key far).inorder.Perm (key :: (near.inorder ++ far.inorder)) := by
  cases side with
  | left => exact List.perm_middle
  | right => exact List.perm_middle.trans (List.perm_append_comm.cons key)

theorem mem_join {side : Side} {color : Color} {near far : RbTree Key} {key other : Key} :
    other ∈ (join side color near key far).inorder ↔
      other = key ∨ other ∈ near.inorder ∨ other ∈ far.inorder := by
  rw [(inorder_join_perm side color near key far).mem_iff]
  simp

theorem mem_node {color : Color} {left right : RbTree Key} {key other : Key} :
    other ∈ (node color left key right).inorder ↔
      other = key ∨ other ∈ left.inorder ∨ other ∈ right.inorder := by
  simp only [inorder, List.mem_append, List.mem_cons]
  tauto

theorem nodup_join {side : Side} {color : Color} {near far : RbTree Key} {key : Key} :
    (join side color near key far).inorder.Nodup ↔
      key ∉ near.inorder ∧ key ∉ far.inorder ∧ near.inorder.Nodup ∧ far.inorder.Nodup ∧
        near.inorder.Disjoint far.inorder := by
  rw [(inorder_join_perm side color near key far).nodup_iff, List.nodup_cons, List.nodup_append',
    List.mem_append, not_or, and_assoc]

/-- A rotation keeps the order of the keys. -/
theorem inorder_rotate (side : Side) (upper lower : Color) (near inner far : RbTree Key)
    (key pivot : Key) :
    (join side lower (join side upper near key inner) pivot far).inorder =
      (join side upper near key (join side lower inner pivot far)).inorder := by
  cases side <;> simp [join, inorder]

theorem inorder_recolor (side : Side) (before after : Color) (near far : RbTree Key) (key : Key) :
    (join side before near key far).inorder = (join side after near key far).inorder := by
  cases side <;> rfl

/-- A tree of positive black height has a node at its root. -/
theorem HasHeight.exists_join {tree : RbTree Key} {height : Nat} (side : Side)
    (balanced : HasHeight (height + 1) tree) :
    ∃ color near key far, tree = join side color near key far := by
  cases tree with
  | leaf => cases balanced
  | node color left key right =>
      cases side
      · exact ⟨color, left, key, right, rfl⟩
      · exact ⟨color, right, key, left, rfl⟩

/-- A node seen from one side. -/
theorem exists_join_of_red {tree : RbTree Key} (side : Side) (red : tree.color = .red) :
    ∃ near key far, tree = join side .red near key far := by
  cases tree with
  | leaf => cases red
  | node color left key right =>
      cases red
      cases side
      · exact ⟨left, key, right, rfl⟩
      · exact ⟨right, key, left, rfl⟩

theorem HasHeight.blacken_red {tree : RbTree Key} {height : Nat} (balanced : HasHeight height tree)
    (red : tree.color = .red) : HasHeight (height + 1) tree.blacken := by
  cases tree with
  | leaf => cases red
  | node color left key right =>
      cases red
      exact ⟨height, rfl, balanced.2.2.1, balanced.2.2.2⟩

/-- A balanced tree of black height `height` has at least `2 ^ height - 1`
keys. -/
theorem HasHeight.size_lower {tree : RbTree Key} {height : Nat} (balanced : HasHeight height tree) :
    2 ^ height ≤ tree.inorder.length + 1 := by
  induction tree generalizing height with
  | leaf =>
      cases balanced
      simp
  | node color left key right ihLeft ihRight =>
      simp only [inorder, List.length_append, List.length_cons]
      cases color with
      | red =>
          have enough := ihLeft balanced.2.2.1
          omega
      | black =>
          obtain ⟨below, rfl, balancedLeft, balancedRight⟩ := balanced
          have enoughLeft := ihLeft balancedLeft
          have enoughRight := ihRight balancedRight
          rw [Nat.pow_succ]
          omega

/-- Between two black nodes lies at most one red one. -/
theorem HasHeight.depth_le {tree : RbTree Key} {height : Nat} (balanced : HasHeight height tree) :
    tree.depth ≤ 2 * height + (if tree.color = .red then 1 else 0) := by
  induction tree generalizing height with
  | leaf => simp [depth]
  | node color left key right ihLeft ihRight =>
      cases color with
      | red =>
          obtain ⟨blackLeft, blackRight, balancedLeft, balancedRight⟩ := balanced
          have shortLeft := ihLeft balancedLeft
          have shortRight := ihRight balancedRight
          simp only [blackLeft, blackRight, reduceCtorEq, if_false] at shortLeft shortRight
          simp only [depth, RbTree.color, if_true]
          omega
      | black =>
          obtain ⟨below, rfl, balancedLeft, balancedRight⟩ := balanced
          have shortLeft := ihLeft balancedLeft
          have shortRight := ihRight balancedRight
          have oneLeft : (if left.color = .red then 1 else 0) ≤ 1 := by split <;> simp
          have oneRight : (if right.color = .red then 1 else 0) ≤ 1 := by split <;> simp
          simp only [depth, RbTree.color, reduceCtorEq, if_false]
          omega

/-- The depth of a red-black tree is at most twice the logarithm of its size. -/
theorem IsRedBlack.depth_le {tree : RbTree Key} (redBlack : IsRedBlack tree) :
    tree.depth ≤ 2 * Nat.log 2 (tree.inorder.length + 1) := by
  obtain ⟨black, height, balanced⟩ := redBlack
  have short := balanced.depth_le
  have enough := Nat.le_log_of_pow_le (by omega) balanced.size_lower
  simp only [black, reduceCtorEq, if_false] at short
  omega

end RbTree

open RbTree

/-- The node of the frame with a tree in its hole. -/
def Frame.fill (frame : Frame Key) (tree : RbTree Key) : RbTree Key :=
  join frame.side frame.color tree frame.key frame.sibling

/-- The whole tree around a hole, the innermost frame first. -/
def plug : List (Frame Key) → RbTree Key → RbTree Key
  | [], tree => tree
  | frame :: rest, tree => plug rest (frame.fill tree)

/-- The colour above the hole. Above the root it counts as red, which keeps
the root black. -/
def topColor : List (Frame Key) → Color
  | [] => .red
  | frame :: _ => frame.color

/-- The context is balanced as soon as its hole has the given black height. -/
def Fits : List (Frame Key) → Nat → Prop
  | [], _ => True
  | ⟨_, .red, _, sibling⟩ :: rest, height =>
      HasHeight height sibling ∧ sibling.color = .black ∧ topColor rest = .black ∧ Fits rest height
  | ⟨_, .black, _, sibling⟩ :: rest, height => HasHeight height sibling ∧ Fits rest (height + 1)

/-- The keys to the left of the hole. -/
def keysBefore : List (Frame Key) → List Key
  | [] => []
  | ⟨.left, _, _, _⟩ :: rest => keysBefore rest
  | ⟨.right, _, key, sibling⟩ :: rest => keysBefore rest ++ sibling.inorder ++ [key]

/-- The keys to the right of the hole. -/
def keysAfter : List (Frame Key) → List Key
  | [] => []
  | ⟨.left, _, key, sibling⟩ :: rest => key :: sibling.inorder ++ keysAfter rest
  | ⟨.right, _, _, _⟩ :: rest => keysAfter rest

/-- The keys of the context: those of the frames and of their siblings. -/
def contextKeys : List (Frame Key) → List Key
  | [] => []
  | frame :: rest => frame.key :: (frame.sibling.inorder ++ contextKeys rest)

@[simp]
theorem plug_nil (tree : RbTree Key) : plug [] tree = tree := rfl

@[simp]
theorem plug_cons (frame : Frame Key) (rest : List (Frame Key)) (tree : RbTree Key) :
    plug (frame :: rest) tree = plug rest (frame.fill tree) := rfl

theorem plug_append (inner outer : List (Frame Key)) (tree : RbTree Key) :
    plug (inner ++ outer) tree = plug outer (plug inner tree) := by
  induction inner generalizing tree with
  | nil => rfl
  | cons frame rest ih => exact ih (frame.fill tree)

@[simp]
theorem color_fill (frame : Frame Key) (tree : RbTree Key) :
    (frame.fill tree).color = frame.color := by
  simp [Frame.fill]

theorem inorder_plug (frames : List (Frame Key)) (tree : RbTree Key) :
    (plug frames tree).inorder = keysBefore frames ++ tree.inorder ++ keysAfter frames := by
  induction frames generalizing tree with
  | nil => simp [keysBefore, keysAfter]
  | cons frame rest ih =>
      obtain ⟨side, color, key, sibling⟩ := frame
      rw [plug_cons, ih]
      cases side <;> simp [keysBefore, keysAfter, Frame.fill, join, inorder]

theorem inorder_plug_perm (frames : List (Frame Key)) (tree : RbTree Key) :
    (plug frames tree).inorder.Perm (tree.inorder ++ contextKeys frames) := by
  induction frames generalizing tree with
  | nil => simp [contextKeys]
  | cons frame rest ih =>
      have inner := inorder_join_perm frame.side frame.color tree frame.key frame.sibling
      calc
        (plug rest (frame.fill tree)).inorder.Perm
            ((frame.fill tree).inorder ++ contextKeys rest) := ih _
        List.Perm _ (frame.key :: (tree.inorder ++ frame.sibling.inorder) ++ contextKeys rest) :=
          inner.append_right _
        List.Perm _ (tree.inorder ++ contextKeys (frame :: rest)) := by
          simpa [contextKeys] using (List.perm_middle (a := frame.key)).symm

theorem mem_plug {frames : List (Frame Key)} {tree : RbTree Key} {key : Key} :
    key ∈ (plug frames tree).inorder ↔ key ∈ tree.inorder ∨ key ∈ contextKeys frames := by
  rw [(inorder_plug_perm frames tree).mem_iff, List.mem_append]

theorem nodup_plug {frames : List (Frame Key)} {tree : RbTree Key} :
    (plug frames tree).inorder.Nodup ↔
      tree.inorder.Nodup ∧ (contextKeys frames).Nodup ∧
        tree.inorder.Disjoint (contextKeys frames) := by
  rw [(inorder_plug_perm frames tree).nodup_iff, List.nodup_append']

theorem keysBefore_append (inner outer : List (Frame Key)) :
    keysBefore (inner ++ outer) = keysBefore outer ++ keysBefore inner := by
  induction inner with
  | nil => simp [keysBefore]
  | cons frame rest ih =>
      obtain ⟨side, color, key, sibling⟩ := frame
      cases side <;> simp [keysBefore, ih]

theorem keysAfter_append (inner outer : List (Frame Key)) :
    keysAfter (inner ++ outer) = keysAfter inner ++ keysAfter outer := by
  induction inner with
  | nil => simp [keysAfter]
  | cons frame rest ih =>
      obtain ⟨side, color, key, sibling⟩ := frame
      cases side <;> simp [keysAfter, ih]

theorem fits_red {side : Side} {key : Key} {sibling : RbTree Key} {rest : List (Frame Key)}
    {height : Nat} : Fits (⟨side, .red, key, sibling⟩ :: rest) height ↔
      HasHeight height sibling ∧ sibling.color = .black ∧ topColor rest = .black ∧
        Fits rest height := Iff.rfl

theorem fits_black {side : Side} {key : Key} {sibling : RbTree Key} {rest : List (Frame Key)}
    {height : Nat} : Fits (⟨side, .black, key, sibling⟩ :: rest) height ↔
      HasHeight height sibling ∧ Fits rest (height + 1) := Iff.rfl

/-- The sibling of the hole has the black height the hole expects. -/
theorem Fits.sibling {frame : Frame Key} {rest : List (Frame Key)} {height : Nat}
    (fits : Fits (frame :: rest) height) : HasHeight height frame.sibling := by
  obtain ⟨side, color, key, sibling⟩ := frame
  cases color
  · exact fits.1
  · exact fits.1

/-- A tree is red-black exactly when the context fits the subtree in its hole
and no red node is above another. -/
theorem redBlack_plug (frames : List (Frame Key)) (tree : RbTree Key) :
    IsRedBlack (plug frames tree) ↔
      ∃ height, Fits frames height ∧ HasHeight height tree ∧
        (topColor frames = .red → tree.color = .black) := by
  induction frames generalizing tree with
  | nil =>
      constructor
      · rintro ⟨black, height, balanced⟩
        exact ⟨height, trivial, balanced, fun _ => black⟩
      · rintro ⟨height, -, balanced, black⟩
        exact ⟨black rfl, height, balanced⟩
  | cons frame rest ih =>
      obtain ⟨side, color, key, sibling⟩ := frame
      rw [plug_cons, ih]
      cases color with
      | red =>
          simp only [Frame.fill, balanced_join_red, color_join, fits_red, topColor, reduceCtorEq,
            imp_false, forall_const]
          constructor
          · rintro ⟨height, fits, ⟨blackTree, blackSibling, balanced, balancedSibling⟩, notRed⟩
            have blackTop : topColor rest = .black := by
              cases top : topColor rest with
              | red => exact absurd top notRed
              | black => rfl
            exact ⟨height, ⟨balancedSibling, blackSibling, blackTop, fits⟩, balanced, blackTree⟩
          · rintro ⟨height, ⟨balancedSibling, blackSibling, blackTop, fits⟩, balanced, blackTree⟩
            exact ⟨height, fits, ⟨blackTree, blackSibling, balanced, balancedSibling⟩,
              by simp [blackTop]⟩
      | black =>
          simp only [Frame.fill, color_join, fits_black, topColor, reduceCtorEq, false_imp_iff,
            implies_true, and_true]
          constructor
          · rintro ⟨height, fits, balanced⟩
            cases height with
            | zero =>
                cases side <;> simp [join, HasHeight] at balanced
            | succ below =>
                obtain ⟨balancedTree, balancedSibling⟩ := balanced_join_black.mp balanced
                exact ⟨below, ⟨balancedSibling, fits⟩, balancedTree⟩
          · rintro ⟨below, ⟨balancedSibling, fits⟩, balancedTree⟩
            exact ⟨below + 1, fits, balanced_join_black.mpr ⟨balancedTree, balancedSibling⟩⟩

/-- A context that expects a black height puts a black subtree of that height
into a red-black tree. -/
theorem redBlack_of_fits {frames : List (Frame Key)} {tree : RbTree Key} {height : Nat}
    (fits : Fits frames height) (balanced : HasHeight height tree) (black : tree.color = .black) :
    IsRedBlack (plug frames tree) :=
  (redBlack_plug frames tree).mpr ⟨height, fits, balanced, fun _ => black⟩

theorem depth_plug_le (frames : List (Frame Key)) (tree : RbTree Key) :
    frames.length + tree.depth ≤ (plug frames tree).depth := by
  induction frames generalizing tree with
  | nil => simp
  | cons frame rest ih =>
      have deeper : tree.depth + 1 ≤ (frame.fill tree).depth := by
        obtain ⟨side, color, key, sibling⟩ := frame
        cases side
        · exact Nat.succ_le_succ (le_max_left _ _)
        · exact Nat.succ_le_succ (le_max_right _ _)
      have outer := ih (frame.fill tree)
      rw [plug_cons, List.length_cons]
      omega

/-- Every place of the order is a node with a context. -/
theorem exists_plug {tree : RbTree Key} {before after : List Key} {key : Key}
    (split : tree.inorder = before ++ key :: after) :
    ∃ frames color left right, tree = plug frames (node color left key right) ∧
      keysBefore frames ++ left.inorder = before ∧ right.inorder ++ keysAfter frames = after := by
  induction tree generalizing before after with
  | leaf => simp [inorder] at split
  | node color left root right ihLeft ihRight =>
      rw [inorder] at split
      rcases List.append_eq_append_iff.mp split with
        ⟨gap, atBefore, atRest⟩ | ⟨gap, atLeft, atAfter⟩
      · cases gap with
        | nil =>
            simp only [List.nil_append, List.cons.injEq] at atRest
            obtain ⟨rfl, rfl⟩ := atRest
            refine ⟨[], color, left, right, rfl, ?_, ?_⟩
            · simpa [keysBefore] using atBefore.symm
            · simp [keysAfter]
        | cons first gap =>
            simp only [List.cons_append, List.cons.injEq] at atRest
            obtain ⟨rfl, atRight⟩ := atRest
            obtain ⟨frames, inner, innerLeft, innerRight, rfl, same, rest⟩ := ihRight atRight
            refine ⟨frames ++ [⟨.right, color, root, left⟩], inner, innerLeft, innerRight, ?_, ?_,
              ?_⟩
            · rw [plug_append]
              rfl
            · rw [keysBefore_append, atBefore, ← same]
              simp [keysBefore]
            · rw [keysAfter_append, ← rest]
              simp [keysAfter]
      · cases gap with
        | nil =>
            simp only [List.nil_append, List.cons.injEq] at atAfter
            obtain ⟨rfl, rfl⟩ := atAfter
            refine ⟨[], color, left, right, rfl, ?_, ?_⟩
            · simpa [keysBefore] using atLeft
            · simp [keysAfter]
        | cons first gap =>
            simp only [List.cons_append, List.cons.injEq] at atAfter
            obtain ⟨rfl, rfl⟩ := atAfter
            obtain ⟨frames, inner, innerLeft, innerRight, rfl, same, rest⟩ := ihLeft atLeft
            refine ⟨frames ++ [⟨.left, color, root, right⟩], inner, innerLeft, innerRight, ?_, ?_,
              ?_⟩
            · rw [plug_append]
              rfl
            · rw [keysBefore_append, ← same]
              simp [keysBefore]
            · rw [keysAfter_append, ← rest]
              simp [keysAfter]

/-- Every key of the tree has a context. -/
theorem exists_plug_of_mem {tree : RbTree Key} {key : Key} (member : key ∈ tree.inorder) :
    ∃ frames color left right, tree = plug frames (node color left key right) := by
  obtain ⟨before, after, split⟩ := List.mem_iff_append.mp member
  obtain ⟨frames, color, left, right, same, -, -⟩ := exists_plug split
  exact ⟨frames, color, left, right, same⟩

end Msmuduo.RedBlack
