import Msmuduo.RbtreeErase

/-!
# Walking the tree

`rb_first`, `rb_last`, `rb_next` and `rb_prev` follow the order of the tree:
they find the ends of the order and the neighbours of a node without a stack,
through the parents. `rb_replace_node` exchanges a node and keeps the order of
the others.
-/

namespace Msmuduo.Rbtree

set_option autoImplicit false

open Msmuduo.RedBlack Msmuduo.RedBlack.RbTree RbNode

variable {memory after : Memory}

/-- The first key of a list on one side: the head for `Side.left`, the last
for `Side.right`. -/
def endOf (side : Side) (keys : List Address) : Pointer :=
  match side with
  | .left => keys.head?
  | .right => keys.getLast?

/-- The end of the order of a tree lies where going down one side stops. -/
theorem endOf_plug {side : Side} {inner : List (Frame Address)} {color : Color} {last : Address}
    {below : RbTree Address} (sides : ∀ frame ∈ inner, frame.side = side) :
    endOf side (plug inner (join side color leaf last below)).inorder = some last := by
  rw [inorder_plug]
  cases side with
  | left =>
      have noneBefore : keysBefore inner = [] := by
        induction inner with
        | nil => rfl
        | cons frame rest ih =>
            obtain ⟨side, color, key, sibling⟩ := frame
            obtain rfl : side = .left := sides _ (List.mem_cons_self ..)
            exact ih fun other member => sides other (List.mem_cons_of_mem _ member)
      simp [endOf, noneBefore, join, inorder]
  | right =>
      have noneAfter : keysAfter inner = [] := by
        induction inner with
        | nil => rfl
        | cons frame rest ih =>
            obtain ⟨side, color, key, sibling⟩ := frame
            obtain rfl : side = .right := sides _ (List.mem_cons_self ..)
            exact ih fun other member => sides other (List.mem_cons_of_mem _ member)
      simp [endOf, noneAfter, join, inorder]

/-- Going down one side of a subtree finds the end of its order. -/
theorem descend_end (side : Side) {frames : List (Frame Address)} {tree : RbTree Address}
    {fuel : Nat} (enough : tree.depth < fuel) (represents : Represents memory (plug frames tree))
    (occupied : tree ≠ leaf) :
    descend side fuel (pointer tree) memory = .ok (endOf side tree.inorder) := by
  obtain ⟨inner, color, last, below, rfl, ran, sides⟩ :=
    descend_spec side enough represents occupied
  rw [ran, endOf_plug sides]

theorem outermost_spec (side : Side) {tree : RbTree Address} {fuel : Nat}
    (enough : tree.depth < fuel) (represents : Represents memory tree) :
    outermost side fuel memory = .ok (endOf side tree.inorder) := by
  cases tree with
  | leaf =>
      have root : memory.rbNode = none := represents.root
      cases side <;> simp [outermost, root, endOf, inorder]
  | node color left key right =>
      have root : memory.rbNode = some key := represents.root
      have atRoot : Represents memory (plug [] (node color left key right)) := represents
      simp only [outermost, root]
      exact descend_end side enough atRoot (by simp)

/-- `rb_first` finds the first node of the order, `rb_last` the last one. -/
theorem rbFirst_spec {tree : RbTree Address} {fuel : Nat} (enough : tree.depth < fuel)
    (represents : Represents memory tree) : rbFirst fuel memory = .ok tree.inorder.head? :=
  outermost_spec .left enough represents

/-- What lies next to a hole on one side. -/
def beside (side : Side) (frames : List (Frame Address)) : Pointer :=
  match side with
  | .left => (keysBefore frames).getLast?
  | .right => (keysAfter frames).head?

theorem beside_same (side : Side) (color : Color) (key : Address) (sibling : RbTree Address)
    (rest : List (Frame Address)) :
    beside side (⟨side, color, key, sibling⟩ :: rest) = beside side rest := by
  cases side <;> rfl

theorem beside_other (side : Side) (color : Color) (key : Address) (sibling : RbTree Address)
    (rest : List (Frame Address)) :
    beside side (⟨side.other, color, key, sibling⟩ :: rest) = some key := by
  cases side <;> simp [beside, Side.other, keysBefore, keysAfter]

/-- Going up past the parents of which the node is the child on the given side
finds what lies next to the subtree on this side. -/
theorem climb_spec (side : Side) {frames : List (Frame Address)} {tree : RbTree Address}
    {address : Address} {fuel : Nat} (enough : frames.length < fuel)
    (represents : Represents memory (plug frames tree)) (here : pointer tree = some address) :
    climb side fuel (some address) memory = .ok (beside side frames) := by
  induction fuel generalizing frames tree address with
  | zero => exact absurd enough (Nat.not_lt_zero _)
  | succ fuel ih =>
      obtain ⟨node, stored, parentHere, -⟩ := represents.focus_parent here
      cases frames with
      | nil =>
          simp only [climb, Memory.load_some stored, parentHere, parentOf, bind, Except.bind]
          cases side <;> rfl
      | cons frame rest =>
          have parentNode := represents.frame_node
          have apart := sibling_apart represents.distinct here
          obtain ⟨low, color, key, sibling⟩ := frame
          rw [here] at parentNode
          by_cases same : low = side
          · subst same
            rw [beside_same]
            have shorter : rest.length < fuel := by
              simp only [List.length_cons] at enough
              omega
            have further := ih shorter represents.up (pointer_join ..)
            simp only [climb, Memory.load_some stored, parentHere, parentOf_cons,
              Memory.load_some parentNode, child_oriented, if_true, bind, Except.bind]
            exact further
          · have mirrored : low = side.other := by
              cases low <;> cases side <;> simp_all [Side.other]
            subst mirrored
            rw [beside_other]
            have missed : some address ≠ pointer sibling := fun same => apart same.symm
            have turned : (oriented side.other (parentOf rest) color (some address)
                (pointer sibling)).child side = pointer sibling := by
              rw [oriented_other, child_oriented]
            simp only [climb, Memory.load_some stored, parentHere, parentOf_cons,
              Memory.load_some parentNode, turned, missed, if_false, bind, Except.bind]
            rfl

/-- The neighbours of a node: an end of its subtree on the side, or what lies
next to the node from above. -/
theorem neighbour_spec (side : Side) {frames : List (Frame Address)} {color : Color}
    {near far : RbTree Address} {address : Address} {fuel : Nat}
    (enough : (plug frames (join side color near address far)).depth < fuel)
    (represents : Represents memory (plug frames (join side color near address far))) :
    neighbour side fuel (some address) memory =
      .ok (if near = leaf then beside side frames else endOf side.other near.inorder) := by
  have here := represents.focus_node
  have bound := depth_plug_le frames (join side color near address far)
  cases near with
  | leaf =>
      have shallow : frames.length < fuel := by omega
      simp only [neighbour, Memory.load_some here, child_oriented, pointer_leaf, if_true, bind,
        Except.bind]
      exact climb_spec side shallow represents (pointer_join ..)
  | node lower left key right =>
      have shallow : (node lower left key right).depth < fuel := by
        have inside : (node lower left key right).depth <
            (join side color (node lower left key right) address far).depth := by
          cases side
          · exact Nat.lt_succ_of_le (le_max_left _ _)
          · exact Nat.lt_succ_of_le (le_max_right _ _)
        omega
      have inside : Represents memory
          (plug (⟨side, color, address, far⟩ :: frames) (node lower left key right)) := represents
      have ran := descend_end side.other shallow inside (by simp)
      have root : pointer (node lower left key right) = some key := rfl
      rw [root] at ran here
      simp only [neighbour, Memory.load_some here, child_oriented, reduceCtorEq, if_false, bind,
        Except.bind]
      exact ran

/-- `rb_next` finds the successor of every node, and none behind the last. -/
theorem rbNext_spec {tree : RbTree Address} {before behind : List Address} {address : Address}
    {fuel : Nat} (enough : tree.depth < fuel) (represents : Represents memory tree)
    (split : tree.inorder = before ++ address :: behind) :
    rbNext fuel (some address) memory = .ok behind.head? := by
  obtain ⟨frames, color, left, right, rfl, -, rfl⟩ := exists_plug split
  have joined : Represents memory (plug frames (join .right color right address left)) := represents
  rw [rbNext, neighbour_spec .right enough joined]
  cases right with
  | leaf => rfl
  | node lower inner key outer =>
      cases first : inner.inorder <;> simp [endOf, Side.other, inorder, first]

end Msmuduo.Rbtree
