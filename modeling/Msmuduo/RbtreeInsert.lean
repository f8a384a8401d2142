import Msmuduo.RbtreeShape

/-!
# Rebalancing after an insertion

The loop of `rb_insert_color` keeps a red subtree in its hole and a context
that expects the black height of this subtree; only the colours of the hole
and of its parent may be in conflict. A red uncle moves the conflict two nodes
up, a black one ends it with at most two rotations. The loop is done after as
many iterations as there are nodes above the new one, and no pointer it
follows is null.
-/

namespace Msmuduo.Rbtree

set_option autoImplicit false

open Msmuduo.RedBlack Msmuduo.RedBlack.RbTree RbNode

variable {memory after : Memory}

theorem Represents.focus_node {side : Side} {frames : List (Frame Address)} {color : Color}
    {near far : RbTree Address} {address : Address}
    (represents : Represents memory (plug frames (join side color near address far))) :
    memory.nodes address =
      some (oriented side (parentOf frames) color (pointer near) (pointer far)) :=
  (stored_join.mp (represents_plug.mp represents).2.2.1).1

theorem Represents.frame_node {frame : Frame Address} {rest : List (Frame Address)}
    {tree : RbTree Address} (represents : Represents memory (plug (frame :: rest) tree)) :
    memory.nodes frame.key = some (oriented frame.side (parentOf rest) frame.color (pointer tree)
      (pointer frame.sibling)) :=
  (represents_plug.mp represents).2.1.1

theorem Represents.sibling_stored {frame : Frame Address} {rest : List (Frame Address)}
    {tree : RbTree Address} (represents : Represents memory (plug (frame :: rest) tree)) :
    Stored memory (some frame.key) frame.sibling :=
  (represents_plug.mp represents).2.1.2.1

/-- The same tree seen from one node further up. -/
theorem Represents.up {frame : Frame Address} {rest : List (Frame Address)} {tree : RbTree Address}
    (represents : Represents memory (plug (frame :: rest) tree)) :
    Represents memory (plug rest (frame.fill tree)) := represents

theorem Represents.focus_parent {frames : List (Frame Address)} {tree : RbTree Address}
    {address : Address} (represents : Represents memory (plug frames tree))
    (here : pointer tree = some address) :
    ∃ node, memory.nodes address = some node ∧ node.rbParent = parentOf frames ∧
      node.rbColor = tree.color := by
  cases tree with
  | leaf => cases here
  | node color left key right =>
      cases here
      exact ⟨_, (represents_plug.mp represents).2.2.1.1, rfl, rfl⟩

theorem isRed_pointer {parent : Pointer} {tree : RbTree Address}
    (stored : Stored memory parent tree) :
    memory.isRed (pointer tree) = .ok (tree.color == .red) := by
  cases tree with
  | leaf => rfl
  | node color left key right => exact Memory.isRed_some stored.1

theorem isBlack_pointer {parent : Pointer} {tree : RbTree Address}
    (stored : Stored memory parent tree) :
    memory.isBlack (pointer tree) = .ok (tree.color == .black) := by
  cases tree with
  | leaf => rfl
  | node color left key right => exact Memory.isBlack_some stored.1

/-- The hole and its sibling are different nodes. -/
theorem sibling_apart {frame : Frame Address} {rest : List (Frame Address)} {tree : RbTree Address}
    {address : Address} (distinct : (plug (frame :: rest) tree).inorder.Nodup)
    (here : pointer tree = some address) : pointer frame.sibling ≠ some address := by
  intro same
  obtain ⟨distinctTree, -⟩ := nodup_plug.mp (plug_cons frame rest tree ▸ distinct)
  obtain ⟨-, -, -, -, apart⟩ := nodup_join.mp distinctTree
  exact apart (pointer_mem here) (pointer_mem same)

/-- Comparing with the left child of the parent tells the side of the hole. -/
theorem side_of_left {side : Side} {parent hole sibling : Pointer} {color : Color}
    (different : sibling ≠ hole) :
    (if (oriented side parent color hole sibling).rbLeft = hole then Side.left else Side.right) =
      side := by
  cases side
  · exact if_pos rfl
  · exact if_neg different

/-- The two recolourings and the rotation that end the loop: `pivot` takes the
place of its black parent. -/
theorem raise_spec {side : Side} {rest : List (Frame Address)} {upper lower : Color}
    {outer inner uncle : RbTree Address} {address pivot : Address}
    (represents : Represents memory
      (plug rest (join side upper (join side lower outer pivot inner) address uncle))) :
    ∃ first second third, memory.update (some pivot) (setColor .black) = .ok first ∧
      first.update (some address) (setColor .red) = .ok second ∧
      rotate side.other (some address) second = .ok third ∧
      Represents third (plug (⟨side, .black, pivot, join side .red inner address uncle⟩ :: rest)
        outer) ∧
      Outside (plug rest (join side upper (join side lower outer pivot inner) address
        uncle)).inorder memory third := by
  have focused : Represents memory
      (plug (⟨side, upper, address, uncle⟩ :: rest) (join side lower outer pivot inner)) :=
    represents
  obtain ⟨first, blackened, representsFirst, outsideFirst⟩ := recolor .black focused
  have refocused : Represents first
      (plug rest (join side upper (join side .black outer pivot inner) address uncle)) :=
    representsFirst
  obtain ⟨second, reddened, representsSecond, outsideSecond⟩ := recolor .red refocused
  have mirrored : Represents second (plug rest (join side.other .red uncle address
      (join side.other .black inner pivot outer))) := by
    rw [join_other, join_other]
    exact representsSecond
  obtain ⟨third, rotated, representsThird, outsideThird⟩ := rotate_spec mirrored
  refine ⟨first, second, third, blackened, reddened, rotated, ?_, ?_⟩
  · rw [join_other, join_other] at representsThird
    exact representsThird
  · refine (outsideFirst.trans (outsideSecond.mono ?_)).trans (outsideThird.mono ?_)
    · intro other
      simp only [plug_cons, Frame.fill, mem_plug, mem_join]
      exact id
    · intro other
      simp only [plug_cons, Frame.fill, mem_plug, mem_join]
      tauto

/-- What one iteration leaves behind a red uncle: the conflict moves up to the
grandparent. -/
theorem insertColorStep_redUncle {parent gparent : Frame Address} {rest : List (Frame Address)}
    {tree : RbTree Address} {node : Pointer}
    (represents : Represents memory (plug (parent :: gparent :: rest) tree))
    (redUncle : gparent.sibling.color = .red) :
    ∃ after, insertColorStep gparent.side node (some parent.key) (some gparent.key) memory =
        .ok (some gparent.key, after) ∧
      Represents after (plug rest (join gparent.side .red
        (join parent.side .black tree parent.key parent.sibling) gparent.key
        gparent.sibling.blacken)) ∧
      Outside (plug (parent :: gparent :: rest) tree).inorder memory after := by
  obtain ⟨side, upper, address, uncle⟩ := gparent
  obtain ⟨low, lower, middle, sibling⟩ := parent
  have gparentNode := represents.up.frame_node
  obtain ⟨near, key, far, rfl⟩ := exists_join_of_red .left redUncle
  have atUncle : Represents memory (plug (⟨side.other, upper, address,
      join low lower tree middle sibling⟩ :: rest) (join .left .red near key far)) := by
    rw [plug_cons, Frame.fill, join_other]
    exact represents
  obtain ⟨first, uncleBlack, representsFirst, outsideFirst⟩ := recolor .black atUncle
  have atParent : Represents first (plug (⟨side, upper, address, join .left .black near key far⟩ ::
      rest) (join low lower tree middle sibling)) := by
    rw [plug_cons, Frame.fill, join_other] at representsFirst
    exact representsFirst
  obtain ⟨second, parentBlack, representsSecond, outsideSecond⟩ := recolor .black atParent
  have atGparent : Represents second (plug rest (join side upper
      (join low .black tree middle sibling) address (join .left .black near key far))) :=
    representsSecond
  obtain ⟨third, gparentRed, representsThird, outsideThird⟩ := recolor .red atGparent
  refine ⟨third, ?_, representsThird, ?_⟩
  · have uncleRed := isRed_pointer (represents_plug.mp atUncle).2.2.1
    rw [pointer_join] at uncleRed
    simp only [insertColorStep, Memory.load_some gparentNode, child_other_oriented, pointer_join,
      uncleRed, color_join, bind, Except.bind, uncleBlack, parentBlack, gparentRed]
    rfl
  · refine (outsideFirst.mono ?_).trans ((outsideSecond.mono ?_).trans (outsideThird.mono ?_)) <;>
      · intro other
        simp only [plug_cons, Frame.fill, mem_plug, mem_join]
        tauto

/-- What one iteration leaves behind a black uncle: the conflict is gone, the
next node has a black parent. -/
theorem insertColorStep_blackUncle {parent gparent : Frame Address}
    {rest : List (Frame Address)} {tree : RbTree Address} {address : Address}
    (represents : Represents memory (plug (parent :: gparent :: rest) tree))
    (here : pointer tree = some address) (redTree : tree.color = .red)
    (redParent : parent.color = .red) (blackUncle : gparent.sibling.color = .black) :
    ∃ after pivot outer inner,
      insertColorStep gparent.side (some address) (some parent.key) (some gparent.key) memory =
        .ok (pointer outer, after) ∧
      Represents after (plug (⟨gparent.side, .black, pivot,
        join gparent.side .red inner gparent.key gparent.sibling⟩ :: rest) outer) ∧
      Outside (plug (parent :: gparent :: rest) tree).inorder memory after ∧
      outer.color = .red ∧
      (∀ height, HasHeight height tree → HasHeight height parent.sibling →
        parent.sibling.color = .black →
        HasHeight height outer ∧ HasHeight height inner ∧ inner.color = .black) ∧
      (join gparent.side .black outer pivot
          (join gparent.side .red inner gparent.key gparent.sibling)).inorder =
        (gparent.fill (parent.fill tree)).inorder := by
  have notUncle := isRed_pointer represents.up.sibling_stored
  have gparentNode := represents.up.frame_node
  have parentNode := represents.frame_node
  obtain ⟨side, upper, grand, uncle⟩ := gparent
  obtain ⟨low, lower, middle, sibling⟩ := parent
  cases redParent
  simp only at blackUncle parentNode gparentNode notUncle
  rw [blackUncle] at notUncle
  by_cases straight : low = side
  · subst straight
    have turned : pointer sibling ≠ some address := sibling_apart represents.distinct here
    obtain ⟨first, second, third, pivotBlack, grandRed, rotated, representsThird, outside⟩ :=
      raise_spec represents
    refine ⟨third, middle, tree, sibling, ?_, representsThird, outside, redTree, ?_, ?_⟩
    · simp only [insertColorStep, Memory.load_some gparentNode, child_other_oriented, notUncle,
        Memory.load_some parentNode, turned, bind, Except.bind, pure, Except.pure, pivotBlack,
        grandRed, rotated, here]
      rfl
    · exact fun height balanced balancedSibling black => ⟨balanced, balancedSibling, black⟩
    · cases low <;> simp [Frame.fill, join, inorder]
  · have mirrored : low = side.other := by
      cases low <;> cases side <;> simp_all [Side.other]
    subst mirrored
    obtain ⟨near, key, far, rfl⟩ := exists_join_of_red side redTree
    rw [pointer_join] at here
    cases here
    have bent : Represents memory (plug (⟨side, upper, grand, uncle⟩ :: rest)
        (join side .red sibling middle (join side .red near address far))) := by
      rw [← join_other side .red]
      exact represents
    obtain ⟨first, turned, representsFirst, outsideFirst⟩ := rotate_spec bent
    have straightened : Represents first (plug rest (join side upper
        (join side .red (join side .red sibling middle near) address far) grand uncle)) :=
      representsFirst
    obtain ⟨second, third, fourth, pivotBlack, grandRed, rotated, representsFourth, outside⟩ :=
      raise_spec straightened
    refine ⟨fourth, address, join side .red sibling middle near, far, ?_, representsFourth, ?_,
      color_join .., ?_, ?_⟩
    · rw [oriented_other] at parentNode
      simp only [insertColorStep, Memory.load_some gparentNode, child_other_oriented, notUncle,
        Memory.load_some parentNode, pointer_join, bind, Except.bind, pure, Except.pure,
        turned, pivotBlack, grandRed, rotated]
      rfl
    · refine (outsideFirst.mono ?_).trans (outside.mono ?_) <;>
        · intro other
          simp only [plug_cons, Frame.fill, mem_plug, mem_join]
          tauto
    · intro height balanced balancedSibling black
      obtain ⟨blackNear, blackFar, balancedNear, balancedFar⟩ := balanced_join_red.mp balanced
      exact ⟨balanced_join_red.mpr ⟨black, blackNear, balancedSibling, balancedNear⟩, balancedFar,
        blackFar⟩
    · cases side <;> simp [Frame.fill, join, inorder, Side.other]

/-- Below a red parent the loop takes an iteration on the side of the parent. -/
theorem insertColorLoop_conflict {parent gparent : Frame Address} {rest : List (Frame Address)}
    {tree : RbTree Address} {address : Address} (fuel : Nat)
    (represents : Represents memory (plug (parent :: gparent :: rest) tree))
    (here : pointer tree = some address) (redParent : parent.color = .red) :
    insertColorLoop (fuel + 1) (some address) memory =
      (insertColorStep gparent.side (some address) (some parent.key) (some gparent.key) memory >>=
        fun next => insertColorLoop fuel next.1 next.2) := by
  obtain ⟨node, stored, parentHere, -⟩ := represents.focus_parent here
  have parentNode := represents.frame_node
  have parentColor := Memory.isRed_some parentNode
  have gparentNode := represents.up.frame_node
  have filled : pointer (parent.fill tree) = some parent.key := pointer_join ..
  have sideHere : (if (oriented gparent.side (parentOf rest) gparent.color (some parent.key)
      (pointer gparent.sibling)).rbLeft = some parent.key then Side.left else Side.right) =
        gparent.side :=
    side_of_left (sibling_apart represents.up.distinct filled)
  rw [filled] at gparentNode
  rw [rbColor_oriented, redParent] at parentColor
  simp only [@eq_comm _ _ (some parent.key)] at sideHere
  simp only [insertColorLoop, Memory.load_some stored, parentHere, parentOf_cons, parentColor,
    Memory.load_some parentNode, rbParent_oriented, Memory.load_some gparentNode, sideHere, bind,
    Except.bind]
  rfl

/-- The loop ends within as many iterations as there are nodes above the red
one, and only the colour of the root is left to set. -/
theorem insertColorLoop_spec {frames : List (Frame Address)} {tree : RbTree Address}
    {height fuel : Nat} (enough : frames.length < fuel)
    (represents : Represents memory (plug frames tree)) (red : tree.color = .red)
    (fits : Fits frames height) (balanced : HasHeight height tree) :
    ∃ after final, insertColorLoop fuel (pointer tree) memory = .ok after ∧
      Represents after final ∧ IsRedBlack final.blacken ∧
      final.inorder = (plug frames tree).inorder ∧
      Outside (plug frames tree).inorder memory after := by
  induction fuel generalizing frames tree height memory with
  | zero => exact absurd enough (Nat.not_lt_zero _)
  | succ fuel ih =>
      obtain ⟨address, here⟩ : ∃ address, pointer tree = some address := by
        cases tree with
        | leaf => cases red
        | node color left key right => exact ⟨key, rfl⟩
      obtain ⟨node, stored, parentHere, -⟩ := represents.focus_parent here
      rw [here]
      cases frames with
      | nil =>
          refine ⟨memory, tree, ?_, represents, ⟨color_blacken tree, _, balanced.blacken_red red⟩,
            rfl, Outside.refl _ _⟩
          simp only [insertColorLoop, Memory.load_some stored, parentHere, parentOf, Memory.isRed,
            bind, Except.bind]
          rfl
      | cons parent rest =>
          have parentNode := represents.frame_node
          have parentColor := Memory.isRed_some parentNode
          rw [rbColor_oriented] at parentColor
          obtain ⟨low, lower, middle, sibling⟩ := parent
          cases lower with
          | black =>
              have valid : IsRedBlack (plug (⟨low, .black, middle, sibling⟩ :: rest) tree) :=
                (redBlack_plug _ _).mpr ⟨height, fits, balanced, by simp [topColor]⟩
              refine ⟨memory, _, ?_, represents, ?_, rfl, Outside.refl _ _⟩
              · simp only [insertColorLoop, Memory.load_some stored, parentHere, parentOf_cons,
                  parentColor, bind, Except.bind]
                rfl
              · rw [blacken_black valid.1]
                exact valid
          | red =>
              obtain ⟨balancedSibling, blackSibling, blackTop, fitsRest⟩ := fits_red.mp fits
              cases rest with
              | nil => cases blackTop
              | cons gparent rest =>
                  rw [insertColorLoop_conflict fuel represents here rfl]
                  obtain ⟨side, upper, grand, uncle⟩ := gparent
                  cases upper with
                  | red => cases blackTop
                  | black =>
                  obtain ⟨balancedUncle, fitsOuter⟩ := fits_black.mp fitsRest
                  cases uncleColor : uncle.color with
                  | red =>
                      obtain ⟨next, taken, representsNext, outsideNext⟩ :=
                        insertColorStep_redUncle represents uncleColor
                      have balancedNext : HasHeight (height + 1) (join side .red
                          (join low .black tree middle sibling) grand uncle.blacken) :=
                        balanced_join_red.mpr ⟨color_join .., color_blacken uncle,
                          balanced_join_black.mpr ⟨balanced, balancedSibling⟩,
                          balancedUncle.blacken_red uncleColor⟩
                      have shorter : rest.length < fuel := by
                        simp only [List.length_cons] at enough
                        omega
                      obtain ⟨after, final, ran, representsFinal, valid, same, outside⟩ :=
                        ih shorter representsNext (color_join ..) fitsOuter balancedNext
                      have sameStep : (plug rest (join side .red (join low .black tree middle
                          sibling) grand uncle.blacken)).inorder =
                          (plug (⟨low, .red, middle, sibling⟩ ::
                            ⟨side, .black, grand, uncle⟩ :: rest) tree).inorder := by
                        rw [plug_cons, plug_cons, inorder_plug, inorder_plug]
                        cases side <;> cases low <;> simp [Frame.fill, join, inorder]
                      rw [pointer_join] at ran
                      rw [sameStep] at same outside
                      exact ⟨after, final, by rw [taken]; exact ran, representsFinal, valid, same,
                        outsideNext.trans outside⟩
                  | black =>
                      obtain ⟨next, pivot, outer, inner, taken, representsNext, outsideNext,
                        redOuter, heights, sameStep⟩ :=
                        insertColorStep_blackUncle represents here red rfl uncleColor
                      obtain ⟨balancedOuter, balancedInner, blackInner⟩ :=
                        heights height balanced balancedSibling blackSibling
                      have fitsNext : Fits (⟨side, .black, pivot,
                          join side .red inner grand uncle⟩ :: rest) height :=
                        fits_black.mpr ⟨balanced_join_red.mpr
                          ⟨blackInner, uncleColor, balancedInner, balancedUncle⟩, fitsOuter⟩
                      have shorter : (⟨side, .black, pivot, join side .red inner grand uncle⟩ ::
                          rest).length < fuel := by
                        simp only [List.length_cons] at enough ⊢
                        omega
                      obtain ⟨after, final, ran, representsFinal, valid, same, outside⟩ :=
                        ih shorter representsNext redOuter fitsNext balancedOuter
                      have sameTree : (plug (⟨side, .black, pivot,
                          join side .red inner grand uncle⟩ :: rest) outer).inorder =
                          (plug (⟨low, .red, middle, sibling⟩ ::
                            ⟨side, .black, grand, uncle⟩ :: rest) tree).inorder := by
                        rw [plug_cons, plug_cons, plug_cons, inorder_plug, inorder_plug]
                        exact congrArg (keysBefore rest ++ · ++ keysAfter rest) sameStep
                      rw [sameTree] at same outside
                      exact ⟨after, final, by rw [taken]; exact ran, representsFinal, valid, same,
                        outsideNext.trans outside⟩

/-- From a tree whose only fault may be a red node below a red one, or at the
root, `rb_insert_color` makes a red-black tree with the same order. -/
theorem rbInsertColor_spec {frames : List (Frame Address)} {tree : RbTree Address}
    {height fuel : Nat} (enough : frames.length < fuel)
    (represents : Represents memory (plug frames tree)) (red : tree.color = .red)
    (fits : Fits frames height) (balanced : HasHeight height tree) :
    ∃ after final, rbInsertColor fuel (pointer tree) memory = .ok after ∧
      Represents after final ∧ IsRedBlack final ∧
      final.inorder = (plug frames tree).inorder ∧
      Outside (plug frames tree).inorder memory after := by
  obtain ⟨middle, final, ran, representsFinal, valid, same, outside⟩ :=
    insertColorLoop_spec enough represents red fits balanced
  cases final with
  | leaf =>
      have occupied : tree.inorder ≠ [] := by
        cases tree with
        | leaf => cases red
        | node color left key right => simp [inorder]
      rw [inorder_plug] at same
      exact absurd (by simpa [inorder] using same.symm) (fun empty : _ ∧ _ ∧ _ =>
        occupied empty.2.1)
  | node color left key right =>
      have atRoot : Represents middle (plug [] (join .left color left key right)) := representsFinal
      obtain ⟨after, blackened, representsAfter, outsideAfter⟩ := recolor .black atRoot
      refine ⟨after, node .black left key right, ?_, representsAfter, valid, same, ?_⟩
      · simp only [rbInsertColor, ran, bind, Except.bind]
        rw [representsFinal.root]
        exact blackened
      · exact outside.trans (outsideAfter.mono fun other member => same ▸ member)

/-- The place of a hole: a child of its parent, or the root. -/
def placeOf : List (Frame Address) → Option (Address × Side)
  | [] => none
  | frame :: _ => some (frame.key, frame.side)

/-- Linking a node into a hole makes it a red leaf there. -/
theorem rbLinkNode_spec {frames : List (Frame Address)} {address : Address}
    (represents : Represents memory (plug frames leaf))
    (fresh : address ∉ (plug frames (leaf : RbTree Address)).inorder) :
    ∃ after, rbLinkNode address (parentOf frames) (placeOf frames) memory = .ok after ∧
      Represents after (plug frames (node .red leaf address leaf)) ∧
      Outside (address :: (plug frames (leaf : RbTree Address)).inorder) memory after := by
  obtain ⟨root, around, -, distinct⟩ := represents_plug.mp represents
  obtain ⟨-, distinctContext, -⟩ := nodup_plug.mp distinct
  have apart : address ∉ contextKeys frames := fun member => fresh (mem_plug.mpr (.inr member))
  have distinctAfter : (plug frames (node .red leaf address leaf)).inorder.Nodup := by
    refine nodup_plug.mpr ⟨by simp [inorder], distinctContext, ?_⟩
    intro other member
    obtain rfl : other = address := by simpa [inorder] using member
    exact apart
  cases frames with
  | nil =>
      refine ⟨_, rfl, represents_plug.mpr ⟨rfl, trivial, ⟨?_, trivial, trivial⟩, distinctAfter⟩, ?_⟩
      · exact Memory.store_same
      · exact outside_store (List.mem_cons_self ..)
  | cons frame rest =>
      obtain ⟨side, color, key, sibling⟩ := frame
      obtain ⟨here, beside, above⟩ := around
      obtain ⟨apartKey, apartSibling, apartRest⟩ :
          address ≠ key ∧ address ∉ sibling.inorder ∧ address ∉ contextKeys rest := by
        simpa [contextKeys] using apart
      obtain ⟨keyApart, -⟩ := List.nodup_cons.mp distinctContext
      have hereAfter : (memory.store address ⟨some key, none, none, .red⟩).nodes key = some _ :=
        (Memory.store_other fun same => apartKey same.symm).trans here
      refine ⟨_, Memory.update_some hereAfter _,
        represents_plug.mpr ⟨root, ⟨?_, ?_, ?_⟩, ⟨?_, trivial, trivial⟩, distinctAfter⟩, ?_⟩
      · rw [setChild_oriented]
        exact Memory.store_same
      · refine beside.frame fun other member => ?_
        have notNew : other ≠ address := fun same => apartSibling (same ▸ member)
        have notParent : other ≠ key := fun same => keyApart (by simp [← same, member])
        exact (Memory.store_other notParent).trans (Memory.store_other notNew)
      · refine above.frame fun other member => ?_
        have notNew : other ≠ address := fun same => apartRest (same ▸ member)
        have notParent : other ≠ key := fun same => keyApart (by simp [← same, member])
        exact (Memory.store_other notParent).trans (Memory.store_other notNew)
      · exact (Memory.store_other apartKey).trans Memory.store_same
      · refine Outside.trans (outside_store (List.mem_cons_self ..)) (outside_store ?_)
        exact List.mem_cons_of_mem _ (mem_plug.mpr (.inr (by simp [contextKeys])))

/-- Linking a node in and rebalancing: a red-black tree with the node at the
hole. -/
theorem rbInsert_spec {frames : List (Frame Address)} {address : Address} {fuel : Nat}
    (enough : frames.length < fuel) (represents : Represents memory (plug frames leaf))
    (redBlack : IsRedBlack (plug frames (leaf : RbTree Address)))
    (fresh : address ∉ (plug frames (leaf : RbTree Address)).inorder) :
    ∃ linked after final,
      rbLinkNode address (parentOf frames) (placeOf frames) memory = .ok linked ∧
      rbInsertColor fuel (some address) linked = .ok after ∧ Represents after final ∧
      IsRedBlack final ∧ final.inorder = keysBefore frames ++ address :: keysAfter frames ∧
      Outside (address :: (plug frames (leaf : RbTree Address)).inorder) memory after := by
  obtain ⟨height, fits, rfl, -⟩ := (redBlack_plug frames leaf).mp redBlack
  obtain ⟨linked, ranLink, representsLinked, outsideLinked⟩ := rbLinkNode_spec represents fresh
  obtain ⟨after, final, ran, representsFinal, valid, same, outside⟩ :=
    rbInsertColor_spec enough representsLinked rfl fits ⟨rfl, rfl, rfl, rfl⟩
  refine ⟨linked, after, final, ranLink, ran, representsFinal, valid, ?_, ?_⟩
  · rw [same, inorder_plug]
    simp [inorder]
  · refine outsideLinked.trans (outside.mono fun other => ?_)
    simp [mem_plug, inorder]

/-- Linking a new node in at any null pointer of a red-black tree and calling
`rb_insert_color` gives a red-black tree with the node at this place of the
order. The loop takes at most twice the logarithm of the size, no invalid
pointer is followed, and only nodes of the tree are written. -/
theorem insertion_balances (memory : Memory) (frames : List (Frame Address)) (address : Address)
    (fuel : Nat) (represents : Represents memory (plug frames leaf))
    (redBlack : IsRedBlack (plug frames (leaf : RbTree Address)))
    (fresh : address ∉ (plug frames (leaf : RbTree Address)).inorder)
    (enough : 2 * Nat.log 2 ((plug frames (leaf : RbTree Address)).inorder.length + 1) < fuel) :
    ∃ linked after final,
      rbLinkNode address (parentOf frames) (placeOf frames) memory = .ok linked ∧
      rbInsertColor fuel (some address) linked = .ok after ∧ Represents after final ∧
      IsRedBlack final ∧ final.inorder = keysBefore frames ++ address :: keysAfter frames ∧
      Outside (address :: (plug frames (leaf : RbTree Address)).inorder) memory after := by
  have shallow : frames.length < fuel := by
    have logarithmic := redBlack.depth_le
    have inside := depth_plug_le frames (leaf : RbTree Address)
    omega
  exact rbInsert_spec shallow represents redBlack fresh

/-- The memory of a black root 1 with the red child 2 on its left. -/
def twoNodes : Memory where
  nodes := fun address =>
    if address = 1 then some ⟨none, none, some 2, .black⟩
    else if address = 2 then some ⟨some 1, none, none, .red⟩
    else none
  rbNode := some 1

theorem twoNodes_represents :
    Represents twoNodes (node .black (node .red leaf 2 leaf) 1 leaf) where
  root := rfl
  stored := ⟨rfl, ⟨rfl, trivial, trivial⟩, trivial⟩
  distinct := by decide

theorem twoNodes_redBlack :
    IsRedBlack (node .black (node .red leaf 2 leaf) 1 leaf : RbTree Address) :=
  ⟨rfl, 1, 0, rfl, ⟨rfl, rfl, rfl, rfl⟩, rfl⟩

/-- A third node below the red one: a rotation makes it the root. -/
theorem insertion_balances_third :
    ∃ linked after final, rbLinkNode 3 (some 2) (some (2, .right)) twoNodes = .ok linked ∧
      rbInsertColor 3 (some 3) linked = .ok after ∧ Represents after final ∧ IsRedBlack final ∧
      final.inorder = [2, 3, 1] ∧ Outside [3, 2, 1] twoNodes after :=
  insertion_balances twoNodes
    [⟨.right, .red, 2, leaf⟩, ⟨.left, .black, 1, leaf⟩] 3 3
    twoNodes_represents twoNodes_redBlack (by decide)
    (by simp [Frame.fill, join, inorder]; decide)

end Msmuduo.Rbtree
