import Msmuduo.RbtreeInsert

/-!
# Rebalancing after an erasure

Taking out a black node leaves a subtree that is one black node too short for
its context. The loop of `__rb_erase_color` moves this shortage up until a red
node can be blackened, a rotation fills it, or the root is reached. Erasing
through `rb_erase` takes exactly one node out of the order; a node with two
children is replaced by its successor.
-/

namespace Msmuduo.Rbtree

set_option autoImplicit false

open Msmuduo.RedBlack Msmuduo.RedBlack.RbTree RbNode

variable {memory after : Memory}

/-- One black node is missing: the tree is black and too short by one, or red
and as high as needed once it is blackened. -/
def Lacks (height : Nat) (tree : RbTree Address) : Prop :=
  (tree.color = .black ∧ HasHeight height tree) ∨
    (tree.color = .red ∧ HasHeight (height + 1) tree.blacken)

/-- Blackening the subtree behind a pointer, if there is one. -/
theorem blacken_spec {frames : List (Frame Address)} {tree : RbTree Address}
    (represents : Represents memory (plug frames tree)) :
    ∃ after, memory.updateIfAny (pointer tree) (setColor .black) = .ok after ∧
      Represents after (plug frames tree.blacken) ∧
      Outside (plug frames tree).inorder memory after := by
  cases tree with
  | leaf => exact ⟨memory, rfl, represents, Outside.refl _ _⟩
  | node color left key right =>
      have joined : Represents memory (plug frames (join .left color left key right)) := represents
      exact recolor .black joined

theorem inorder_plug_congr (frames : List (Frame Address)) {before after : RbTree Address}
    (same : before.inorder = after.inorder) :
    (plug frames before).inorder = (plug frames after).inorder := by
  rw [inorder_plug, inorder_plug, same]

/-- A red sibling goes up; the hole keeps its height and gets a red parent with
a black sibling. -/
theorem eraseRedSibling_red {side : Side} {rest : List (Frame Address)} {upper : Color}
    {tree near far : RbTree Address} {parent sibling : Address}
    (represents : Represents memory
      (plug rest (join side upper tree parent (join side .red near sibling far)))) :
    ∃ after, eraseRedSibling side (some parent) (some sibling) memory = .ok (pointer near, after) ∧
      Represents after
        (plug rest (join side .black (join side .red tree parent near) sibling far)) ∧
      Outside (plug rest (join side upper tree parent (join side .red near sibling far))).inorder
        memory after := by
  have atSibling : Represents memory
      (plug (⟨side.other, upper, parent, tree⟩ :: rest) (join side .red near sibling far)) := by
    rw [plug_cons, Frame.fill, join_other]
    exact represents
  have siblingNode := atSibling.focus_node
  obtain ⟨first, siblingBlack, representsFirst, outsideFirst⟩ := recolor .black atSibling
  have atParent : Represents first
      (plug rest (join side upper tree parent (join side .black near sibling far))) := by
    rw [plug_cons, Frame.fill, join_other] at representsFirst
    exact representsFirst
  obtain ⟨second, parentRed, representsSecond, outsideSecond⟩ := recolor .red atParent
  obtain ⟨third, rotated, representsThird, outsideThird⟩ := rotate_spec representsSecond
  have lowered : Represents third
      (plug (⟨side, .black, sibling, far⟩ :: rest) (join side .red tree parent near)) :=
    representsThird
  refine ⟨third, ?_, representsThird, ?_⟩
  · simp only [eraseRedSibling, Memory.load_some siblingNode, rbColor_oriented, if_true,
      siblingBlack, parentRed, rotated, Memory.load_some lowered.focus_node, child_other_oriented,
      bind, Except.bind]
    rfl
  · refine (outsideFirst.mono ?_).trans ((outsideSecond.mono ?_).trans (outsideThird.mono ?_)) <;>
      · intro other
        simp only [plug_cons, Frame.fill, mem_plug, mem_join]
        tauto

theorem eraseRedSibling_black {side : Side} {frames : List (Frame Address)}
    {near far : RbTree Address} {parent : Pointer} {sibling : Address}
    (represents : Represents memory (plug frames (join side .black near sibling far))) :
    eraseRedSibling side parent (some sibling) memory = .ok (some sibling, memory) := by
  simp only [eraseRedSibling, Memory.load_some represents.focus_node, rbColor_oriented,
    reduceCtorEq, if_false, bind, Except.bind]
  rfl

/-- A black far nephew is exchanged for a red one. -/
theorem eraseBlackNephew_black {side : Side} {rest : List (Frame Address)} {upper : Color}
    {tree outer inner far : RbTree Address} {parent sibling pivot : Address}
    (represents : Represents memory (plug rest (join side upper tree parent
      (join side .black (join side .red outer pivot inner) sibling far))))
    (blackFar : far.color = .black) :
    ∃ after, eraseBlackNephew side (some parent) (some sibling) memory =
        .ok (some pivot, after) ∧
      Represents after (plug rest (join side upper tree parent
        (join side .black outer pivot (join side .red inner sibling far)))) ∧
      Outside (plug rest (join side upper tree parent
        (join side .black (join side .red outer pivot inner) sibling far))).inorder
        memory after := by
  have atSibling : Represents memory (plug (⟨side.other, upper, parent, tree⟩ :: rest)
      (join side .black (join side .red outer pivot inner) sibling far)) := by
    rw [plug_cons, Frame.fill, join_other]
    exact represents
  have siblingNode := atSibling.focus_node
  have farBlack := isBlack_pointer
    (stored_join.mp (represents_plug.mp atSibling).2.2.1).2.2
  have atPivot : Represents memory (plug (⟨side, .black, sibling, far⟩ ::
      ⟨side.other, upper, parent, tree⟩ :: rest) (join side .red outer pivot inner)) := atSibling
  obtain ⟨first, pivotBlack, representsFirst, outsideFirst⟩ := recolor .black atPivot
  have backAtSibling : Represents first (plug (⟨side.other, upper, parent, tree⟩ :: rest)
      (join side .black (join side .black outer pivot inner) sibling far)) := representsFirst
  obtain ⟨second, siblingRed, representsSecond, outsideSecond⟩ := recolor .red backAtSibling
  have mirrored : Represents second (plug (⟨side.other, upper, parent, tree⟩ :: rest)
      (join side.other .red far sibling (join side.other .black inner pivot outer))) := by
    rw [join_other, join_other]
    exact representsSecond
  obtain ⟨third, rotated, representsThird, outsideThird⟩ := rotate_spec mirrored
  have finished : Represents third (plug rest (join side upper tree parent
      (join side .black outer pivot (join side .red inner sibling far)))) := by
    rw [plug_cons, Frame.fill, join_other, join_other, join_other] at representsThird
    exact representsThird
  refine ⟨third, ?_, finished, ?_⟩
  · have parentNode := finished.focus_node
    rw [pointer_join] at siblingNode parentNode
    simp only [eraseBlackNephew, Memory.load_some siblingNode, child_other_oriented,
      child_oriented, farBlack, blackFar, Memory.updateIfAny, pivotBlack, siblingRed, rotated,
      Memory.load_some parentNode, bind, Except.bind]
    rfl
  · refine (outsideFirst.mono ?_).trans ((outsideSecond.mono ?_).trans (outsideThird.mono ?_)) <;>
      · intro other
        simp only [plug_cons, Frame.fill, mem_plug, mem_join]
        tauto

theorem eraseBlackNephew_red {side : Side} {frames : List (Frame Address)}
    {near far : RbTree Address} {parent : Pointer} {sibling : Address}
    (represents : Represents memory (plug frames (join side .black near sibling far)))
    (redFar : far.color = .red) :
    eraseBlackNephew side parent (some sibling) memory = .ok (some sibling, memory) := by
  have farBlack := isBlack_pointer
    (stored_join.mp (represents_plug.mp represents).2.2.1).2.2
  simp only [eraseBlackNephew, Memory.load_some represents.focus_node, child_other_oriented,
    farBlack, redFar, bind, Except.bind]
  rfl

/-- The recolourings and the rotation that end the loop: the red nephew is
blackened and the sibling takes the place of the parent. -/
theorem eraseFill_spec {side : Side} {rest : List (Frame Address)} {upper : Color}
    {tree near far : RbTree Address} {parent sibling : Address}
    (represents : Represents memory
      (plug rest (join side upper tree parent (join side .black near sibling far)))) :
    ∃ after, eraseFill side (some parent) (some sibling) memory =
        .ok ⟨false, after.rbNode, some parent, after⟩ ∧
      Represents after (plug rest
        (join side upper (join side .black tree parent near) sibling far.blacken)) ∧
      Outside (plug rest (join side upper tree parent (join side .black near sibling far))).inorder
        memory after := by
  have parentNode := represents.focus_node
  rw [pointer_join] at parentNode
  have atSibling : Represents memory (plug (⟨side.other, upper, parent, tree⟩ :: rest)
      (join side .black near sibling far)) := by
    rw [plug_cons, Frame.fill, join_other]
    exact represents
  obtain ⟨first, siblingColored, representsFirst, outsideFirst⟩ := recolor upper atSibling
  have atParent : Represents first
      (plug rest (join side upper tree parent (join side upper near sibling far))) := by
    rw [plug_cons, Frame.fill, join_other] at representsFirst
    exact representsFirst
  obtain ⟨second, parentBlack, representsSecond, outsideSecond⟩ := recolor .black atParent
  have backAtSibling : Represents second (plug (⟨side.other, .black, parent, tree⟩ :: rest)
      (join side upper near sibling far)) := by
    rw [plug_cons, Frame.fill, join_other]
    exact representsSecond
  have siblingNode := backAtSibling.focus_node
  have atFar : Represents second (plug (⟨side.other, upper, sibling, near⟩ ::
      ⟨side.other, .black, parent, tree⟩ :: rest) far) := by
    rw [plug_cons, Frame.fill, join_other]
    exact backAtSibling
  obtain ⟨third, farBlack, representsThird, outsideThird⟩ := blacken_spec atFar
  have backAtParent : Represents third
      (plug rest (join side .black tree parent (join side upper near sibling far.blacken))) := by
    rw [plug_cons, plug_cons, Frame.fill, Frame.fill, join_other, join_other] at representsThird
    exact representsThird
  obtain ⟨fourth, rotated, representsFourth, outsideFourth⟩ := rotate_spec backAtParent
  refine ⟨fourth, ?_, representsFourth, ?_⟩
  · simp only [eraseFill, Memory.load_some parentNode, rbColor_oriented, siblingColored,
      parentBlack, Memory.load_some siblingNode, child_other_oriented, farBlack, rotated, bind,
      Except.bind]
    rfl
  · refine (outsideFirst.mono ?_).trans ((outsideSecond.mono ?_).trans
      ((outsideThird.mono ?_).trans (outsideFourth.mono ?_))) <;>
      · intro other
        simp only [plug_cons, Frame.fill, mem_plug, mem_join, inorder_blacken]
        tauto

/-- What an iteration leaves: the shortage one node further up, or a red-black
tree. The keys in the hole of `rest` keep the given order. -/
inductive Settled (rest : List (Frame Address)) (upper : Color) (order : List Address) :
    EraseStep → Prop
  | raised (memory : Memory) (tree : RbTree Address) (height : Nat)
      (represents : Represents memory (plug rest tree)) (fits : Fits rest (height + 1))
      (lacks : Lacks height tree) (color : tree.color = upper) (same : tree.inorder = order) :
      Settled rest upper order ⟨true, pointer tree, parentOf rest, memory⟩
  | filled (memory : Memory) (tree : RbTree Address) (parent : Pointer)
      (represents : Represents memory (plug rest tree)) (redBlack : IsRedBlack (plug rest tree))
      (same : tree.inorder = order) :
      Settled rest upper order ⟨false, pointer (plug rest tree), parent, memory⟩

/-- Both children of the sibling are black: it becomes red. -/
theorem eraseBlackSibling_blackNephews {side : Side} {rest : List (Frame Address)}
    {upper : Color} {tree near far : RbTree Address} {parent sibling : Address} {height : Nat}
    (represents : Represents memory
      (plug rest (join side upper tree parent (join side .black near sibling far))))
    (balanced : HasHeight height tree)
    (fits : Fits (⟨side, upper, parent, join side .black near sibling far⟩ :: rest) (height + 1))
    (blackNear : near.color = .black) (blackFar : far.color = .black) :
    ∃ step, eraseBlackSibling side (some parent) (some sibling) memory = .ok step ∧
      Settled rest upper
        (join side upper tree parent (join side .black near sibling far)).inorder step ∧
      Outside (plug rest (join side upper tree parent
        (join side .black near sibling far))).inorder memory step.memory := by
  have atSibling : Represents memory (plug (⟨side.other, upper, parent, tree⟩ :: rest)
      (join side .black near sibling far)) := by
    rw [plug_cons, Frame.fill, join_other]
    exact represents
  obtain ⟨-, storedNear, storedFar⟩ := stored_join.mp (represents_plug.mp atSibling).2.2.1
  have nearBlack := isBlack_pointer storedNear
  have farBlack := isBlack_pointer storedFar
  rw [blackNear] at nearBlack
  rw [blackFar] at farBlack
  obtain ⟨after, siblingRed, representsAfter, outside⟩ := recolor .red atSibling
  have lowered : Represents after
      (plug rest (join side upper tree parent (join side .red near sibling far))) := by
    rw [plug_cons, Frame.fill, join_other] at representsAfter
    exact representsAfter
  have parentNode := lowered.focus_node
  obtain ⟨balancedNear, balancedFar⟩ := balanced_join_black.mp fits.sibling
  have balancedRed : HasHeight height (join side .red near sibling far) :=
    balanced_join_red.mpr ⟨blackNear, blackFar, balancedNear, balancedFar⟩
  have same : (join side upper tree parent (join side .red near sibling far)).inorder =
      (join side upper tree parent (join side .black near sibling far)).inorder := by
    cases side <;> rfl
  refine ⟨⟨true, some parent, parentOf rest, after⟩, ?_, ?_, ?_⟩
  · have siblingNode := atSibling.focus_node
    cases side <;>
      · simp only [eraseBlackSibling, Memory.load_some siblingNode, oriented, nearBlack, farBlack,
          siblingRed, Memory.load_some parentNode, bind, Except.bind]
        rfl
  · rw [← pointer_join side upper tree parent (join side .red near sibling far)]
    cases upper with
    | red =>
        obtain ⟨-, -, -, fitsRest⟩ := fits_red.mp fits
        refine .raised after _ height lowered fitsRest (.inr ⟨color_join .., ?_⟩) (color_join ..)
          same
        have blackened : (join side .red tree parent (join side .red near sibling far)).blacken =
            join side .black tree parent (join side .red near sibling far) := by
          cases side <;> rfl
        rw [blackened]
        exact balanced_join_black.mpr ⟨balanced, balancedRed⟩
    | black =>
        obtain ⟨-, fitsRest⟩ := fits_black.mp fits
        exact .raised after _ (height + 1) lowered fitsRest
          (.inl ⟨color_join .., balanced_join_black.mpr ⟨balanced, balancedRed⟩⟩)
          (color_join ..) same
  · refine outside.mono fun other => ?_
    simp only [plug_cons, Frame.fill, mem_plug, mem_join]
    tauto

/-- The far child of the sibling is red: the shortage is filled. -/
theorem eraseFill_settled {side : Side} {rest : List (Frame Address)} {upper : Color}
    {tree near far : RbTree Address} {parent sibling : Address} {height : Nat}
    (represents : Represents memory
      (plug rest (join side upper tree parent (join side .black near sibling far))))
    (balanced : HasHeight height tree)
    (fits : Fits (⟨side, upper, parent, join side .black near sibling far⟩ :: rest) (height + 1))
    (redFar : far.color = .red) :
    ∃ step, eraseFill side (some parent) (some sibling) memory = .ok step ∧
      Settled rest upper
        (join side upper tree parent (join side .black near sibling far)).inorder step ∧
      Outside (plug rest (join side upper tree parent
        (join side .black near sibling far))).inorder memory step.memory := by
  obtain ⟨balancedNear, balancedFar⟩ := balanced_join_black.mp fits.sibling
  have left : HasHeight (height + 1) (join side .black tree parent near) :=
    balanced_join_black.mpr ⟨balanced, balancedNear⟩
  have right : HasHeight (height + 1) far.blacken := balancedFar.blacken_red redFar
  have redBlack : IsRedBlack (plug rest
      (join side upper (join side .black tree parent near) sibling far.blacken)) := by
    refine (redBlack_plug _ _).mpr ?_
    cases upper with
    | red =>
        obtain ⟨-, -, blackTop, fitsRest⟩ := fits_red.mp fits
        refine ⟨height + 1, fitsRest, balanced_join_red.mpr
          ⟨color_join .., color_blacken far, left, right⟩, ?_⟩
        simp [blackTop]
    | black =>
        obtain ⟨-, fitsRest⟩ := fits_black.mp fits
        exact ⟨height + 2, fitsRest, balanced_join_black.mpr ⟨left, right⟩, fun _ => color_join ..⟩
  have same : (join side upper (join side .black tree parent near) sibling far.blacken).inorder =
      (join side upper tree parent (join side .black near sibling far)).inorder := by
    cases side <;> simp [join, inorder]
  obtain ⟨after, ran, representsAfter, outside⟩ := eraseFill_spec represents
  refine ⟨_, ran, ?_, outside⟩
  rw [representsAfter.root]
  exact .filled after _ _ representsAfter redBlack same

/-- Some child of the sibling is red: the shortage is filled. -/
theorem eraseBlackSibling_redNephew {side : Side} {rest : List (Frame Address)}
    {upper : Color} {tree near far : RbTree Address} {parent sibling : Address} {height : Nat}
    (represents : Represents memory
      (plug rest (join side upper tree parent (join side .black near sibling far))))
    (balanced : HasHeight height tree)
    (fits : Fits (⟨side, upper, parent, join side .black near sibling far⟩ :: rest) (height + 1))
    (redNephew : near.color = .red ∨ far.color = .red) :
    ∃ step, eraseBlackSibling side (some parent) (some sibling) memory = .ok step ∧
      Settled rest upper
        (join side upper tree parent (join side .black near sibling far)).inorder step ∧
      Outside (plug rest (join side upper tree parent
        (join side .black near sibling far))).inorder memory step.memory := by
  have atSibling : Represents memory (plug (⟨side.other, upper, parent, tree⟩ :: rest)
      (join side .black near sibling far)) := by
    rw [plug_cons, Frame.fill, join_other]
    exact represents
  have siblingNode := atSibling.focus_node
  obtain ⟨-, storedNear, storedFar⟩ := stored_join.mp (represents_plug.mp atSibling).2.2.1
  have nearBlack := isBlack_pointer storedNear
  have farBlack := isBlack_pointer storedFar
  have notBoth : (near.color == .black && far.color == .black) = false := by
    rcases redNephew with red | red <;> simp [red]
  have unfolded : eraseBlackSibling side (some parent) (some sibling) memory =
      (eraseBlackNephew side (some parent) (some sibling) memory >>= fun next =>
        eraseFill side (some parent) next.1 next.2) := by
    cases side with
    | left =>
        simp only [eraseBlackSibling, Memory.load_some siblingNode, oriented, nearBlack, farBlack,
          notBoth, bind, Except.bind]
        rfl
    | right =>
        rw [Bool.and_comm] at notBoth
        simp only [eraseBlackSibling, Memory.load_some siblingNode, oriented, nearBlack, farBlack,
          notBoth, bind, Except.bind]
        rfl
  rw [unfolded]
  rcases color_cases far with redFar | blackFar
  · rw [eraseBlackNephew_red atSibling redFar]
    exact eraseFill_settled represents balanced fits redFar
  · have redNear : near.color = .red := by simpa [blackFar] using redNephew
    obtain ⟨outer, pivot, inner, rfl⟩ := exists_join_of_red side redNear
    obtain ⟨middle, exchanged, representsMiddle, outsideMiddle⟩ :=
      eraseBlackNephew_black represents blackFar
    obtain ⟨balancedNear, balancedFar⟩ := balanced_join_black.mp fits.sibling
    obtain ⟨-, blackInner, balancedOuter, balancedInner⟩ := balanced_join_red.mp balancedNear
    have balancedExchanged : HasHeight (height + 1)
        (join side .black outer pivot (join side .red inner sibling far)) :=
      balanced_join_black.mpr ⟨balancedOuter,
        balanced_join_red.mpr ⟨blackInner, blackFar, balancedInner, balancedFar⟩⟩
    have fitsExchanged : Fits (⟨side, upper, parent,
        join side .black outer pivot (join side .red inner sibling far)⟩ :: rest) (height + 1) := by
      cases upper with
      | red =>
          obtain ⟨-, -, above⟩ := fits_red.mp fits
          exact fits_red.mpr ⟨balancedExchanged, color_join .., above⟩
      | black =>
          obtain ⟨-, above⟩ := fits_black.mp fits
          exact fits_black.mpr ⟨balancedExchanged, above⟩
    have same : (join side upper tree parent
        (join side .black outer pivot (join side .red inner sibling far))).inorder =
        (join side upper tree parent
          (join side .black (join side .red outer pivot inner) sibling far)).inorder := by
      cases side <;> simp [join, inorder]
    obtain ⟨step, filled, settled, outside⟩ :=
      eraseFill_settled representsMiddle balanced fitsExchanged (color_join ..)
    rw [inorder_plug_congr rest same] at outside
    rw [same] at settled
    exact ⟨step, by rw [exchanged]; exact filled, settled, outsideMiddle.trans outside⟩

theorem eraseBlackSibling_spec {side : Side} {rest : List (Frame Address)} {upper : Color}
    {tree near far : RbTree Address} {parent sibling : Address} {height : Nat}
    (represents : Represents memory
      (plug rest (join side upper tree parent (join side .black near sibling far))))
    (balanced : HasHeight height tree)
    (fits : Fits (⟨side, upper, parent, join side .black near sibling far⟩ :: rest) (height + 1)) :
    ∃ step, eraseBlackSibling side (some parent) (some sibling) memory = .ok step ∧
      Settled rest upper
        (join side upper tree parent (join side .black near sibling far)).inorder step ∧
      Outside (plug rest (join side upper tree parent
        (join side .black near sibling far))).inorder memory step.memory := by
  rcases color_cases near with red | blackNear
  · exact eraseBlackSibling_redNephew represents balanced fits (.inl red)
  · rcases color_cases far with red | blackFar
    · exact eraseBlackSibling_redNephew represents balanced fits (.inr red)
    · exact eraseBlackSibling_blackNephews represents balanced fits blackNear blackFar

/-- One iteration on a black node that is too short: the shortage is filled,
or one node further up. A red sibling adds a node to the context, and then the
next node is red. -/
theorem eraseColorStep_spec {frame : Frame Address} {rest : List (Frame Address)}
    {tree : RbTree Address} {height : Nat}
    (represents : Represents memory (plug (frame :: rest) tree))
    (balanced : HasHeight height tree) (fits : Fits (frame :: rest) (height + 1)) :
    ∃ step context upper order, eraseColorStep frame.side (some frame.key) memory = .ok step ∧
      (context = rest ∨ upper = .red) ∧ Settled context upper order step ∧
      keysBefore context ++ order ++ keysAfter context = (plug (frame :: rest) tree).inorder ∧
      Outside (plug (frame :: rest) tree).inorder memory step.memory := by
  have parentNode := represents.frame_node
  obtain ⟨side, upper, parent, other⟩ := frame
  obtain ⟨color, near, sibling, far, rfl⟩ := fits.sibling.exists_join side
  rw [pointer_join] at parentNode
  cases color with
  | black =>
      obtain ⟨step, ran, settled, outside⟩ := eraseBlackSibling_spec represents balanced fits
      have atSibling : Represents memory (plug (⟨side.other, upper, parent, tree⟩ :: rest)
          (join side .black near sibling far)) := by
        rw [plug_cons, Frame.fill, join_other]
        exact represents
      refine ⟨step, rest, upper, _, ?_, .inl rfl, settled, (inorder_plug rest _).symm, outside⟩
      simp only [eraseColorStep, Memory.load_some parentNode, child_other_oriented,
        eraseRedSibling_black atSibling, bind, Except.bind]
      exact ran
  | red =>
      cases upper with
      | red =>
          obtain ⟨-, black, -⟩ := fits_red.mp fits
          rw [color_join] at black
          cases black
      | black =>
          obtain ⟨balancedSibling, fitsRest⟩ := fits_black.mp fits
          obtain ⟨blackNear, -, balancedNear, balancedFar⟩ := balanced_join_red.mp balancedSibling
          obtain ⟨middle, lifted, representsMiddle, outsideMiddle⟩ :=
            eraseRedSibling_red represents
          obtain ⟨color, inner, nephew, outer, rfl⟩ := balancedNear.exists_join side
          rw [color_join] at blackNear
          cases blackNear
          have refocused : Represents middle (plug (⟨side, .black, sibling, far⟩ :: rest)
              (join side .red tree parent (join side .black inner nephew outer))) :=
            representsMiddle
          have fitsNext : Fits (⟨side, .red, parent, join side .black inner nephew outer⟩ ::
              ⟨side, .black, sibling, far⟩ :: rest) (height + 1) :=
            fits_red.mpr ⟨balancedNear, color_join .., rfl, fits_black.mpr ⟨balancedFar, fitsRest⟩⟩
          have same : (plug (⟨side, .black, sibling, far⟩ :: rest)
              (join side .red tree parent (join side .black inner nephew outer))).inorder =
              (plug (⟨side, .black, parent, join side .red (join side .black inner nephew outer)
                sibling far⟩ :: rest) tree).inorder := by
            rw [plug_cons, plug_cons]
            refine inorder_plug_congr rest ?_
            cases side <;> simp [Frame.fill, join, inorder]
          obtain ⟨step, ran, settled, outside⟩ :=
            eraseBlackSibling_spec refocused balanced fitsNext
          rw [same] at outside
          refine ⟨step, _, .red, _, ?_, .inr rfl, settled, (inorder_plug _ _).symm.trans same,
            outsideMiddle.trans outside⟩
          rw [pointer_join] at lifted
          simp only [eraseColorStep, Memory.load_some parentNode, child_other_oriented, lifted,
            bind, Except.bind]
          exact ran

theorem rootOf_mem (frame : Frame Address) (rest : List (Frame Address)) (hole : Pointer) :
    ∃ key ∈ contextKeys (frame :: rest), rootOf (frame :: rest) hole = some key := by
  induction rest generalizing frame hole with
  | nil => exact ⟨frame.key, List.mem_cons_self .., rfl⟩
  | cons next rest ih =>
      obtain ⟨key, member, root⟩ := ih next (some frame.key)
      exact ⟨key, by simp [contextKeys] at member ⊢; tauto, root⟩

/-- A subtree below the root is not the root. -/
theorem hole_ne_root {frame : Frame Address} {rest : List (Frame Address)} {tree : RbTree Address}
    (represents : Represents memory (plug (frame :: rest) tree)) :
    pointer tree ≠ memory.rbNode := by
  obtain ⟨root, -, -, distinct⟩ := represents_plug.mp represents
  obtain ⟨-, -, apart⟩ := nodup_plug.mp distinct
  obtain ⟨key, member, rooted⟩ := rootOf_mem frame rest (pointer tree)
  intro same
  exact apart (pointer_mem ((same.trans root).trans rooted)) member

/-- The loop ends within one iteration more than there are nodes above the
hole, at a node whose blackening makes a red-black tree. -/
theorem eraseColorLoop_spec {frames : List (Frame Address)} {tree : RbTree Address}
    {height fuel : Nat} (some_fuel : 0 < fuel) (enough : tree.color = .black → frames.length < fuel)
    (represents : Represents memory (plug frames tree)) (fits : Fits frames (height + 1))
    (lacks : Lacks height tree) :
    ∃ after context focus, eraseColorLoop fuel (pointer tree) (parentOf frames) memory =
        .ok (pointer focus, after) ∧ Represents after (plug context focus) ∧
      IsRedBlack (plug context focus.blacken) ∧
      (plug context focus).inorder = (plug frames tree).inorder ∧
      Outside (plug frames tree).inorder memory after := by
  induction fuel generalizing frames tree height memory with
  | zero => exact absurd some_fuel (Nat.lt_irrefl 0)
  | succ fuel ih =>
      have tested := isBlack_pointer (represents_plug.mp represents).2.2.1
      rcases lacks with ⟨black, balanced⟩ | ⟨red, balanced⟩
      · cases frames with
        | nil =>
            refine ⟨memory, [], tree, ?_, represents, ?_, rfl, Outside.refl _ _⟩
            · have root : memory.rbNode = pointer tree := represents.root
              simp only [eraseColorLoop, tested, root, bne_self_eq_false, Bool.and_false, bind,
                Except.bind]
              rfl
            · rw [blacken_black black]
              exact ⟨black, height, balanced⟩
        | cons frame rest =>
            have below : (pointer tree != memory.rbNode) = true := by
              simpa using hole_ne_root represents
            have parentNode := represents.frame_node
            have apart : pointer frame.sibling ≠ pointer tree := by
              obtain ⟨color, near, key, far, split⟩ := fits.sibling.exists_join frame.side
              intro same
              rw [split, pointer_join] at same
              refine sibling_apart represents.distinct same.symm ?_
              rw [split, pointer_join]
            have sideHere : (if (oriented frame.side (parentOf rest) frame.color (pointer tree)
                (pointer frame.sibling)).rbLeft = pointer tree then Side.left else Side.right) =
                  frame.side := side_of_left apart
            obtain ⟨step, context, upper, order, taken, shorter, settled, same, outside⟩ :=
              eraseColorStep_spec represents balanced fits
            have unfolded : eraseColorLoop (fuel + 1) (pointer tree) (parentOf (frame :: rest))
                memory = if step.resumed then eraseColorLoop fuel step.node step.parent step.memory
                  else pure (step.node, step.memory) := by
              simp only [eraseColorLoop, tested, black, below, parentOf_cons,
                Memory.load_some parentNode, sideHere, taken, bind, Except.bind]
              rfl
            rw [unfolded]
            cases settled with
            | raised next tree' height' representsNext fitsNext lacksNext colorNext sameNext =>
                have positive : 0 < fuel := by
                  have bound := enough black
                  simp only [List.length_cons] at bound
                  omega
                have enoughNext : tree'.color = .black → context.length < fuel := by
                  intro blackNext
                  rcases shorter with rfl | rfl
                  · have bound := enough black
                    simp only [List.length_cons] at bound
                    omega
                  · rw [colorNext] at blackNext
                    cases blackNext
                obtain ⟨after, last, focus, ran, representsAfter, valid, sameAfter, outsideAfter⟩ :=
                  ih positive enoughNext representsNext fitsNext lacksNext
                rw [inorder_plug context tree', sameNext, same] at sameAfter outsideAfter
                exact ⟨after, last, focus, ran, representsAfter, valid, sameAfter,
                  outside.trans outsideAfter⟩
            | filled next tree' parent representsNext valid sameNext =>
                refine ⟨next, [], plug context tree', rfl, representsNext, ?_, ?_, outside⟩
                · rw [plug_nil, blacken_black valid.1]
                  exact valid
                · rw [plug_nil, inorder_plug, sameNext, same]
      · refine ⟨memory, frames, tree, ?_, represents, ?_, rfl, Outside.refl _ _⟩
        · simp only [eraseColorLoop, tested, red, bind, Except.bind]
          rfl
        · exact redBlack_of_fits fits balanced (color_blacken tree)

/-- `__rb_erase_color` fills the shortage and keeps the order. -/
theorem rbEraseColor_spec {frames : List (Frame Address)} {tree : RbTree Address}
    {height fuel : Nat} (enough : frames.length < fuel)
    (represents : Represents memory (plug frames tree)) (fits : Fits frames (height + 1))
    (lacks : Lacks height tree) :
    ∃ after final, rbEraseColor fuel (pointer tree) (parentOf frames) memory = .ok after ∧
      Represents after final ∧ IsRedBlack final ∧
      final.inorder = (plug frames tree).inorder ∧
      Outside (plug frames tree).inorder memory after := by
  obtain ⟨middle, context, focus, ran, representsMiddle, valid, same, outside⟩ :=
    eraseColorLoop_spec (Nat.zero_lt_of_lt enough) (fun _ => enough) represents fits lacks
  obtain ⟨after, blackened, representsAfter, outsideAfter⟩ := blacken_spec representsMiddle
  refine ⟨after, _, ?_, representsAfter, valid, ?_, ?_⟩
  · simp only [rbEraseColor, ran, bind, Except.bind]
    exact blackened
  · rw [inorder_plug_congr context (inorder_blacken focus), same]
  · rw [same] at outsideAfter
    exact outside.trans outsideAfter

/-- Going down one side reaches the first node that has no child there. -/
theorem descend_spec (side : Side) {frames : List (Frame Address)} {tree : RbTree Address}
    {fuel : Nat} (enough : tree.depth < fuel) (represents : Represents memory (plug frames tree))
    (occupied : tree ≠ leaf) :
    ∃ inner color last below, tree = plug inner (join side color leaf last below) ∧
      descend side fuel (pointer tree) memory = .ok (some last) ∧
      (∀ frame ∈ inner, frame.side = side) := by
  induction fuel generalizing frames tree with
  | zero => exact absurd enough (Nat.not_lt_zero _)
  | succ fuel ih =>
      obtain ⟨color, near, address, far, rfl⟩ :
          ∃ color near address far, tree = join side color near address far := by
        cases tree with
        | leaf => exact absurd rfl occupied
        | node color left key right =>
            cases side
            · exact ⟨color, left, key, right, rfl⟩
            · exact ⟨color, right, key, left, rfl⟩
      have here := represents.focus_node
      rw [pointer_join]
      cases near with
      | leaf =>
          refine ⟨[], color, address, far, rfl, ?_, by simp⟩
          simp only [descend, Memory.load_some here, child_oriented, bind, Except.bind]
          rfl
      | node lower left key right =>
          have shorter : (node lower left key right).depth < fuel := by
            have deeper : (node lower left key right).depth + 1 ≤
                (join side color (node lower left key right) address far).depth := by
              cases side
              · exact Nat.succ_le_succ (le_max_left _ _)
              · exact Nat.succ_le_succ (le_max_right _ _)
            omega
          have inside : Represents memory
              (plug (⟨side, color, address, far⟩ :: frames) (node lower left key right)) :=
            represents
          obtain ⟨inner, last, lastKey, below, split, ran, sides⟩ :=
            ih shorter inside (by simp)
          refine ⟨inner ++ [⟨side, color, address, far⟩], last, lastKey, below, ?_, ?_, ?_⟩
          · rw [plug_append, ← split]
            rfl
          · simp only [descend, Memory.load_some here, child_oriented, bind, Except.bind]
            exact ran
          · intro frame member
            rcases List.mem_append.mp member with early | last
            · exact sides frame early
            · obtain rfl : frame = ⟨side, color, address, far⟩ := by simpa using last
              rfl

/-- Taking out a node that has no child on one side: the other child takes its
place, and the node itself is not written to. -/
theorem unlink_spec {side : Side} {frames : List (Frame Address)} {color : Color}
    {child : RbTree Address} {address : Address}
    (represents : Represents memory (plug frames (join side color leaf address child))) :
    ∃ after, unlink (some address) (pointer child) memory =
        .ok (parentOf frames, color, after) ∧ Represents after (plug frames child) ∧
      after.nodes address = memory.nodes address ∧
      Outside (plug frames (join side color leaf address child)).inorder memory after := by
  obtain ⟨root, around, stored, distinct⟩ := represents_plug.mp represents
  obtain ⟨here, -, storedChild⟩ := stored_join.mp stored
  obtain ⟨distinctTree, distinctContext, apart⟩ := nodup_plug.mp distinct
  obtain ⟨-, outChild, -, distinctChild, -⟩ := nodup_join.mp distinctTree
  rw [pointer_join] at root around
  have outContext : address ∉ contextKeys frames := apart (mem_join.mpr (.inl rfl))
  have childContext : ∀ other ∈ child.inorder, other ∉ contextKeys frames :=
    fun other member => apart (mem_join.mpr (.inr (.inr member)))
  obtain ⟨first, adopted, firstChild, firstRoot, firstOutside⟩ :=
    updateIfAny_parent (parentOf frames) storedChild distinctChild
  have firstAround : Around first frames (some address) := around.frame fun other member =>
    firstOutside other fun inside => childContext other inside member
  obtain ⟨second, linked, secondRoot, secondAround, secondOutside⟩ :=
    relink_spec .left (pointer child) (firstRoot.trans root) firstAround distinctContext outContext
  refine ⟨second, ?_, represents_plug.mpr ⟨secondRoot, secondAround, ?_, ?_⟩, ?_, ?_⟩
  · simp only [unlink, Memory.load_some here, rbParent_oriented, rbColor_oriented, adopted, linked,
      bind, Except.bind]
    rfl
  · exact firstChild.frame fun other member => secondOutside other (childContext other member)
  · exact nodup_plug.mpr ⟨distinctChild, distinctContext, childContext⟩
  · exact (secondOutside address outContext).trans (firstOutside address outChild)
  · refine Outside.trans (firstOutside.mono fun other member => ?_)
      (secondOutside.mono fun other member => ?_)
    · exact mem_plug.mpr (.inl (mem_join.mpr (.inr (.inr member))))
    · exact mem_plug.mpr (.inr member)

/-- The nodes around a node are pointed at another one: the context, then the
two children. -/
theorem handOver_spec {frames : List (Frame Address)} {color : Color} {left right : RbTree Address}
    {old : Address} (fresh : Address) (root : memory.rbNode = rootOf frames (some old))
    (around : Around memory frames (some old))
    (stored : Stored memory (parentOf frames) (node color left old right))
    (distinct : (plug frames (node color left old right)).inorder.Nodup) :
    ∃ first second third,
      memory.relink .left (parentOf frames) (some old) (some fresh) = .ok first ∧
      first.nodes old = some ⟨parentOf frames, pointer right, pointer left, color⟩ ∧
      first.updateIfAny (pointer left) (setParent (some fresh)) = .ok second ∧
      second.nodes old = some ⟨parentOf frames, pointer right, pointer left, color⟩ ∧
      second.updateIfAny (pointer right) (setParent (some fresh)) = .ok third ∧
      third.nodes old = some ⟨parentOf frames, pointer right, pointer left, color⟩ ∧
      third.rbNode = rootOf frames (some fresh) ∧ Around third frames (some fresh) ∧
      Stored third (some fresh) left ∧ Stored third (some fresh) right ∧
      Outside (contextKeys frames ++ left.inorder ++ right.inorder) memory third := by
  obtain ⟨here, storedLeft, storedRight⟩ := stored
  obtain ⟨distinctTree, distinctContext, apart⟩ := nodup_plug.mp distinct
  have joined : (join .left color left old right).inorder.Nodup := distinctTree
  obtain ⟨oldLeft, oldRight, distinctLeft, distinctRight, apartSides⟩ := nodup_join.mp joined
  have oldContext : old ∉ contextKeys frames := apart (mem_node.mpr (.inl rfl))
  have leftContext : ∀ other ∈ left.inorder, other ∉ contextKeys frames :=
    fun other member => apart (mem_node.mpr (.inr (.inl member)))
  have rightContext : ∀ other ∈ right.inorder, other ∉ contextKeys frames :=
    fun other member => apart (mem_node.mpr (.inr (.inr member)))
  obtain ⟨first, linked, firstRoot, firstAround, firstOutside⟩ :=
    relink_spec .left (some fresh) root around distinctContext oldContext
  have firstHere := (firstOutside old oldContext).trans here
  have firstLeft := storedLeft.frame fun other member =>
    firstOutside other (leftContext other member)
  have firstRight := storedRight.frame fun other member =>
    firstOutside other (rightContext other member)
  obtain ⟨second, adoptedLeft, secondLeft, secondRoot, secondOutside⟩ :=
    updateIfAny_parent (some fresh) firstLeft distinctLeft
  have secondHere := (secondOutside old oldLeft).trans firstHere
  have secondRight := firstRight.frame fun other member =>
    secondOutside other fun inside => apartSides inside member
  obtain ⟨third, adoptedRight, thirdRight, thirdRoot, thirdOutside⟩ :=
    updateIfAny_parent (some fresh) secondRight distinctRight
  refine ⟨first, second, third, linked, firstHere, adoptedLeft, secondHere, adoptedRight,
    (thirdOutside old oldRight).trans secondHere, (thirdRoot.trans secondRoot).trans firstRoot,
    ?_, ?_, thirdRight, ?_⟩
  · exact firstAround.frame fun other member =>
      (thirdOutside other fun inside => rightContext other inside member).trans
        (secondOutside other fun inside => leftContext other inside member)
  · exact secondLeft.frame fun other member =>
      thirdOutside other fun inside => apartSides member inside
  · refine Outside.trans (firstOutside.mono ?_) ((secondOutside.mono ?_).trans
      (thirdOutside.mono ?_)) <;> simp +contextual

theorem nodup_exchange {frames : List (Frame Address)} {color : Color} {left right : RbTree Address}
    {old fresh : Address} (distinct : (plug frames (node color left old right)).inorder.Nodup)
    (outside : fresh ∉ (plug frames (node color left old right)).inorder) :
    (plug frames (node color left fresh right)).inorder.Nodup := by
  obtain ⟨distinctTree, distinctContext, apart⟩ := nodup_plug.mp distinct
  have joined : (join .left color left old right).inorder.Nodup := distinctTree
  obtain ⟨-, -, distinctLeft, distinctRight, apartSides⟩ := nodup_join.mp joined
  simp only [mem_plug, mem_node, not_or] at outside
  obtain ⟨⟨-, freshLeft, freshRight⟩, freshContext⟩ := outside
  have exchanged : (join .left color left fresh right).inorder.Nodup :=
    nodup_join.mpr ⟨freshLeft, freshRight, distinctLeft, distinctRight, apartSides⟩
  refine nodup_plug.mpr ⟨exchanged, distinctContext, fun other member => ?_⟩
  rcases mem_node.mp member with rfl | inLeft | inRight
  · exact freshContext
  · exact apart (mem_node.mpr (.inr (.inl inLeft)))
  · exact apart (mem_node.mpr (.inr (.inr inRight)))

/-- A node that is not in the tree takes the place of one that is. -/
theorem takeOver_spec {frames : List (Frame Address)} {color : Color} {left right : RbTree Address}
    {old fresh : Address} {record : RbNode}
    (represents : Represents memory (plug frames (node color left old right)))
    (outside : fresh ∉ (plug frames (node color left old right)).inorder)
    (allocated : memory.nodes fresh = some record) (occupied : left ≠ leaf) :
    ∃ after, takeOver (some old) (some fresh) memory = .ok after ∧
      Represents after (plug frames (node color left fresh right)) ∧
      Outside (fresh :: (plug frames (node color left old right)).inorder) memory after := by
  obtain ⟨root, around, stored, distinct⟩ := represents_plug.mp represents
  have here := stored.1
  have away := outside
  simp only [mem_plug, mem_node, not_or] at away
  obtain ⟨⟨freshOld, freshLeft, freshRight⟩, freshContext⟩ := away
  let copied := memory.store fresh ⟨parentOf frames, pointer right, pointer left, color⟩
  have copiedRoot : copied.rbNode = rootOf frames (some old) := root
  have copiedAround : Around copied frames (some old) := around.frame fun other member =>
    Memory.store_other fun same => freshContext (same ▸ member)
  have copiedStored : Stored copied (parentOf frames) (node color left old right) :=
    stored.frame fun other member => Memory.store_other fun same =>
      outside (mem_plug.mpr (.inl (same ▸ member)))
  obtain ⟨first, second, third, linked, firstHere, adoptedLeft, secondHere, adoptedRight, -,
    thirdRoot, thirdAround, thirdLeft, thirdRight, thirdOutside⟩ :=
    handOver_spec fresh copiedRoot copiedAround copiedStored distinct
  have adoptedUpdate : first.update (pointer left) (setParent (some fresh)) = .ok second := by
    cases left with
    | leaf => exact absurd rfl occupied
    | node => exact adoptedLeft
  have untouched : fresh ∉ contextKeys frames ++ left.inorder ++ right.inorder := by
    simp only [List.mem_append, not_or]
    exact ⟨⟨freshContext, freshLeft⟩, freshRight⟩
  refine ⟨third, ?_, represents_plug.mpr ⟨thirdRoot, thirdAround, ⟨?_, thirdLeft, thirdRight⟩,
    nodup_exchange distinct outside⟩, ?_⟩
  · simp only [takeOver, Memory.load_some here, Memory.update_some allocated, bind, Except.bind]
    rw [show memory.store fresh _ = copied from rfl]
    simp only [Memory.load_some copiedStored.1, linked, Memory.load_some firstHere, adoptedUpdate,
      Memory.load_some secondHere, adoptedRight]
  · exact (thirdOutside fresh untouched).trans Memory.store_same
  · refine Outside.trans (outside_store (List.mem_cons_self ..)) (thirdOutside.mono ?_)
    intro other member
    refine List.mem_cons_of_mem _ (mem_plug.mpr ?_)
    simp only [List.mem_append] at member
    rcases member with (inContext | inLeft) | inRight
    · exact .inr inContext
    · exact .inl (mem_node.mpr (.inr (.inl inLeft)))
    · exact .inl (mem_node.mpr (.inr (.inr inRight)))

/-- The keys of the frames do not matter for the balance. -/
theorem fits_rekey (inner : List (Frame Address)) {side : Side} {color : Color}
    {old fresh : Address} {sibling : RbTree Address} {outer : List (Frame Address)} {height : Nat}
    (fits : Fits (inner ++ ⟨side, color, old, sibling⟩ :: outer) height) :
    Fits (inner ++ ⟨side, color, fresh, sibling⟩ :: outer) height := by
  induction inner generalizing height with
  | nil => cases color <;> exact fits
  | cons frame rest ih =>
      obtain ⟨low, lower, key, beside⟩ := frame
      cases lower with
      | red =>
          obtain ⟨balanced, black, top, fitsRest⟩ := fits_red.mp fits
          refine fits_red.mpr ⟨balanced, black, ?_, ih fitsRest⟩
          cases rest <;> exact top
      | black =>
          obtain ⟨balanced, fitsRest⟩ := fits_black.mp fits
          exact fits_black.mpr ⟨balanced, ih fitsRest⟩

/-- What is left of a red-black tree when a node without a child on one side
is taken out: a red-black tree below a red node, a shortage below a black
one. -/
theorem unlinked_balance {side : Side} {frames : List (Frame Address)} {color : Color}
    {child : RbTree Address} {address : Address}
    (redBlack : IsRedBlack (plug frames (join side color leaf address child))) :
    (color = .red → ∃ height, Fits frames height ∧ HasHeight height child ∧ child.color = .black) ∧
      (color = .black → Fits frames 1 ∧ Lacks 0 child) := by
  obtain ⟨height, fits, balanced, -⟩ := (redBlack_plug _ _).mp redBlack
  constructor
  · rintro rfl
    obtain ⟨-, black, -, balancedChild⟩ := balanced_join_red.mp balanced
    exact ⟨height, fits, balancedChild, black⟩
  · rintro rfl
    cases height with
    | zero =>
        cases side <;> simp [join, HasHeight] at balanced
    | succ below =>
        obtain ⟨zero, balancedChild⟩ := balanced_join_black.mp balanced
        cases zero
        refine ⟨fits, ?_⟩
        rcases color_cases child with red | black
        · exact .inr ⟨red, balancedChild.blacken_red red⟩
        · exact .inl ⟨black, balancedChild⟩

/-- The end of `rb_erase`: the shortage below a black node is filled. -/
theorem rebalance_spec {frames : List (Frame Address)} {color : Color} {child : RbTree Address}
    {fuel : Nat} (enough : frames.length < fuel)
    (represents : Represents memory (plug frames child))
    (red : color = .red → ∃ height, Fits frames height ∧ HasHeight height child ∧
      child.color = .black)
    (black : color = .black → Fits frames 1 ∧ Lacks 0 child) :
    ∃ after final, (if color = .black then
        rbEraseColor fuel (pointer child) (parentOf frames) memory else pure memory) = .ok after ∧
      Represents after final ∧ IsRedBlack final ∧
      final.inorder = (plug frames child).inorder ∧
      Outside (plug frames child).inorder memory after := by
  cases color with
  | red =>
      obtain ⟨height, fits, balanced, blackChild⟩ := red rfl
      exact ⟨memory, _, rfl, represents, redBlack_of_fits fits balanced blackChild, rfl,
        Outside.refl _ _⟩
  | black =>
      obtain ⟨fits, lacks⟩ := black rfl
      exact rbEraseColor_spec enough represents fits lacks

/-- Erasing a node without a child on one side. -/
theorem rbErase_single (side : Side) {frames : List (Frame Address)} {color : Color}
    {child : RbTree Address} {address : Address} {fuel : Nat} (enough : frames.length < fuel)
    (represents : Represents memory (plug frames (join side color leaf address child)))
    (redBlack : IsRedBlack (plug frames (join side color leaf address child))) :
    ∃ after final, rbErase fuel (some address) memory = .ok after ∧ Represents after final ∧
      IsRedBlack final ∧ final.inorder = (plug frames child).inorder ∧
      Outside (plug frames (join side color leaf address child)).inorder memory after := by
  have here := represents.focus_node
  obtain ⟨middle, unlinked, representsMiddle, -, outsideMiddle⟩ := unlink_spec represents
  obtain ⟨red, black⟩ := unlinked_balance redBlack
  obtain ⟨after, final, ran, representsFinal, valid, same, outside⟩ :=
    rebalance_spec enough representsMiddle red black
  refine ⟨after, final, ?_, representsFinal, valid, same, outsideMiddle.trans (outside.mono ?_)⟩
  · cases side with
    | left =>
        rw [pointer_leaf] at here
        simp only [rbErase, Memory.load_some here, oriented, if_true, unlinked, bind, Except.bind,
          pure, Except.pure]
        exact ran
    | right =>
        cases child with
        | leaf =>
            simp only [pointer_leaf] at unlinked ran here
            simp only [rbErase, Memory.load_some here, oriented, if_true, unlinked, bind,
              Except.bind, pure, Except.pure]
            exact ran
        | node lower left key right =>
            simp only [pointer] at unlinked ran
            simp only [rbErase, Memory.load_some here, oriented, pointer, reduceCtorEq, if_false,
              if_true, unlinked, bind, Except.bind, pure, Except.pure]
            exact ran
  · intro other member
    rcases mem_plug.mp member with inChild | inContext
    · exact mem_plug.mpr (.inl (mem_join.mpr (.inr (.inr inChild))))
    · exact mem_plug.mpr (.inr inContext)

/-- The keys of the tree before a successor takes the place of a node, while
it is unlinked, and afterwards. -/
theorem mem_successor {frames inner : List (Frame Address)} {color lower : Color}
    {left child : RbTree Address} {address successor other : Address} :
    other ∈ (plug frames (node color left address
        (plug inner (join .left lower leaf successor child)))).inorder ↔
      other = successor ∨
        other ∈ (plug frames (node color left address (plug inner child))).inorder ∨
        other ∈ (plug frames (node color left successor (plug inner child))).inorder := by
  simp only [mem_plug, mem_node, mem_join]
  simp only [inorder, List.not_mem_nil]
  tauto

/-- Erasing a node with two children: its successor takes its place. -/
theorem rbErase_double {frames : List (Frame Address)} {color : Color} {left right : RbTree Address}
    {address : Address} {fuel : Nat}
    (enough : (plug frames (node color left address right)).depth < fuel)
    (represents : Represents memory (plug frames (node color left address right)))
    (redBlack : IsRedBlack (plug frames (node color left address right)))
    (leftOccupied : left ≠ leaf) (rightOccupied : right ≠ leaf) :
    ∃ after final, rbErase fuel (some address) memory = .ok after ∧ Represents after final ∧
      IsRedBlack final ∧
      final.inorder = keysBefore frames ++ left.inorder ++ right.inorder ++ keysAfter frames ∧
      Outside (plug frames (node color left address right)).inorder memory after := by
  have here : memory.nodes address =
      some ⟨parentOf frames, pointer right, pointer left, color⟩ :=
    (represents_plug.mp represents).2.2.1.1
  have atRight : Represents memory (plug (⟨.right, color, address, left⟩ :: frames) right) :=
    represents
  have deeper := depth_plug_le frames (node color left address right)
  have rightDepth : right.depth < fuel := by
    have inside : right.depth < (node color left address right).depth :=
      Nat.lt_succ_of_le (le_max_right _ _)
    omega
  obtain ⟨inner, lower, successor, child, rfl, descended, sides⟩ :=
    descend_spec .left rightDepth atRight rightOccupied
  have atSuccessor : Represents memory (plug (inner ++ ⟨.right, color, address, left⟩ :: frames)
      (join .left lower leaf successor child)) := by
    rw [plug_append]
    exact represents
  have contextDepth : (inner ++ (⟨.right, color, address, left⟩ : Frame Address) ::
      frames).length < fuel := by
    have bound := depth_plug_le (inner ++ ⟨.right, color, address, left⟩ :: frames)
      (join .left lower leaf successor child)
    rw [plug_append] at bound
    exact lt_of_le_of_lt (le_trans (Nat.le_add_right _ _) bound) enough
  obtain ⟨first, unlinked, representsFirst, recordSame, outsideFirst⟩ := unlink_spec atSuccessor
  have record : first.nodes successor = some (oriented .left
      (parentOf (inner ++ ⟨.right, color, address, left⟩ :: frames)) lower none (pointer child)) :=
    recordSame.trans atSuccessor.focus_node
  have lowered : Represents first (plug frames (node color left address (plug inner child))) := by
    rw [plug_append] at representsFirst
    exact representsFirst
  obtain ⟨distinctSuccessor, -, apartSuccessor⟩ := nodup_plug.mp atSuccessor.distinct
  obtain ⟨-, outChild, -⟩ := nodup_join.mp distinctSuccessor
  have gone : successor ∉ (plug (inner ++ ⟨.right, color, address, left⟩ :: frames)
      child).inorder := by
    intro member
    rcases mem_plug.mp member with inChild | inContext
    · exact outChild inChild
    · exact apartSuccessor (mem_join.mpr (.inl rfl)) inContext
  have goneLowered : successor ∉
      (plug frames (node color left address (plug inner child))).inorder := by
    rw [plug_append] at gone
    exact gone
  obtain ⟨second, taken, representsSecond, outsideSecond⟩ :=
    takeOver_spec lowered goneLowered record leftOccupied
  have replaced : Represents second
      (plug (inner ++ ⟨.right, color, successor, left⟩ :: frames) child) := by
    rw [plug_append]
    exact representsSecond
  -- the parent of the hole is the successor itself when it was a child of the old node
  have parentFixed : (if parentOf (inner ++ ⟨.right, color, address, left⟩ :: frames) = some address
      then some successor else parentOf (inner ++ ⟨.right, color, address, left⟩ :: frames)) =
      parentOf (inner ++ ⟨.right, color, successor, left⟩ :: frames) := by
    cases inner with
    | nil => exact if_pos rfl
    | cons frame rest =>
        refine if_neg fun same => ?_
        obtain ⟨-, distinctContext, -⟩ := nodup_plug.mp atSuccessor.distinct
        obtain ⟨apart, -⟩ := List.nodup_cons.mp distinctContext
        refine apart ?_
        rw [Option.some.inj same]
        have later : address ∈ contextKeys (rest ++ ⟨.right, color, address, left⟩ :: frames) := by
          clear * -
          induction rest with
          | nil => simp [contextKeys]
          | cons next rest ih => simp [contextKeys, ih]
        simp [later]
  have redBlackSuccessor : IsRedBlack (plug (inner ++ ⟨.right, color, address, left⟩ :: frames)
      (join .left lower leaf successor child)) := by
    rw [plug_append]
    exact redBlack
  obtain ⟨red, black⟩ := unlinked_balance redBlackSuccessor
  have sameLength : (inner ++ (⟨.right, color, successor, left⟩ : Frame Address) :: frames).length <
      fuel := by
    simpa using contextDepth
  obtain ⟨after, final, ran, representsFinal, valid, same, outside⟩ :=
    rebalance_spec sameLength replaced
      (fun isRed => (red isRed).imp fun height facts => ⟨fits_rekey inner facts.1, facts.2⟩)
      (fun isBlack => ⟨fits_rekey inner (black isBlack).1, (black isBlack).2⟩)
  have noneBefore : keysBefore inner = [] := by
    clear * - sides
    induction inner with
    | nil => rfl
    | cons frame rest ih =>
        obtain ⟨side, color, key, sibling⟩ := frame
        obtain rfl : side = .left := sides _ (List.mem_cons_self ..)
        exact ih fun other member => sides other (List.mem_cons_of_mem _ member)
  refine ⟨after, final, ?_, representsFinal, valid, ?_, ?_⟩
  · obtain ⟨leftKey, leftPointer⟩ : ∃ key, pointer left = some key := by
      cases left with
      | leaf => exact absurd rfl leftOccupied
      | node color left key right => exact ⟨key, rfl⟩
    obtain ⟨rightKey, rightPointer⟩ : ∃ key,
        pointer (plug inner (join .left lower leaf successor child)) = some key := by
      cases split : plug inner (join .left lower leaf successor child) with
      | leaf => exact absurd split rightOccupied
      | node color left key right => exact ⟨key, rfl⟩
    have successorNode := atSuccessor.focus_node
    rw [leftPointer, rightPointer] at here
    rw [rightPointer] at descended
    simp only [rbErase, Memory.load_some here, reduceCtorEq, if_false, descended,
      Memory.load_some successorNode, oriented, unlinked, Memory.load_some record, parentFixed,
      taken, bind, Except.bind, pure, Except.pure]
    exact ran
  · rw [same, inorder_plug, keysBefore_append, keysAfter_append, inorder_plug, noneBefore]
    simp [keysBefore, keysAfter, join, inorder]
  · rw [plug_append] at outsideFirst outside
    exact outsideFirst.trans ((outsideSecond.mono fun other member =>
      mem_successor.mpr (List.mem_cons.mp member |>.imp_right .inl)).trans
        (outside.mono fun other member => mem_successor.mpr (.inr (.inr member))))

/-- Erasing a node keeps the tree red-black and takes exactly this node out of
the order. -/
theorem rbErase_spec {tree : RbTree Address} {before behind : List Address} {address : Address}
    {fuel : Nat} (enough : tree.depth < fuel) (represents : Represents memory tree)
    (redBlack : IsRedBlack tree) (split : tree.inorder = before ++ address :: behind) :
    ∃ after final, rbErase fuel (some address) memory = .ok after ∧ Represents after final ∧
      IsRedBlack final ∧ final.inorder = before ++ behind ∧
      Outside tree.inorder memory after := by
  obtain ⟨frames, color, left, right, rfl, rfl, rfl⟩ := exists_plug split
  have shallow : frames.length < fuel :=
    lt_of_le_of_lt (le_trans (Nat.le_add_right _ _) (depth_plug_le _ _)) enough
  by_cases leftOccupied : left = leaf
  · subst leftOccupied
    obtain ⟨after, final, ran, representsFinal, valid, same, outside⟩ :=
      rbErase_single .left shallow represents redBlack
    refine ⟨after, final, ran, representsFinal, valid, ?_, outside⟩
    rw [same, inorder_plug]
    simp [inorder]
  · by_cases rightOccupied : right = leaf
    · subst rightOccupied
      obtain ⟨after, final, ran, representsFinal, valid, same, outside⟩ :=
        rbErase_single .right shallow represents redBlack
      refine ⟨after, final, ran, representsFinal, valid, ?_, outside⟩
      rw [same, inorder_plug]
      simp [inorder]
    · obtain ⟨after, final, ran, representsFinal, valid, same, outside⟩ :=
        rbErase_double enough represents redBlack leftOccupied rightOccupied
      refine ⟨after, final, ran, representsFinal, valid, ?_, outside⟩
      rw [same]
      simp

/-- `rb_erase` on any node of a red-black tree leaves a red-black tree without
this node and with the order of the others. No loop takes more iterations than
twice the logarithm of the size, no invalid pointer is followed, and nothing
outside the tree is written. -/
theorem erasure_balances (memory : Memory) (tree : RbTree Address) (before behind : List Address)
    (address : Address) (fuel : Nat) (represents : Represents memory tree)
    (redBlack : IsRedBlack tree) (split : tree.inorder = before ++ address :: behind)
    (enough : 2 * Nat.log 2 (tree.inorder.length + 1) < fuel) :
    ∃ after final, rbErase fuel (some address) memory = .ok after ∧ Represents after final ∧
      IsRedBlack final ∧ final.inorder = before ++ behind ∧
      Outside tree.inorder memory after :=
  rbErase_spec (lt_of_le_of_lt redBlack.depth_le enough) represents redBlack split

/-- Erasing the black root of two nodes: its red child is blackened. -/
theorem erasure_balances_root :
    ∃ after final, rbErase 3 (some 1) twoNodes = .ok after ∧ Represents after final ∧
      IsRedBlack final ∧ final.inorder = [2] ∧ Outside [2, 1] twoNodes after :=
  erasure_balances twoNodes _ [2] [] 1 3 twoNodes_represents twoNodes_redBlack rfl (by decide)

end Msmuduo.Rbtree
