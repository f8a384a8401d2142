import Msmuduo.Rbtree

/-!
# The tree a memory holds

A memory represents a tree of addresses when every node of the tree is stored
with its colour and its three pointers, and no address occurs twice. A subtree
and the context around it are represented independently of one another, except
for the pointer into the hole and the parent of the subtree, so that each of
the local changes (a colour, a rotation, a node exchanged for another) is
followed where it happens.
-/

namespace Msmuduo.Rbtree

set_option autoImplicit false

open Msmuduo.RedBlack Msmuduo.RedBlack.RbTree

namespace RbNode

/-- The node whose children are given as the one on a side and the other. -/
def oriented (side : Side) (parent : Pointer) (color : Color) (near far : Pointer) : RbNode :=
  match side with
  | .left => ⟨parent, far, near, color⟩
  | .right => ⟨parent, near, far, color⟩

variable {side : Side} {parent near far pointer : Pointer} {color other : Color}

@[simp]
theorem child_oriented : (oriented side parent color near far).child side = near := by
  cases side <;> rfl

@[simp]
theorem child_other_oriented :
    (oriented side parent color near far).child side.other = far := by
  cases side <;> rfl

@[simp]
theorem rbParent_oriented : (oriented side parent color near far).rbParent = parent := by
  cases side <;> rfl

@[simp]
theorem rbColor_oriented : (oriented side parent color near far).rbColor = color := by
  cases side <;> rfl

@[simp]
theorem setChild_oriented : setChild side pointer (oriented side parent color near far) =
    oriented side parent color pointer far := by
  cases side <;> rfl

@[simp]
theorem setChild_other_oriented :
    setChild side.other pointer (oriented side parent color near far) =
      oriented side parent color near pointer := by
  cases side <;> rfl

@[simp]
theorem setParent_oriented : setParent pointer (oriented side parent color near far) =
    oriented side pointer color near far := by
  cases side <;> rfl

@[simp]
theorem setColor_oriented : setColor other (oriented side parent color near far) =
    oriented side parent other near far := by
  cases side <;> rfl

theorem oriented_other : oriented side.other parent color near far =
    oriented side parent color far near := by
  cases side <;> rfl

end RbNode

open RbNode

namespace Memory

variable {memory : Memory} {address other : Address} {node : RbNode}

theorem load_some (stored : memory.nodes address = some node) :
    memory.load (some address) = .ok node := by
  simp [load, stored]

theorem update_some (stored : memory.nodes address = some node) (assign : RbNode → RbNode) :
    memory.update (some address) assign = .ok (memory.store address (assign node)) := by
  simp [update, stored]

theorem isRed_some (stored : memory.nodes address = some node) :
    memory.isRed (some address) = .ok (node.rbColor == .red) := by
  simp only [isRed, load_some stored]
  rfl

theorem isBlack_some (stored : memory.nodes address = some node) :
    memory.isBlack (some address) = .ok (node.rbColor == .black) := by
  simp only [isBlack, load_some stored]
  rfl

@[simp]
theorem store_same : (memory.store address node).nodes address = some node := if_pos rfl

theorem store_other (different : other ≠ address) :
    (memory.store address node).nodes other = memory.nodes other := if_neg different

@[simp]
theorem store_rbNode : (memory.store address node).rbNode = memory.rbNode := rfl

end Memory

/-- The pointer to a tree is the one to its root. -/
def pointer : RbTree Address → Pointer
  | .leaf => none
  | .node _ _ address _ => some address

@[simp]
theorem pointer_join (side : Side) (color : Color) (near : RbTree Address) (address : Address)
    (far : RbTree Address) : pointer (join side color near address far) = some address := by
  cases side <;> rfl

@[simp]
theorem pointer_leaf : pointer (.leaf : RbTree Address) = none := rfl

theorem pointer_mem {tree : RbTree Address} {address : Address}
    (here : pointer tree = some address) :
    address ∈ tree.inorder := by
  cases tree with
  | leaf => cases here
  | node color left key right =>
      cases here
      simp [inorder]

/-- Every node of the tree is in memory, the root below the given parent. -/
def Stored (memory : Memory) : Pointer → RbTree Address → Prop
  | _, .leaf => True
  | parent, .node color left address right =>
      memory.nodes address = some ⟨parent, pointer right, pointer left, color⟩ ∧
        Stored memory (some address) left ∧ Stored memory (some address) right

/-- The parent of the tree in the hole. -/
def parentOf : List (Frame Address) → Pointer
  | [] => none
  | frame :: _ => some frame.key

@[simp]
theorem parentOf_cons (frame : Frame Address) (rest : List (Frame Address)) :
    parentOf (frame :: rest) = some frame.key := rfl

/-- The root pointer, given the pointer to the tree in the hole. -/
def rootOf : List (Frame Address) → Pointer → Pointer
  | [], hole => hole
  | frame :: rest, _ => rootOf rest (some frame.key)

/-- Every node of the context is in memory, with the given pointer into the
hole. -/
def Around (memory : Memory) : List (Frame Address) → Pointer → Prop
  | [], _ => True
  | frame :: rest, hole =>
      memory.nodes frame.key =
          some (oriented frame.side (parentOf rest) frame.color hole (pointer frame.sibling)) ∧
        Stored memory (some frame.key) frame.sibling ∧ Around memory rest (some frame.key)

structure Represents (memory : Memory) (tree : RbTree Address) : Prop where
  root : memory.rbNode = pointer tree
  stored : Stored memory none tree
  distinct : tree.inorder.Nodup

/-- Outside the given addresses the memory is what it was. -/
def Outside (keys : List Address) (before after : Memory) : Prop :=
  ∀ address, address ∉ keys → after.nodes address = before.nodes address

theorem Outside.refl (keys : List Address) (memory : Memory) : Outside keys memory memory :=
  fun _ _ => rfl

theorem Outside.trans {keys : List Address} {first second third : Memory}
    (early : Outside keys first second) (late : Outside keys second third) :
    Outside keys first third :=
  fun address apart => (late address apart).trans (early address apart)

theorem Outside.mono {few many : List Address} {before after : Memory}
    (outside : Outside few before after) (more : ∀ address ∈ few, address ∈ many) :
    Outside many before after :=
  fun address apart => outside address fun member => apart (more address member)

theorem outside_store {keys : List Address} {memory : Memory} {address : Address} {node : RbNode}
    (member : address ∈ keys) : Outside keys memory (memory.store address node) :=
  fun _ apart => Memory.store_other fun same => apart (same ▸ member)

variable {memory after : Memory}

theorem stored_join {side : Side} {parent : Pointer} {color : Color} {near far : RbTree Address}
    {address : Address} : Stored memory parent (join side color near address far) ↔
      memory.nodes address = some (oriented side parent color (pointer near) (pointer far)) ∧
        Stored memory (some address) near ∧ Stored memory (some address) far := by
  cases side
  · rfl
  · simp only [join, Stored, oriented]
    tauto

theorem Stored.frame {parent : Pointer} {tree : RbTree Address} (stored : Stored memory parent tree)
    (same : ∀ address ∈ tree.inorder, after.nodes address = memory.nodes address) :
    Stored after parent tree := by
  induction tree generalizing parent with
  | leaf => trivial
  | node color left address right ihLeft ihRight =>
      obtain ⟨here, below, beside⟩ := stored
      refine ⟨(same address (by simp [inorder])).trans here, ?_, ?_⟩
      · exact ihLeft below fun other member => same other (by simp [inorder, member])
      · exact ihRight beside fun other member => same other (by simp [inorder, member])

theorem Around.frame {frames : List (Frame Address)} {hole : Pointer}
    (around : Around memory frames hole)
    (same : ∀ address ∈ contextKeys frames, after.nodes address = memory.nodes address) :
    Around after frames hole := by
  induction frames generalizing hole with
  | nil => trivial
  | cons frame rest ih =>
      obtain ⟨here, beside, above⟩ := around
      refine ⟨(same frame.key (by simp [contextKeys])).trans here, ?_, ?_⟩
      · exact beside.frame fun other member => same other (by simp [contextKeys, member])
      · exact ih above fun other member => same other (by simp [contextKeys, member])

theorem pointer_plug (frames : List (Frame Address)) (tree : RbTree Address) :
    pointer (plug frames tree) = rootOf frames (pointer tree) := by
  induction frames generalizing tree with
  | nil => rfl
  | cons frame rest ih =>
      rw [plug_cons, ih]
      simp [Frame.fill, rootOf]

theorem stored_plug (frames : List (Frame Address)) (tree : RbTree Address) :
    Stored memory none (plug frames tree) ↔
      Around memory frames (pointer tree) ∧ Stored memory (parentOf frames) tree := by
  induction frames generalizing tree with
  | nil => simp [Around, parentOf]
  | cons frame rest ih =>
      rw [plug_cons, ih]
      simp only [Frame.fill, stored_join, pointer_join, Around, parentOf]
      tauto

/-- A represented tree is the context and the subtree in its hole. -/
theorem represents_plug {frames : List (Frame Address)} {tree : RbTree Address} :
    Represents memory (plug frames tree) ↔
      memory.rbNode = rootOf frames (pointer tree) ∧ Around memory frames (pointer tree) ∧
        Stored memory (parentOf frames) tree ∧ (plug frames tree).inorder.Nodup := by
  constructor
  · intro represents
    obtain ⟨around, stored⟩ := (stored_plug frames tree).mp represents.stored
    exact ⟨represents.root.trans (pointer_plug frames tree), around, stored, represents.distinct⟩
  · rintro ⟨root, around, stored, distinct⟩
    exact ⟨root.trans (pointer_plug frames tree).symm,
      (stored_plug frames tree).mpr ⟨around, stored⟩, distinct⟩

/-- Giving the tree below a pointer another parent. -/
theorem updateIfAny_parent (fresh : Pointer) {parent : Pointer} {tree : RbTree Address}
    (stored : Stored memory parent tree) (distinct : tree.inorder.Nodup) :
    ∃ after, memory.updateIfAny (pointer tree) (setParent fresh) = .ok after ∧
      Stored after fresh tree ∧ after.rbNode = memory.rbNode ∧
      Outside tree.inorder memory after := by
  cases tree with
  | leaf => exact ⟨memory, rfl, trivial, rfl, Outside.refl _ _⟩
  | node color left address right =>
      obtain ⟨here, below, beside⟩ := stored
      have joined : (join .left color left address right).inorder.Nodup := distinct
      obtain ⟨apartLeft, apartRight, -, -, -⟩ := nodup_join.mp joined
      refine ⟨_, Memory.update_some here _, ⟨Memory.store_same, ?_, ?_⟩, rfl, ?_⟩
      · exact below.frame fun other member =>
          Memory.store_other fun same => apartLeft (same ▸ member)
      · exact beside.frame fun other member =>
          Memory.store_other fun same => apartRight (same ▸ member)
      · exact outside_store (by simp [inorder])

/-- Pointing the context at another tree in its hole. -/
theorem relink_spec (first : Side) {frames : List (Frame Address)} {old : Address}
    (fresh : Pointer) (root : memory.rbNode = rootOf frames (some old))
    (around : Around memory frames (some old)) (distinct : (contextKeys frames).Nodup)
    (apart : old ∉ contextKeys frames) :
    ∃ after, memory.relink first (parentOf frames) (some old) fresh = .ok after ∧
      after.rbNode = rootOf frames fresh ∧ Around after frames fresh ∧
      Outside (contextKeys frames) memory after := by
  cases frames with
  | nil => exact ⟨_, rfl, rfl, trivial, fun _ _ => rfl⟩
  | cons frame rest =>
      obtain ⟨side, color, key, sibling⟩ := frame
      obtain ⟨here, beside, above⟩ := around
      obtain ⟨apartKey, apartSibling, -⟩ :
          old ≠ key ∧ old ∉ sibling.inorder ∧ old ∉ contextKeys rest := by
        simpa [contextKeys] using apart
      obtain ⟨keyApart, -⟩ := List.nodup_cons.mp distinct
      have siblingOther : pointer sibling ≠ some old := fun same => apartSibling (pointer_mem same)
      have assigned : memory.relink first (some key) (some old) fresh =
          .ok (memory.store key
            (oriented side (parentOf rest) color fresh (pointer sibling))) := by
        simp only [Memory.relink, Memory.load_some here, bind, Except.bind]
        by_cases same : side = first
        · subst same
          rw [if_pos child_oriented, Memory.update_some here, setChild_oriented]
        · have mirrored : side = first.other := by
            cases side <;> cases first <;> simp_all [Side.other]
          subst mirrored
          have missed : (oriented first.other (parentOf rest) color (some old)
              (pointer sibling)).child first ≠ some old := by
            rw [oriented_other, child_oriented]
            exact siblingOther
          rw [if_neg missed, Memory.update_some here, setChild_oriented]
      refine ⟨_, assigned, root, ⟨Memory.store_same, ?_, ?_⟩, outside_store (by simp [contextKeys])⟩
      · exact beside.frame fun other member =>
          Memory.store_other fun same => keyApart (by simp [← same, member])
      · exact above.frame fun other member =>
          Memory.store_other fun same => keyApart (by simp [← same, member])

/-- A new colour for the node in the hole. -/
theorem recolor {side : Side} {frames : List (Frame Address)} {color : Color}
    {near far : RbTree Address} {address : Address} (fresh : Color)
    (represents : Represents memory (plug frames (join side color near address far))) :
    ∃ after, memory.update (some address) (setColor fresh) = .ok after ∧
      Represents after (plug frames (join side fresh near address far)) ∧
      Outside (plug frames (join side color near address far)).inorder memory after := by
  obtain ⟨root, around, stored, distinct⟩ := represents_plug.mp represents
  obtain ⟨here, below, beside⟩ := stored_join.mp stored
  obtain ⟨distinctTree, -, apart⟩ := nodup_plug.mp distinct
  obtain ⟨apartNear, apartFar, -⟩ := nodup_join.mp distinctTree
  have member : address ∈ (join side color near address far).inorder := mem_join.mpr (.inl rfl)
  refine ⟨_, Memory.update_some here _, represents_plug.mpr ⟨?_, ?_, ?_, ?_⟩, ?_⟩
  · simpa using root
  · rw [pointer_join] at around ⊢
    exact around.frame fun other outer =>
      Memory.store_other fun same => apart member (same ▸ outer)
  · rw [setColor_oriented]
    refine stored_join.mpr ⟨Memory.store_same, ?_, ?_⟩
    · exact below.frame fun other inner =>
        Memory.store_other fun same => apartNear (same ▸ inner)
    · exact beside.frame fun other inner =>
        Memory.store_other fun same => apartFar (same ▸ inner)
  · rw [inorder_plug] at distinct ⊢
    rwa [inorder_recolor side fresh color]
  · exact outside_store (mem_plug.mpr (.inl member))

/-- A rotation of the memory is a rotation of the tree. -/
theorem rotate_spec {side : Side} {frames : List (Frame Address)} {upper lower : Color}
    {near inner far : RbTree Address} {address pivot : Address}
    (represents : Represents memory
      (plug frames (join side upper near address (join side lower inner pivot far)))) :
    ∃ after, rotate side (some address) memory = .ok after ∧
      Represents after
        (plug frames (join side lower (join side upper near address inner) pivot far)) ∧
      Outside (plug frames (join side upper near address (join side lower inner pivot far))).inorder
        memory after := by
  obtain ⟨root, around, stored, distinct⟩ := represents_plug.mp represents
  obtain ⟨here, storedNear, storedPivot⟩ := stored_join.mp stored
  obtain ⟨there, storedInner, storedFar⟩ := stored_join.mp storedPivot
  obtain ⟨distinctTree, distinctContext, apart⟩ := nodup_plug.mp distinct
  obtain ⟨outNear, outPivot, -, distinctPivot, apartNear⟩ := nodup_join.mp distinctTree
  obtain ⟨pivotInner, pivotFar, distinctInner, -, apartInner⟩ := nodup_join.mp distinctPivot
  rw [pointer_join] at root around here
  simp only [mem_join, not_or] at outPivot
  obtain ⟨different, outInner, outFar⟩ := outPivot
  have outContext : address ∉ contextKeys frames := apart (mem_join.mpr (.inl rfl))
  have pivotContext : pivot ∉ contextKeys frames := fun member =>
    apart (mem_join.mpr (.inr (.inr (mem_join.mpr (.inl rfl))))) member
  -- the inner subtree changes its parent from the pivot to the node
  let first := memory.store address
    (oriented side (parentOf frames) upper (pointer near) (pointer inner))
  have firstInner : Stored first (some pivot) inner := storedInner.frame fun other member =>
    Memory.store_other fun same => outInner (same ▸ member)
  obtain ⟨second, adopted, secondInner, secondRoot, secondOutside⟩ :=
    updateIfAny_parent (some address) firstInner distinctInner
  have secondHere : second.nodes address =
      some (oriented side (parentOf frames) upper (pointer near) (pointer inner)) :=
    (secondOutside address outInner).trans Memory.store_same
  have secondThere : second.nodes pivot =
      some (oriented side (some address) lower (pointer inner) (pointer far)) :=
    ((secondOutside pivot pivotInner).trans
      (Memory.store_other fun same => different same.symm)).trans there
  -- the pivot takes the place of the node, the node becomes its child
  let third := second.store pivot
    (oriented side (some address) lower (some address) (pointer far))
  have thirdHere : third.nodes address =
      some (oriented side (parentOf frames) upper (pointer near) (pointer inner)) :=
    (Memory.store_other different).trans secondHere
  let fourth := third.store pivot
    (oriented side (parentOf frames) lower (some address) (pointer far))
  have untouched : ∀ other, other ≠ address → other ≠ pivot → other ∉ inner.inorder →
      fourth.nodes other = memory.nodes other := by
    intro other notHere notPivot notInner
    calc
      fourth.nodes other = third.nodes other := Memory.store_other notPivot
      _ = second.nodes other := Memory.store_other notPivot
      _ = first.nodes other := secondOutside other notInner
      _ = memory.nodes other := Memory.store_other notHere
  have thirdThere : third.nodes pivot =
      some (oriented side (some address) lower (some address) (pointer far)) := Memory.store_same
  have fourthAround : Around fourth frames (some address) := around.frame fun other member =>
    untouched other (fun same => outContext (same ▸ member))
      (fun same => pivotContext (same ▸ member))
      (fun inside => apart (mem_join.mpr (.inr (.inr (mem_join.mpr (.inr (.inl inside)))))) member)
  have fourthRoot : fourth.rbNode = rootOf frames (some address) := secondRoot.trans root
  obtain ⟨fifth, linked, fifthRoot, fifthAround, fifthOutside⟩ :=
    relink_spec side (some pivot) fourthRoot fourthAround distinctContext outContext
  have fifthHere : fifth.nodes address =
      some (oriented side (parentOf frames) upper (pointer near) (pointer inner)) :=
    ((fifthOutside address outContext).trans (Memory.store_other different)).trans thirdHere
  let sixth := fifth.store address
    (oriented side (some pivot) upper (pointer near) (pointer inner))
  have taken : rotate side (some address) memory = .ok sixth := by
    simp only [rotate, Memory.load_some here, child_other_oriented, Memory.load_some there,
      child_oriented, Memory.update_some here, setChild_other_oriented, bind, Except.bind]
    rw [show memory.store address _ = first from rfl, adopted]
    simp only [Memory.update_some secondThere, setChild_oriented]
    rw [show second.store pivot _ = third from rfl]
    simp only [Memory.load_some thirdHere, rbParent_oriented,
      Memory.update_some thirdThere, setParent_oriented]
    rw [show third.store pivot _ = fourth from rfl, linked]
    simp only [Memory.update_some fifthHere, setParent_oriented]
    rfl
  have settled : ∀ other, other ≠ address → other ∉ contextKeys frames →
      sixth.nodes other = fourth.nodes other := fun other notHere notContext =>
    (Memory.store_other notHere).trans (fifthOutside other notContext)
  refine ⟨sixth, taken, represents_plug.mpr ⟨?_, ?_, ?_, ?_⟩, ?_⟩
  · rw [pointer_join]
    exact fifthRoot
  · rw [pointer_join]
    exact fifthAround.frame fun other member =>
      Memory.store_other fun same => outContext (same ▸ member)
  · have apartContext : ∀ other, other ∈ near.inorder ∨ other ∈ inner.inorder ∨
        other ∈ far.inorder → other ∉ contextKeys frames := by
      intro other member
      refine fun context => apart (mem_join.mpr (.inr ?_)) context
      rcases member with inNear | inInner | inFar
      · exact .inl inNear
      · exact .inr (mem_join.mpr (.inr (.inl inInner)))
      · exact .inr (mem_join.mpr (.inr (.inr inFar)))
    refine stored_join.mpr ⟨?_, stored_join.mpr ⟨Memory.store_same, ?_, ?_⟩, ?_⟩
    · rw [pointer_join, settled pivot (fun same => different same.symm) pivotContext]
      exact Memory.store_same
    · refine storedNear.frame fun other member => ?_
      rw [settled other (fun same => outNear (same ▸ member)) (apartContext other (.inl member))]
      refine untouched other (fun same => outNear (same ▸ member)) ?_ ?_
      · exact fun same => apartNear member (mem_join.mpr (.inl same))
      · exact fun inside => apartNear member (mem_join.mpr (.inr (.inl inside)))
    · refine secondInner.frame fun other member => ?_
      have notPivot : other ≠ pivot := fun same => pivotInner (same ▸ member)
      rw [settled other (fun same => outInner (same ▸ member))
        (apartContext other (.inr (.inl member)))]
      exact (Memory.store_other notPivot).trans (Memory.store_other notPivot)
    · refine storedFar.frame fun other member => ?_
      rw [settled other (fun same => outFar (same ▸ member))
        (apartContext other (.inr (.inr member)))]
      exact untouched other (fun same => outFar (same ▸ member))
        (fun same => pivotFar (same ▸ member)) (fun inside => apartInner inside member)
  · rw [inorder_plug] at distinct ⊢
    rwa [inorder_rotate]
  · intro other outside
    simp only [mem_plug, mem_join, not_or] at outside
    obtain ⟨⟨notHere, -, notPivot, notInner, -⟩, notContext⟩ := outside
    rw [settled other notHere notContext]
    exact untouched other notHere notPivot notInner

end Msmuduo.Rbtree
