import Msmuduo.Machine
import Msmuduo.RedBlack

/-!
# Linked red-black trees

The intrusive tree of `util/rbtree.h`: nodes in memory with pointers to the
parent and to both children. Every access through a pointer that leads to no
node is a fault. The two rotations, and the two branches of each rebalancing
loop, are mirror images of one another and share one definition with the side
as its parameter. A loop has a bound on its iterations and faults when it
needs more.
-/

namespace Msmuduo.Rbtree

set_option autoImplicit false

open Msmuduo.RedBlack (Color Side)

abbrev Address := Nat

/-- A null pointer is `none`. -/
abbrev Pointer := Option Address

structure RbNode where
  rbParent : Pointer
  rbRight : Pointer
  rbLeft : Pointer
  rbColor : Color
  deriving DecidableEq, Repr

inductive Fault where
  /-- A null pointer or one to memory that holds no node was followed. -/
  | invalidPointer
  /-- The loop did not end within the given number of iterations. -/
  | unfinished
  deriving DecidableEq, Repr

namespace RbNode

def child (node : RbNode) : Side → Pointer
  | .left => node.rbLeft
  | .right => node.rbRight

def setChild (side : Side) (pointer : Pointer) (node : RbNode) : RbNode :=
  match side with
  | .left => { node with rbLeft := pointer }
  | .right => { node with rbRight := pointer }

def setParent (pointer : Pointer) (node : RbNode) : RbNode := { node with rbParent := pointer }

def setColor (color : Color) (node : RbNode) : RbNode := { node with rbColor := color }

end RbNode

/-- The nodes in memory and `root->rb_node`. -/
structure Memory where
  nodes : Address → Option RbNode
  rbNode : Pointer

namespace Memory

def load (memory : Memory) (pointer : Pointer) : Except Fault RbNode :=
  match pointer with
  | none => .error .invalidPointer
  | some address =>
      match memory.nodes address with
      | none => .error .invalidPointer
      | some node => .ok node

def store (memory : Memory) (address : Address) (node : RbNode) : Memory :=
  { memory with nodes := fun other => if other = address then some node else memory.nodes other }

/-- Assigns fields of the node behind a pointer. -/
def update (memory : Memory) (pointer : Pointer) (assign : RbNode → RbNode) :
    Except Fault Memory :=
  match pointer with
  | none => .error .invalidPointer
  | some address =>
      match memory.nodes address with
      | none => .error .invalidPointer
      | some node => .ok (memory.store address (assign node))

/-- `pointer && pointer->rb_color == RB_RED` -/
def isRed (memory : Memory) (pointer : Pointer) : Except Fault Bool :=
  match pointer with
  | none => .ok false
  | some address => do
      let node ← memory.load (some address)
      pure (node.rbColor == .red)

/-- `!pointer || pointer->rb_color == RB_BLACK` -/
def isBlack (memory : Memory) (pointer : Pointer) : Except Fault Bool :=
  match pointer with
  | none => .ok true
  | some address => do
      let node ← memory.load (some address)
      pure (node.rbColor == .black)

/-- `if (pointer) pointer->… = …` -/
def updateIfAny (memory : Memory) (pointer : Pointer) (assign : RbNode → RbNode) :
    Except Fault Memory :=
  match pointer with
  | none => .ok memory
  | some address => memory.update (some address) assign

/-- The pointer to `old` in its parent, or in the root when there is none,
becomes `fresh`. The child on the side `first` is compared first and the other
one is taken without a comparison. -/
def relink (memory : Memory) (first : Side) (parent old fresh : Pointer) : Except Fault Memory :=
  match parent with
  | none => .ok { memory with rbNode := fresh }
  | some address => do
      let above ← memory.load (some address)
      if above.child first = old then
        memory.update (some address) (RbNode.setChild first fresh)
      else memory.update (some address) (RbNode.setChild first.other fresh)

end Memory

/-- Moves the child of `node` on the other side up and `node` down to the
given side. -/
def rotate (side : Side) (node : Pointer) (memory : Memory) : Except Fault Memory := do
  let pivot := (← memory.load node).child side.other
  let inner := (← memory.load pivot).child side
  let memory ← memory.update node (RbNode.setChild side.other inner)
  let memory ← memory.updateIfAny inner (RbNode.setParent node)
  let memory ← memory.update pivot (RbNode.setChild side node)
  let parent := (← memory.load node).rbParent
  let memory ← memory.update pivot (RbNode.setParent parent)
  let memory ← memory.relink side parent node pivot
  memory.update node (RbNode.setParent pivot)

def rbRotateLeft : Pointer → Memory → Except Fault Memory := rotate .left

def rbRotateRight : Pointer → Memory → Except Fault Memory := rotate .right

/-- `rb_link_node`: `parent` and `link` name the place of the new red leaf; the
place is a child of a node or the root. -/
def rbLinkNode (node : Address) (parent : Pointer) (link : Option (Address × Side))
    (memory : Memory) : Except Fault Memory := do
  let memory := memory.store node ⟨parent, none, none, .red⟩
  match link with
  | none => pure { memory with rbNode := some node }
  | some (address, side) => memory.update (some address) (RbNode.setChild side (some node))

/-- One iteration of `rb_insert_color` whose parent is the child of its own
parent on the given side. -/
def insertColorStep (side : Side) (node parent gparent : Pointer) (memory : Memory) :
    Except Fault (Pointer × Memory) := do
  let uncle := (← memory.load gparent).child side.other
  if ← memory.isRed uncle then
    let memory ← memory.update uncle (RbNode.setColor .black)
    let memory ← memory.update parent (RbNode.setColor .black)
    let memory ← memory.update gparent (RbNode.setColor .red)
    pure (gparent, memory)
  else
    let (node, parent, memory) ←
      if (← memory.load parent).child side.other = node then do
        let memory ← rotate side parent memory
        pure (parent, node, memory)
      else pure (node, parent, memory)
    let memory ← memory.update parent (RbNode.setColor .black)
    let memory ← memory.update gparent (RbNode.setColor .red)
    let memory ← rotate side.other gparent memory
    pure (node, memory)

/-- The loop of `rb_insert_color`. -/
def insertColorLoop : Nat → Pointer → Memory → Except Fault Memory
  | 0, _, _ => .error .unfinished
  | fuel + 1, node, memory => do
      let parent := (← memory.load node).rbParent
      if ← memory.isRed parent then
        let gparent := (← memory.load parent).rbParent
        let side := if parent = (← memory.load gparent).rbLeft then Side.left else Side.right
        let (node, memory) ← insertColorStep side node parent gparent memory
        insertColorLoop fuel node memory
      else pure memory

def rbInsertColor (fuel : Nat) (node : Pointer) (memory : Memory) : Except Fault Memory := do
  let memory ← insertColorLoop fuel node memory
  memory.update memory.rbNode (RbNode.setColor .black)

/-- Where an iteration of `__rb_erase_color` leaves the loop or goes on. -/
structure EraseStep where
  resumed : Bool
  node : Pointer
  parent : Pointer
  memory : Memory

/-- `__rb_erase_color` below a red sibling: a rotation puts a black one in its
place. -/
def eraseRedSibling (side : Side) (parent other : Pointer) (memory : Memory) :
    Except Fault (Pointer × Memory) := do
  if (← memory.load other).rbColor = .red then
    let memory ← memory.update other (RbNode.setColor .black)
    let memory ← memory.update parent (RbNode.setColor .red)
    let memory ← rotate side parent memory
    pure ((← memory.load parent).child side.other, memory)
  else pure (other, memory)

/-- `__rb_erase_color` when the far child of the sibling is black: a rotation
puts a red one in its place. -/
def eraseBlackNephew (side : Side) (parent other : Pointer) (memory : Memory) :
    Except Fault (Pointer × Memory) := do
  if ← memory.isBlack ((← memory.load other).child side.other) then
    let memory ← memory.updateIfAny ((← memory.load other).child side) (RbNode.setColor .black)
    let memory ← memory.update other (RbNode.setColor .red)
    let memory ← rotate side.other other memory
    pure ((← memory.load parent).child side.other, memory)
  else pure (other, memory)

/-- `__rb_erase_color` when the far child of the sibling is red: the last
rotation. -/
def eraseFill (side : Side) (parent other : Pointer) (memory : Memory) :
    Except Fault EraseStep := do
  let memory ← memory.update other (RbNode.setColor (← memory.load parent).rbColor)
  let memory ← memory.update parent (RbNode.setColor .black)
  let memory ← memory.updateIfAny ((← memory.load other).child side.other)
    (RbNode.setColor .black)
  let memory ← rotate side parent memory
  pure ⟨false, memory.rbNode, parent, memory⟩

/-- `__rb_erase_color` below a black sibling. -/
def eraseBlackSibling (side : Side) (parent other : Pointer) (memory : Memory) :
    Except Fault EraseStep := do
  let leftBlack ← memory.isBlack (← memory.load other).rbLeft
  let rightBlack ← memory.isBlack (← memory.load other).rbRight
  if leftBlack && rightBlack then
    let memory ← memory.update other (RbNode.setColor .red)
    pure ⟨true, parent, (← memory.load parent).rbParent, memory⟩
  else
    let (other, memory) ← eraseBlackNephew side parent other memory
    eraseFill side parent other memory

/-- One iteration of `__rb_erase_color` whose node is the child of `parent` on
the given side. -/
def eraseColorStep (side : Side) (parent : Pointer) (memory : Memory) :
    Except Fault EraseStep := do
  let other := (← memory.load parent).child side.other
  let (other, memory) ← eraseRedSibling side parent other memory
  eraseBlackSibling side parent other memory

/-- The loop of `__rb_erase_color`. -/
def eraseColorLoop : Nat → Pointer → Pointer → Memory → Except Fault (Pointer × Memory)
  | 0, _, _, _ => .error .unfinished
  | fuel + 1, node, parent, memory => do
      if (← memory.isBlack node) && node != memory.rbNode then
        let side := if (← memory.load parent).rbLeft = node then Side.left else Side.right
        let next ← eraseColorStep side parent memory
        if next.resumed then eraseColorLoop fuel next.node next.parent next.memory
        else pure (next.node, next.memory)
      else pure (node, memory)

/-- `__rb_erase_color` -/
def rbEraseColor (fuel : Nat) (node parent : Pointer) (memory : Memory) :
    Except Fault Memory := do
  let (node, memory) ← eraseColorLoop fuel node parent memory
  memory.updateIfAny node (RbNode.setColor .black)

/-- `while (node->child) node = node->child;` on one side. -/
def descend (side : Side) : Nat → Pointer → Memory → Except Fault Pointer
  | 0, _, _ => .error .unfinished
  | fuel + 1, node, memory => do
      match (← memory.load node).child side with
      | none => pure node
      | some below => descend side fuel (some below) memory

/-- Takes a node with at most one child out of its place: the child, the
parent and the colour it had. -/
def unlink (node child : Pointer) (memory : Memory) :
    Except Fault (Pointer × Color × Memory) := do
  let record ← memory.load node
  let parent := record.rbParent
  let color := record.rbColor
  let memory ← memory.updateIfAny child (RbNode.setParent parent)
  let memory ← memory.relink .left parent node child
  pure (parent, color, memory)

/-- `rb_erase` puts a node into the place of another one: the four fields are
copied, and the nodes around point at the new one. -/
def takeOver (old node : Pointer) (memory : Memory) : Except Fault Memory := do
  let record ← memory.load old
  let memory ← memory.update node fun _ => record
  let memory ← memory.relink .left (← memory.load old).rbParent old node
  let memory ← memory.update (← memory.load old).rbLeft (RbNode.setParent node)
  memory.updateIfAny (← memory.load old).rbRight (RbNode.setParent node)

/-- `rb_erase` -/
def rbErase (fuel : Nat) (node : Pointer) (memory : Memory) : Except Fault Memory := do
  let record ← memory.load node
  let (child, parent, color, memory) ←
    if record.rbLeft = none then do
      let child := record.rbRight
      let (parent, color, memory) ← unlink node child memory
      pure (child, parent, color, memory)
    else if record.rbRight = none then do
      let child := record.rbLeft
      let (parent, color, memory) ← unlink node child memory
      pure (child, parent, color, memory)
    else do
      let old := node
      let node ← descend .left fuel record.rbRight memory
      let child := (← memory.load node).rbRight
      let (parent, color, memory) ← unlink node child memory
      let parent := if (← memory.load node).rbParent = old then node else parent
      let memory ← takeOver old node memory
      pure (child, parent, color, memory)
  if color = .black then rbEraseColor fuel child parent memory else pure memory

/-- The outermost node on one side. -/
def outermost (side : Side) (fuel : Nat) (memory : Memory) : Except Fault Pointer :=
  match memory.rbNode with
  | none => .ok none
  | some address => descend side fuel (some address) memory

def rbFirst : Nat → Memory → Except Fault Pointer := outermost .left

/-- Goes up while the node is the child of its parent on the given side, then
once more. -/
def climb (side : Side) : Nat → Pointer → Memory → Except Fault Pointer
  | 0, _, _ => .error .unfinished
  | fuel + 1, node, memory => do
      match (← memory.load node).rbParent with
      | none => pure none
      | some above =>
          if node = (← memory.load (some above)).child side then
            climb side fuel (some above) memory
          else pure (some above)

/-- The neighbour of a node in the order of the tree, on the given side. -/
def neighbour (side : Side) (fuel : Nat) (node : Pointer) (memory : Memory) :
    Except Fault Pointer := do
  match (← memory.load node).child side with
  | some below => descend side.other fuel (some below) memory
  | none => climb side fuel node memory

def rbNext : Nat → Pointer → Memory → Except Fault Pointer := neighbour .right

end Msmuduo.Rbtree
