import Msmuduo.RbtreeWalk

/-!
# A map on the linked tree

The user of the tree, from `rbtree_test.cpp`: nodes with a key and a value that
embed a tree node, found and inserted by comparing keys on the way down. Any
run of insertions and deletions on fresh memory behaves like a map from keys to
values: the first insertion of a key wins, nothing but the deleted key is lost,
the traversal is in key order, and every loop ends within about twice the
logarithm of the number of nodes.
-/

namespace Msmuduo.Rbtree

set_option autoImplicit false

open Msmuduo.RedBlack (Side)

/-- The fields of `struct mynode` next to its tree node. -/
structure MyNode where
  key : Int
  val : Int
  deriving DecidableEq, Repr

/-- The tree nodes in memory, the data around them, and the root. -/
structure Store where
  memory : Memory
  data : Address → Option MyNode

namespace Store

/-- `rb_entry` -/
def entry (store : Store) (address : Address) : Except Fault MyNode :=
  match store.data address with
  | none => .error .invalidPointer
  | some node => .ok node

/-- `malloc` and the assignments of `key` and `val`; what the tree node holds
is not initialized. -/
def allocate (store : Store) (address : Address) (node : MyNode) : Store where
  memory := store.memory.store address ⟨none, none, none, .red⟩
  data := fun other => if other = address then some node else store.data other

def free (store : Store) (address : Address) : Store where
  memory := { store.memory with
    nodes := fun other => if other = address then none else store.memory.nodes other }
  data := fun other => if other = address then none else store.data other

/-- `root.rb_node = NULL` -/
def empty : Store := ⟨⟨fun _ => none, none⟩, fun _ => none⟩

end Store

def compareKey (key1 key2 : Int) : Int :=
  if key1 < key2 then -1 else if key1 = key2 then 0 else 1

/-- The loop of `my_search`, from a node. -/
def mySearch : Nat → Pointer → Int → Store → Except Fault Pointer
  | 0, _, _, _ => .error .unfinished
  | fuel + 1, node, key, store =>
      match node with
      | none => .ok none
      | some address => do
          let data ← store.entry address
          let ret := compareKey key data.key
          if ret < 0 then
            mySearch fuel (← store.memory.load (some address)).rbLeft key store
          else if 0 < ret then
            mySearch fuel (← store.memory.load (some address)).rbRight key store
          else pure (some address)

/-- `*tmp` for a pointer to a child or to the root. -/
def Memory.follow (memory : Memory) (link : Option (Address × Side)) : Except Fault Pointer :=
  match link with
  | none => .ok memory.rbNode
  | some (address, side) => do
      let node ← memory.load (some address)
      pure (node.child side)

/-- The loop of `my_insert`: the place for a new node, or none when the key is
there. -/
def insertPlace : Nat → Pointer → Option (Address × Side) → Int → Store →
    Except Fault (Option (Pointer × Option (Address × Side)))
  | 0, _, _, _, _ => .error .unfinished
  | fuel + 1, parent, link, key, store => do
      match ← store.memory.follow link with
      | none => pure (some (parent, link))
      | some address =>
          let data ← store.entry address
          let ret := compareKey key data.key
          if ret < 0 then insertPlace fuel (some address) (some (address, .left)) key store
          else if 0 < ret then insertPlace fuel (some address) (some (address, .right)) key store
          else pure none

/-- `my_insert` -/
def myInsert (fuel : Nat) (address : Address) (store : Store) : Except Fault (Int × Store) := do
  let data ← store.entry address
  match ← insertPlace fuel none none data.key store with
  | none => pure (-1, store)
  | some (parent, link) =>
      let memory ← rbLinkNode address parent link store.memory
      let memory ← rbInsertColor fuel (some address) memory
      pure (0, { store with memory := memory })

/-- `my_delete` -/
def myDelete (fuel : Nat) (key : Int) (store : Store) : Except Fault Store := do
  match ← mySearch fuel store.memory.rbNode key store with
  | none => pure store
  | some address =>
      let memory ← rbErase fuel (some address) store.memory
      pure (Store.free { store with memory := memory } address)

/-- The loop of `traverse` from a node: the data it prints. -/
def traverseFrom (fuel : Nat) : Nat → Pointer → Store → Except Fault (List MyNode)
  | 0, _, _ => .error .unfinished
  | steps + 1, node, store =>
      match node with
      | none => .ok []
      | some address => do
          let data ← store.entry address
          let next ← rbNext fuel (some address) store.memory
          let rest ← traverseFrom fuel steps next store
          pure (data :: rest)

/-- `traverse` -/
def traverse (fuel steps : Nat) (store : Store) : Except Fault (List MyNode) := do
  let first ← rbFirst fuel store.memory
  traverseFrom fuel steps first store

inductive Operation where
  | insert (address : Address) (node : MyNode)
  | delete (key : Int)

/-- One use of the map: `malloc` and `my_insert`, or `my_delete`. -/
def step (fuel : Nat) (store : Store) : Operation → Except Fault Store
  | .insert address node => do
      let (_, store) ← myInsert fuel address (store.allocate address node)
      pure store
  | .delete key => myDelete fuel key store

/-- `malloc` hands out memory that is not in use. -/
def Fresh (store : Store) : Operation → Prop
  | .insert address _ => store.data address = none
  | .delete _ => True

instance (store : Store) (operation : Operation) : Decidable (Fresh store operation) :=
  match operation with
  | .insert address _ => inferInstanceAs (Decidable (store.data address = none))
  | .delete _ => inferInstanceAs (Decidable True)

/-- What the map should hold after an operation. -/
def contentsAfter (contents : Int → Option Int) : Operation → Int → Option Int
  | .insert _ node => fun key =>
      if key = node.key ∧ contents key = none then some node.val else contents key
  | .delete deleted => fun key => if key = deleted then none else contents key

open Msmuduo.RedBlack Msmuduo.RedBlack.RbTree RbNode

/-- The memory is a red-black tree in key order that holds the map. -/
structure Holds (store : Store) (contents : Int → Option Int) (tree : RbTree Address) : Prop where
  represents : Represents store.memory tree
  redBlack : IsRedBlack tree
  known : ∀ address ∈ tree.inorder, ∃ node, store.data address = some node
  sorted : tree.inorder.Pairwise fun first second =>
    ∀ left right, store.data first = some left → store.data second = some right →
      left.key < right.key
  exactly : ∀ key val, contents key = some val ↔
    ∃ address ∈ tree.inorder, store.data address = some ⟨key, val⟩

variable {store : Store}

/-- The keys of a list of nodes lie on one side of a key. -/
def Below (store : Store) (addresses : List Address) (key : Int) : Prop :=
  ∀ address ∈ addresses, ∀ node, store.data address = some node → node.key < key

def Above (store : Store) (addresses : List Address) (key : Int) : Prop :=
  ∀ address ∈ addresses, ∀ node, store.data address = some node → key < node.key

theorem follow_place {frames : List (Frame Address)} {tree : RbTree Address}
    (represents : Represents store.memory (plug frames tree)) :
    store.memory.follow (placeOf frames) = .ok (pointer tree) := by
  cases frames with
  | nil => exact congrArg Except.ok represents.root
  | cons frame rest =>
      simp only [placeOf, Memory.follow, Memory.load_some represents.frame_node, child_oriented,
        bind, Except.bind]
      rfl

/-- Going down by comparing keys ends at the node with the key, or at the hole
where the key belongs. -/
theorem place_spec {frames : List (Frame Address)} {tree : RbTree Address} {key : Int} {fuel : Nat}
    (enough : tree.depth < fuel) (represents : Represents store.memory (plug frames tree))
    (known : ∀ address ∈ tree.inorder, ∃ node, store.data address = some node)
    (sorted : tree.inorder.Pairwise fun first second =>
      ∀ left right, store.data first = some left → store.data second = some right →
        left.key < right.key)
    (below : Below store (keysBefore frames) key) (above : Above store (keysAfter frames) key) :
    (∃ address ∈ tree.inorder, ∃ node, store.data address = some node ∧ node.key = key ∧
      mySearch fuel (pointer tree) key store = .ok (some address) ∧
      insertPlace fuel (parentOf frames) (placeOf frames) key store = .ok none) ∨
    (∃ context, plug frames tree = plug context leaf ∧
      Below store (keysBefore context) key ∧ Above store (keysAfter context) key ∧
      mySearch fuel (pointer tree) key store = .ok none ∧
      insertPlace fuel (parentOf frames) (placeOf frames) key store =
        .ok (some (parentOf context, placeOf context))) := by
  induction fuel generalizing frames tree with
  | zero => exact absurd enough (Nat.not_lt_zero _)
  | succ fuel ih =>
      have followed := follow_place represents
      cases tree with
      | leaf =>
          refine .inr ⟨frames, rfl, below, above, by simp [mySearch], ?_⟩
          rw [pointer_leaf] at followed
          simp only [insertPlace, followed, bind, Except.bind]
          rfl
      | node color left address right =>
          obtain ⟨data, stored⟩ := known address (mem_node.mpr (.inl rfl))
          have entered : store.entry address = .ok data := by simp [Store.entry, stored]
          have here : store.memory.nodes address =
              some ⟨parentOf frames, pointer right, pointer left, color⟩ :=
            (represents_plug.mp represents).2.2.1.1
          have root : pointer (node color left address right) = some address := rfl
          rw [root] at followed ⊢
          simp only [inorder, List.pairwise_append, List.pairwise_cons, List.mem_cons] at sorted
          obtain ⟨sortedLeft, ⟨behind, sortedRight⟩, across⟩ := sorted
          have leftDepth : left.depth < fuel := by
            simp only [depth] at enough
            omega
          have rightDepth : right.depth < fuel := by
            simp only [depth] at enough
            omega
          rcases lt_trichotomy key data.key with less | same | greater
          · have ret : compareKey key data.key < 0 := by simp [compareKey, less]
            have aboveLeft : Above store
                (keysAfter (⟨.left, color, address, right⟩ :: frames)) key := by
              intro other member node found
              simp only [keysAfter, List.cons_append, List.mem_cons, List.mem_append] at member
              rcases member with rfl | inRight | outer
              · rw [stored] at found
                cases found
                exact less
              · exact less.trans (behind other inRight data node stored found)
              · exact above other outer node found
            have inside : Represents store.memory
                (plug (⟨.left, color, address, right⟩ :: frames) left) := represents
            rcases ih leftDepth inside (fun other member =>
              known other (mem_node.mpr (.inr (.inl member)))) sortedLeft below aboveLeft with
              ⟨found, member, node, storedFound, sameKey, searched, placed⟩ |
                ⟨context, split, belowContext, aboveContext, searched, placed⟩
            · refine .inl ⟨found, mem_node.mpr (.inr (.inl member)), node, storedFound, sameKey,
                ?_, ?_⟩
              · simp only [mySearch, entered, ret, if_true, Memory.load_some here, bind,
                  Except.bind]
                exact searched
              · simp only [insertPlace, followed, entered, ret, if_true, bind, Except.bind]
                exact placed
            · refine .inr ⟨context, split, belowContext, aboveContext, ?_, ?_⟩
              · simp only [mySearch, entered, ret, if_true, Memory.load_some here, bind,
                  Except.bind]
                exact searched
              · simp only [insertPlace, followed, entered, ret, if_true, bind, Except.bind]
                exact placed
          · have ret : compareKey key data.key = 0 := by simp [compareKey, same]
            refine .inl ⟨address, mem_node.mpr (.inl rfl), data, stored, same.symm, ?_, ?_⟩
            · simp only [mySearch, entered, ret, lt_irrefl, if_false, bind, Except.bind]
              rfl
            · simp only [insertPlace, followed, entered, ret, lt_irrefl, if_false, bind,
                Except.bind]
              rfl
          · have ret : 0 < compareKey key data.key := by
              simp [compareKey, greater.ne', not_lt_of_gt greater]
            have belowRight : Below store
                (keysBefore (⟨.right, color, address, left⟩ :: frames)) key := by
              intro other member node found
              simp only [keysBefore, List.mem_append, List.mem_singleton] at member
              rcases member with (outer | inLeft) | rfl
              · exact below other outer node found
              · exact (across other inLeft address (.inl rfl) node data found stored).trans greater
              · rw [stored] at found
                cases found
                exact greater
            have inside : Represents store.memory
                (plug (⟨.right, color, address, left⟩ :: frames) right) := represents
            rcases ih rightDepth inside (fun other member =>
              known other (mem_node.mpr (.inr (.inr member)))) sortedRight belowRight above with
              ⟨found, member, node, storedFound, sameKey, searched, placed⟩ |
                ⟨context, split, belowContext, aboveContext, searched, placed⟩
            · refine .inl ⟨found, mem_node.mpr (.inr (.inr member)), node, storedFound, sameKey,
                ?_, ?_⟩
              · simp only [mySearch, entered, ret, not_lt_of_gt ret, if_false, if_true,
                  Memory.load_some here, bind, Except.bind]
                exact searched
              · simp only [insertPlace, followed, entered, ret, not_lt_of_gt ret, if_false,
                  if_true, bind, Except.bind]
                exact placed
            · refine .inr ⟨context, split, belowContext, aboveContext, ?_, ?_⟩
              · simp only [mySearch, entered, ret, not_lt_of_gt ret, if_false, if_true,
                  Memory.load_some here, bind, Except.bind]
                exact searched
              · simp only [insertPlace, followed, entered, ret, not_lt_of_gt ret, if_false,
                  if_true, bind, Except.bind]
                exact placed

theorem Represents.frame {before after : Memory} {tree : RbTree Address}
    (represents : Represents before tree) (root : after.rbNode = before.rbNode)
    (same : ∀ address ∈ tree.inorder, after.nodes address = before.nodes address) :
    Represents after tree :=
  ⟨root.trans represents.root, represents.stored.frame same, represents.distinct⟩

variable {contents : Int → Option Int} {tree : RbTree Address} {fuel : Nat}

theorem Holds.fresh (holds : Holds store contents tree) {address : Address}
    (unused : store.data address = none) : address ∉ tree.inorder := by
  intro member
  obtain ⟨node, stored⟩ := holds.known address member
  rw [unused] at stored
  cases stored

/-- Stores that agree on the nodes of the tree hold the same map. -/
theorem Holds.frame (holds : Holds store contents tree) {after : Store}
    (represents : Represents after.memory tree)
    (same : ∀ address ∈ tree.inorder, after.data address = store.data address) :
    Holds after contents tree where
  represents := represents
  redBlack := holds.redBlack
  known := fun address member => by
    rw [same address member]
    exact holds.known address member
  sorted := by
    refine holds.sorted.imp_of_mem fun {first second} inFirst inSecond ordered left right => ?_
    rw [same first inFirst, same second inSecond]
    exact ordered left right
  exactly := fun key val => by
    rw [holds.exactly]
    refine exists_congr fun address => and_congr_right fun member => ?_
    rw [same address member]

theorem Holds.allocate (holds : Holds store contents tree) {address : Address}
    (unused : store.data address = none) (node : MyNode) :
    Holds (store.allocate address node) contents tree := by
  have apart := holds.fresh unused
  refine holds.frame (holds.represents.frame rfl fun other member => ?_) fun other member => ?_
  · exact Memory.store_other fun same => apart (same ▸ member)
  · have different : other ≠ address := fun same => apart (same ▸ member)
    exact if_neg different

/-- Searching in a store that holds a map. -/
theorem Holds.search (holds : Holds store contents tree) (enough : tree.depth < fuel) (key : Int) :
    (∃ address ∈ tree.inorder, ∃ val, store.data address = some ⟨key, val⟩ ∧
      contents key = some val ∧
      mySearch fuel store.memory.rbNode key store = .ok (some address) ∧
      insertPlace fuel none none key store = .ok none) ∨
    (∃ context, tree = plug context leaf ∧ contents key = none ∧
      Below store (keysBefore context) key ∧ Above store (keysAfter context) key ∧
      mySearch fuel store.memory.rbNode key store = .ok none ∧
      insertPlace fuel none none key store = .ok (some (parentOf context, placeOf context))) := by
  have atRoot : Represents store.memory (plug [] tree) := holds.represents
  rw [holds.represents.root]
  have noneBelow : Below store (keysBefore []) key := by simp [Below, keysBefore]
  have noneAbove : Above store (keysAfter []) key := by simp [Above, keysAfter]
  rcases place_spec enough atRoot holds.known holds.sorted noneBelow noneAbove with
    ⟨address, member, ⟨_, val⟩, stored, rfl, searched, placed⟩ |
      ⟨context, split, below, above, searched, placed⟩
  · exact .inl ⟨address, member, val, stored, (holds.exactly _ val).mpr ⟨address, member, stored⟩,
      searched, placed⟩
  · rw [plug_nil] at split
    subst split
    refine .inr ⟨context, rfl, ?_, below, above, searched, placed⟩
    cases found : contents key with
    | none => rfl
    | some val =>
        obtain ⟨address, member, stored⟩ := (holds.exactly key val).mp found
        rw [inorder_plug] at member
        simp only [inorder, List.append_nil, List.mem_append] at member
        rcases member with inBefore | inAfter
        · exact absurd (below address inBefore _ stored) (lt_irrefl _)
        · exact absurd (above address inAfter _ stored) (lt_irrefl _)

/-- `malloc` and `my_insert` never fail and insert the key once. -/
theorem insert_step (holds : Holds store contents tree) (enough : tree.depth < fuel)
    {address : Address} (unused : store.data address = none) (node : MyNode) :
    ∃ after final, step fuel store (.insert address node) = .ok after ∧
      Holds after (contentsAfter contents (.insert address node)) final ∧
      final.inorder.length ≤ tree.inorder.length + 1 := by
  have allocated := holds.allocate unused node
  have entered : (store.allocate address node).entry address = .ok node := by
    simp [Store.entry, Store.allocate]
  rcases allocated.search enough node.key with
    ⟨found, member, val, stored, there, -, placed⟩ |
      ⟨context, rfl, missing, below, above, -, placed⟩
  · refine ⟨store.allocate address node, tree, ?_, ?_, Nat.le_succ _⟩
    · simp only [step, myInsert, entered, placed, bind, Except.bind]
      rfl
    · have unchanged : contentsAfter contents (.insert address node) = contents := by
        funext key
        refine if_neg ?_
        rintro ⟨rfl, gone⟩
        rw [there] at gone
        cases gone
      rw [unchanged]
      exact allocated
  · have outside : address ∉ (plug context (leaf : RbTree Address)).inorder := holds.fresh unused
    have shallow : context.length < fuel :=
      lt_of_le_of_lt (le_trans (Nat.le_add_right _ _) (depth_plug_le context leaf)) enough
    obtain ⟨linked, after, final, ranLink, ran, representsFinal, valid, order, -⟩ :=
      rbInsert_spec shallow allocated.represents allocated.redBlack outside
    have treeOrder : (plug context (leaf : RbTree Address)).inorder =
        keysBefore context ++ keysAfter context := by
      rw [inorder_plug]
      simp [inorder]
    have here : (store.allocate address node).data address = some node := if_pos rfl
    refine ⟨{ store.allocate address node with memory := after }, final, ?_, ?_, ?_⟩
    · simp only [step, myInsert, entered, placed, ranLink, ran, bind, Except.bind]
      rfl
    · have oldSorted := allocated.sorted
      rw [treeOrder, List.pairwise_append] at oldSorted
      obtain ⟨sortedBefore, sortedAfter, across⟩ := oldSorted
      refine ⟨representsFinal, valid, ?_, ?_, ?_⟩
      · intro other member
        rw [order] at member
        simp only [List.mem_append, List.mem_cons] at member
        rcases member with inBefore | rfl | inAfter
        · exact allocated.known other (by rw [treeOrder]; simp [inBefore])
        · exact ⟨node, here⟩
        · exact allocated.known other (by rw [treeOrder]; simp [inAfter])
      · rw [order, List.pairwise_append, List.pairwise_cons]
        refine ⟨sortedBefore, ⟨?_, sortedAfter⟩, ?_⟩
        · intro other member left right foundLeft foundRight
          obtain rfl := Option.some.inj (here.symm.trans foundLeft)
          exact above other member right foundRight
        · intro first inBefore second member left right foundLeft foundRight
          rcases List.mem_cons.mp member with rfl | inAfter
          · obtain rfl := Option.some.inj (here.symm.trans foundRight)
            exact below first inBefore left foundLeft
          · exact across first inBefore second inAfter left right foundLeft foundRight
      · intro key val
        have members : ∀ other, other ∈ final.inorder ↔
            other = address ∨ other ∈ (plug context (leaf : RbTree Address)).inorder := by
          intro other
          rw [order, treeOrder]
          simp only [List.mem_append, List.mem_cons]
          tauto
        simp only [members, or_and_right, exists_or, exists_eq_left]
        rw [here, ← allocated.exactly key val]
        simp only [contentsAfter]
        by_cases same : key = node.key
        · subst same
          rw [if_pos ⟨rfl, missing⟩, missing]
          obtain ⟨key, kept⟩ := node
          simp [eq_comm]
        · rw [if_neg fun both => same both.1]
          constructor
          · exact .inr
          · rintro (new | old)
            · exact absurd (congrArg MyNode.key (Option.some.inj new)).symm same
            · exact old
    · rw [order, treeOrder]
      simp only [List.length_append, List.length_cons]
      omega

/-- `my_delete` never fails and takes exactly the key out. -/
theorem delete_step (holds : Holds store contents tree) (enough : tree.depth < fuel) (key : Int) :
    ∃ after final, step fuel store (.delete key) = .ok after ∧
      Holds after (contentsAfter contents (.delete key)) final ∧
      final.inorder.length ≤ tree.inorder.length := by
  rcases holds.search enough key with
    ⟨address, member, val, stored, there, searched, -⟩ | ⟨context, rfl, missing, -, -, searched, -⟩
  · obtain ⟨before, behind, split⟩ := List.mem_iff_append.mp member
    obtain ⟨after, final, ran, representsFinal, valid, order, -⟩ :=
      rbErase_spec enough holds.represents holds.redBlack split
    have distinct := holds.represents.distinct
    rw [split] at distinct
    have apart : address ∉ final.inorder := by
      rw [order]
      exact (List.nodup_middle.mp distinct).notMem
    have kept : ∀ other ∈ final.inorder, other ∈ tree.inorder := by
      intro other inside
      rw [order] at inside
      rw [split]
      simp only [List.mem_append, List.mem_cons] at inside ⊢
      tauto
    let freed := Store.free { store with memory := after } address
    have different : ∀ other ∈ final.inorder, other ≠ address :=
      fun other inside same => apart (same ▸ inside)
    have sameData : ∀ other ∈ final.inorder, freed.data other = store.data other :=
      fun other inside => if_neg (different other inside)
    refine ⟨freed, final, ?_, ⟨?_, valid, ?_, ?_, ?_⟩, ?_⟩
    · simp only [step, myDelete, searched, ran, bind, Except.bind]
      rfl
    · exact representsFinal.frame rfl fun other inside => if_neg (different other inside)
    · intro other inside
      rw [sameData other inside]
      exact holds.known other (kept other inside)
    · have oldSorted := holds.sorted
      rw [split] at oldSorted
      have remaining : final.inorder.Sublist (before ++ address :: behind) := by
        rw [order]
        exact List.Sublist.append_left (List.sublist_cons_self address behind) before
      refine (oldSorted.sublist remaining).imp_of_mem
        fun {first second} inFirst inSecond ordered left right => ?_
      rw [sameData first inFirst, sameData second inSecond]
      exact ordered left right
    · intro other value
      simp only [contentsAfter]
      by_cases same : other = key
      · subst same
        rw [if_pos rfl]
        constructor
        · intro impossible
          cases impossible
        · rintro ⟨found, inside, foundData⟩
          rw [sameData found inside] at foundData
          exfalso
          have oldSorted := holds.sorted
          rw [split, List.pairwise_append, List.pairwise_cons] at oldSorted
          obtain ⟨-, ⟨later, -⟩, earlier⟩ := oldSorted
          rw [order] at inside
          rcases List.mem_append.mp inside with inBefore | inBehind
          · have less := earlier found inBefore address (by simp) _ _ foundData stored
            exact lt_irrefl _ less
          · have less := later found inBehind _ _ stored foundData
            exact lt_irrefl _ less
      · rw [if_neg same, holds.exactly]
        constructor
        · rintro ⟨found, inside, foundData⟩
          have notErased : found ≠ address := by
            rintro rfl
            rw [stored] at foundData
            exact same (congrArg MyNode.key (Option.some.inj foundData)).symm
          have still : found ∈ final.inorder := by
            rw [split] at inside
            rw [order]
            simp only [List.mem_append, List.mem_cons] at inside ⊢
            tauto
          exact ⟨found, still, (sameData found still).trans foundData⟩
        · rintro ⟨found, inside, foundData⟩
          exact ⟨found, kept found inside, (sameData found inside).symm.trans foundData⟩
    · rw [order, split]
      simp only [List.length_append, List.length_cons]
      omega
  · refine ⟨store, plug context leaf, ?_, ?_, le_rfl⟩
    · simp only [step, myDelete, searched, bind, Except.bind]
      rfl
    · have unchanged : contentsAfter contents (.delete key) = contents := by
        funext other
        by_cases same : other = key
        · subst same
          exact (if_pos rfl).trans missing.symm
        · exact if_neg same
      rw [unchanged]
      exact holds

theorem step_holds (holds : Holds store contents tree) (enough : tree.depth < fuel)
    {operation : Operation} (fresh : Fresh store operation) :
    ∃ after final, step fuel store operation = .ok after ∧
      Holds after (contentsAfter contents operation) final ∧
      final.inorder.length ≤ tree.inorder.length + 1 := by
  cases operation with
  | insert address node => exact insert_step holds enough fresh node
  | delete key =>
      obtain ⟨after, final, ran, holdsAfter, shorter⟩ := delete_step holds enough key
      exact ⟨after, final, ran, holdsAfter, shorter.trans (Nat.le_succ _)⟩

theorem depth_lt_of_log {bound : Nat} (redBlack : IsRedBlack tree)
    (small : tree.inorder.length ≤ bound) (enough : 2 * Nat.log 2 (bound + 1) < fuel) :
    tree.depth < fuel := by
  have logarithmic := redBlack.depth_le
  have monotone : Nat.log 2 (tree.inorder.length + 1) ≤ Nat.log 2 (bound + 1) :=
    Nat.log_mono_right (by omega)
  omega

/-- Every run on fresh memory ends in a store that holds the map the operations
describe, and no loop of it takes more iterations than twice the logarithm of
the number of operations. -/
theorem run_holds {events : List Operation} (holds : Holds store contents tree)
    (enough : 2 * Nat.log 2 (tree.inorder.length + events.length + 1) < fuel)
    (fresh : Machine.AllSteps (step fuel) Fresh store events) :
    ∃ after final, Machine.run (step fuel) store events = .ok after ∧
      Holds after (events.foldl contentsAfter contents) final ∧
      final.inorder.length ≤ tree.inorder.length + events.length := by
  induction events generalizing store contents tree with
  | nil => exact ⟨store, tree, rfl, holds, le_rfl⟩
  | cons operation events ih =>
      simp only [List.length_cons] at enough ⊢
      have shallow : tree.depth < fuel :=
        depth_lt_of_log holds.redBlack (Nat.le_add_right _ _) enough
      obtain ⟨next, grown, taken, holdsNext, larger⟩ := step_holds holds shallow fresh.head
      have enoughNext : 2 * Nat.log 2 (grown.inorder.length + events.length + 1) < fuel := by
        have monotone : Nat.log 2 (grown.inorder.length + events.length + 1) ≤
            Nat.log 2 (tree.inorder.length + (events.length + 1) + 1) :=
          Nat.log_mono_right (by omega)
        omega
      obtain ⟨after, final, ran, holdsAfter, bounded⟩ :=
        ih holdsNext enoughNext (fresh.tail taken)
      exact ⟨after, final, by rw [Machine.run_cons_ok events taken, ran], holdsAfter, by omega⟩

theorem holds_empty : Holds Store.empty (fun _ => none) leaf where
  represents := ⟨rfl, trivial, List.nodup_nil⟩
  redBlack := ⟨rfl, 0, rfl⟩
  known := fun _ member => by cases member
  sorted := List.Pairwise.nil
  exactly := fun key val => by simp [inorder]

/-- The loop of the traversal prints the rest of the order. -/
theorem traverseFrom_spec {before behind : List Address} {steps : Nat}
    (represents : Represents store.memory tree) (enough : tree.depth < fuel)
    (known : ∀ address ∈ tree.inorder, ∃ node, store.data address = some node)
    (split : tree.inorder = before ++ behind) (left : behind.length < steps) :
    traverseFrom fuel steps behind.head? store = .ok (behind.filterMap store.data) := by
  induction behind generalizing before steps with
  | nil =>
      cases steps with
      | zero => exact absurd left (Nat.not_lt_zero _)
      | succ steps => simp [traverseFrom]
  | cons address behind ih =>
      cases steps with
      | zero => exact absurd left (Nat.not_lt_zero _)
      | succ steps =>
          obtain ⟨node, stored⟩ := known address (by simp [split])
          have entered : store.entry address = .ok node := by simp [Store.entry, stored]
          have next := rbNext_spec enough represents split
          have rest : traverseFrom fuel steps behind.head? store =
              .ok (behind.filterMap store.data) := by
            refine @ih (before ++ [address]) steps (by simp [split]) ?_
            simp only [List.length_cons] at left
            omega
          simp only [List.head?_cons, traverseFrom, entered, next, rest,
            List.filterMap_cons_some stored, bind, Except.bind]
          rfl

theorem traverse_spec {steps : Nat} (represents : Represents store.memory tree)
    (enough : tree.depth < fuel) (left : tree.inorder.length < steps)
    (known : ∀ address ∈ tree.inorder, ∃ node, store.data address = some node) :
    traverse fuel steps store = .ok (tree.inorder.filterMap store.data) := by
  simp only [traverse, rbFirst_spec enough represents, bind, Except.bind]
  have split : tree.inorder = [] ++ tree.inorder := rfl
  exact traverseFrom_spec represents enough known split left

/-- Whatever is inserted and deleted on fresh memory, nothing faults, every
search answers as the map does, and the traversal lists the map in key order.
Each loop ends within twice the logarithm of the number of operations. -/
theorem tree_is_map (events : List Operation) (fuel : Nat)
    (enough : 2 * Nat.log 2 (events.length + 1) < fuel)
    (fresh : Machine.AllSteps (step fuel) Fresh Store.empty events) :
    ∃ store, Machine.run (step fuel) Store.empty events = .ok store ∧
      (∀ key, match events.foldl contentsAfter (fun _ => none) key with
        | none => mySearch fuel store.memory.rbNode key store = .ok none
        | some val => ∃ address, store.data address = some ⟨key, val⟩ ∧
            mySearch fuel store.memory.rbNode key store = .ok (some address)) ∧
      ∃ nodes, traverse fuel (events.length + 1) store = .ok nodes ∧
        (nodes.Pairwise fun first second => first.key < second.key) ∧
        ∀ key val, ⟨key, val⟩ ∈ nodes ↔
          events.foldl contentsAfter (fun _ => none) key = some val := by
  have startEnough : 2 * Nat.log 2 ((leaf : RbTree Address).inorder.length + events.length + 1) <
      fuel := by
    simpa [inorder] using enough
  obtain ⟨store, tree, ran, holds, bounded⟩ := run_holds holds_empty startEnough fresh
  have small : tree.inorder.length ≤ events.length := by simpa [inorder] using bounded
  have shallow : tree.depth < fuel := depth_lt_of_log holds.redBlack small enough
  refine ⟨store, ran, fun key => ?_, tree.inorder.filterMap store.data,
    traverse_spec holds.represents shallow (Nat.lt_succ_of_le small) holds.known, ?_, ?_⟩
  · rcases holds.search shallow key with
      ⟨address, -, val, stored, there, searched, -⟩ | ⟨context, -, missing, -, -, searched, -⟩
    · rw [there]
      exact ⟨address, stored, searched⟩
    · rw [missing]
      exact searched
  · refine List.Pairwise.filterMap _ ?_ holds.sorted
    intro first second ordered left foundLeft right foundRight
    exact ordered left right foundLeft foundRight
  · intro key val
    rw [List.mem_filterMap, holds.exactly]

/-- Three insertions, one of a key that is there, and a deletion. -/
def fewOperations : List Operation :=
  [.insert 1 ⟨10, 100⟩, .insert 2 ⟨5, 50⟩, .insert 3 ⟨10, 7⟩, .delete 5]

theorem tree_is_map_few :
    ∃ store, Machine.run (step 5) Store.empty fewOperations = .ok store ∧
      (∀ key, match fewOperations.foldl contentsAfter (fun _ => none) key with
        | none => mySearch 5 store.memory.rbNode key store = .ok none
        | some val => ∃ address, store.data address = some ⟨key, val⟩ ∧
            mySearch 5 store.memory.rbNode key store = .ok (some address)) ∧
      ∃ nodes, traverse 5 5 store = .ok nodes ∧
        (nodes.Pairwise fun first second => first.key < second.key) ∧
        ∀ key val, ⟨key, val⟩ ∈ nodes ↔
          fewOperations.foldl contentsAfter (fun _ => none) key = some val :=
  tree_is_map fewOperations 5 (by decide) (by decide)

end Msmuduo.Rbtree
