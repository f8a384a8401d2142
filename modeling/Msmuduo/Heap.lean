import Mathlib.Data.List.Chain
import Mathlib.Logic.Function.Basic

/-!
# Cells on a heap

A heap has cells at addresses. Reading, changing or freeing through a pointer that
is null, or whose cell was freed, is a fault. Cells that point to their neighbours
in both directions form a chain, and what is done to a cell concerns the chain only
in the link it changes.
-/

namespace Msmuduo

set_option autoImplicit false

universe u

/-- `none` is no cell at the address. -/
def Heap (Cell : Type u) : Type u := Nat → Option Cell

namespace Heap

variable {Cell : Type u}

inductive Fault where
  | null
  | dangling
  deriving DecidableEq, Repr

def empty : Heap Cell := fun _ => none

def load (heap : Heap Cell) : Option Nat → Except Fault Cell
  | none => .error .null
  | some address =>
      match heap address with
      | none => .error .dangling
      | some cell => .ok cell

def put (heap : Heap Cell) (address : Nat) (cell : Option Cell) : Heap Cell :=
  Function.update heap address cell

def modify (heap : Heap Cell) (pointer : Option Nat) (change : Cell → Cell) :
    Except Fault (Heap Cell) :=
  match pointer with
  | none => .error .null
  | some address =>
      match heap address with
      | none => .error .dangling
      | some cell => .ok (heap.put address (some (change cell)))

/-- `free`, which does nothing for a null pointer. -/
def free (heap : Heap Cell) : Option Nat → Except Fault (Heap Cell)
  | none => .ok heap
  | some address =>
      match heap address with
      | none => .error .dangling
      | some _ => .ok (heap.put address none)

/-- `malloc` answers with an address that is not in use and whatever is there. -/
def malloc (heap : Heap Cell) (address : Nat) (cell : Cell) : Heap Cell :=
  heap.put address (some cell)

section

variable {heap : Heap Cell} {address other : Nat} {cell : Cell}

@[simp]
theorem put_self (heap : Heap Cell) (address : Nat) (cell : Option Cell) :
    heap.put address cell address = cell :=
  Function.update_self ..

theorem put_other (heap : Heap Cell) (cell : Option Cell) (apart : other ≠ address) :
    heap.put address cell other = heap other :=
  Function.update_of_ne apart ..

theorem load_live (live : heap address = some cell) : heap.load (some address) = .ok cell := by
  simp only [load, live]

theorem modify_live (live : heap address = some cell) (change : Cell → Cell) :
    heap.modify (some address) change = .ok (heap.put address (some (change cell))) := by
  simp only [modify, live]

theorem free_live (live : heap address = some cell) :
    heap.free (some address) = .ok (heap.put address none) := by
  simp only [free, live]

theorem put_isSome (live : heap address = some cell) (changed : Cell) (other : Nat) :
    (heap.put address (some changed) other).isSome = (heap other).isSome := by
  by_cases here : other = address
  · rw [here, put_self, live]
    rfl
  · rw [put_other heap _ here]

/-- A cell of the changed heap is the changed one or was there before. -/
theorem put_some {changed found : Cell} (holds : heap.put address (some changed) other = some found) :
    (other = address ∧ found = changed) ∨ (other ≠ address ∧ heap other = some found) := by
  by_cases here : other = address
  · rw [here, put_self] at holds
    exact Or.inl ⟨here, (Option.some.inj holds).symm⟩
  · rw [put_other heap _ here] at holds
    exact Or.inr ⟨here, holds⟩

/-- What is read off every cell alike stays when a change keeps it. -/
theorem bind_put {Value : Type u} (live : heap address = some cell) {changed : Cell}
    (read : Cell → Option Value) (kept : read changed = read cell) (other : Nat) :
    (heap.put address (some changed) other).bind read = (heap other).bind read := by
  by_cases here : other = address
  · rw [here, put_self, live]
    exact kept
  · rw [put_other heap _ here]

end

/-! ## Chains -/

/-- Two cells point to one another. -/
def Joined (next prev : Cell → Option Nat) (heap : Heap Cell) (address behind : Nat) : Prop :=
  (heap address).bind next = some behind ∧ (heap behind).bind prev = some address

/-- A chain stays one when the links of its cells do: those forward of all but the
last one and those backward of all but the first. -/
theorem chain_imp {Old New : Nat → Nat → Prop} {addresses : List Nat}
    (chain : addresses.IsChain Old)
    (kept : ∀ first ∈ addresses.dropLast, ∀ second ∈ addresses.tail,
      Old first second → New first second) :
    addresses.IsChain New := by
  induction addresses with
  | nil => exact List.isChain_nil
  | cons address addresses ih =>
      cases addresses with
      | nil => exact List.isChain_singleton address
      | cons second later =>
          rw [List.isChain_cons_cons] at chain ⊢
          constructor
          · exact kept address (by simp) second (by simp) chain.1
          · apply ih chain.2
            intro first inFront other behind
            exact kept first (by simp [inFront]) other (List.mem_of_mem_tail behind)

section

variable {next prev : Cell → Option Nat} {heap : Heap Cell} {addresses : List Nat}

theorem chain_frame {changed : Heap Cell} (chain : addresses.IsChain (Joined next prev heap))
    (forward : ∀ address ∈ addresses.dropLast,
      (changed address).bind next = (heap address).bind next)
    (backward : ∀ address ∈ addresses.tail,
      (changed address).bind prev = (heap address).bind prev) :
    addresses.IsChain (Joined next prev changed) := by
  apply chain_imp chain
  intro first inFront second behind joined
  exact ⟨(forward first inFront).trans joined.1, (backward second behind).trans joined.2⟩

theorem chain_append_one {last address : Nat} (chain : addresses.IsChain (Joined next prev heap))
    (ends : addresses.getLast? = some last) (joined : Joined next prev heap last address) :
    (addresses ++ [address]).IsChain (Joined next prev heap) := by
  apply chain.append (List.isChain_singleton address)
  intro first isLast second isFirst
  rw [ends] at isLast
  cases isLast
  cases isFirst
  exact joined

end

end Heap

end Msmuduo
