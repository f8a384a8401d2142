import Mathlib.Data.List.Basic

/-!
# Text of bounded length, item by item

A text grows by items. Each item asks for some room, at least one cell more than
its own text needs; where less is free, the item is left out as a whole. What
comes of a sequence of items is the text of a part of them in their order.
-/

namespace Msmuduo.BoundedText

set_option autoImplicit false

universe u v

variable {Item : Type u} {Cell : Type v}

section

variable (text : Item → List Cell) (room : Item → Nat) (capacity : Nat)

/-- One item is added if the room it asks for is free. -/
def fill (content : List Cell) (item : Item) : List Cell :=
  if content.length + room item ≤ capacity then content ++ text item else content

def fillAll (content : List Cell) (items : List Item) : List Cell :=
  items.foldl (fill text room capacity) content

/-- The items turn `before` into `after`, and an item is absent only where less
is free than it may ask for. -/
inductive Itemwise : List Cell → List Item → List Cell → Prop
  | none (content : List Cell) : Itemwise content [] content
  | present {before after : List Cell} {item : Item} {items : List Item} :
      Itemwise (before ++ text item) items after → Itemwise before (item :: items) after
  | absent {before after : List Cell} {item : Item} {items : List Item} :
      capacity < before.length + room item → Itemwise before items after →
      Itemwise before (item :: items) after

end

variable {text : Item → List Cell} {room : Item → Nat} {capacity : Nat}

theorem fillAll_cons (content : List Cell) (item : Item) (items : List Item) :
    fillAll text room capacity content (item :: items) =
      fillAll text room capacity (fill text room capacity content item) items := rfl

theorem fillAll_append (content : List Cell) (first second : List Item) :
    fillAll text room capacity content (first ++ second) =
      fillAll text room capacity (fillAll text room capacity content first) second :=
  List.foldl_append

theorem fill_fits {content : List Cell} {item : Item}
    (fits : content.length + room item ≤ capacity) :
    fill text room capacity content item = content ++ text item := if_pos fits

theorem fill_full {content : List Cell} {item : Item}
    (full : ¬content.length + room item ≤ capacity) :
    fill text room capacity content item = content := if_neg full

theorem length_fill_lt {content : List Cell} {item : Item} (below : content.length < capacity)
    (spare : (text item).length < room item) :
    (fill text room capacity content item).length < capacity := by
  unfold fill
  split
  · rw [List.length_append]
    omega
  · exact below

theorem length_fillAll_lt {content : List Cell} {items : List Item}
    (below : content.length < capacity)
    (spare : ∀ item ∈ items, (text item).length < room item) :
    (fillAll text room capacity content items).length < capacity := by
  induction items generalizing content with
  | nil => exact below
  | cons item items ih =>
      apply ih (length_fill_lt below (spare item (by simp)))
      intro other member
      exact spare other (List.mem_cons_of_mem _ member)

theorem itemwise_fillAll (content : List Cell) (items : List Item) :
    Itemwise text room capacity content items (fillAll text room capacity content items) := by
  induction items generalizing content with
  | nil => exact .none content
  | cons item items ih =>
      rw [fillAll_cons]
      unfold fill
      split
      · exact .present (ih (content ++ text item))
      · exact .absent (by omega) (ih content)

/-- Items may ask for more. -/
theorem Itemwise.weaken {more : Item → Nat} {before after : List Cell} {items : List Item}
    (itemwise : Itemwise text room capacity before items after)
    (larger : ∀ item ∈ items, room item ≤ more item) :
    Itemwise text more capacity before items after := by
  induction itemwise with
  | none content => exact .none content
  | present _ ih =>
      exact .present (ih fun item member => larger item (List.mem_cons_of_mem _ member))
  | absent full _ ih =>
      exact .absent (Nat.lt_of_lt_of_le full (Nat.add_le_add_left (larger _ (by simp)) _))
        (ih fun item member => larger item (List.mem_cons_of_mem _ member))

/-- The text is that of the items that are present, in their order. -/
theorem Itemwise.sublist {before after : List Cell} {items : List Item}
    (itemwise : Itemwise text room capacity before items after) :
    ∃ kept : List Item, kept.Sublist items ∧ after = before ++ kept.flatMap text := by
  induction itemwise with
  | none content => exact ⟨[], List.Sublist.slnil, (List.append_nil content).symm⟩
  | present _ ih =>
      rcases ih with ⟨kept, part, content⟩
      refine ⟨_ :: kept, part.cons_cons _, ?_⟩
      rw [content, List.flatMap_cons, List.append_assoc]
  | absent _ _ ih =>
      rcases ih with ⟨kept, part, content⟩
      exact ⟨kept, part.cons _, content⟩

end Msmuduo.BoundedText
