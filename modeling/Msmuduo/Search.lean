import Mathlib.Data.List.Infix

/-!
# Searching in a sequence

`search` is the first occurrence of a subsequence, or the end when there is
none, which is what `std::search` returns as a pointer. The lemmas say when an
occurrence stays the first one while the sequence grows at its end.
-/

namespace Msmuduo.Search

set_option autoImplicit false

universe u

variable {Value : Type u} [DecidableEq Value]

def search (needle : List Value) : List Value → Nat
  | [] => 0
  | first :: rest =>
      if needle <+: first :: rest then 0 else search needle rest + 1

theorem search_le_length (needle values : List Value) :
    search needle values ≤ values.length := by
  induction values with
  | nil => exact Nat.le_refl 0
  | cons first rest ih =>
      simp only [search, List.length_cons]
      split <;> omega

theorem occurs_of_search_lt {needle values : List Value}
    (found : search needle values < values.length) :
    needle <+: values.drop (search needle values) := by
  induction values with
  | nil => exact absurd found (Nat.lt_irrefl 0)
  | cons first rest ih =>
      simp only [search, List.length_cons] at found ⊢
      split at found
      · next here => simp [here]
      · next elsewhere =>
        simp only [elsewhere, if_false, List.drop_succ_cons]
        exact ih (by omega)

/-- No occurrence lies before the first one. -/
theorem search_clean {needle : List Value} (nonempty : needle ≠ []) (values : List Value) :
    ¬needle <:+: values.take (search needle values) := by
  induction values with
  | nil => simpa using nonempty
  | cons first rest ih =>
      simp only [search]
      split
      · simpa using nonempty
      · next elsewhere =>
        rw [List.take_succ_cons, List.infix_cons_iff]
        rintro (here | later)
        · have shorter : first :: rest.take (search needle rest) <+: first :: rest :=
            List.cons_prefix_cons.mpr ⟨rfl, List.take_prefix _ _⟩
          exact elsewhere (here.trans shorter)
        · exact ih later

/-- An occurrence that lies inside the first part is found there. -/
theorem search_append {needle values : List Value} (more : List Value)
    (found : search needle values < values.length) :
    search needle (values ++ more) = search needle values := by
  induction values with
  | nil => exact absurd found (Nat.lt_irrefl 0)
  | cons first rest ih =>
      by_cases here : needle <+: first :: rest
      · have longer : needle <+: first :: (rest ++ more) :=
          here.trans (List.prefix_append (first :: rest) more)
        simp [search, here, longer]
      · simp only [search, here, if_false, List.length_cons] at found
        have inRest : search needle rest < rest.length := by omega
        -- The needle fits into the rest, so it does not reach into `more`.
        have fits : needle.length ≤ (first :: rest).length := by
          have occurs := (occurs_of_search_lt inRest).length_le
          rw [List.length_drop] at occurs
          simp only [List.length_cons]
          omega
        have still : ¬needle <+: first :: (rest ++ more) := by
          intro longer
          exact here (List.prefix_of_prefix_length_le longer
            (List.prefix_append (first :: rest) more) fits)
        simp only [List.cons_append, search, here, still, if_false, ih inRest]

/-- A two-element mark behind a line that does not contain it. The line may end
with the first element of the mark. -/
theorem search_line {left right : Value} (distinct : left ≠ right) {line : List Value}
    (clean : ¬[left, right] <:+: line) (rest : List Value) :
    search [left, right] (line ++ left :: right :: rest) = line.length := by
  induction line with
  | nil => simp [search]
  | cons first line ih =>
      have cleanTail : ¬[left, right] <:+: line := fun occurs =>
        clean (occurs.trans (List.suffix_cons first line).isInfix)
      have notHere : ¬[left, right] <+: first :: (line ++ left :: right :: rest) := by
        intro here
        rcases List.cons_prefix_cons.mp here with ⟨same, next⟩
        cases line with
        | nil =>
            rw [List.nil_append] at next
            exact distinct (List.cons_prefix_cons.mp next).1.symm
        | cons second line =>
            rw [List.cons_append] at next
            rcases List.cons_prefix_cons.mp next with ⟨sameNext, -⟩
            subst same sameNext
            exact clean ⟨[], line, by simp⟩
      simp only [List.cons_append, search, notHere, if_false, ih cleanTail, List.length_cons]

end Msmuduo.Search
