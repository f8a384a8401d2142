import Mathlib.Data.List.Basic
import Mathlib.Logic.Function.Basic

/-!
# Rooms

What a broadcasting server is for. Whoever is present hears everything that is
said, in the order in which it is said, from the moment of entering to the
moment of leaving. So two members who are present together hear the same.
-/

namespace Msmuduo.Room

set_option autoImplicit false

universe u v

inductive Action (Member : Type u) (Saying : Type v) where
  | enter (member : Member)
  | leave (member : Member)
  | say (member : Member) (saying : Saying)
  deriving DecidableEq, Repr

end Msmuduo.Room

namespace Msmuduo

universe u v

/-- `said` and `heard` are what a member has said and heard since it entered. -/
structure Room (Member : Type u) (Saying : Type v) where
  present : Member → Bool
  said : Member → List Saying
  heard : Member → List Saying

end Msmuduo

namespace Msmuduo.Room

universe u v

variable {Member : Type u} {Saying : Type v}

def empty : Room Member Saying where
  present := fun _ => false
  said := fun _ => []
  heard := fun _ => []

/-- What is said in some actions, by anybody. -/
def sayings (actions : List (Action Member Saying)) : List Saying :=
  actions.filterMap fun action =>
    match action with
    | .say _ saying => some saying
    | _ => none

@[simp]
theorem sayings_append (actions later : List (Action Member Saying)) :
    sayings (actions ++ later) = sayings actions ++ sayings later :=
  List.filterMap_append

@[simp]
theorem sayings_say (speaker : Member) (spoken : List Saying) :
    sayings (spoken.map (Action.say speaker)) = spoken := by
  simp [sayings, List.filterMap_map]

/-- The member neither enters nor leaves. -/
def Stays (member : Member) : Action Member Saying → Prop
  | .enter other => other ≠ member
  | .leave other => other ≠ member
  | .say _ _ => True

variable [DecidableEq Member]

instance (member : Member) :
    (action : Action Member Saying) → Decidable (Stays member action)
  | .enter _ => inferInstanceAs (Decidable (_ ≠ _))
  | .leave _ => inferInstanceAs (Decidable (_ ≠ _))
  | .say _ _ => inferInstanceAs (Decidable True)

def step (room : Room Member Saying) : Action Member Saying → Room Member Saying
  | .enter member =>
      { present := Function.update room.present member true
        said := Function.update room.said member []
        heard := Function.update room.heard member [] }
  | .leave member => { room with present := Function.update room.present member false }
  | .say speaker saying =>
      { room with
        said := Function.update room.said speaker (room.said speaker ++ [saying])
        heard := fun member =>
          if room.present member then room.heard member ++ [saying] else room.heard member }

/-- The room after some actions. -/
def after (room : Room Member Saying) (actions : List (Action Member Saying)) :
    Room Member Saying :=
  actions.foldl step room

@[simp]
theorem after_nil (room : Room Member Saying) : room.after [] = room := rfl

@[simp]
theorem after_cons (room : Room Member Saying) (action : Action Member Saying)
    (actions : List (Action Member Saying)) :
    room.after (action :: actions) = (room.step action).after actions := rfl

theorem after_append (room : Room Member Saying) (actions later : List (Action Member Saying)) :
    room.after (actions ++ later) = (room.after actions).after later :=
  List.foldl_append

/-! ## One action -/

theorem step_stays {room : Room Member Saying} {member : Member} {action : Action Member Saying}
    (stays : Stays member action) :
    (room.step action).present member = room.present member := by
  cases action with
  | enter other =>
      have apart : member ≠ other := Ne.symm stays
      simp [step, apart]
  | leave other =>
      have apart : member ≠ other := Ne.symm stays
      simp [step, apart]
  | say other saying => rfl

/-- One who is present hears what is said and nothing else. -/
theorem step_heard {room : Room Member Saying} {member : Member} {action : Action Member Saying}
    (stays : Stays member action) (present : room.present member = true) :
    (room.step action).heard member = room.heard member ++ sayings [action] := by
  cases action with
  | enter other =>
      have apart : member ≠ other := Ne.symm stays
      simp [step, apart, sayings]
  | leave other => simp [step, sayings]
  | say other saying => simp [step, present, sayings]

/-- One who is absent hears nothing. -/
theorem step_absent {room : Room Member Saying} {member : Member} {action : Action Member Saying}
    (stays : Stays member action) (absent : room.present member = false) :
    (room.step action).heard member = room.heard member := by
  cases action with
  | enter other =>
      have apart : member ≠ other := Ne.symm stays
      simp [step, apart]
  | leave other => rfl
  | say other saying => simp [step, absent]

/-! ## Speaking -/

theorem after_said (room : Room Member Saying) (speaker member : Member)
    (sayings : List Saying) :
    (room.after (sayings.map (Action.say speaker))).said member =
      room.said member ++ if member = speaker then sayings else [] := by
  induction sayings generalizing room with
  | nil => simp
  | cons saying sayings ih =>
      rw [List.map_cons, after_cons, ih]
      by_cases own : member = speaker
      · subst own
        simp [step]
      · simp [step, own]

theorem after_present (room : Room Member Saying) (speaker : Member) (sayings : List Saying) :
    (room.after (sayings.map (Action.say speaker))).present = room.present := by
  induction sayings generalizing room with
  | nil => rfl
  | cons saying sayings ih =>
      rw [List.map_cons, after_cons, ih]
      rfl

/-! ## Staying in a room -/

theorem after_stays {room : Room Member Saying} {member : Member}
    {actions : List (Action Member Saying)} (stays : ∀ action ∈ actions, Stays member action) :
    (room.after actions).present member = room.present member := by
  induction actions generalizing room with
  | nil => rfl
  | cons action actions ih =>
      rw [after_cons, ih fun other member => stays other (by simp [member])]
      exact step_stays (stays action (by simp))

theorem after_heard {room : Room Member Saying} {member : Member}
    {actions : List (Action Member Saying)} (stays : ∀ action ∈ actions, Stays member action)
    (present : room.present member = true) :
    (room.after actions).heard member = room.heard member ++ sayings actions := by
  induction actions generalizing room with
  | nil => simp [sayings]
  | cons action actions ih =>
      have first := stays action (by simp)
      have still : (room.step action).present member = true := by
        rw [step_stays first, present]
      rw [after_cons, ih (fun other member => stays other (by simp [member])) still,
        step_heard first present, List.append_assoc, ← sayings_append]
      rfl

theorem after_absent {room : Room Member Saying} {member : Member}
    {actions : List (Action Member Saying)} (stays : ∀ action ∈ actions, Stays member action)
    (absent : room.present member = false) :
    (room.after actions).heard member = room.heard member := by
  induction actions generalizing room with
  | nil => rfl
  | cons action actions ih =>
      have first := stays action (by simp)
      have still : (room.step action).present member = false := by
        rw [step_stays first, absent]
      rw [after_cons, ih (fun other member => stays other (by simp [member])) still,
        step_absent first absent]

/-- Members who are present together hear the same. -/
theorem same_heard {room : Room Member Saying} {first second : Member}
    {actions : List (Action Member Saying)}
    (firstStays : ∀ action ∈ actions, Stays first action)
    (secondStays : ∀ action ∈ actions, Stays second action)
    (firstPresent : room.present first = true) (secondPresent : room.present second = true) :
    ∃ heard, (room.after actions).heard first = room.heard first ++ heard ∧
      (room.after actions).heard second = room.heard second ++ heard := by
  exact ⟨sayings actions, after_heard firstStays firstPresent,
    after_heard secondStays secondPresent⟩

/-- What everybody has heard was said by somebody. -/
theorem heard_said {property : Saying → Prop} {room : Room Member Saying}
    {actions : List (Action Member Saying)}
    (before : ∀ member, ∀ saying ∈ room.heard member, property saying)
    (said : ∀ saying ∈ sayings actions, property saying) (member : Member) :
    ∀ saying ∈ (room.after actions).heard member, property saying := by
  induction actions generalizing room with
  | nil => exact before member
  | cons action actions ih =>
      apply ih
      · intro other saying heard
        cases action with
        | enter entering =>
            by_cases same : other = entering
            · subst same
              simp [step] at heard
            · have kept : (room.step (.enter entering)).heard other = room.heard other := by
                simp [step, same]
              rw [kept] at heard
              exact before other saying heard
        | leave leaving => exact before other saying heard
        | say speaker words =>
            by_cases present : room.present other = true
            · have extended : (room.step (.say speaker words)).heard other =
                  room.heard other ++ [words] := by simp [step, present]
              rw [extended] at heard
              rcases List.mem_append.mp heard with old | new
              · exact before other saying old
              · apply said
                rw [List.mem_singleton.mp new]
                simp [sayings]
            · have kept : (room.step (.say speaker words)).heard other = room.heard other := by
                simp [step, present]
              rw [kept] at heard
              exact before other saying heard
      · intro saying member
        apply said
        change saying ∈ sayings ([action] ++ actions)
        rw [sayings_append]
        exact List.mem_append_right _ member

end Msmuduo.Room
