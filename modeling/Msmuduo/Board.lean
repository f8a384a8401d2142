import Mathlib.Data.List.Basic
import Mathlib.Logic.Function.Basic

/-!
# Boards

What publish and subscribe is for. A board keeps the last publication of every
topic. A client that subscribes to a topic receives this one first and then
every publication of the topic, until it unsubscribes or leaves.
-/

namespace Msmuduo.Board

set_option autoImplicit false

universe u v w

inductive Action (Client : Type u) (Topic : Type v) (Content : Type w) where
  | join (client : Client)
  | leave (client : Client)
  | subscribe (client : Client) (topic : Topic)
  | unsubscribe (client : Client) (topic : Topic)
  | publish (topic : Topic) (content : Content)
  deriving DecidableEq, Repr

end Msmuduo.Board

namespace Msmuduo

universe u v w

/-- `received` is what a client has received since it joined. -/
structure Board (Client : Type u) (Topic : Type v) (Content : Type w) where
  subscribed : Client → Topic → Bool
  last : Topic → Option Content
  received : Client → List (Topic × Content)

end Msmuduo

namespace Msmuduo.Board

universe u v w

variable {Client : Type u} {Topic : Type v} {Content : Type w}

def empty : Board Client Topic Content where
  subscribed := fun _ _ => false
  last := fun _ => none
  received := fun _ => []

/-- The last publication of a topic, for one who subscribes now. -/
def retained (board : Board Client Topic Content) (topic : Topic) : List (Topic × Content) :=
  ((board.last topic).map (topic, ·)).toList

/-- Every publication on the board has the property. -/
structure Throughout (property : Topic × Content → Prop) (board : Board Client Topic Content) :
    Prop where
  received : ∀ client, ∀ publication ∈ board.received client, property publication
  last : ∀ topic content, board.last topic = some content → property (topic, content)

theorem empty_throughout (property : Topic × Content → Prop) :
    Throughout property (empty : Board Client Topic Content) where
  received := by
    intro client publication member
    cases member
  last := by
    intro topic content impossible
    cases impossible

/-- The action leaves the subscription of a client to a topic as it is. -/
def Leaves (client : Client) (topic : Topic) : Action Client Topic Content → Prop
  | .join other => other ≠ client
  | .leave other => other ≠ client
  | .subscribe other name => ¬(other = client ∧ name = topic)
  | .unsubscribe other name => ¬(other = client ∧ name = topic)
  | .publish _ _ => True

section

variable [DecidableEq Client]

def hand (board : Board Client Topic Content) (client : Client)
    (publications : List (Topic × Content)) : Board Client Topic Content :=
  { board with
    received := Function.update board.received client (board.received client ++ publications) }

theorem hand_received (board : Board Client Topic Content) (client other : Client)
    (publications : List (Topic × Content)) :
    (board.hand client publications).received other =
      board.received other ++ if other = client then publications else [] := by
  unfold hand
  by_cases same : other = client
  · subst same
    simp
  · simp [same]

@[simp]
theorem hand_nil (board : Board Client Topic Content) (client : Client) :
    board.hand client [] = board := by
  simp [hand]

end

section

variable [DecidableEq Topic]

/-- What a client has received of one topic. -/
def receivedOf (board : Board Client Topic Content) (client : Client) (topic : Topic) :
    List Content :=
  (board.received client).filterMap fun publication =>
    if publication.1 = topic then some publication.2 else none

theorem retained_other (board : Board Client Topic Content) {topic name : Topic}
    (other : name ≠ topic) :
    (board.retained name).filterMap (fun publication =>
      if publication.1 = topic then some publication.2 else none) = [] := by
  unfold retained
  cases board.last name with
  | none => rfl
  | some content => simp [other]

end

variable [DecidableEq Client] [DecidableEq Topic]

def subscribe (board : Board Client Topic Content) (client : Client) (topic : Topic)
    (wanted : Bool) : Board Client Topic Content :=
  { board with
    subscribed := Function.update board.subscribed client
      (Function.update (board.subscribed client) topic wanted) }

def step (board : Board Client Topic Content) :
    Action Client Topic Content → Board Client Topic Content
  | .join client =>
      { board with
        subscribed := Function.update board.subscribed client fun _ => false
        received := Function.update board.received client [] }
  | .leave client =>
      { board with subscribed := Function.update board.subscribed client fun _ => false }
  | .subscribe client topic =>
      (board.subscribe client topic true).hand client (board.retained topic)
  | .unsubscribe client topic => board.subscribe client topic false
  | .publish topic content =>
      { board with
        last := Function.update board.last topic (some content)
        received := fun client =>
          if board.subscribed client topic then board.received client ++ [(topic, content)]
          else board.received client }

/-- The board after some actions. -/
def after (board : Board Client Topic Content) (actions : List (Action Client Topic Content)) :
    Board Client Topic Content :=
  actions.foldl step board

@[simp]
theorem after_nil (board : Board Client Topic Content) : board.after [] = board := rfl

@[simp]
theorem after_cons (board : Board Client Topic Content) (action : Action Client Topic Content)
    (actions : List (Action Client Topic Content)) :
    board.after (action :: actions) = (board.step action).after actions := rfl

theorem after_append (board : Board Client Topic Content)
    (actions later : List (Action Client Topic Content)) :
    board.after (actions ++ later) = (board.after actions).after later :=
  List.foldl_append

/-! ## What one action changes -/

theorem subscribe_subscribed (board : Board Client Topic Content) (client other : Client)
    (topic : Topic) (wanted : Bool) (name : Topic) :
    (board.subscribe client topic wanted).subscribed other name =
      if other = client ∧ name = topic then wanted else board.subscribed other name := by
  unfold subscribe
  by_cases same : other = client
  · subst same
    by_cases named : name = topic
    · simp [named]
    · simp [named]
  · simp [same]

/-- Unsubscribing before leaving makes no difference. -/
theorem leave_unsubscribed (board : Board Client Topic Content) (client : Client) (topic : Topic) :
    (board.step (.unsubscribe client topic)).step (.leave client) = board.step (.leave client) := by
  simp [step, subscribe]

/-- One who has no subscriptions can leave unnoticed. -/
theorem leave_free {board : Board Client Topic Content} {client : Client}
    (free : ∀ topic, board.subscribed client topic = false) :
    board.step (.leave client) = board := by
  have same : (fun _ => false) = board.subscribed client := by
    funext topic
    exact (free topic).symm
  simp [step, same]

/-! ## One subscription -/

/-- What one subscription hears of an action. -/
def heard (topic : Topic) : Action Client Topic Content → List Content
  | .publish other content => if other = topic then [content] else []
  | _ => []

instance (client : Client) (topic : Topic) :
    (action : Action Client Topic Content) → Decidable (Leaves client topic action)
  | .join _ => inferInstanceAs (Decidable (_ ≠ _))
  | .leave _ => inferInstanceAs (Decidable (_ ≠ _))
  | .subscribe _ _ => inferInstanceAs (Decidable (¬_))
  | .unsubscribe _ _ => inferInstanceAs (Decidable (¬_))
  | .publish _ _ => inferInstanceAs (Decidable True)

theorem step_leaves {board : Board Client Topic Content} {client : Client} {topic : Topic}
    {action : Action Client Topic Content} (leaves : Leaves client topic action) :
    (board.step action).subscribed client topic = board.subscribed client topic := by
  cases action with
  | join other =>
      have apart : client ≠ other := Ne.symm leaves
      simp [step, apart]
  | leave other =>
      have apart : client ≠ other := Ne.symm leaves
      simp [step, apart]
  | subscribe other name =>
      have apart : ¬(client = other ∧ topic = name) := fun same => leaves ⟨same.1.symm, same.2.symm⟩
      change (board.subscribe other name true).subscribed client topic = _
      rw [subscribe_subscribed, if_neg apart]
  | unsubscribe other name =>
      have apart : ¬(client = other ∧ topic = name) := fun same => leaves ⟨same.1.symm, same.2.symm⟩
      change (board.subscribe other name false).subscribed client topic = _
      rw [subscribe_subscribed, if_neg apart]
  | publish name content => rfl

/-- A subscription hears exactly the publications of its topic, and one who
has none hears nothing. -/
theorem step_receivedOf {board : Board Client Topic Content} {client : Client} {topic : Topic}
    {action : Action Client Topic Content} (leaves : Leaves client topic action) :
    (board.step action).receivedOf client topic =
      board.receivedOf client topic ++
        if board.subscribed client topic then heard topic action else [] := by
  cases action with
  | join other =>
      have apart : client ≠ other := Ne.symm leaves
      simp [step, receivedOf, heard, apart]
  | leave other => simp [step, receivedOf, heard]
  | subscribe other name =>
      have received : (board.step (.subscribe other name)).received client =
          board.received client ++ if client = other then board.retained name else [] :=
        hand_received (board.subscribe other name true) other client (board.retained name)
      unfold receivedOf
      rw [received, List.filterMap_append]
      congr 1
      by_cases same : client = other
      · have apart : name ≠ topic := fun named => leaves ⟨same.symm, named⟩
        rw [if_pos same, retained_other board apart]
        simp [heard]
      · simp [same, heard]
  | unsubscribe other name => simp [step, subscribe, receivedOf, heard]
  | publish name content =>
      unfold receivedOf step
      by_cases named : name = topic
      · subst named
        by_cases wanted : board.subscribed client name = true
        · simp [wanted, heard]
        · simp [wanted]
      · by_cases wanted : board.subscribed client name = true
        · simp [wanted, heard, named]
        · simp [wanted, heard, named]

/-- While a subscription is left as it is, its client receives all publications
of the topic, in order and once, and without one nothing. -/
theorem after_receivedOf (board : Board Client Topic Content) {client : Client} {topic : Topic}
    {actions : List (Action Client Topic Content)}
    (leaves : ∀ action ∈ actions, Leaves client topic action) :
    (board.after actions).receivedOf client topic =
      board.receivedOf client topic ++
        if board.subscribed client topic then actions.flatMap (heard topic) else [] := by
  induction actions generalizing board with
  | nil => simp
  | cons action actions ih =>
      have first := leaves action (by simp)
      rw [after_cons, ih (board.step action) fun other member => leaves other (by simp [member]),
        step_leaves first, step_receivedOf first, List.append_assoc]
      by_cases wanted : board.subscribed client topic = true
      · simp [wanted]
      · simp [wanted]

theorem subscribe_receivedOf (board : Board Client Topic Content) (client : Client)
    (topic : Topic) :
    (board.step (.subscribe client topic)).receivedOf client topic =
      board.receivedOf client topic ++ (board.last topic).toList := by
  have received : (board.step (.subscribe client topic)).received client =
      board.received client ++ if client = client then board.retained topic else [] :=
    hand_received (board.subscribe client topic true) client client (board.retained topic)
  unfold receivedOf
  rw [received, if_pos rfl, List.filterMap_append]
  congr 1
  unfold retained
  cases board.last topic with
  | none => rfl
  | some content => simp

/-- A board keeps the last publication of a topic. -/
theorem after_last (board : Board Client Topic Content) (topic : Topic)
    (actions : List (Action Client Topic Content)) :
    (board.after actions).last topic =
      (actions.flatMap (heard topic)).getLast?.or (board.last topic) := by
  induction actions generalizing board with
  | nil => rfl
  | cons action actions ih =>
      rw [after_cons, ih, List.flatMap_cons]
      cases action with
      | publish name content =>
          by_cases same : name = topic
          · subst same
            have first : (board.step (.publish name content)).last name = some content := by
              simp [step]
            rw [first]
            simp only [heard, if_true, List.singleton_append]
            cases later : (actions.flatMap (heard name)).getLast? with
            | none =>
                rw [List.getLast?_eq_none_iff] at later
                simp [later]
            | some last =>
                simp [List.getLast?_cons, later]
          · have first : (board.step (.publish name content)).last topic = board.last topic := by
              simp [step, Ne.symm same]
            rw [first]
            simp [heard, same]
      | join client => rfl
      | leave client => rfl
      | subscribe client name => rfl
      | unsubscribe client name => rfl

/-! ## All publications -/

/-- Only joining takes something from what a client has received. -/
theorem received_grows (board : Board Client Topic Content) {client : Client}
    {actions : List (Action Client Topic Content)}
    (stays : ∀ action ∈ actions, action ≠ .join client) :
    board.received client <+: (board.after actions).received client := by
  induction actions generalizing board with
  | nil => exact List.prefix_refl _
  | cons action actions ih =>
      have first := stays action (by simp)
      apply List.IsPrefix.trans ?_ (ih (board.step action) fun other member =>
        stays other (by simp [member]))
      cases action with
      | join other =>
          have apart : client ≠ other := by
            rintro rfl
            exact first rfl
          simp [step, apart]
      | leave other => exact List.prefix_refl _
      | subscribe other topic =>
          change _ <+: ((board.subscribe other topic true).hand other _).received client
          rw [hand_received]
          exact List.prefix_append _ _
      | unsubscribe other topic => exact List.prefix_refl _
      | publish topic content =>
          change _ <+: if board.subscribed client topic then _ else _
          split_ifs
          · exact List.prefix_append _ _
          · exact List.prefix_refl _

/-- The client neither joins nor subscribes. -/
def Abstains (client : Client) (action : Action Client Topic Content) : Prop :=
  action ≠ .join client ∧ ∀ topic, action ≠ .subscribe client topic

theorem step_free {board : Board Client Topic Content} {client : Client}
    {action : Action Client Topic Content} (abstains : Abstains client action)
    (free : ∀ topic, board.subscribed client topic = false) :
    (∀ topic, (board.step action).subscribed client topic = false) ∧
      (board.step action).received client = board.received client := by
  cases action with
  | join other =>
      have apart : client ≠ other := fun same => abstains.1 (by rw [same])
      simp [step, apart, free]
  | leave other =>
      refine ⟨fun topic => ?_, rfl⟩
      by_cases same : client = other
      · simp [step, same]
      · simp [step, same, free]
  | subscribe other name =>
      have apart : client ≠ other := fun same => abstains.2 name (by rw [same])
      constructor
      · intro topic
        change (board.subscribe other name true).subscribed client topic = false
        rw [subscribe_subscribed, if_neg fun both => apart both.1]
        exact free topic
      · change ((board.subscribe other name true).hand other _).received client = _
        rw [hand_received, if_neg apart, List.append_nil]
        rfl
  | unsubscribe other name =>
      refine ⟨fun topic => ?_, rfl⟩
      change (board.subscribe other name false).subscribed client topic = false
      rw [subscribe_subscribed]
      split_ifs
      · rfl
      · exact free topic
  | publish name content =>
      refine ⟨free, ?_⟩
      change (if board.subscribed client name then _ else _) = _
      rw [free name]
      rfl

/-- One without subscriptions who does not subscribe receives nothing. -/
theorem after_free {board : Board Client Topic Content} {client : Client}
    {actions : List (Action Client Topic Content)}
    (abstains : ∀ action ∈ actions, Abstains client action)
    (free : ∀ topic, board.subscribed client topic = false) :
    (∀ topic, (board.after actions).subscribed client topic = false) ∧
      (board.after actions).received client = board.received client := by
  induction actions generalizing board with
  | nil => exact ⟨free, rfl⟩
  | cons action actions ih =>
      obtain ⟨still, same⟩ := step_free (abstains action (by simp)) free
      obtain ⟨last, kept⟩ := ih (fun other member => abstains other (by simp [member])) still
      exact ⟨last, kept.trans same⟩

theorem step_throughout {property : Topic × Content → Prop} {board : Board Client Topic Content}
    (throughout : Throughout property board) {action : Action Client Topic Content}
    (published : ∀ topic content, action = .publish topic content → property (topic, content)) :
    Throughout property (board.step action) := by
  cases action with
  | join other =>
      constructor
      · intro client publication member
        by_cases same : client = other
        · subst same
          simp [step] at member
        · simp only [step, Function.update_of_ne same] at member
          exact throughout.received client publication member
      · exact throughout.last
  | leave other => exact ⟨throughout.received, throughout.last⟩
  | unsubscribe other topic => exact ⟨throughout.received, throughout.last⟩
  | subscribe other topic =>
      constructor
      · intro client publication member
        change publication ∈ ((board.subscribe other topic true).hand other _).received client
          at member
        rw [hand_received, List.mem_append] at member
        rcases member with old | new
        · exact throughout.received client publication old
        · split_ifs at new
          · unfold retained at new
            cases found : board.last topic with
            | none =>
                rw [found] at new
                cases new
            | some content =>
                rw [found] at new
                have same : publication = (topic, content) := by simpa using new
                rw [same]
                exact throughout.last topic content found
          · cases new
      · exact throughout.last
  | publish topic content =>
      have holds := published topic content rfl
      constructor
      · intro client publication member
        change publication ∈ (if board.subscribed client topic then _ else _) at member
        split_ifs at member
        · rcases List.mem_append.mp member with old | new
          · exact throughout.received client publication old
          · rw [List.mem_singleton.mp new]
            exact holds
        · exact throughout.received client publication member
      · intro name other found
        change Function.update board.last topic (some content) name = some other at found
        by_cases same : name = topic
        · subst same
          rw [Function.update_self] at found
          cases found
          exact holds
        · rw [Function.update_of_ne same] at found
          exact throughout.last name other found

theorem after_throughout {property : Topic × Content → Prop} {board : Board Client Topic Content}
    (throughout : Throughout property board) {actions : List (Action Client Topic Content)}
    (published : ∀ topic content, .publish topic content ∈ actions → property (topic, content)) :
    Throughout property (board.after actions) := by
  induction actions generalizing board with
  | nil => exact throughout
  | cons action actions ih =>
      apply ih
      · apply step_throughout throughout
        rintro topic content rfl
        exact published topic content (by simp)
      · intro topic content member
        exact published topic content (by simp [member])

end Msmuduo.Board
