import Msmuduo.ChatBroadcast

/-!
# Runs of the chat server

Whatever connections are made and lost and whatever bytes arrive on them in any
order and division, the server never fails an assertion, every loop ends, and it
agrees with the room of its log: a client says the messages of the bytes it has
sent, and has been sent the messages the room has heard since it entered. So two
clients that are connected together are sent the same.
-/

namespace Msmuduo.Chat.ChatServer

open Msmuduo.Machine Msmuduo.Framing Msmuduo.Buffer Msmuduo.Endian

set_option autoImplicit false

variable {s : ChatServer}

/-- Whether the connection has been shut down depends on the bytes it has sent. -/
def shutBy (bad : Bool) : TcpConnection.StateE := if bad then .kDisconnecting else .kConnected

/-- What holds in every state the server reaches. -/
structure Reached (s : ChatServer) : Prop where
  agrees : Agrees s s.room
  bounded : ∀ conn, ∀ message ∈ s.room.heard conn, message.length ≤ 65536
  said : ∀ conn, (s.connection conn).state ≠ .kDisconnected →
    s.room.said conn = (codec.drain (s.received conn)).items
  state : ∀ conn, (s.connection conn).state ≠ .kDisconnected →
    (s.connection conn).state = shutBy (codec.drain (s.received conn)).bad
  buffered : ∀ conn, (s.connection conn).state ≠ .kDisconnected →
    Represents (s.connection conn).inputBuffer (codec.drain (s.received conn)).rest

theorem room_extended {next : ChatServer} (entries : List Entry)
    (log : next.log = s.log ++ entries) :
    next.room = s.room.after (entries.filterMap Entry.action) := by
  rw [room, log, List.filterMap_append, Room.after_append]
  rfl

theorem actions_message (conn : Nat) (messages : List (List Byte)) :
    (messages.map (Entry.message conn)).filterMap Entry.action =
      messages.map (Room.Action.say conn) := by
  simp [List.filterMap_map, Function.comp_def, Entry.action]

theorem receivedIn_append (conn : Nat) (entries : List Entry) (entry : Entry) :
    receivedIn conn (entries ++ [entry]) =
      match entry with
      | .up other => if other = conn then [] else receivedIn conn entries
      | .data other data =>
          if other = conn then receivedIn conn entries ++ data else receivedIn conn entries
      | _ => receivedIn conn entries := by
  rw [receivedIn, List.foldl_append]
  rfl

theorem receivedIn_messages (conn speaker : Nat) (entries : List Entry)
    (messages : List (List Byte)) :
    receivedIn conn (entries ++ messages.map (Entry.message speaker)) =
      receivedIn conn entries := by
  induction messages generalizing entries with
  | nil => simp
  | cons message messages ih =>
      have shift : entries ++ (message :: messages).map (Entry.message speaker) =
          (entries ++ [.message speaker message]) ++ messages.map (Entry.message speaker) := by
        simp
      rw [shift, ih, receivedIn_append]

theorem new_reached : Reached new where
  agrees :=
    { listed := by
        intro conn
        constructor
        · intro member
          exact absurd member (OrderedSet.not_mem_empty conn)
        · intro impossible
          cases impossible
      present := by
        intro conn
        constructor
        · intro impossible
          cases impossible
        · intro up
          exact absurd rfl up
      leads := fun _ => List.nil_prefix
      sent := fun _ _ => rfl }
  bounded := by
    intro conn message member
    cases member
  said := fun _ up => absurd rfl up
  state := fun _ up => absurd rfl up
  buffered := fun _ up => absurd rfl up

theorem handleRead_reached (machine : ByteOrder) (reached : Reached s) {conn : Nat}
    (up : (s.connection conn).state ≠ .kDisconnected) (data : List Byte) :
    ∃ next, s.handleRead machine conn data = .ok next ∧ Reached next := by
  obtain ⟨next, ran, serves⟩ :=
    handleRead_serves machine reached.agrees (reached.buffered conn up) data
  have whole := Decoder.drain_append codec (s.received conn) data
  have log : next.log = s.log ++ ([.data conn data] ++ (codec.drain
      ((codec.drain (s.received conn)).rest ++ data)).items.map (Entry.message conn)) := by
    rw [serves.log, ← List.append_assoc]
    rfl
  have roomNow : next.room = s.room.after ((codec.drain
      ((codec.drain (s.received conn)).rest ++ data)).items.map (Room.Action.say conn)) := by
    rw [room_extended _ log, List.filterMap_append, actions_message]
    rfl
  have received : ∀ other, next.received other =
      if conn = other then s.received other ++ data else s.received other := by
    intro other
    rw [received, serves.log, receivedIn_messages]
    exact receivedIn_append other s.log (.data conn data)
  have stillUp : ∀ other, (next.connection other).state ≠ .kDisconnected →
      (s.connection other).state ≠ .kDisconnected := by
    intro other nextUp
    by_cases here : other = conn
    · rw [here]
      exact up
    · rwa [(serves.others other here).1] at nextUp
  refine ⟨next, ran, ?_, ?_, ?_, ?_, ?_⟩
  · rw [roomNow]
    exact serves.agrees
  · intro other
    rw [roomNow]
    apply Room.heard_said reached.bounded
    intro message member
    rw [Room.sayings_say] at member
    exact drained_bounded _ message member
  · intro other nextUp
    rw [roomNow, Room.after_said, reached.said other (stillUp other nextUp), received]
    by_cases here : other = conn
    · subst here
      rw [if_pos rfl, if_pos rfl, whole]
    · rw [if_neg here, if_neg (Ne.symm here), List.append_nil]
  · intro other nextUp
    rw [received]
    by_cases here : other = conn
    · subst here
      have before := reached.state other up
      rw [if_pos rfl, serves.state]
      cases bad : (codec.drain (s.received other)).bad with
      | true =>
          obtain ⟨still, -⟩ := Decoder.drain_bad_append bad data
          rw [still]
          rw [whole] at still
          rw [bad] at before
          change (s.connection other).state = .kDisconnecting at before
          rw [if_pos still, connection_record, Connection.shutdown, if_neg (by simp [before]),
            before]
          rfl
      | false =>
          rw [bad] at before
          change (s.connection other).state = .kConnected at before
          rw [whole, connection_record, Connection.shutdown, if_pos before, before]
          rfl
    · rw [if_neg (Ne.symm here), (serves.others other here).1]
      exact reached.state other (stillUp other nextUp)
  · intro other nextUp
    rw [received]
    by_cases here : other = conn
    · subst here
      rw [if_pos rfl, whole]
      exact serves.buffered
    · rw [if_neg (Ne.symm here), (serves.others other here).2]
      exact reached.buffered other (stillUp other nextUp)

theorem connectionUp_reached (reached : Reached s) {conn : Nat}
    (down : (s.connection conn).state = .kDisconnected) : Reached (s.connectionUp conn) := by
  have room : (s.connectionUp conn).room = s.room.step (.enter conn) :=
    room_extended [.up conn] rfl
  have received : ∀ other, (s.connectionUp conn).received other =
      if conn = other then [] else s.received other :=
    fun other => receivedIn_append other s.log (.up conn)
  have own : (s.connectionUp conn).connection conn =
      { Connection.absent with state := .kConnected } := by
    simp [connectionUp, record, setConnection]
  have others : ∀ other, other ≠ conn →
      (s.connectionUp conn).connection other = s.connection other := by
    intro other apart
    simp [connectionUp, record, setConnection, apart]
  constructor
  · rw [room]
    constructor
    · intro other
      change other ∈ s.connections.insert conn ↔ _
      rw [OrderedSet.mem_insert, reached.agrees.listed]
      by_cases here : other = conn
      · simp [here, Room.step]
      · simp [here, Room.step]
    · intro other
      by_cases here : other = conn
      · subst here
        rw [own]
        simp [Room.step]
      · rw [others other here, ← reached.agrees.present]
        simp [Room.step, here]
    · intro other
      by_cases here : other = conn
      · subst here
        rw [own]
        exact List.nil_prefix
      · rw [others other here]
        simpa [Room.step, here] using reached.agrees.leads other
    · intro other connected
      by_cases here : other = conn
      · subst here
        rw [own]
        simp [Room.step, Connection.absent]
      · rw [others other here] at connected
        rw [others other here]
        simpa [Room.step, here] using reached.agrees.sent other connected
  · intro other
    rw [room]
    exact @Room.heard_said _ _ _ (fun message : List Byte => message.length ≤ 65536) s.room
      [.enter conn] reached.bounded (fun message member => by cases member) other
  · intro other up
    rw [room, received]
    by_cases here : other = conn
    · subst here
      simp [Room.step]
    · rw [others other here] at up
      rw [if_neg (Ne.symm here), ← reached.said other up]
      simp [Room.step, here]
  · intro other up
    rw [received]
    by_cases here : other = conn
    · subst here
      rw [own, if_pos rfl, Decoder.drain_nil]
      rfl
    · rw [others other here] at up
      rw [others other here, if_neg (Ne.symm here), reached.state other up]
  · intro other up
    rw [received]
    by_cases here : other = conn
    · subst here
      rw [own, if_pos rfl, Decoder.drain_nil]
      exact new_represents kInitialSize
    · rw [others other here] at up
      rw [others other here, if_neg (Ne.symm here)]
      exact reached.buffered other up

theorem connectionDown_reached (reached : Reached s) (conn : Nat) :
    Reached (s.connectionDown conn) := by
  have room : (s.connectionDown conn).room = s.room.step (.leave conn) :=
    room_extended [.down conn] rfl
  have received : ∀ other, (s.connectionDown conn).received other = s.received other :=
    fun other => receivedIn_append other s.log (.down conn)
  have own : (s.connectionDown conn).connection conn =
      { s.connection conn with state := .kDisconnected } := by
    simp [connectionDown, record, setConnection]
  have others : ∀ other, other ≠ conn →
      (s.connectionDown conn).connection other = s.connection other := by
    intro other apart
    simp [connectionDown, record, setConnection, apart]
  have apartUp : ∀ other, ((s.connectionDown conn).connection other).state ≠ .kDisconnected →
      other ≠ conn := by
    intro other up same
    subst same
    rw [own] at up
    exact up rfl
  constructor
  · rw [room]
    constructor
    · intro other
      change other ∈ s.connections.erase conn ↔ _
      rw [OrderedSet.mem_erase, reached.agrees.listed]
      by_cases here : other = conn
      · simp [here, Room.step]
      · simp [here, Room.step]
    · intro other
      by_cases here : other = conn
      · subst here
        rw [own]
        simp [Room.step]
      · rw [others other here, ← reached.agrees.present]
        simp [Room.step, here]
    · intro other
      by_cases here : other = conn
      · subst here
        rw [own]
        exact reached.agrees.leads other
      · rw [others other here]
        exact reached.agrees.leads other
    · intro other connected
      have up : ((s.connectionDown conn).connection other).state ≠ .kDisconnected := by
        rw [connected]
        intro impossible
        cases impossible
      have here := apartUp other up
      rw [others other here] at connected
      rw [others other here]
      exact reached.agrees.sent other connected
  · intro other
    rw [room]
    exact reached.bounded other
  · intro other up
    have here := apartUp other up
    rw [others other here] at up
    rw [room, received]
    exact reached.said other up
  · intro other up
    have here := apartUp other up
    rw [others other here] at up
    rw [others other here, received]
    exact reached.state other up
  · intro other up
    have here := apartUp other up
    rw [others other here] at up
    rw [others other here, received]
    exact reached.buffered other up

theorem step_reached (machine : ByteOrder) (reached : Reached s) (event : Event) :
    ∃ next, s.step machine event = .ok next ∧ Reached next := by
  cases event with
  | connect conn =>
      by_cases down : (s.connection conn).state = .kDisconnected
      · exact ⟨_, by rw [step, if_pos down], connectionUp_reached reached down⟩
      · exact ⟨s, by rw [step, if_neg down], reached⟩
  | receive conn data =>
      by_cases idle : (s.connection conn).state = .kDisconnected ∨ data = []
      · exact ⟨s, by rw [step, if_pos idle], reached⟩
      · have up := fun down : (s.connection conn).state = .kDisconnected => idle (Or.inl down)
        rw [step, if_neg idle]
        exact handleRead_reached machine reached up data
  | disconnect conn =>
      by_cases down : (s.connection conn).state = .kDisconnected
      · exact ⟨s, by rw [step, if_pos down], reached⟩
      · exact ⟨_, by rw [step, if_neg down], connectionDown_reached reached conn⟩

theorem run_reached (machine : ByteOrder) (reached : Reached s) (events : List Event) :
    ∃ final, Machine.run (step machine) s events = .ok final ∧ Reached final := by
  induction events generalizing s with
  | nil => exact ⟨s, rfl, reached⟩
  | cons event events ih =>
      obtain ⟨next, taken, after⟩ := step_reached machine reached event
      obtain ⟨final, ran, last⟩ := ih after
      exact ⟨final, (run_cons_ok events taken).trans ran, last⟩

/-- The server never fails. In every state it reaches on any bytes in any division
the set has the connections that are up; what a client has said in the room is what
its bytes decode to, up to an invalid length, at which it is shut down; and whatever
part of its own stream a client has received decodes to the first messages it has
heard in the room. A connection that may be sent to has been sent all of them. -/
theorem chat_keeps_room (machine : ByteOrder) (events : List Event) :
    ∃ s, Machine.run (step machine) new events = .ok s ∧
      (∀ conn, conn ∈ s.connections ↔ (s.connection conn).state ≠ .kDisconnected) ∧
      (∀ conn, (s.connection conn).state ≠ .kDisconnected →
        s.room.said conn = (codec.drain (s.received conn)).items ∧
          (s.connection conn).state = shutBy (codec.drain (s.received conn)).bad) ∧
      (∀ conn part, part <+: (s.connection conn).sent →
        (codec.drain part).items <+: s.room.heard conn ∧ (codec.drain part).bad = false) ∧
      ∀ conn, (s.connection conn).state = .kConnected →
        (s.connection conn).sent = (s.room.heard conn).flatMap encode := by
  obtain ⟨s, ran, reached⟩ := run_reached machine new_reached events
  have agrees := reached.agrees
  refine ⟨s, ran, ?_, ?_, ?_, agrees.sent⟩
  · intro conn
    rw [agrees.listed, agrees.present]
  · intro conn up
    exact ⟨reached.said conn up, reached.state conn up⟩
  · intro conn part leads
    obtain ⟨missing, split⟩ := leads.trans (agrees.leads conn)
    have reads : ∀ message ∈ s.room.heard conn, codec.Reads encode message :=
      fun message member => cut_encode (reached.bounded conn message member)
    obtain ⟨arrived, pending, rest, divided, drained, -⟩ := Decoder.drain_part reads split
    rw [drained, divided]
    exact ⟨List.prefix_append _ _, rfl⟩

/-! ## Hearing the same -/

/-- A connection that is up stays in the room as long as it is not closed. -/
theorem step_stays (machine : ByteOrder) (reached : Reached s) {event : Event} {conn : Nat}
    (up : (s.connection conn).state ≠ .kDisconnected) (stays : event ≠ .disconnect conn)
    {next : ChatServer} (taken : s.step machine event = .ok next) :
    (next.connection conn).state ≠ .kDisconnected ∧
      ∃ entries, next.log = s.log ++ entries ∧
        ∀ action ∈ entries.filterMap Entry.action, Room.Stays conn action := by
  have idle : (s.connection conn).state ≠ .kDisconnected ∧
      ∃ entries, s.log = s.log ++ entries ∧
        ∀ action ∈ entries.filterMap Entry.action, Room.Stays conn action := by
    refine ⟨up, [], (List.append_nil _).symm, ?_⟩
    intro action member
    cases member
  cases event with
  | connect other =>
      rw [step] at taken
      split_ifs at taken with down
      · cases taken
        have apart : other ≠ conn := by
          intro same
          rw [same] at down
          exact up down
        refine ⟨?_, [.up other], rfl, ?_⟩
        · have kept : (s.connectionUp other).connection conn = s.connection conn := by
            simp [connectionUp, record, setConnection, Ne.symm apart]
          rw [kept]
          exact up
        · intro action member
          rw [List.mem_singleton.mp member]
          exact apart
      · cases taken
        exact idle
  | receive other data =>
      rw [step] at taken
      split_ifs at taken with nothing
      · cases taken
        exact idle
      · have otherUp := fun down : (s.connection other).state = .kDisconnected =>
          nothing (Or.inl down)
        obtain ⟨served, ran, serves⟩ :=
          handleRead_serves machine reached.agrees (reached.buffered other otherUp) data
        cases ran.symm.trans taken
        constructor
        · by_cases here : conn = other
          · subst here
            rw [serves.state]
            split_ifs
            · rw [ne_eq, Connection.shutdown_up]
              exact up
            · exact up
          · rw [(serves.others conn here).1]
            exact up
        · refine ⟨_, serves.log.trans (List.append_assoc _ _ _), ?_⟩
          intro action member
          rw [List.filterMap_append, actions_message] at member
          rcases List.mem_append.mp member with impossible | member
          · cases impossible
          · obtain ⟨message, -, rfl⟩ := List.mem_map.mp member
            trivial
  | disconnect other =>
      have apart : conn ≠ other := by
        intro same
        exact stays (by rw [same])
      rw [step] at taken
      split_ifs at taken with down
      · cases taken
        exact idle
      · cases taken
        refine ⟨?_, [.down other], rfl, ?_⟩
        · have kept : (s.connectionDown other).connection conn = s.connection conn := by
            simp [connectionDown, record, setConnection, apart]
          rw [kept]
          exact up
        · intro action member
          rw [List.mem_singleton.mp member]
          exact Ne.symm apart

theorem run_stays (machine : ByteOrder) (reached : Reached s) {events : List Event} {conn : Nat}
    (up : (s.connection conn).state ≠ .kDisconnected) (stays : .disconnect conn ∉ events)
    {final : ChatServer} (ran : Machine.run (step machine) s events = .ok final) :
    ∃ entries, final.log = s.log ++ entries ∧
      ∀ action ∈ entries.filterMap Entry.action, Room.Stays conn action := by
  induction events generalizing s with
  | nil =>
      cases ran
      refine ⟨[], (List.append_nil _).symm, ?_⟩
      intro action member
      cases member
  | cons event events ih =>
      obtain ⟨next, taken, after⟩ := step_reached machine reached event
      rw [run_cons_ok events taken] at ran
      have first : event ≠ .disconnect conn := by
        intro same
        exact stays (by rw [same]; exact List.mem_cons_self)
      obtain ⟨nextUp, entries, log, kept⟩ := step_stays machine reached up first taken
      obtain ⟨later, lastLog, lastKept⟩ :=
        ih after nextUp (fun member => stays (List.mem_cons_of_mem _ member)) ran
      refine ⟨entries ++ later, by rw [lastLog, log, List.append_assoc], ?_⟩
      intro action member
      rw [List.filterMap_append] at member
      rcases List.mem_append.mp member with early | late
      · exact kept action early
      · exact lastKept action late

/-- Total order: from any moment on, two clients that are connected then, are not
closed later and may still be sent to are sent the same messages in the same order,
those of everybody, their own among them. -/
theorem members_hear_the_same (machine : ByteOrder) {before during : List Event}
    {s final : ChatServer} {first second : Nat}
    (start : Machine.run (step machine) new before = .ok s)
    (ran : Machine.run (step machine) s during = .ok final)
    (firstConnected : (s.connection first).state = .kConnected)
    (secondConnected : (s.connection second).state = .kConnected)
    (firstStays : .disconnect first ∉ during) (secondStays : .disconnect second ∉ during)
    (firstOpen : (final.connection first).state = .kConnected)
    (secondOpen : (final.connection second).state = .kConnected) :
    ∃ messages : List (List Byte),
      (final.connection first).sent = (s.connection first).sent ++ messages.flatMap encode ∧
      (final.connection second).sent = (s.connection second).sent ++ messages.flatMap encode := by
  obtain ⟨_, same, reached⟩ := run_reached machine new_reached before
  cases start.symm.trans same
  obtain ⟨_, last, finalReached⟩ := run_reached machine reached during
  cases ran.symm.trans last
  have up : ∀ conn, (s.connection conn).state = .kConnected →
      (s.connection conn).state ≠ .kDisconnected := by
    intro conn connected
    rw [connected]
    intro impossible
    cases impossible
  obtain ⟨entries, log, firstKept⟩ :=
    run_stays machine reached (up first firstConnected) firstStays ran
  obtain ⟨others, otherLog, secondKept⟩ :=
    run_stays machine reached (up second secondConnected) secondStays ran
  have one : others = entries := List.append_cancel_left (otherLog.symm.trans log)
  subst one
  obtain ⟨messages, firstHeard, secondHeard⟩ := Room.same_heard firstKept secondKept
    ((reached.agrees.present first).mpr (up first firstConnected))
    ((reached.agrees.present second).mpr (up second secondConnected))
  rw [← room_extended _ log] at firstHeard secondHeard
  refine ⟨messages, ?_, ?_⟩
  · rw [finalReached.agrees.sent first firstOpen, firstHeard, List.flatMap_append,
      reached.agrees.sent first firstConnected]
  · rw [finalReached.agrees.sent second secondOpen, secondHeard, List.flatMap_append,
      reached.agrees.sent second secondConnected]

/-- One of two clients says something. -/
theorem members_hear_the_same_two :
    ∃ (s final : ChatServer) (messages : List (List Byte)),
      Machine.run (step .little) new [.connect 1, .connect 2] = .ok s ∧
      Machine.run (step .little) s [.receive 1 [0, 0, 0], .receive 1 [2, 104, 105]] = .ok final ∧
      (final.connection 1).sent = (s.connection 1).sent ++ messages.flatMap encode ∧
      (final.connection 2).sent = (s.connection 2).sent ++ messages.flatMap encode := by
  have start : Machine.run (step .little) new [.connect 1, .connect 2] =
      .ok ((new.connectionUp 1).connectionUp 2) := rfl
  obtain ⟨final, ran, -⟩ := run_reached .little
    (connectionUp_reached (connectionUp_reached new_reached rfl) rfl : Reached
      ((new.connectionUp 1).connectionUp 2)) [.receive 1 [0, 0, 0], .receive 1 [2, 104, 105]]
  have stillOpen : ∀ conn : Bool,
      ((Machine.run (step .little) ((new.connectionUp 1).connectionUp 2)
        [.receive 1 [0, 0, 0], .receive 1 [2, 104, 105]]).toOption.map fun s =>
          (s.connection (if conn then 1 else 2)).state) = some .kConnected := by decide +kernel
  rw [ran] at stillOpen
  obtain ⟨messages, first, second⟩ := members_hear_the_same .little start ran rfl rfl
    (by decide) (by decide) (Option.some.inj (stillOpen true)) (Option.some.inj (stillOpen false))
  exact ⟨_, final, messages, start, ran, first, second⟩

end Msmuduo.Chat.ChatServer
