import Msmuduo.HubBoard

/-!
# Runs of the hub

Whatever connections are made and lost and whatever bytes arrive on them in any
order and division, the hub never fails an assertion or a cast, every loop ends,
and it agrees with the board of its log.
-/

namespace Msmuduo.Hub

open Msmuduo.Machine Msmuduo.Framing Msmuduo.Buffer

set_option autoImplicit false

def Message.command (message : Message) : Option Command :=
  PubSubServer.commandOf message.cmd message.topic message.content

/-- The requests in some messages up to the first unknown one, where the server
stops reading. -/
def requestsOf : List Message → List Command
  | [] => []
  | message :: messages =>
      match message.command with
      | some command => command :: requestsOf messages
      | none => []

/-- A request is no action of another client. -/
theorem Command.abstains {conn other : Nat} (apart : other ≠ conn) (command : Command) :
    Board.Abstains other (command.action conn) := by
  cases command with
  | pub topic content =>
      constructor
      · intro impossible
        cases impossible
      · intro name impossible
        cases impossible
  | sub topic =>
      constructor
      · intro impossible
        cases impossible
      · intro name same
        cases same
        exact apart rfl
  | unsub topic =>
      constructor
      · intro impossible
        cases impossible
      · intro name impossible
        cases impossible

namespace PubSubServer

variable {s : PubSubServer} {b : HubBoard}

/-- What a call of `onMessage` on `conn` leads to, when its input buffer drains
as `result` says. -/
structure Serves (s : PubSubServer) (b : HubBoard) (conn : Nat) (result : Drained Message Byte)
    (next : PubSubServer) : Prop where
  agrees : Agrees next (b.after ((requestsOf result.items).map (Command.action conn)))
  log : next.log = s.log ++ (requestsOf result.items).map (Entry.command conn)
  up : (next.connections conn).state ≠ .kDisconnected
  others : ∀ other, other ≠ conn → (s.connections other).Kept (next.connections other)
  known : (∀ message ∈ result.items, message.command.isSome) → result.bad = false →
    (next.connections conn).state = (s.connections conn).state ∧
      Represents (next.connections conn).inputBuffer result.rest

theorem shutdown_up {conn : Nat} (up : (s.connections conn).state ≠ .kDisconnected) :
    ((s.shutdown conn).connections conn).state ≠ .kDisconnected := by
  unfold shutdown Connection.shutdown
  rw [connections_setConnection, if_pos rfl]
  split_ifs
  · intro impossible
    cases impossible
  · exact up

/-- The state in which a message is handled: its bytes are taken off the buffer. -/
def withBuffer (s : PubSubServer) (conn : Nat) (buf : Buffer) : PubSubServer :=
  s.setConnection conn { s.connections conn with inputBuffer := buf }

theorem withBuffer_own (s : PubSubServer) (conn : Nat) (buf : Buffer) :
    (s.withBuffer conn buf).connections conn = { s.connections conn with inputBuffer := buf } := by
  unfold withBuffer
  rw [connections_setConnection, if_pos rfl]

theorem withBuffer_other (s : PubSubServer) {conn other : Nat} (buf : Buffer)
    (apart : other ≠ conn) : (s.withBuffer conn buf).connections other = s.connections other := by
  unfold withBuffer
  rw [connections_setConnection, if_neg apart]

theorem connections_shutdown (s : PubSubServer) {conn other : Nat} (apart : other ≠ conn) :
    (s.shutdown conn).connections other = s.connections other := by
  unfold shutdown
  rw [connections_setConnection, if_neg apart]

/-- A front that is rejected, or whose command is unknown, shuts the connection
down. -/
theorem serves_shutdown (agrees : Agrees s b) {conn : Nat} {buf : Buffer} {bytes : List Byte}
    {result : Drained Message Byte} (up : (s.connections conn).state ≠ .kDisconnected)
    (represents : Represents buf bytes) (nothing : requestsOf result.items = [])
    (unknown : (∃ message ∈ result.items, message.command = none) ∨ result.bad = true) :
    Serves s b conn result ((s.withBuffer conn buf).shutdown conn) where
  agrees := by
    rw [nothing]
    exact (agrees.withBuffer conn represents).shutdown conn
  log := by
    rw [nothing]
    exact (List.append_nil _).symm
  up := by
    apply shutdown_up
    rw [withBuffer_own]
    exact up
  others := by
    intro other apart
    rw [connections_shutdown _ apart, withBuffer_other s buf apart]
    exact (Connection.Silent.refl _).kept
  known := by
    intro all good
    rcases unknown with ⟨message, member, missing⟩ | bad
    · have found := all message member
      rw [missing] at found
      cases found
    · rw [bad] at good
      cases good

theorem onMessage_serves (turns : Nat) (agrees : Agrees s b) {conn : Nat} {bytes : List Byte}
    {time : Int} (up : (s.connections conn).state ≠ .kDisconnected)
    (represents : Represents (s.connections conn).inputBuffer bytes)
    (enough : bytes.length < turns) (valid : 0 < time) :
    ∃ next, onMessage turns s conn time = .ok next ∧
      Serves s b conn (codec.drain bytes) next := by
  induction turns generalizing s b bytes with
  | zero => exact absurd enough (Nat.not_lt_zero _)
  | succ turns ih =>
      obtain ⟨parsed, ran, outcome⟩ := parseMessage_cut represents
      simp only [onMessage, ran, bind, Except.bind]
      cases cut : cutMessage bytes with
      | more =>
          rw [cut] at outcome
          have waits : codec.drain bytes = ⟨[], bytes, false⟩ := Decoder.drain_more cut
          simp only [outcome.1, waits]
          rw [← outcome.2] at represents
          refine ⟨s.withBuffer conn parsed.buf, rfl, agrees.withBuffer conn represents,
            (List.append_nil _).symm, ?_, ?_, ?_⟩
          · rw [withBuffer_own]
            exact up
          · intro other apart
            rw [withBuffer_other s _ apart]
            exact (Connection.Silent.refl _).kept
          · intro _ _
            rw [withBuffer_own]
            exact ⟨rfl, represents⟩
      | bad =>
          rw [cut] at outcome
          have rejects : codec.drain bytes = ⟨[], bytes, true⟩ := Decoder.drain_bad cut
          simp only [outcome.1, rejects]
          rw [← outcome.2] at represents
          exact ⟨_, rfl, serves_shutdown agrees up represents rfl (Or.inr rfl)⟩
      | item message rest =>
          rw [cut] at outcome
          obtain ⟨success, cmd, topic, content, after⟩ := outcome
          have split : codec.drain bytes =
              ⟨message :: (codec.drain rest).items, (codec.drain rest).rest,
                (codec.drain rest).bad⟩ := Decoder.drain_item cut
          have own := withBuffer_own s conn parsed.buf
          have asked : commandOf parsed.cmd parsed.topic parsed.content = message.command := by
            rw [cmd, topic, content]
            rfl
          simp only [success, asked, split]
          cases command : message.command with
          | none =>
              have unknown : ∃ other ∈ message :: (codec.drain rest).items, other.command = none :=
                ⟨message, by simp, command⟩
              refine ⟨_, rfl, serves_shutdown agrees up after ?_ (Or.inl unknown)⟩
              simp [requestsOf, command]
          | some request =>
              have shorter : rest.length < turns := by
                have less := cutMessage_shorter cut
                omega
              have readUp : ((s.withBuffer conn parsed.buf).connections conn).state ≠
                  .kDisconnected := by
                rw [own]
                exact up
              obtain ⟨executed, ranRequest, done, log, kept⟩ :=
                (agrees.withBuffer conn after).execute request readUp valid
              have executedUp : (executed.connections conn).state ≠ .kDisconnected := by
                rw [(kept conn).state]
                exact readUp
              have executedBuffer : Represents (executed.connections conn).inputBuffer rest := by
                rw [(kept conn).inputBuffer]
                change Represents ((s.withBuffer conn parsed.buf).connections conn).inputBuffer rest
                rw [own]
                exact after
              obtain ⟨next, ranRest, serves⟩ := ih done executedUp executedBuffer shorter
              have requests : requestsOf (message :: (codec.drain rest).items) =
                  request :: requestsOf (codec.drain rest).items := by
                simp only [requestsOf, command]
              refine ⟨next, ?_, ?_, ?_, serves.up, ?_, ?_⟩
              · simp only [ranRequest]
                exact ranRest
              · rw [requests]
                exact serves.agrees
              · rw [requests, serves.log, log]
                simp
              · intro other apart
                have first : (s.connections other).Kept (executed.connections other) := by
                  rw [← withBuffer_other s parsed.buf apart]
                  exact kept other
                exact first.trans (serves.others other apart)
              · intro all good
                obtain ⟨state, last⟩ :=
                  serves.known (fun other member => all other (by simp [member])) good
                have sameState : ((s.withBuffer conn parsed.buf).connections conn).state =
                    (s.connections conn).state := by
                  rw [own]
                exact ⟨state.trans ((kept conn).state.trans sameState), last⟩

/-- One receive serves what was kept together with what arrived. -/
theorem handleRead_serves (agrees : Agrees s b) {conn : Nat} {bytes : List Byte}
    (data : List Byte) {time : Int} (up : (s.connections conn).state ≠ .kDisconnected)
    (represents : Represents (s.connections conn).inputBuffer bytes) (valid : 0 < time) :
    ∃ next, s.handleRead conn data time = .ok next ∧
      Serves s b conn (codec.drain (bytes ++ data)) next := by
  obtain ⟨buf, read, after⟩ := readFd_received represents data
  have own := withBuffer_own s conn buf
  have ready :
      Represents ((s.withBuffer conn buf).connections conn).inputBuffer (bytes ++ data) := by
    rw [own]
    exact after
  have stillUp : ((s.withBuffer conn buf).connections conn).state ≠ .kDisconnected := by
    rw [own]
    exact up
  have enough : (bytes ++ data).length < buf.readableBytes + 1 := by
    rw [after.readable]
    omega
  obtain ⟨next, ran, serves⟩ := onMessage_serves (buf.readableBytes + 1)
    (agrees.withBuffer conn after) stillUp ready enough valid
  refine ⟨next, ?_, serves.agrees, serves.log, serves.up, ?_, ?_⟩
  · simp only [handleRead, read, inBuffer, Except.mapError, bind, Except.bind]
    exact ran
  · intro other apart
    rw [← withBuffer_other s buf apart]
    exact serves.others other apart
  · intro all good
    obtain ⟨state, last⟩ := serves.known all good
    refine ⟨state.trans ?_, last⟩
    change ((s.withBuffer conn buf).connections conn).state = _
    rw [own]

/-! ## Runs -/

/-- What holds in every state the hub reaches. -/
structure Reached (s : PubSubServer) : Prop where
  agrees : Agrees s s.board
  gone : ∀ conn, (s.connections conn).state = .kDisconnected →
    ∀ topic, s.board.subscribed conn topic = false

theorem new_reached : Reached new where
  agrees :=
    { audience := by
        intro topic conn
        constructor
        · intro member
          exact absurd member (OrderedSet.not_mem_empty conn)
        · intro impossible
          cases impossible
      named := fun _ => rfl
      last := fun _ => rfl
      listed := by
        intro conn topics impossible
        cases impossible
      contextual := by
        intro conn up
        exact absurd rfl up
      leads := fun _ => List.nil_prefix
      sent := fun _ _ => rfl
      buffered := fun _ => ⟨[], new_represents kInitialSize⟩ }
  gone := fun _ _ _ => rfl

theorem board_extended {next : PubSubServer} {entries : List Entry}
    (log : next.log = s.log ++ entries) :
    next.board = s.board.after (entries.map Entry.action) := by
  unfold board
  rw [log, List.map_append, Board.after_append]

theorem Serves.board {conn : Nat} {result : Drained Message Byte} {next : PubSubServer}
    (serves : Serves s b conn result next) :
    next.board = s.board.after ((requestsOf result.items).map (Command.action conn)) := by
  rw [board_extended serves.log, List.map_map]
  rfl

theorem serves_reached (reached : Reached s) {conn : Nat} {result : Drained Message Byte}
    {next : PubSubServer} (serves : Serves s s.board conn result next) : Reached next := by
  constructor
  · rw [serves.board]
    exact serves.agrees
  · intro other down topic
    have apart : other ≠ conn := by
      intro same
      rw [same] at down
      exact serves.up down
    rw [(serves.others other apart).state] at down
    rw [serves.board]
    apply (Board.after_free ?_ (reached.gone other down)).1
    intro action member
    obtain ⟨request, -, rfl⟩ := List.mem_map.mp member
    exact request.abstains apart

/-- The receive time of an event is that of a poll. -/
def Event.Timely : Event → Prop
  | .receive _ _ receiveTime => 0 < receiveTime
  | _ => True

instance : (event : Event) → Decidable event.Timely
  | .connect _ => inferInstanceAs (Decidable True)
  | .receive _ _ _ => inferInstanceAs (Decidable (_ < _))
  | .disconnect _ => inferInstanceAs (Decidable True)

theorem step_reached (reached : Reached s) (event : Event) (timely : event.Timely) :
    ∃ next, s.step event = .ok next ∧ Reached next := by
  cases event with
  | connect conn =>
      by_cases down : (s.connections conn).state = .kDisconnected
      · refine ⟨s.connectionUp conn, by simp [step, down], ?_, ?_⟩
        · have board : (s.connectionUp conn).board = s.board.step (.join conn) :=
            board_record _ (.up conn)
          rw [board]
          exact reached.agrees.connectionUp (reached.gone conn down)
        · intro other down topic
          have board : (s.connectionUp conn).board = s.board.step (.join conn) :=
            board_record _ (.up conn)
          rw [connectionUp, record_connections, connections_setConnection] at down
          by_cases here : other = conn
          · rw [if_pos here] at down
            cases down
          · rw [if_neg here] at down
            have leaves : Board.Leaves other topic
                (.join conn : Board.Action Nat (List Byte) (List Byte)) := Ne.symm here
            rw [board, Board.step_leaves leaves]
            exact reached.gone other down topic
      · exact ⟨s, by simp [step, down], reached⟩
  | receive conn data time =>
      by_cases idle : (s.connections conn).state = .kDisconnected ∨ data = []
      · exact ⟨s, by simp only [step, if_pos idle], reached⟩
      · have up := fun down : (s.connections conn).state = .kDisconnected => idle (Or.inl down)
        obtain ⟨bytes, represents⟩ := reached.agrees.buffered conn
        obtain ⟨next, ran, serves⟩ :=
          handleRead_serves reached.agrees data up represents timely
        exact ⟨next, by simp only [step, if_neg idle]; exact ran, serves_reached reached serves⟩
  | disconnect conn =>
      by_cases down : (s.connections conn).state = .kDisconnected
      · exact ⟨s, by simp [step, down], reached⟩
      · obtain ⟨next, ran, after, log, silent⟩ := reached.agrees.connectionDown down
        have board : next.board = s.board.step (.leave conn) := board_extended log
        refine ⟨next, by simp only [step, if_neg down]; exact ran, ?_, ?_⟩
        · rw [board]
          exact after
        · intro other gone topic
          rw [(silent other).state] at gone
          rw [board]
          by_cases here : other = conn
          · subst here
            simp [Board.step]
          · rw [if_neg here] at gone
            have leaves : Board.Leaves other topic
                (.leave conn : Board.Action Nat (List Byte) (List Byte)) := Ne.symm here
            rw [Board.step_leaves leaves]
            exact reached.gone other gone topic

theorem run_reached (reached : Reached s) {events : List Event}
    (timely : ∀ event ∈ events, event.Timely) :
    ∃ final, Machine.run step s events = .ok final ∧ Reached final := by
  induction events generalizing s with
  | nil => exact ⟨s, rfl, reached⟩
  | cons event events ih =>
      obtain ⟨next, taken, after⟩ := step_reached reached event (timely event (by simp))
      obtain ⟨final, ran, last⟩ := ih after fun other member => timely other (by simp [member])
      exact ⟨final, (run_cons_ok events taken).trans ran, last⟩

/-- The hub never fails, and in every state it reaches on any bytes the sets of
its topics, the contexts of its connections and the board of its log say the
same; a closed connection is in no set. A connection that may be sent to has
been sent what its client has received on the board, and any other a front of
this. -/
theorem hub_keeps_board (events : List Event) (timely : ∀ event ∈ events, event.Timely) :
    ∃ s, Machine.run step new events = .ok s ∧
      (∀ conn topic,
        conn ∈ (s.getTopic topic).audiences ↔ s.board.subscribed conn topic = true) ∧
      (∀ conn, (s.connections conn).state = .kDisconnected →
        ∀ topic, conn ∉ (s.getTopic topic).audiences) ∧
      (∀ conn, (s.connections conn).state ≠ .kDisconnected →
        ∃ topics, (s.connections conn).context = some topics ∧ topics.Nodup ∧
          ∀ topic, topic ∈ topics ↔ conn ∈ (s.getTopic topic).audiences) ∧
      (∀ conn, (s.connections conn).sent <+: (s.board.received conn).flatMap publicationBytes) ∧
      ∀ conn, (s.connections conn).state = .kConnected →
        (s.connections conn).sent = (s.board.received conn).flatMap publicationBytes := by
  obtain ⟨s, ran, reached⟩ := run_reached new_reached timely
  have agrees := reached.agrees
  refine ⟨s, ran, fun conn topic => agrees.audience topic conn, ?_, ?_, agrees.leads, agrees.sent⟩
  · intro conn down topic member
    have subscribed := (agrees.audience topic conn).mp member
    rw [reached.gone conn down topic] at subscribed
    cases subscribed
  · intro conn up
    obtain ⟨topics, context⟩ := Option.isSome_iff_exists.mp (agrees.contextual conn up)
    obtain ⟨distinct, listed⟩ := agrees.listed conn topics context
    refine ⟨topics, context, distinct, fun topic => ?_⟩
    rw [listed, agrees.audience]

/-- One client subscribes, the other one publishes and is lost. -/
theorem hub_keeps_board_relayed :
    ∃ s, Machine.run step new
        [.connect 1, .connect 2, .receive 1 (text "sub a\r\n") 7,
          .receive 2 (text "pub a\r\nx\r\n") 8, .disconnect 2] = .ok s ∧
      (s.connections 1).sent <+: (s.board.received 1).flatMap publicationBytes := by
  obtain ⟨s, ran, -, -, -, leads, -⟩ := hub_keeps_board
    [.connect 1, .connect 2, .receive 1 (text "sub a\r\n") 7,
      .receive 2 (text "pub a\r\nx\r\n") 8, .disconnect 2] (by decide)
  exact ⟨s, ran, leads 1⟩

end PubSubServer

end Msmuduo.Hub
