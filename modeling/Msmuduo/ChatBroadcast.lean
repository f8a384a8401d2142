import Msmuduo.ChatMessages
import Msmuduo.Room

/-!
# The broadcast

A delivery makes a client say the messages that are cut off its input buffer, and
every connection in the set is sent each of them, once. A connection that was shut
down stays in the set until it is closed, but is sent nothing.
-/

namespace Msmuduo.Chat

open Msmuduo.Machine Msmuduo.Framing Msmuduo.Buffer Msmuduo.Endian

set_option autoImplicit false

abbrev ChatRoom := Room Nat (List Byte)

def Entry.action : Entry → Option (Room.Action Nat (List Byte))
  | .up conn => some (.enter conn)
  | .down conn => some (.leave conn)
  | .data _ _ => none
  | .message conn saying => some (.say conn saying)

/-- The bytes that have arrived on a connection since it was established. -/
def receivedIn (conn : Nat) (entries : List Entry) : List Byte :=
  entries.foldl
    (fun received entry =>
      match entry with
      | .up other => if other = conn then [] else received
      | .data other data => if other = conn then received ++ data else received
      | _ => received)
    []

namespace Connection

theorem shutdown_cases (c : Connection) :
    (c.state = .kConnected ∧ c.shutdown = { c with state := .kDisconnecting }) ∨
      (c.state ≠ .kConnected ∧ c.shutdown = c) := by
  by_cases connected : c.state = .kConnected
  · exact Or.inl ⟨connected, by rw [shutdown, if_pos connected]⟩
  · exact Or.inr ⟨connected, by rw [shutdown, if_neg connected]⟩

theorem shutdown_sent (c : Connection) : c.shutdown.sent = c.sent := by
  rcases shutdown_cases c with ⟨-, shut⟩ | ⟨-, shut⟩
  · rw [shut]
  · rw [shut]

theorem shutdown_inputBuffer (c : Connection) :
    c.shutdown.inputBuffer = c.inputBuffer := by
  rcases shutdown_cases c with ⟨-, shut⟩ | ⟨-, shut⟩
  · rw [shut]
  · rw [shut]

theorem shutdown_state (c : Connection) : c.shutdown.state ≠ .kConnected := by
  rcases shutdown_cases c with ⟨-, shut⟩ | ⟨other, shut⟩
  · rw [shut]
    intro impossible
    cases impossible
  · rw [shut]
    exact other

theorem shutdown_up (c : Connection) :
    c.shutdown.state = .kDisconnected ↔ c.state = .kDisconnected := by
  rcases shutdown_cases c with ⟨connected, shut⟩ | ⟨-, shut⟩
  · rw [shut, connected]
    constructor
    · intro impossible
      cases impossible
    · intro impossible
      cases impossible
  · rw [shut]

theorem send_state (c : Connection) (message : List Byte) :
    (c.send message).state = c.state := by
  unfold send
  split_ifs <;> rfl

theorem send_inputBuffer (c : Connection) (message : List Byte) :
    (c.send message).inputBuffer = c.inputBuffer := by
  unfold send
  split_ifs <;> rfl

end Connection

namespace ChatServer

variable {s : ChatServer} {r : ChatRoom}

/-- The room the log describes. -/
def room (s : ChatServer) : ChatRoom := Room.empty.after (s.log.filterMap Entry.action)

def received (s : ChatServer) (conn : Nat) : List Byte := receivedIn conn s.log

/-! ## Small lemmas about the state -/

theorem connection_setConnection (s : ChatServer) (conn other : Nat) (c : Connection) :
    (s.setConnection conn c).connection other = if other = conn then c else s.connection other := by
  unfold setConnection
  by_cases here : other = conn
  · subst here
    simp
  · simp [here]

@[simp]
theorem connection_record (s : ChatServer) (entry : Entry) :
    (s.record entry).connection = s.connection := rfl

@[simp]
theorem connection_setBuffer_self (s : ChatServer) (conn : Nat) (buf : Buffer) :
    (s.setBuffer conn buf).connection conn = { s.connection conn with inputBuffer := buf } := by
  rw [setBuffer, connection_setConnection, if_pos rfl]

theorem connection_setBuffer (s : ChatServer) {conn other : Nat} (buf : Buffer)
    (apart : other ≠ conn) : (s.setBuffer conn buf).connection other = s.connection other := by
  rw [setBuffer, connection_setConnection, if_neg apart]

theorem state_setBuffer (s : ChatServer) (conn other : Nat) (buf : Buffer) :
    ((s.setBuffer conn buf).connection other).state = (s.connection other).state := by
  by_cases here : other = conn
  · subst here
    rw [connection_setBuffer_self]
  · rw [connection_setBuffer s buf here]

theorem sent_setBuffer (s : ChatServer) (conn other : Nat) (buf : Buffer) :
    ((s.setBuffer conn buf).connection other).sent = (s.connection other).sent := by
  by_cases here : other = conn
  · subst here
    rw [connection_setBuffer_self]
  · rw [connection_setBuffer s buf here]

theorem connection_shutdown (s : ChatServer) {conn other : Nat} (apart : other ≠ conn) :
    (s.shutdown conn).connection other = s.connection other := by
  rw [shutdown, connection_setConnection, if_neg apart]

@[simp]
theorem connection_shutdown_self (s : ChatServer) (conn : Nat) :
    (s.shutdown conn).connection conn = (s.connection conn).shutdown := by
  rw [shutdown, connection_setConnection, if_pos rfl]

/-! ## The server and the room -/

/-- The server and a room say the same. -/
structure Agrees (s : ChatServer) (r : ChatRoom) : Prop where
  listed : ∀ conn, conn ∈ s.connections ↔ r.present conn = true
  present : ∀ conn, r.present conn = true ↔ (s.connection conn).state ≠ .kDisconnected
  leads : ∀ conn, (s.connection conn).sent <+: (r.heard conn).flatMap encode
  sent : ∀ conn, (s.connection conn).state = .kConnected →
    (s.connection conn).sent = (r.heard conn).flatMap encode

/-- Only what a connection sends has changed. -/
structure Silent (s next : ChatServer) : Prop where
  connections : next.connections = s.connections
  state : ∀ conn, (next.connection conn).state = (s.connection conn).state
  inputBuffer : ∀ conn, (next.connection conn).inputBuffer = (s.connection conn).inputBuffer

/-- The loop of the broadcast sends to every connection in the set, once. -/
theorem sendAll_spec (machine : ByteOrder) {message : List Byte} (bounded : message.length ≤ 65536)
    (s : ChatServer) {conns : List Nat} (distinct : conns.Nodup) :
    ∃ next, sendAll machine message conns s = .ok next ∧
      next.connections = s.connections ∧ next.log = s.log ∧
      ∀ conn, next.connection conn =
        if conn ∈ conns then (s.connection conn).send (encode message) else s.connection conn := by
  induction conns generalizing s with
  | nil => exact ⟨s, rfl, rfl, rfl, fun conn => by simp⟩
  | cons first conns ih =>
      obtain ⟨notLater, distinctLater⟩ := List.nodup_cons.mp distinct
      obtain ⟨buf, framed, content⟩ := frame_encodes machine message bounded
      obtain ⟨next, ran, connections, log, sent⟩ :=
        ih (s.setConnection first ((s.connection first).send (encode message))) distinctLater
      refine ⟨next, ?_, connections, log, ?_⟩
      · simp only [sendAll, send, framed, content, inBuffer, Except.mapError, bind, Except.bind,
          pure, Except.pure]
        exact ran
      · intro conn
        rw [sent, connection_setConnection]
        by_cases here : conn = first
        · subst here
          rw [if_pos rfl, if_neg notLater, if_pos List.mem_cons_self]
        · have member : conn ∈ first :: conns ↔ conn ∈ conns := by simp [here]
          rw [if_neg here]
          simp only [member]

theorem onStringMessage_spec (machine : ByteOrder) (agrees : Agrees s r) (conn : Nat)
    {message : List Byte} (bounded : message.length ≤ 65536) :
    ∃ next, s.onStringMessage machine conn message = .ok next ∧
      Agrees next (r.step (.say conn message)) ∧
      next.log = s.log ++ [.message conn message] ∧ Silent s next := by
  obtain ⟨told, ran, connections, log, sent⟩ :=
    sendAll_spec machine bounded s s.connections.nodup
  have state : ∀ other, (told.connection other).state = (s.connection other).state := by
    intro other
    rw [sent]
    split_ifs
    · exact Connection.send_state _ _
    · rfl
  have listed : ∀ other, other ∈ s.connections.elements ↔ r.present other = true := agrees.listed
  refine ⟨told.record (.message conn message), ?_, ?_, ?_, connections, state, ?_⟩
  · simp only [onStringMessage, ran, bind, Except.bind]
    rfl
  · constructor
    · intro other
      change other ∈ told.connections ↔ r.present other = true
      rw [connections]
      exact agrees.listed other
    · intro other
      rw [connection_record, state]
      exact agrees.present other
    · intro other
      rw [connection_record, sent]
      by_cases present : r.present other = true
      · -- A listed connection hears the message; it is sent while it is connected.
        have heard : (r.step (.say conn message)).heard other = r.heard other ++ [message] := by
          simp [Room.step, present]
        rw [if_pos ((listed other).mpr present), heard, List.flatMap_append]
        by_cases connected : (s.connection other).state = .kConnected
        · rw [Connection.send, if_pos connected, agrees.sent other connected]
          simp
        · rw [Connection.send, if_neg connected]
          exact (agrees.leads other).trans (List.prefix_append _ _)
      · have heard : (r.step (.say conn message)).heard other = r.heard other := by
          simp [Room.step, present]
        rw [if_neg fun member => present ((listed other).mp member), heard]
        exact agrees.leads other
    · intro other connected
      rw [connection_record, state] at connected
      have up : (s.connection other).state ≠ .kDisconnected := by
        rw [connected]
        intro impossible
        cases impossible
      have present := (agrees.present other).mpr up
      have heard : (r.step (.say conn message)).heard other = r.heard other ++ [message] := by
        simp [Room.step, present]
      rw [connection_record, sent, if_pos ((listed other).mpr present), heard, Connection.send,
        if_pos connected, List.flatMap_append, agrees.sent other connected]
      simp
  · change told.log ++ _ = _
    rw [log]
  · intro other
    rw [connection_record, sent]
    split_ifs
    · exact Connection.send_inputBuffer _ _
    · rfl

theorem Agrees.setBuffer (agrees : Agrees s r) (conn : Nat) (buf : Buffer) :
    Agrees (s.setBuffer conn buf) r := by
  constructor
  · exact agrees.listed
  · intro other
    rw [state_setBuffer]
    exact agrees.present other
  · intro other
    rw [sent_setBuffer]
    exact agrees.leads other
  · intro other
    rw [state_setBuffer, sent_setBuffer]
    exact agrees.sent other

theorem Agrees.shutdown (agrees : Agrees s r) (conn : Nat) : Agrees (s.shutdown conn) r := by
  have same : ∀ other, ((s.shutdown conn).connection other).sent = (s.connection other).sent ∧
      (((s.shutdown conn).connection other).state = .kDisconnected ↔
        (s.connection other).state = .kDisconnected) ∧
      (((s.shutdown conn).connection other).state = .kConnected →
        (s.connection other).state = .kConnected) := by
    intro other
    by_cases here : other = conn
    · subst here
      rw [connection_shutdown_self]
      refine ⟨Connection.shutdown_sent _, Connection.shutdown_up _, ?_⟩
      intro connected
      exact absurd connected (Connection.shutdown_state _)
    · rw [connection_shutdown s here]
      exact ⟨rfl, Iff.rfl, id⟩
  constructor
  · exact agrees.listed
  · intro other
    rw [ne_eq, (same other).2.1]
    exact agrees.present other
  · intro other
    rw [(same other).1]
    exact agrees.leads other
  · intro other connected
    rw [(same other).1]
    exact agrees.sent other ((same other).2.2 connected)

/-! ## One delivery -/

/-- What a call of `onMessage` on `conn` leads to, when its input buffer drains
as `result` says. -/
structure Serves (s : ChatServer) (r : ChatRoom) (conn : Nat) (result : Drained (List Byte) Byte)
    (next : ChatServer) : Prop where
  agrees : Agrees next (r.after (result.items.map (Room.Action.say conn)))
  log : next.log = s.log ++ result.items.map (Entry.message conn)
  buffered : Represents (next.connection conn).inputBuffer result.rest
  state : (next.connection conn).state =
    if result.bad then (s.connection conn).shutdown.state else (s.connection conn).state
  others : ∀ other, other ≠ conn →
    (next.connection other).state = (s.connection other).state ∧
      (next.connection other).inputBuffer = (s.connection other).inputBuffer

/-- The loop ends without a message. -/
theorem Serves.idle (agrees : Agrees s r) {conn : Nat} {bytes : List Byte}
    (represents : Represents (s.connection conn).inputBuffer bytes) :
    Serves s r conn ⟨[], bytes, false⟩ s where
  agrees := agrees
  log := (List.append_nil _).symm
  buffered := represents
  state := rfl
  others := fun _ _ => ⟨rfl, rfl⟩

/-- The loop ends with a shutdown. -/
theorem Serves.rejected (agrees : Agrees s r) {conn : Nat} {bytes : List Byte}
    (represents : Represents (s.connection conn).inputBuffer bytes) :
    Serves s r conn ⟨[], bytes, true⟩ (s.shutdown conn) where
  agrees := agrees.shutdown conn
  log := (List.append_nil _).symm
  buffered := by
    rw [connection_shutdown_self, Connection.shutdown_inputBuffer]
    exact represents
  state := by
    rw [connection_shutdown_self]
    rfl
  others := by
    intro other apart
    rw [connection_shutdown s apart]
    exact ⟨rfl, rfl⟩

/-- The loop goes on behind a message. -/
theorem Serves.next {middle final : ChatServer} {conn : Nat} {message : List Byte}
    {result : Drained (List Byte) Byte} (log : middle.log = s.log ++ [.message conn message])
    (state : ∀ other, (middle.connection other).state = (s.connection other).state)
    (inputBuffer : ∀ other, other ≠ conn →
      (middle.connection other).inputBuffer = (s.connection other).inputBuffer)
    (serves : Serves middle (r.step (.say conn message)) conn result final) :
    Serves s r conn ⟨message :: result.items, result.rest, result.bad⟩ final where
  agrees := serves.agrees
  log := by
    rw [serves.log, log]
    simp
  buffered := serves.buffered
  state := by
    have shut : (middle.connection conn).shutdown.state = (s.connection conn).shutdown.state := by
      have same := state conn
      rcases Connection.shutdown_cases (s.connection conn) with ⟨connected, left⟩ | ⟨other, left⟩
      · rw [left, Connection.shutdown, if_pos (same.trans connected)]
      · rw [left, Connection.shutdown, if_neg (same ▸ other), same]
    rw [serves.state, shut, state]
  others := by
    intro other apart
    obtain ⟨sameState, sameBuffer⟩ := serves.others other apart
    exact ⟨sameState.trans (state other), sameBuffer.trans (inputBuffer other apart)⟩

theorem onMessage_serves (machine : ByteOrder) (turns : Nat) (agrees : Agrees s r) {conn : Nat}
    {bytes : List Byte} (represents : Represents (s.connection conn).inputBuffer bytes)
    (enough : bytes.length < turns) :
    ∃ next, onMessage machine turns s conn = .ok next ∧
      Serves s r conn (codec.drain bytes) next := by
  induction turns generalizing s r bytes with
  | zero => exact absurd enough (Nat.not_lt_zero _)
  | succ turns ih =>
      have readable := represents.readable
      by_cases header : kHeaderLen ≤ bytes.length
      · have length := headerAt_represents machine represents header
        have limit := lengthOf_lt bytes
        simp only [onMessage, readable, if_pos header, length, invalid_iff _ limit]
        by_cases invalid : 65536 < lengthOf bytes
        · have rejects : codec.drain bytes = ⟨[], bytes, true⟩ :=
            Decoder.drain_bad (cutMessage_invalid header invalid)
          rw [if_pos invalid, rejects]
          exact ⟨_, rfl, Serves.rejected agrees represents⟩
        · have valid := Nat.not_lt.mp invalid
          rw [if_neg invalid, toNat_valid _ valid, Nat.add_comm (lengthOf bytes)]
          by_cases whole : kHeaderLen + lengthOf bytes ≤ bytes.length
          · have cut := cutMessage_whole valid whole
            have split : codec.drain bytes = _ := Decoder.drain_item cut
            have bounded := cutMessage_bounded cut
            rw [if_pos whole, split]
            obtain ⟨opened, retrieved, behind⟩ :=
              retrieve_represents represents kHeaderLen (by rw [readable]; exact header)
            have room : lengthOf bytes ≤ opened.readableBytes := by
              rw [behind.readable, List.length_drop]
              omega
            have text := behind.window_peek (lengthOf bytes) room
            obtain ⟨told, ran, after, log, silent⟩ :=
              onStringMessage_spec machine (agrees.setBuffer conn opened) conn bounded
            have kept : (told.connection conn).inputBuffer = opened := by
              rw [silent.inputBuffer, connection_setBuffer_self]
            obtain ⟨rest, taken, left⟩ := retrieve_represents behind (lengthOf bytes) room
            rw [List.drop_drop] at left
            have own : Represents ((told.setBuffer conn rest).connection conn).inputBuffer
                (bytes.drop (kHeaderLen + lengthOf bytes)) := by
              rw [connection_setBuffer_self]
              exact left
            have fewer : (bytes.drop (kHeaderLen + lengthOf bytes)).length < turns := by
              rw [List.length_drop]
              unfold kHeaderLen at *
              omega
            obtain ⟨next, ranRest, serves⟩ := ih (after.setBuffer conn rest) own fewer
            have recorded : (told.setBuffer conn rest).log =
                s.log ++ [.message conn ((bytes.drop kHeaderLen).take (lengthOf bytes))] := log
            refine ⟨next, ?_, Serves.next recorded ?_ ?_ serves⟩
            · simp only [inBuffer, retrieved, Except.mapError, bind, Except.bind, text, ran, kept,
                taken]
              exact ranRest
            · intro other
              rw [state_setBuffer, silent.state, state_setBuffer]
            · intro other apart
              rw [connection_setBuffer told rest apart, silent.inputBuffer,
                connection_setBuffer s opened apart]
          · have waits : codec.drain bytes = ⟨[], bytes, false⟩ :=
              Decoder.drain_more (cutMessage_waiting header valid (Nat.not_le.mp whole))
            rw [if_neg whole, waits]
            exact ⟨s, rfl, Serves.idle agrees represents⟩
      · have waits : codec.drain bytes = ⟨[], bytes, false⟩ :=
          Decoder.drain_more (cutMessage_short (Nat.not_le.mp header))
        simp only [onMessage, readable, if_neg header, waits]
        exact ⟨s, rfl, Serves.idle agrees represents⟩

/-- One receive serves what was kept together with what arrived. -/
theorem handleRead_serves (machine : ByteOrder) (agrees : Agrees s r) {conn : Nat}
    {bytes : List Byte} (represents : Represents (s.connection conn).inputBuffer bytes)
    (data : List Byte) :
    ∃ next, s.handleRead machine conn data = .ok next ∧
      Serves (s.record (.data conn data)) r conn (codec.drain (bytes ++ data)) next := by
  obtain ⟨buf, read, after⟩ := readFd_received represents data
  have own : Represents (((s.setBuffer conn buf).record (.data conn data)).connection
      conn).inputBuffer (bytes ++ data) := by
    rw [connection_record, connection_setBuffer_self]
    exact after
  have ready : Agrees ((s.setBuffer conn buf).record (.data conn data)) r :=
    have set := agrees.setBuffer conn buf
    ⟨set.listed, set.present, set.leads, set.sent⟩
  have enough : (bytes ++ data).length < buf.readableBytes + 1 := by
    rw [after.readable]
    omega
  obtain ⟨next, ran, serves⟩ := onMessage_serves machine (buf.readableBytes + 1) ready own enough
  refine ⟨next, ?_, serves.agrees, serves.log, serves.buffered, ?_, ?_⟩
  · simp only [handleRead, read, inBuffer, Except.mapError, bind, Except.bind]
    exact ran
  · rw [serves.state, connection_record, connection_setBuffer_self, connection_record]
    have shut : ∀ c : Connection, ({ c with inputBuffer := buf } : Connection).shutdown.state =
        c.shutdown.state := by
      intro c
      unfold Connection.shutdown
      split_ifs <;> rfl
    rw [shut]
  · intro other apart
    obtain ⟨state, inputBuffer⟩ := serves.others other apart
    rw [connection_record, connection_setBuffer s buf apart] at state inputBuffer
    exact ⟨state, inputBuffer⟩

end ChatServer

end Msmuduo.Chat
