import Msmuduo.Board
import Msmuduo.HubMessages

/-!
# The hub as a board

The log of the hub says in which order it carried the requests out. In every
state the hub reaches, on any bytes from any number of clients, its topics and
the contexts of its connections agree with the board on which this log has been
performed, and a connected client has been sent what it has received there.
-/

namespace Msmuduo.Hub

open Msmuduo.Machine Msmuduo.Framing Msmuduo.Buffer

set_option autoImplicit false

abbrev HubBoard := Board Nat (List Byte) (List Byte)

/-- What a request means on the board. -/
def Command.action (conn : Nat) : Command → Board.Action Nat (List Byte) (List Byte)
  | .pub topic content => .publish topic content
  | .sub topic => .subscribe conn topic
  | .unsub topic => .unsubscribe conn topic

def Entry.action : Entry → Board.Action Nat (List Byte) (List Byte)
  | .up conn => .join conn
  | .down conn => .leave conn
  | .command conn request => request.action conn

/-- The bytes of a publication. -/
def publicationBytes (publication : List Byte × List Byte) : List Byte :=
  text "pub " ++ publication.1 ++ text "\r\n" ++ publication.2 ++ text "\r\n"

namespace Connection

variable (c : Connection) (message : List Byte)

@[simp]
theorem send_state : (c.send message).state = c.state := by
  unfold send
  split_ifs <;> rfl

@[simp]
theorem send_context : (c.send message).context = c.context := by
  unfold send
  split_ifs <;> rfl

@[simp]
theorem send_inputBuffer : (c.send message).inputBuffer = c.inputBuffer := by
  unfold send
  split_ifs <;> rfl

theorem send_sent :
    (c.send message).sent = c.sent ++ if c.state = .kConnected then message else [] := by
  unfold send
  split_ifs <;> simp

/-- The connection is as before but for its context. -/
structure Silent (before after : Connection) : Prop where
  state : after.state = before.state
  inputBuffer : after.inputBuffer = before.inputBuffer
  sent : after.sent = before.sent

/-- The connection has at most been sent to, where this is allowed. -/
structure Kept (before after : Connection) : Prop where
  state : after.state = before.state
  inputBuffer : after.inputBuffer = before.inputBuffer
  sent : before.state ≠ .kConnected → after.sent = before.sent

variable {before middle after : Connection}

theorem Silent.refl : Silent c c := ⟨rfl, rfl, rfl⟩

theorem Silent.trans (first : Silent before middle) (second : Silent middle after) :
    Silent before after where
  state := second.state.trans first.state
  inputBuffer := second.inputBuffer.trans first.inputBuffer
  sent := second.sent.trans first.sent

theorem Silent.kept (silent : Silent before after) : Kept before after where
  state := silent.state
  inputBuffer := silent.inputBuffer
  sent := fun _ => silent.sent

theorem Kept.trans (first : Kept before middle) (second : Kept middle after) :
    Kept before after where
  state := second.state.trans first.state
  inputBuffer := second.inputBuffer.trans first.inputBuffer
  sent := by
    intro blocked
    have still : middle.state ≠ .kConnected := by rwa [first.state]
    exact (second.sent still).trans (first.sent blocked)

theorem send_kept : Kept c (c.send message) where
  state := send_state c message
  inputBuffer := send_inputBuffer c message
  sent := by
    intro blocked
    rw [send_sent, if_neg blocked, List.append_nil]

end Connection

namespace PubSubServer

/-- The board of the requests carried out so far. -/
def board (s : PubSubServer) : HubBoard := Board.empty.after (s.log.map Entry.action)

theorem board_record (s : PubSubServer) (entry : Entry) :
    (s.record entry).board = s.board.step entry.action := by
  unfold board record
  rw [List.map_append, Board.after_append]
  rfl

/-! ## Frames -/

@[simp]
theorem setConnection_log (s : PubSubServer) (conn : Nat) (connection : Connection) :
    (s.setConnection conn connection).log = s.log := rfl

@[simp]
theorem setConnection_getTopic (s : PubSubServer) (conn : Nat) (connection : Connection)
    (topic : List Byte) : (s.setConnection conn connection).getTopic topic = s.getTopic topic := rfl

@[simp]
theorem record_getTopic (s : PubSubServer) (entry : Entry) (topic : List Byte) :
    (s.record entry).getTopic topic = s.getTopic topic := rfl

@[simp]
theorem record_connections (s : PubSubServer) (entry : Entry) :
    (s.record entry).connections = s.connections := rfl

@[simp]
theorem setTopic_connections (s : PubSubServer) (topic : List Byte) (t : Topic) :
    (s.setTopic topic t).connections = s.connections := rfl

@[simp]
theorem setTopic_log (s : PubSubServer) (topic : List Byte) (t : Topic) :
    (s.setTopic topic t).log = s.log := rfl

theorem getTopic_setTopic (s : PubSubServer) (topic : List Byte) (t : Topic) (name : List Byte) :
    (s.setTopic topic t).getTopic name = if name = topic then t else s.getTopic name := by
  unfold getTopic setTopic
  by_cases same : name = topic
  · simp [same]
  · simp [same]

theorem connections_setConnection (s : PubSubServer) (conn : Nat) (connection : Connection)
    (other : Nat) :
    (s.setConnection conn connection).connections other =
      if other = conn then connection else s.connections other := by
  unfold setConnection
  by_cases same : other = conn
  · subst same
    simp
  · simp [same]

/-- Sending to some connections appends to these and touches nothing else. -/
theorem foldl_send (message : List Byte) {conns : List Nat} (distinct : conns.Nodup)
    (s : PubSubServer) :
    (∀ conn, (conns.foldl (fun s conn => s.send message conn) s).connections conn =
      if conn ∈ conns then (s.connections conn).send message else s.connections conn) ∧
    (∀ topic, (conns.foldl (fun s conn => s.send message conn) s).getTopic topic =
      s.getTopic topic) ∧
    (conns.foldl (fun s conn => s.send message conn) s).log = s.log := by
  induction conns generalizing s with
  | nil => simp
  | cons first conns ih =>
      obtain ⟨new, later⟩ := List.nodup_cons.mp distinct
      obtain ⟨connections, topics, log⟩ := ih later (s.send message first)
      refine ⟨?_, ?_, ?_⟩
      · intro conn
        rw [List.foldl_cons, connections conn, send, connections_setConnection]
        by_cases here : conn = first
        · subst here
          simp [new]
        · simp [here]
      · intro topic
        rw [List.foldl_cons, topics topic]
        rfl
      · rw [List.foldl_cons, log]
        rfl

theorem add_getTopic (s : PubSubServer) (topic : List Byte) (conn : Nat) (name : List Byte) :
    (s.add topic conn).getTopic name =
      if name = topic then
        { s.getTopic topic with audiences := (s.getTopic topic).audiences.insert conn }
      else s.getTopic name := by
  unfold add
  dsimp only
  by_cases published : (s.getTopic topic).published = true
  · rw [if_pos published]
    exact getTopic_setTopic s topic _ name
  · rw [if_neg published]
    exact getTopic_setTopic s topic _ name

theorem add_connections (s : PubSubServer) (topic : List Byte) (conn other : Nat) :
    (s.add topic conn).connections other =
      if other = conn ∧ (s.getTopic topic).published then
        (s.connections other).send (s.getTopic topic).makeMessage
      else s.connections other := by
  unfold add
  dsimp only
  by_cases published : (s.getTopic topic).published = true
  · rw [if_pos published, send, connections_setConnection]
    by_cases here : other = conn
    · rw [if_pos here, if_pos ⟨here, published⟩, here]
      rfl
    · rw [if_neg here, if_neg fun both => here both.1]
      rfl
  · rw [if_neg published, if_neg fun both => published both.2]
    rfl

@[simp]
theorem add_log (s : PubSubServer) (topic : List Byte) (conn : Nat) :
    (s.add topic conn).log = s.log := by
  unfold add
  dsimp only
  split_ifs <;> rfl

/-! ## Agreement -/

/-- The hub agrees with a board. What a connection has been sent is a front of
what its client has received there, and all of it while sending is allowed. -/
structure Agrees (s : PubSubServer) (b : HubBoard) : Prop where
  audience : ∀ topic conn, conn ∈ (s.getTopic topic).audiences ↔ b.subscribed conn topic = true
  named : ∀ topic, (s.getTopic topic).topic = topic
  last : ∀ topic, b.last topic =
    if (s.getTopic topic).published then some (s.getTopic topic).content else none
  listed : ∀ conn topics, (s.connections conn).context = some topics →
    topics.Nodup ∧ ∀ topic, topic ∈ topics ↔ b.subscribed conn topic = true
  contextual : ∀ conn, (s.connections conn).state ≠ .kDisconnected →
    (s.connections conn).context.isSome
  leads : ∀ conn, (s.connections conn).sent <+: (b.received conn).flatMap publicationBytes
  sent : ∀ conn, (s.connections conn).state = .kConnected →
    (s.connections conn).sent = (b.received conn).flatMap publicationBytes
  buffered : ∀ conn, ∃ bytes, Represents (s.connections conn).inputBuffer bytes

namespace Agrees

variable {s : PubSubServer} {b : HubBoard}

theorem makeMessage_eq (agrees : Agrees s b) (topic : List Byte) :
    (s.getTopic topic).makeMessage = publicationBytes (topic, (s.getTopic topic).content) := by
  unfold Topic.makeMessage publicationBytes
  rw [agrees.named topic]

theorem retained_eq (agrees : Agrees s b) (topic : List Byte) :
    b.retained topic =
      if (s.getTopic topic).published then [(topic, (s.getTopic topic).content)] else [] := by
  unfold Board.retained
  rw [agrees.last topic]
  by_cases published : (s.getTopic topic).published
  · simp [published]
  · simp [published]

/-- A connection may be read from, shut down and closed: the board is not
concerned. -/
theorem setConnection (agrees : Agrees s b) {conn : Nat} {connection : Connection}
    (context : connection.context = (s.connections conn).context)
    (sent : connection.sent = (s.connections conn).sent)
    (lasting : connection.state ≠ .kDisconnected → (s.connections conn).state ≠ .kDisconnected)
    (connected : connection.state = .kConnected → (s.connections conn).state = .kConnected)
    (buffered : ∃ bytes, Represents connection.inputBuffer bytes) :
    Agrees (s.setConnection conn connection) b where
  audience := agrees.audience
  named := agrees.named
  last := agrees.last
  listed := by
    intro other topics
    rw [connections_setConnection]
    split_ifs with same
    · rw [context, same]
      exact agrees.listed conn topics
    · exact agrees.listed other topics
  contextual := by
    intro other
    rw [connections_setConnection]
    split_ifs with same
    · intro up
      rw [context]
      exact agrees.contextual conn (lasting up)
    · exact agrees.contextual other
  leads := by
    intro other
    rw [connections_setConnection]
    split_ifs with same
    · rw [sent, same]
      exact agrees.leads conn
    · exact agrees.leads other
  sent := by
    intro other
    rw [connections_setConnection]
    split_ifs with same
    · intro up
      rw [sent, same]
      exact agrees.sent conn (connected up)
    · exact agrees.sent other
  buffered := by
    intro other
    rw [connections_setConnection]
    split_ifs with same
    · exact buffered
    · exact agrees.buffered other

theorem withBuffer (agrees : Agrees s b) (conn : Nat) {buf : Buffer} {bytes : List Byte}
    (represents : Represents buf bytes) :
    Agrees (s.setConnection conn { s.connections conn with inputBuffer := buf }) b :=
  agrees.setConnection rfl rfl id id ⟨bytes, represents⟩

theorem shutdown (agrees : Agrees s b) (conn : Nat) : Agrees (s.shutdown conn) b := by
  apply agrees.setConnection
  all_goals unfold Connection.shutdown; split_ifs with connected
  · rfl
  · rfl
  · rfl
  · rfl
  · intro _
    rw [connected]
    decide
  · exact id
  · intro disconnecting
    cases disconnecting
  · exact id
  · exact agrees.buffered conn
  · exact agrees.buffered conn

/-- A new connection has nothing, and its client nothing on the board. -/
theorem connectionUp (agrees : Agrees s b) {conn : Nat}
    (free : ∀ topic, b.subscribed conn topic = false) :
    Agrees (s.connectionUp conn) (b.step (.join conn)) := by
  have same : (b.step (.join conn)).subscribed = b.subscribed := by
    funext other topic
    by_cases here : other = conn
    · subst here
      simp [Board.step, free topic]
    · simp [Board.step, here]
  have received : ∀ other, (b.step (.join conn)).received other =
      if other = conn then [] else b.received other := by
    intro other
    by_cases here : other = conn
    · subst here
      simp [Board.step]
    · simp [Board.step, here]
  constructor
  · intro topic other
    rw [same]
    exact agrees.audience topic other
  · exact agrees.named
  · exact agrees.last
  · intro other topics
    rw [same]
    simp only [PubSubServer.connectionUp, record_connections, connections_setConnection]
    split_ifs with here
    · intro fresh
      cases fresh
      subst here
      exact ⟨List.nodup_nil, fun topic => by simp [free topic]⟩
    · exact agrees.listed other topics
  · intro other
    simp only [PubSubServer.connectionUp, record_connections, connections_setConnection]
    split_ifs with here
    · intro _
      rfl
    · exact agrees.contextual other
  · intro other
    rw [received]
    simp only [PubSubServer.connectionUp, record_connections, connections_setConnection]
    split_ifs with here
    · exact List.nil_prefix
    · exact agrees.leads other
  · intro other
    rw [received]
    simp only [PubSubServer.connectionUp, record_connections, connections_setConnection]
    split_ifs with here
    · intro _
      rfl
    · exact agrees.sent other
  · intro other
    simp only [PubSubServer.connectionUp, record_connections, connections_setConnection]
    split_ifs with here
    · exact ⟨[], new_represents kInitialSize⟩
    · exact agrees.buffered other

/-! ## Requests -/

theorem doPublish (agrees : Agrees s b) (topic content : List Byte) {time : Int}
    (valid : 0 < time) :
    Agrees (s.doPublish topic content time) (b.step (.publish topic content)) := by
  let t : Topic := { s.getTopic topic with content := content, lastPubTime := time }
  have named : (s.getTopic topic).topic = topic := agrees.named topic
  have message : t.makeMessage = publicationBytes (topic, content) := by
    change text "pub " ++ (s.getTopic topic).topic ++ text "\r\n" ++ content ++ text "\r\n" = _
    rw [named]
    rfl
  obtain ⟨connections, topics, -⟩ :=
    foldl_send t.makeMessage t.audiences.nodup (s.setTopic topic t)
  have got : ∀ name, (s.doPublish topic content time).getTopic name =
      if name = topic then t else s.getTopic name := by
    intro name
    rw [← getTopic_setTopic]
    exact topics name
  have kept : ∀ conn, (s.doPublish topic content time).connections conn =
      if b.subscribed conn topic = true then
        (s.connections conn).send (publicationBytes (topic, content))
      else s.connections conn := by
    intro conn
    rw [← message]
    have member : conn ∈ t.audiences.elements ↔ b.subscribed conn topic = true :=
      agrees.audience topic conn
    have sent := connections conn
    simp only [member] at sent
    exact sent
  have received : ∀ conn, (b.step (.publish topic content)).received conn =
      b.received conn ++ if b.subscribed conn topic = true then [(topic, content)] else [] := by
    intro conn
    change (if b.subscribed conn topic = true then _ else _) = _
    split_ifs
    · rfl
    · simp
  constructor
  · intro name conn
    rw [got]
    change _ ↔ b.subscribed conn name = true
    split_ifs with same
    · rw [same]
      exact agrees.audience topic conn
    · exact agrees.audience name conn
  · intro name
    rw [got]
    split_ifs with same
    · rw [same]
      exact named
    · exact agrees.named name
  · intro name
    rw [got]
    change Function.update b.last topic (some content) name = _
    by_cases same : name = topic
    · have published : t.published = true := decide_eq_true valid
      subst same
      rw [if_pos rfl, if_pos published, Function.update_self]
    · rw [if_neg same, Function.update_of_ne same]
      exact agrees.last name
  · intro conn topics
    rw [kept]
    change _ → _ ∧ ∀ name, name ∈ topics ↔ b.subscribed conn name = true
    split_ifs
    · rw [Connection.send_context]
      exact agrees.listed conn topics
    · exact agrees.listed conn topics
  · intro conn
    rw [kept]
    split_ifs
    · rw [Connection.send_state, Connection.send_context]
      exact agrees.contextual conn
    · exact agrees.contextual conn
  · intro conn
    rw [kept, received, List.flatMap_append]
    split_ifs with wanted
    · rw [Connection.send_sent]
      split_ifs with connected
      · rw [agrees.sent conn connected]
        simp
      · rw [List.append_nil]
        exact (agrees.leads conn).trans (List.prefix_append _ _)
    · rw [List.flatMap_nil, List.append_nil]
      exact agrees.leads conn
  · intro conn
    rw [kept, received, List.flatMap_append]
    split_ifs with wanted
    · rw [Connection.send_state, Connection.send_sent]
      intro connected
      rw [if_pos connected, agrees.sent conn connected]
      simp
    · rw [List.flatMap_nil, List.append_nil]
      exact agrees.sent conn
  · intro conn
    rw [kept]
    split_ifs
    · rw [Connection.send_inputBuffer]
      exact agrees.buffered conn
    · exact agrees.buffered conn

/-- A subscription that begins or ends changes one topic and one connection, and
its client may be handed publications. -/
theorem resubscribe (agrees : Agrees s b) {next : PubSubServer} {conn : Nat} {topic : List Byte}
    {wanted : Bool} {audiences : OrderedSet Nat} {connection : Connection}
    {topics : List (List Byte)} {handed : List (List Byte × List Byte)}
    (got : ∀ name, next.getTopic name =
      if name = topic then { s.getTopic topic with audiences := audiences } else s.getTopic name)
    (kept : ∀ other, next.connections other =
      if other = conn then connection else s.connections other)
    (audience : ∀ other, other ∈ audiences ↔
      if other = conn then wanted = true else other ∈ (s.getTopic topic).audiences)
    (context : connection.context = some topics) (distinct : topics.Nodup)
    (listed : ∀ name, name ∈ topics ↔
      if name = topic then wanted = true else b.subscribed conn name = true)
    (state : connection.state = (s.connections conn).state)
    (inputBuffer : connection.inputBuffer = (s.connections conn).inputBuffer)
    (sent : connection.sent = (s.connections conn).sent ++
      if (s.connections conn).state = .kConnected then handed.flatMap publicationBytes else []) :
    Agrees next ((b.subscribe conn topic wanted).hand conn handed) := by
  have subscribed : ∀ other name,
      ((b.subscribe conn topic wanted).hand conn handed).subscribed other name =
        if other = conn ∧ name = topic then wanted else b.subscribed other name :=
    fun other name => Board.subscribe_subscribed b conn other topic wanted name
  have received : ∀ other, ((b.subscribe conn topic wanted).hand conn handed).received other =
      b.received other ++ if other = conn then handed else [] :=
    fun other => Board.hand_received (b.subscribe conn topic wanted) conn other handed
  constructor
  · intro name other
    rw [got, subscribed]
    by_cases named : name = topic
    · rw [if_pos named]
      change other ∈ audiences ↔ _
      rw [audience other, agrees.audience topic other, named]
      by_cases here : other = conn
      · simp [here]
      · simp [here]
    · rw [if_neg named, if_neg fun both => named both.2]
      exact agrees.audience name other
  · intro name
    rw [got]
    by_cases named : name = topic
    · rw [if_pos named, named]
      exact agrees.named topic
    · rw [if_neg named]
      exact agrees.named name
  · intro name
    rw [got]
    change b.last name = _
    by_cases named : name = topic
    · rw [if_pos named, named]
      exact agrees.last topic
    · rw [if_neg named]
      exact agrees.last name
  · intro other others
    rw [kept]
    simp only [subscribed]
    by_cases here : other = conn
    · rw [if_pos here, context]
      intro same
      cases same
      refine ⟨distinct, fun name => ?_⟩
      rw [listed]
      by_cases named : name = topic
      · simp [here, named]
      · simp [here, named]
    · rw [if_neg here]
      simp only [here, false_and, if_false]
      exact agrees.listed other others
  · intro other
    rw [kept]
    by_cases here : other = conn
    · rw [if_pos here, context]
      intro _
      rfl
    · rw [if_neg here]
      exact agrees.contextual other
  · intro other
    rw [kept, received, List.flatMap_append]
    by_cases here : other = conn
    · rw [if_pos here, if_pos here, here, sent]
      by_cases connected : (s.connections conn).state = .kConnected
      · rw [if_pos connected, agrees.sent conn connected]
      · rw [if_neg connected, List.append_nil]
        exact (agrees.leads conn).trans (List.prefix_append _ _)
    · rw [if_neg here, if_neg here, List.flatMap_nil, List.append_nil]
      exact agrees.leads other
  · intro other
    rw [kept, received, List.flatMap_append]
    by_cases here : other = conn
    · rw [if_pos here, if_pos here, here, state, sent]
      intro connected
      rw [if_pos connected, agrees.sent conn connected]
    · rw [if_neg here, if_neg here, List.flatMap_nil, List.append_nil]
      exact agrees.sent other
  · intro other
    rw [kept]
    by_cases here : other = conn
    · rw [if_pos here, inputBuffer]
      exact agrees.buffered conn
    · rw [if_neg here]
      exact agrees.buffered other

theorem doSubscribe (agrees : Agrees s b) {conn : Nat} (topic : List Byte)
    (up : (s.connections conn).state ≠ .kDisconnected) :
    ∃ next, s.doSubscribe conn topic = .ok next ∧ Agrees next (b.step (.subscribe conn topic)) ∧
      next.log = s.log ∧
      ∀ other, (s.connections other).Kept (next.connections other) := by
  obtain ⟨topics, context⟩ := Option.isSome_iff_exists.mp (agrees.contextual conn up)
  obtain ⟨distinct, listed⟩ := agrees.listed conn topics context
  let listing := s.setConnSub conn (topics.insert topic)
  have ran : s.doSubscribe conn topic = .ok (listing.add topic conn) := by
    simp only [PubSubServer.doSubscribe, connSub, context]
    rfl
  let t := s.getTopic topic
  let inserted : Connection := { s.connections conn with context := some (topics.insert topic) }
  let connection := if t.published then inserted.send t.makeMessage else inserted
  have kept : ∀ other, (listing.add topic conn).connections other =
      if other = conn then connection else s.connections other := by
    intro other
    have ready : listing.connections other =
        if other = conn then inserted else s.connections other :=
      connections_setConnection s conn inserted other
    have topicKept : listing.getTopic topic = t := rfl
    rw [add_connections, topicKept, ready]
    by_cases here : other = conn
    · simp [here, connection]
    · simp [here]
  have context : connection.context = some (topics.insert topic) := by
    unfold connection
    split_ifs
    · rw [Connection.send_context]
    · rfl
  have told : (s.connections conn).Kept connection := by
    have asBefore : (s.connections conn).Kept inserted := ⟨rfl, rfl, fun _ => rfl⟩
    unfold connection
    split_ifs
    · exact asBefore.trans (Connection.send_kept _ _)
    · exact asBefore
  have sent : connection.sent = (s.connections conn).sent ++
      if (s.connections conn).state = .kConnected then
        (b.retained topic).flatMap publicationBytes else [] := by
    rw [agrees.retained_eq topic]
    unfold connection
    by_cases published : t.published = true
    · rw [if_pos published, Connection.send_sent, agrees.makeMessage_eq topic, if_pos published]
      simp [inserted]
    · rw [if_neg published, if_neg published]
      simp [inserted]
  refine ⟨_, ran, ?_, ?_, fun other => ?_⟩
  · apply agrees.resubscribe (add_getTopic listing topic conn) kept ?_ context distinct.insert ?_
      told.state told.inputBuffer sent
    · intro other
      rw [OrderedSet.mem_insert]
      by_cases here : other = conn
      · simp [here]
      · simp [here]
        rfl
    · intro name
      rw [List.mem_insert_iff, listed]
      by_cases named : name = topic
      · simp [named]
      · simp [named]
  · rw [add_log]
    rfl
  · rw [kept]
    by_cases here : other = conn
    · rw [if_pos here, here]
      exact told
    · rw [if_neg here]
      exact (Connection.Silent.refl _).kept

theorem doUnsubscribe (agrees : Agrees s b) {conn : Nat} {topics : List (List Byte)}
    (topic : List Byte) (context : (s.connections conn).context = some topics) :
    ∃ next, s.doUnsubscribe conn topic = .ok next ∧
      Agrees next (b.step (.unsubscribe conn topic)) ∧ next.log = s.log ∧
      (next.connections conn).context = some (topics.erase topic) ∧
      ∀ other, (s.connections other).Silent (next.connections other) := by
  obtain ⟨distinct, listed⟩ := agrees.listed conn topics context
  let removed := s.remove topic conn
  have ran : s.doUnsubscribe conn topic =
      .ok (removed.setConnSub conn (topics.erase topic)) := by
    have same : (s.remove topic conn).connSub conn = .ok topics := by
      simp only [connSub, remove, setTopic_connections, context]
    simp only [PubSubServer.doUnsubscribe, same, bind, Except.bind]
    rfl
  have kept : ∀ other, (removed.setConnSub conn (topics.erase topic)).connections other =
      if other = conn then { s.connections conn with context := some (topics.erase topic) }
      else s.connections other :=
    fun other => connections_setConnection removed conn _ other
  have got : ∀ name, (removed.setConnSub conn (topics.erase topic)).getTopic name =
      if name = topic then
        { s.getTopic topic with audiences := (s.getTopic topic).audiences.erase conn }
      else s.getTopic name :=
    fun name => getTopic_setTopic s topic _ name
  refine ⟨_, ran, ?_, rfl, by rw [kept, if_pos rfl], fun other => ?_⟩
  · have step : b.step (.unsubscribe conn topic) = (b.subscribe conn topic false).hand conn [] := by
      rw [Board.hand_nil]
      rfl
    rw [step]
    apply agrees.resubscribe got kept ?_ rfl (distinct.erase topic) ?_ rfl rfl
    · simp
    · intro other
      rw [OrderedSet.mem_erase]
      by_cases here : other = conn
      · simp [here]
      · simp [here]
    · intro name
      rw [distinct.mem_erase_iff, listed]
      by_cases named : name = topic
      · simp [named]
      · simp [named]
  · rw [kept]
    by_cases here : other = conn
    · rw [if_pos here, here]
      exact ⟨rfl, rfl, rfl⟩
    · rw [if_neg here]
      exact Connection.Silent.refl _

theorem record (agrees : Agrees s b) (entry : Entry) : Agrees (s.record entry) b where
  audience := agrees.audience
  named := agrees.named
  last := agrees.last
  listed := agrees.listed
  contextual := agrees.contextual
  leads := agrees.leads
  sent := agrees.sent
  buffered := agrees.buffered

/-- Unsubscribing from everything is leaving. -/
theorem unsubscribeAll (agrees : Agrees s b) {conn : Nat} {topics : List (List Byte)}
    (context : (s.connections conn).context = some topics) :
    ∃ next, PubSubServer.unsubscribeAll conn topics s = .ok next ∧
      Agrees next (b.step (.leave conn)) ∧ next.log = s.log ∧
      ∀ other, (s.connections other).Silent (next.connections other) := by
  induction topics generalizing s b with
  | nil =>
      have free : ∀ topic, b.subscribed conn topic = false := by
        intro topic
        have listed := (agrees.listed conn [] context).2 topic
        simpa using listed
      refine ⟨s, rfl, ?_, rfl, fun other => Connection.Silent.refl _⟩
      rw [Board.leave_free free]
      exact agrees
  | cons topic topics ih =>
      obtain ⟨next, ran, after, log, shorter, same⟩ := agrees.doUnsubscribe topic context
      rw [List.erase_cons_head] at shorter
      obtain ⟨final, ranRest, left, logRest, sameRest⟩ := ih after shorter
      refine ⟨final, ?_, ?_, logRest.trans log, fun other => ?_⟩
      · simp only [PubSubServer.unsubscribeAll, ran, bind, Except.bind]
        exact ranRest
      · rw [Board.leave_unsubscribed] at left
        exact left
      · exact (same other).trans (sameRest other)

theorem connectionDown (agrees : Agrees s b) {conn : Nat}
    (up : (s.connections conn).state ≠ .kDisconnected) :
    ∃ next, s.connectionDown conn = .ok next ∧ Agrees next (b.step (.leave conn)) ∧
      next.log = s.log ++ [.down conn] ∧
      ∀ other, (if other = conn then { s.connections conn with state := .kDisconnected }
        else s.connections other).Silent (next.connections other) := by
  obtain ⟨topics, context⟩ := Option.isSome_iff_exists.mp (agrees.contextual conn up)
  let gone : Connection := { s.connections conn with state := .kDisconnected }
  have closed : Agrees (s.setConnection conn gone) b := by
    apply agrees.setConnection
    · rfl
    · rfl
    · intro impossible
      exact absurd rfl impossible
    · intro impossible
      cases impossible
    · exact agrees.buffered conn
  have closedContext : ((s.setConnection conn gone).connections conn).context = some topics := by
    rw [connections_setConnection, if_pos rfl]
    exact context
  obtain ⟨next, ran, left, log, same⟩ := closed.unsubscribeAll closedContext
  refine ⟨next.record (.down conn), ?_, left.record _, ?_, fun other => ?_⟩
  · have found : (s.setConnection conn gone).connSub conn = .ok topics := by
      simp only [connSub, closedContext]
    unfold PubSubServer.connectionDown
    change (s.setConnection conn gone).connSub conn >>= _ = _
    rw [found]
    change PubSubServer.unsubscribeAll conn topics (s.setConnection conn gone) >>= _ = _
    rw [ran]
    rfl
  · change next.log ++ _ = _
    rw [log]
    rfl
  · rw [record_connections, ← connections_setConnection s conn gone other]
    exact same other

theorem execute (agrees : Agrees s b) {conn : Nat} (command : Command) {time : Int}
    (up : (s.connections conn).state ≠ .kDisconnected) (valid : 0 < time) :
    ∃ next, s.execute conn command time = .ok next ∧
      Agrees next (b.step (command.action conn)) ∧ next.log = s.log ++ [.command conn command] ∧
      ∀ other, (s.connections other).Kept (next.connections other) := by
  cases command with
  | pub topic content =>
      let t : Topic := { s.getTopic topic with content := content, lastPubTime := time }
      obtain ⟨connections, -, log⟩ :=
        foldl_send t.makeMessage t.audiences.nodup (s.setTopic topic t)
      refine ⟨_, rfl, (agrees.doPublish topic content valid).record _, ?_, fun other => ?_⟩
      · change (s.doPublish topic content time).log ++ _ = _
        exact congrArg (· ++ _) log
      · have kept := connections other
        change (s.connections other).Kept ((s.doPublish topic content time).connections other)
        change (s.doPublish topic content time).connections other = _ at kept
        rw [kept]
        split_ifs
        · exact Connection.send_kept _ _
        · exact (Connection.Silent.refl _).kept
  | sub topic =>
      obtain ⟨next, ran, after, log, same⟩ := agrees.doSubscribe topic up
      refine ⟨next.record (.command conn (.sub topic)), ?_, after.record _, ?_, same⟩
      · simp only [PubSubServer.execute, ran, bind, Except.bind]
        rfl
      · change next.log ++ _ = _
        rw [log]
  | unsub topic =>
      obtain ⟨topics, context⟩ := Option.isSome_iff_exists.mp (agrees.contextual conn up)
      obtain ⟨next, ran, after, log, -, same⟩ := agrees.doUnsubscribe topic context
      refine ⟨next.record (.command conn (.unsub topic)), ?_, after.record _, ?_,
        fun other => (same other).kept⟩
      · simp only [PubSubServer.execute, ran, bind, Except.bind]
        rfl
      · change next.log ++ _ = _
        rw [log]

end Agrees

end PubSubServer

end Msmuduo.Hub
