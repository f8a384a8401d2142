import Msmuduo.HubClient
import Msmuduo.HubServer

/-!
# The hub and its clients

The whole example: clients that subscribe, unsubscribe and publish at any time,
the hub, and between each client and the hub a stream in both directions that
delivers its bytes in order and in any division, with any interleaving of all
these. As long as no topic and no content holds the end of a line, the hub
carries out what the clients ask, each client's requests in its own order, and
every subscriber is called with what it receives on the board of these requests:
nothing is lost, repeated or out of order while its connection lasts.
-/

namespace Msmuduo.Hub

open Msmuduo.Machine Msmuduo.Framing Msmuduo.Buffer

set_option autoImplicit false

/-! ## Requests and publications as messages -/

/-- Without the end of a line. -/
def Unbroken (bytes : List Byte) : Prop := ¬kCRLF <:+: bytes

instance (bytes : List Byte) : Decidable (Unbroken bytes) := inferInstanceAs (Decidable (¬_))

theorem unbroken_append {front : List Byte} (clean : (13 : Byte) ∉ front) {back : List Byte}
    (unbroken : Unbroken back) : Unbroken (front ++ back) := by
  induction front with
  | nil => exact unbroken
  | cons first front ih =>
      obtain ⟨distinct, rest⟩ := not_or.mp fun either => clean (List.mem_cons.mpr either)
      intro broken
      rcases List.infix_cons_iff.mp broken with here | later
      · exact distinct (List.cons_prefix_cons.mp here).1
      · exact ih rest later

/-- A message with one word as its command and nothing broken is clean. -/
theorem message_clean {cmd topic content : List Byte} (word : (32 : Byte) ∉ cmd)
    (unbroken : (13 : Byte) ∉ cmd ++ text " ") (topicClean : Unbroken topic)
    (contentClean : if cmd = text "pub" then Unbroken content else content = []) :
    (⟨cmd, topic, content⟩ : Message).Clean where
  word := word
  line := unbroken_append unbroken topicClean
  content := contentClean

namespace Command

def message : Command → Message
  | .pub topic content => ⟨text "pub", topic, content⟩
  | .sub topic => ⟨text "sub", topic, []⟩
  | .unsub topic => ⟨text "unsub", topic, []⟩

def encode (command : Command) : List Byte := command.message.encode

def Clean : Command → Prop
  | .pub topic content => Unbroken topic ∧ Unbroken content
  | .sub topic => Unbroken topic
  | .unsub topic => Unbroken topic

instance : (command : Command) → Decidable command.Clean
  | .pub _ _ => inferInstanceAs (Decidable (_ ∧ _))
  | .sub _ => inferInstanceAs (Decidable (Unbroken _))
  | .unsub _ => inferInstanceAs (Decidable (Unbroken _))

theorem clean_message {command : Command} (clean : command.Clean) : command.message.Clean := by
  cases command with
  | pub topic content => exact message_clean (by decide) (by decide) clean.1 clean.2
  | sub topic => exact message_clean (by decide) (by decide) clean rfl
  | unsub topic => exact message_clean (by decide) (by decide) clean rfl

theorem message_command (command : Command) : command.message.command = some command := by
  cases command <;> rfl

end Command

theorem requestsOf_messages (commands : List Command) :
    requestsOf (commands.map Command.message) = commands := by
  induction commands with
  | nil => rfl
  | cons command commands ih =>
      simp only [List.map_cons, requestsOf, Command.message_command, ih]

/-- The message of a publication. -/
def publication (p : List Byte × List Byte) : Message := ⟨text "pub", p.1, p.2⟩

theorem publicationBytes_eq (p : List Byte × List Byte) :
    publicationBytes p = (publication p).encode := by
  simp [publicationBytes, publication, Message.encode, text, kCRLF]

def CleanPublication (p : List Byte × List Byte) : Prop := Unbroken p.1 ∧ Unbroken p.2

theorem publication_clean {p : List Byte × List Byte} (clean : CleanPublication p) :
    (publication p).Clean :=
  message_clean (by decide) (by decide) clean.1 clean.2

theorem callsOf_publications (publications : List (List Byte × List Byte)) :
    PubSubClient.callsOf true (publications.map publication) = publications := by
  induction publications with
  | nil => rfl
  | cons first publications ih =>
      change first :: PubSubClient.callsOf true (publications.map publication) = _
      rw [ih]

/-- What the streams have in common: part of an encoded stream drains to the
first of its values, and what is kept is the front of the others. -/
theorem drain_values {Value : Type} {message : Value → Message} {values : List Value}
    (clean : ∀ value ∈ values, (message value).Clean) {part missing : List Byte}
    (split : part ++ missing = values.flatMap fun value => (message value).encode) :
    ∃ arrived pending rest, values = arrived ++ pending ∧
      codec.drain part = ⟨arrived.map message, rest, false⟩ ∧
      rest ++ missing = pending.flatMap fun value => (message value).encode := by
  have reads : ∀ item ∈ values.map message, codec.Reads Message.encode item := by
    intro item member
    obtain ⟨value, inside, rfl⟩ := List.mem_map.mp member
    exact Message.cut_encode (clean value inside)
  have mapped : part ++ missing = (values.map message).flatMap Message.encode := by
    rw [split, List.flatMap_map]
  obtain ⟨arrived, pending, rest, divided, drained, kept⟩ := Decoder.drain_part reads mapped
  obtain ⟨first, second, same, rfl, rfl⟩ := List.map_eq_append_iff.mp divided
  refine ⟨first, second, rest, same, drained, ?_⟩
  rw [kept, List.flatMap_map]

/-! ## The system -/

namespace PubSubClient

/-- A call of the interface of the client. -/
def request (c : PubSubClient) : Command → PubSubClient
  | .pub topic content => (c.publish topic content).2
  | .sub topic => (c.subscribe topic).2
  | .unsub topic => c.unsubscribe topic

theorem send_eq (c : PubSubClient) (message : List Byte) :
    (c.send message).2 = { c with sent := c.sent ++ if c.connected then message else [] } := by
  unfold send
  by_cases connected : c.connected = true
  · simp [connected]
  · simp [connected]

theorem request_eq (c : PubSubClient) (command : Command) :
    c.request command =
      { c with
        subscribeCallback := c.subscribeCallback || match command with
          | .sub _ => true
          | _ => false
        sent := c.sent ++ if c.connected then command.encode else [] } := by
  cases command with
  | pub topic content =>
      simp [request, publish, send_eq, Command.encode, Command.message, Message.encode, text, kCRLF]
  | sub topic =>
      simp [request, subscribe, send_eq, connected, Command.encode, Command.message,
        Message.encode, text, kCRLF]
  | unsub topic =>
      simp [request, unsubscribe, send_eq, Command.encode, Command.message, Message.encode, text,
        kCRLF]

end PubSubClient

/-- The hub with its clients. A connection and its client have the same number;
`requested` is what the client has asked for on its present connection, and
`arrived` and `taken` count the bytes of the two streams that have been received
at the other end. -/
structure System where
  hub : PubSubServer
  clients : Nat → PubSubClient
  requested : Nat → List Command
  arrived : Nat → Nat
  taken : Nat → Nat

namespace System

def new : System where
  hub := PubSubServer.new
  clients := fun _ => PubSubClient.new
  requested := fun _ => []
  arrived := fun _ => 0
  taken := fun _ => 0

/-- What can happen next, in any order. A stream delivers some of its bytes, and
each end notices for itself that the connection is lost. -/
inductive Event where
  | connect (conn : Nat)
  | request (conn : Nat) (command : Command)
  | toHub (conn : Nat) (size : Nat) (receiveTime : Int)
  | toClient (conn : Nat) (size : Nat)
  | stop (conn : Nat)
  | hubDown (conn : Nat)
  | clientDown (conn : Nat)
  deriving DecidableEq, Repr

/-- The bytes on their way to the hub. -/
def towardsHub (s : System) (conn : Nat) : List Byte :=
  (s.clients conn).sent.drop (s.arrived conn)

/-- The bytes on their way to the client. -/
def towardsClient (s : System) (conn : Nat) : List Byte :=
  (s.hub.connections conn).sent.drop (s.taken conn)

def setClient (s : System) (conn : Nat) (client : PubSubClient) : System :=
  { s with clients := Function.update s.clients conn client }

/-- What cannot happen in the state of the connection changes nothing. -/
def step (s : System) : Event → Except Fault System
  | .connect conn =>
      if (s.hub.connections conn).state = .kDisconnected ∧
          (s.clients conn).state = .kDisconnected then
        .ok
          { hub := s.hub.connectionUp conn
            clients := Function.update s.clients conn (s.clients conn).connectionUp
            requested := Function.update s.requested conn []
            arrived := Function.update s.arrived conn 0
            taken := Function.update s.taken conn 0 }
      else .ok s
  | .request conn command =>
      let asked := s.setClient conn ((s.clients conn).request command)
      if (s.clients conn).connected then
        .ok { asked with
          requested := Function.update s.requested conn (s.requested conn ++ [command]) }
      else .ok asked
  | .toHub conn size receiveTime =>
      let data := (s.towardsHub conn).take size
      if (s.hub.connections conn).state = .kDisconnected ∨ data = [] then .ok s
      else do
        let hub ← s.hub.handleRead conn data receiveTime
        return { s with
          hub := hub
          arrived := Function.update s.arrived conn (s.arrived conn + data.length) }
  | .toClient conn size =>
      let data := (s.towardsClient conn).take size
      if (s.clients conn).state = .kDisconnected ∨ data = [] then .ok s
      else do
        let client ← (s.clients conn).handleRead data
        return { s.setClient conn client with
          taken := Function.update s.taken conn (s.taken conn + data.length) }
  | .stop conn => .ok (s.setClient conn (s.clients conn).shutdown)
  | .hubDown conn =>
      if (s.hub.connections conn).state = .kDisconnected then .ok s
      else do
        let hub ← s.hub.connectionDown conn
        return { s with hub := hub }
  | .clientDown conn => .ok (s.setClient conn (s.clients conn).connectionDown)

end System

/-! ## One connection -/

/-- The requests of one client that the hub has carried out since the client
connected. -/
def executedBy (conn : Nat) (log : List Entry) : List Command :=
  log.foldl
    (fun executed entry =>
      match entry with
      | .up other => if other = conn then [] else executed
      | .down _ => executed
      | .command other command => if other = conn then executed ++ [command] else executed)
    []

theorem executedBy_up (conn other : Nat) (log : List Entry) :
    executedBy conn (log ++ [.up other]) = if other = conn then [] else executedBy conn log := by
  simp [executedBy]

theorem executedBy_down (conn other : Nat) (log : List Entry) :
    executedBy conn (log ++ [.down other]) = executedBy conn log := by
  simp [executedBy]

theorem executedBy_commands (conn other : Nat) (log : List Entry) (commands : List Command) :
    executedBy conn (log ++ commands.map (Entry.command other)) =
      executedBy conn log ++ if other = conn then commands else [] := by
  induction commands using List.reverseRecOn with
  | nil => simp
  | append_singleton commands command ih =>
      rw [List.map_append, ← List.append_assoc]
      unfold executedBy at ih ⊢
      rw [List.foldl_append, ih]
      by_cases same : other = conn
      · simp [same]
      · simp [same]

/-- All that concerns one connection: its two ends, what is on the way between
them, and what the board and the log say about its client. -/
structure Link where
  connection : Connection
  client : PubSubClient
  requested : List Command
  arrived : Nat
  taken : Nat
  executed : List Command
  received : List (List Byte × List Byte)
  subscribed : List Byte → Bool

def System.link (s : System) (conn : Nat) : Link where
  connection := s.hub.connections conn
  client := s.clients conn
  requested := s.requested conn
  arrived := s.arrived conn
  taken := s.taken conn
  executed := executedBy conn s.hub.log
  received := s.hub.board.received conn
  subscribed := s.hub.board.subscribed conn

/-- A buffer holds nothing that could be cut off, and it and the bytes on their
way are the values that are still to come. -/
structure Carries {Value : Type} (encode : Value → List Byte) (buf : Buffer) (way : List Byte)
    (pending : List Value) : Prop where
  held : ∃ bytes, Represents buf bytes ∧ codec.drain bytes = ⟨[], bytes, false⟩ ∧
    bytes ++ way = pending.flatMap encode

structure Link.Sound (l : Link) : Prop where
  arrivedBound : l.arrived ≤ l.client.sent.length
  takenBound : l.taken ≤ l.connection.sent.length
  calm : l.connection.state = .kConnected ∨ l.connection.state = .kDisconnected
  leads : l.executed <+: l.requested
  requests : l.connection.state = .kConnected → ∃ pending,
    l.requested = l.executed ++ pending ∧
      Carries Command.encode l.connection.inputBuffer (l.client.sent.drop l.arrived) pending
  publications : ∃ pending, l.received = l.client.calls ++ pending ∧
    Carries publicationBytes l.client.inputBuffer (l.connection.sent.drop l.taken) pending
  clean : ∀ command ∈ l.requested, command.Clean
  callback : l.client.subscribeCallback = false →
    l.received = [] ∧ (∀ topic, l.subscribed topic = false) ∧
      ∀ topic, Command.sub topic ∉ l.requested

namespace Carries

variable {Value : Type} {message : Value → Message} {encode : Value → List Byte} {buf : Buffer}
  {way : List Byte} {pending : List Value}

theorem fresh {buf : Buffer} (represents : Represents buf []) : Carries encode buf [] [] where
  held := ⟨[], represents, Decoder.drain_nil, rfl⟩

theorem grow (carries : Carries encode buf way pending) (values : List Value) :
    Carries encode buf (way ++ values.flatMap encode) (pending ++ values) where
  held := by
    obtain ⟨bytes, represents, drained, same⟩ := carries.held
    refine ⟨bytes, represents, drained, ?_⟩
    rw [← List.append_assoc, same, List.flatMap_append]

/-- A delivery drains to the first values that are to come. -/
theorem deliver (carries : Carries encode buf way pending)
    (written : ∀ value, encode value = (message value).encode)
    (clean : ∀ value ∈ pending, (message value).Clean) (size : Nat) :
    ∃ bytes now later rest, Represents buf bytes ∧ pending = now ++ later ∧
      codec.drain (bytes ++ way.take size) = ⟨now.map message, rest, false⟩ ∧
      ∀ next, Represents next rest → Carries encode next (way.drop size) later := by
  obtain ⟨bytes, represents, -, same⟩ := carries.held
  have encodes : encode = fun value => (message value).encode := funext written
  have split : bytes ++ way.take size ++ way.drop size =
      pending.flatMap fun value => (message value).encode := by
    rw [List.append_assoc, List.take_append_drop, same, encodes]
  obtain ⟨now, later, rest, divided, drained, kept⟩ := drain_values clean split
  refine ⟨bytes, now, later, rest, represents, divided, drained, fun next after => ?_⟩
  refine ⟨rest, after, ?_, ?_⟩
  · have again := Decoder.drain_rest codec (bytes ++ way.take size)
    rw [drained] at again
    exact again
  · rw [kept, encodes]

/-- With nothing on its way nothing is to come. -/
theorem nothing (carries : Carries encode buf [] pending)
    (written : ∀ value, encode value = (message value).encode)
    (clean : ∀ value ∈ pending, (message value).Clean) : pending = [] := by
  obtain ⟨bytes, -, drained, same⟩ := carries.held
  have encodes : encode = fun value => (message value).encode := funext written
  rw [List.append_nil] at same
  have reads : ∀ item ∈ pending.map message, codec.Reads Message.encode item := by
    intro item member
    obtain ⟨value, inside, rfl⟩ := List.mem_map.mp member
    exact Message.cut_encode (clean value inside)
  have whole := Decoder.drain_encoded reads []
  rw [List.flatMap_map, List.append_nil, ← encodes, ← same, drained] at whole
  have items := congrArg Drained.items whole
  simpa using items.symm

end Carries

/-- What is behind a delivery of at most `size` cells. -/
theorem drop_taken {Cell : Type} (cells : List Cell) (start size : Nat) :
    cells.drop (start + ((cells.drop start).take size).length) = (cells.drop start).drop size := by
  rw [List.drop_drop, List.length_take]
  by_cases whole : size ≤ (cells.drop start).length
  · rw [Nat.min_eq_left whole]
  · rw [Nat.min_eq_right (by omega)]
    rw [List.length_drop] at whole ⊢
    rw [List.drop_eq_nil_of_le (by omega), List.drop_eq_nil_of_le (by omega)]

namespace Link.Sound

variable {l next : Link}

/-- What the hub does for others: it may send publications to this client. -/
theorem aside (sound : l.Sound) (client : next.client = l.client)
    (requested : next.requested = l.requested) (arrived : next.arrived = l.arrived)
    (taken : next.taken = l.taken) (executed : next.executed = l.executed)
    (kept : l.connection.Kept next.connection) {publications : List (List Byte × List Byte)}
    (received : next.received = l.received ++ publications)
    (sent : next.connection.sent = l.connection.sent ++ publications.flatMap publicationBytes)
    (free : (∀ topic, l.subscribed topic = false) →
      (∀ topic, next.subscribed topic = false) ∧ next.received = l.received) : next.Sound where
  arrivedBound := by
    rw [arrived, client]
    exact sound.arrivedBound
  takenBound := by
    rw [taken, sent, List.length_append]
    exact Nat.le_add_right_of_le sound.takenBound
  calm := by
    rw [kept.state]
    exact sound.calm
  leads := by
    rw [executed, requested]
    exact sound.leads
  requests := by
    rw [kept.state, kept.inputBuffer, requested, executed, client, arrived]
    exact sound.requests
  publications := by
    obtain ⟨pending, split, carries⟩ := sound.publications
    refine ⟨pending ++ publications, ?_, ?_⟩
    · rw [received, split, client, List.append_assoc]
    · rw [client, taken, sent, List.drop_append_of_le_length sound.takenBound]
      exact carries.grow publications
  clean := by
    rw [requested]
    exact sound.clean
  callback := by
    rw [client, requested]
    intro unset
    obtain ⟨nothing, unsubscribed, unasked⟩ := sound.callback unset
    obtain ⟨still, same⟩ := free unsubscribed
    exact ⟨same.trans nothing, still, unasked⟩

/-- The client asks for something while it is connected. -/
theorem asked (sound : l.Sound) (command : Command) (clean : command.Clean)
    (connected : l.client.connected = true) :
    Sound { l with
      client := l.client.request command
      requested := l.requested ++ [command] } := by
  have written : (l.client.request command).sent = l.client.sent ++ command.encode := by
    rw [PubSubClient.request_eq, if_pos connected]
  have same : (l.client.request command).calls = l.client.calls ∧
      (l.client.request command).inputBuffer = l.client.inputBuffer := by
    rw [PubSubClient.request_eq]
    exact ⟨rfl, rfl⟩
  constructor
  · change l.arrived ≤ (l.client.request command).sent.length
    rw [written, List.length_append]
    exact Nat.le_add_right_of_le sound.arrivedBound
  · exact sound.takenBound
  · exact sound.calm
  · exact sound.leads.trans (List.prefix_append _ _)
  · intro up
    obtain ⟨pending, split, carries⟩ := sound.requests up
    refine ⟨pending ++ [command], ?_, ?_⟩
    · change l.requested ++ [command] = _
      rw [split, List.append_assoc]
    · change Carries Command.encode _ ((l.client.request command).sent.drop l.arrived) _
      rw [written, List.drop_append_of_le_length sound.arrivedBound]
      have grown := carries.grow [command]
      rwa [List.flatMap_singleton] at grown
  · obtain ⟨pending, split, carries⟩ := sound.publications
    refine ⟨pending, ?_, ?_⟩
    · change l.received = (l.client.request command).calls ++ pending
      rw [same.1, split]
    · change Carries publicationBytes (l.client.request command).inputBuffer _ _
      rw [same.2]
      exact carries
  · intro other member
    rcases List.mem_append.mp member with old | new
    · exact sound.clean other old
    · rw [List.mem_singleton.mp new]
      exact clean
  · intro unset
    change (l.client.request command).subscribeCallback = false at unset
    rw [PubSubClient.request_eq] at unset
    obtain ⟨before, other⟩ := Bool.or_eq_false_iff.mp unset
    obtain ⟨nothing, unsubscribed, unasked⟩ := sound.callback before
    refine ⟨nothing, unsubscribed, fun topic member => ?_⟩
    rcases List.mem_append.mp member with old | new
    · exact unasked topic old
    · rw [← List.mem_singleton.mp new] at other
      cases other

/-- A client that is not connected asks for nothing. -/
theorem unasked (sound : l.Sound) (command : Command) (away : l.client.connected = false) :
    Sound { l with client := l.client.request command } := by
  have same : l.client.request command = { l.client with
      subscribeCallback := (l.client.request command).subscribeCallback } := by
    rw [PubSubClient.request_eq]
    simp [away]
  rw [same]
  constructor
  · exact sound.arrivedBound
  · exact sound.takenBound
  · exact sound.calm
  · exact sound.leads
  · exact sound.requests
  · exact sound.publications
  · exact sound.clean
  · intro unset
    change (l.client.request command).subscribeCallback = false at unset
    rw [PubSubClient.request_eq] at unset
    exact sound.callback (Bool.or_eq_false_iff.mp unset).1

/-- The client closes its end, or notices that it is closed. -/
theorem restated (sound : l.Sound) (state : TcpConnection.StateE) :
    Sound { l with client := { l.client with state := state } } where
  arrivedBound := sound.arrivedBound
  takenBound := sound.takenBound
  calm := sound.calm
  leads := sound.leads
  requests := sound.requests
  publications := sound.publications
  clean := sound.clean
  callback := sound.callback

/-- The hub has carried out some of the requests that were on their way. -/
theorem served (sound : l.Sound) {size : Nat} {now later : List Command} {buf : Buffer}
    (client : next.client = l.client) (requested : next.requested = l.requested)
    (arrived : next.arrived = l.arrived + ((l.client.sent.drop l.arrived).take size).length)
    (taken : next.taken = l.taken) (executed : next.executed = l.executed ++ now)
    (split : l.requested = l.executed ++ (now ++ later))
    (carries : Carries Command.encode buf ((l.client.sent.drop l.arrived).drop size) later)
    (state : next.connection.state = l.connection.state)
    (inputBuffer : next.connection.inputBuffer = buf)
    {publications : List (List Byte × List Byte)}
    (received : next.received = l.received ++ publications)
    (sent : next.connection.sent = l.connection.sent ++ publications.flatMap publicationBytes)
    (free : (∀ topic, Command.sub topic ∉ now) → (∀ topic, l.subscribed topic = false) →
      (∀ topic, next.subscribed topic = false) ∧ next.received = l.received) : next.Sound where
  arrivedBound := by
    have bound := sound.arrivedBound
    rw [arrived, client, List.length_take, List.length_drop]
    omega
  takenBound := by
    rw [taken, sent, List.length_append]
    exact Nat.le_add_right_of_le sound.takenBound
  calm := by
    rw [state]
    exact sound.calm
  leads := by
    rw [executed, requested, split, ← List.append_assoc]
    exact List.prefix_append _ _
  requests := by
    intro _
    refine ⟨later, ?_, ?_⟩
    · rw [requested, executed, split, List.append_assoc]
    · rw [inputBuffer, client, arrived, drop_taken]
      exact carries
  publications := by
    obtain ⟨pending, divided, underway⟩ := sound.publications
    refine ⟨pending ++ publications, ?_, ?_⟩
    · rw [received, divided, client, List.append_assoc]
    · rw [client, taken, sent, List.drop_append_of_le_length sound.takenBound]
      exact underway.grow publications
  clean := by
    rw [requested]
    exact sound.clean
  callback := by
    rw [client, requested]
    intro unset
    obtain ⟨nothing, unsubscribed, unasked⟩ := sound.callback unset
    have none : ∀ topic, Command.sub topic ∉ now := by
      intro topic member
      apply unasked topic
      rw [split]
      simp [member]
    obtain ⟨still, same⟩ := free none unsubscribed
    exact ⟨same.trans nothing, still, unasked⟩

/-- The client has been called with some of the publications that were on their
way. -/
theorem told (sound : l.Sound) (size : Nat)
    (clean : ∀ publication ∈ l.received, CleanPublication publication) :
    ∃ client, l.client.handleRead ((l.connection.sent.drop l.taken).take size) = .ok client ∧
      Sound { l with
        client := client
        taken := l.taken + ((l.connection.sent.drop l.taken).take size).length } := by
  obtain ⟨pending, split, carries⟩ := sound.publications
  have pendingClean : ∀ value ∈ pending, (publication value).Clean := by
    intro value member
    apply publication_clean
    apply clean
    rw [split]
    simp [member]
  obtain ⟨bytes, now, later, rest, represents, divided, drained, after⟩ :=
    carries.deliver publicationBytes_eq pendingClean size
  obtain ⟨buf, ran, last⟩ := PubSubClient.handleRead_drains represents
    ((l.connection.sent.drop l.taken).take size)
  rw [drained] at last
  have calls : PubSubClient.callsOf l.client.subscribeCallback (now.map publication) = now := by
    cases set : l.client.subscribeCallback with
    | true => exact callsOf_publications now
    | false =>
        have nothing := (sound.callback set).1
        rw [split, divided] at nothing
        have none : now = [] := by
          have parts := List.append_eq_nil_iff.mp nothing
          exact (List.append_eq_nil_iff.mp parts.2).1
        rw [none]
        rfl
  have client : l.client.drained buf (codec.drain
      (bytes ++ (l.connection.sent.drop l.taken).take size)) =
      { l.client with inputBuffer := buf, calls := l.client.calls ++ now } := by
    rw [drained]
    unfold PubSubClient.drained
    simp only [calls]
    rfl
  rw [client] at ran
  refine ⟨_, ran, ?_⟩
  constructor
  · exact sound.arrivedBound
  · have bound := sound.takenBound
    change l.taken + _ ≤ l.connection.sent.length
    rw [List.length_take, List.length_drop]
    omega
  · exact sound.calm
  · exact sound.leads
  · exact sound.requests
  · refine ⟨later, ?_, ?_⟩
    · change l.received = l.client.calls ++ now ++ later
      rw [split, divided, List.append_assoc]
    · change Carries publicationBytes buf (l.connection.sent.drop _) later
      rw [drop_taken]
      exact after buf last
  · exact sound.clean
  · exact sound.callback

/-- The hub has closed its end. -/
theorem closed (sound : l.Sound) (client : next.client = l.client)
    (requested : next.requested = l.requested) (arrived : next.arrived = l.arrived)
    (taken : next.taken = l.taken) (executed : next.executed = l.executed)
    (state : next.connection.state = .kDisconnected)
    (sent : next.connection.sent = l.connection.sent) (received : next.received = l.received)
    (free : ∀ topic, next.subscribed topic = false) : next.Sound where
  arrivedBound := by
    rw [arrived, client]
    exact sound.arrivedBound
  takenBound := by
    rw [taken, sent]
    exact sound.takenBound
  calm := Or.inr state
  leads := by
    rw [executed, requested]
    exact sound.leads
  requests := by
    rw [state]
    intro impossible
    cases impossible
  publications := by
    rw [received, client, taken, sent]
    exact sound.publications
  clean := by
    rw [requested]
    exact sound.clean
  callback := by
    rw [client, requested, received]
    intro unset
    obtain ⟨nothing, -, unasked⟩ := sound.callback unset
    exact ⟨nothing, free, unasked⟩

/-- A connection begins with nothing on its way. -/
theorem opened (client : PubSubClient) (c : Connection) (sent : c.sent = [])
    (state : c.state = .kConnected) (inputBuffer : Represents c.inputBuffer []) :
    Sound
      { connection := c
        client := client.connectionUp
        requested := []
        arrived := 0
        taken := 0
        executed := []
        received := []
        subscribed := fun _ => false } where
  arrivedBound := Nat.le_refl _
  takenBound := Nat.zero_le _
  calm := Or.inl state
  leads := List.prefix_refl _
  requests := fun _ => ⟨[], rfl, Carries.fresh inputBuffer⟩
  publications := by
    refine ⟨[], rfl, ?_⟩
    rw [sent]
    exact Carries.fresh (new_represents kInitialSize)
  clean := by
    intro command member
    cases member
  callback := fun _ => ⟨rfl, fun _ => rfl, fun _ => List.not_mem_nil⟩

end Link.Sound

/-! ## Runs -/

theorem Command.action_ne_join {conn other : Nat} (command : Command) :
    command.action conn ≠ .join other := by
  cases command <;> exact fun impossible => by cases impossible

/-- The bytes a connection is sent are those of what its client receives on
the board. -/
theorem PubSubServer.serves_sends {s next : PubSubServer} {conn other : Nat}
    {result : Drained Message Byte} (reached : s.Reached) (after : next.Reached)
    (serves : PubSubServer.Serves s s.board conn result next)
    (connected : (s.connections other).state = .kConnected)
    (still : (next.connections other).state = .kConnected) :
    ∃ publications, next.board.received other = s.board.received other ++ publications ∧
      (next.connections other).sent =
        (s.connections other).sent ++ publications.flatMap publicationBytes := by
  have grows : s.board.received other <+: next.board.received other := by
    rw [serves.board]
    apply Board.received_grows
    intro action member
    obtain ⟨command, -, rfl⟩ := List.mem_map.mp member
    exact command.action_ne_join
  obtain ⟨publications, grown⟩ := grows
  refine ⟨publications, grown.symm, ?_⟩
  rw [after.agrees.sent other still, reached.agrees.sent other connected, ← grown,
    List.flatMap_append]

theorem PubSubServer.connectionUp_connections (s : PubSubServer) (conn other : Nat) :
    (s.connectionUp conn).connections other =
      if other = conn then { Connection.absent with state := .kConnected, context := some [] }
      else s.connections other :=
  connections_setConnection s conn _ other

theorem Command.abstains_unless_sub {conn : Nat} {command : Command}
    (other : ∀ topic, command ≠ .sub topic) : Board.Abstains conn (command.action conn) := by
  cases command with
  | sub topic => exact absurd rfl (other topic)
  | pub topic content =>
      constructor
      · intro impossible
        cases impossible
      · intro name impossible
        cases impossible
  | unsub topic =>
      constructor
      · intro impossible
        cases impossible
      · intro name impossible
        cases impossible

namespace System

/-- What holds in every state the system reaches. -/
structure Sound (s : System) : Prop where
  reached : s.hub.Reached
  clean : Board.Throughout CleanPublication s.hub.board
  links : ∀ conn, (s.link conn).Sound

/-- Topics and contents hold no end of a line, and receive times are those of
polls. -/
def Event.Clean : Event → Prop
  | .request _ command => command.Clean
  | .toHub _ _ receiveTime => 0 < receiveTime
  | _ => True

instance : (event : Event) → Decidable event.Clean
  | .request _ command => inferInstanceAs (Decidable command.Clean)
  | .toHub _ _ _ => inferInstanceAs (Decidable (_ < _))
  | .connect _ => inferInstanceAs (Decidable True)
  | .toClient _ _ => inferInstanceAs (Decidable True)
  | .stop _ => inferInstanceAs (Decidable True)
  | .hubDown _ => inferInstanceAs (Decidable True)
  | .clientDown _ => inferInstanceAs (Decidable True)

theorem new_sound : Sound new where
  reached := PubSubServer.new_reached
  clean := Board.empty_throughout _
  links := by
    intro conn
    constructor
    · exact Nat.le_refl _
    · exact Nat.le_refl _
    · exact Or.inr rfl
    · exact List.prefix_refl _
    · intro impossible
      cases impossible
    · exact ⟨[], rfl, Carries.fresh (new_represents kInitialSize)⟩
    · intro command member
      cases member
    · exact fun _ => ⟨rfl, fun _ => rfl, fun _ => List.not_mem_nil⟩

variable {s : System}

/-- Only the end of one client has changed. -/
theorem Sound.setClient (sound : s.Sound) (conn : Nat) {next : System} (hub : next.hub = s.hub)
    (others : ∀ other, other ≠ conn → next.link other = s.link other)
    (own : (next.link conn).Sound) : next.Sound where
  reached := by
    rw [hub]
    exact sound.reached
  clean := by
    rw [hub]
    exact sound.clean
  links := by
    intro other
    by_cases here : other = conn
    · rw [here]
      exact own
    · rw [others other here]
      exact sound.links other

theorem link_setClient (s : System) (conn : Nat) (client : PubSubClient) :
    (s.setClient conn client).link conn = { s.link conn with client := client } := by
  simp [link, System.setClient]

theorem link_setClient_other (s : System) {conn other : Nat} (client : PubSubClient)
    (apart : other ≠ conn) : (s.setClient conn client).link other = s.link other := by
  simp [link, System.setClient, apart]

theorem step_request (sound : s.Sound) (conn : Nat) {command : Command} (clean : command.Clean) :
    ∃ next, s.step (.request conn command) = .ok next ∧ next.Sound := by
  simp only [step]
  cases connected : (s.clients conn).connected with
  | true =>
      refine ⟨_, rfl, sound.setClient conn rfl ?_ ?_⟩
      · intro other apart
        simp [link, System.setClient, apart]
      · have own := (sound.links conn).asked command clean connected
        simpa [link, System.setClient] using own
  | false =>
      refine ⟨_, rfl, sound.setClient conn rfl ?_ ?_⟩
      · intro other apart
        exact link_setClient_other s _ apart
      · rw [link_setClient]
        exact (sound.links conn).unasked command connected

theorem step_toClient (sound : s.Sound) (conn size : Nat) :
    ∃ next, s.step (.toClient conn size) = .ok next ∧ next.Sound := by
  simp only [step]
  by_cases idle : (s.clients conn).state = .kDisconnected ∨ (s.towardsClient conn).take size = []
  · rw [if_pos idle]
    exact ⟨s, rfl, sound⟩
  · obtain ⟨client, ran, own⟩ :=
      (sound.links conn).told size (sound.clean.received conn)
    have ranHere : (s.clients conn).handleRead ((s.towardsClient conn).take size) = .ok client :=
      ran
    rw [if_neg idle, ranHere]
    refine ⟨_, rfl, sound.setClient conn rfl ?_ ?_⟩
    · intro other apart
      simp [link, System.setClient, apart]
    · simpa [link, System.setClient, towardsClient] using own

theorem step_restated (sound : s.Sound) (conn : Nat) (state : TcpConnection.StateE) :
    (s.setClient conn { s.clients conn with state := state }).Sound := by
  have hub : (s.setClient conn { s.clients conn with state := state }).hub = s.hub := rfl
  apply sound.setClient conn hub
  · intro other apart
    exact link_setClient_other s _ apart
  · rw [link_setClient]
    exact (sound.links conn).restated state

theorem step_connect (sound : s.Sound) (conn : Nat) :
    ∃ next, s.step (.connect conn) = .ok next ∧ next.Sound := by
  simp only [step]
  by_cases down : (s.hub.connections conn).state = .kDisconnected ∧
      (s.clients conn).state = .kDisconnected
  · have free := sound.reached.gone conn down.1
    have board : (s.hub.connectionUp conn).board = s.hub.board.step (.join conn) :=
      PubSubServer.board_record _ (.up conn)
    have log : (s.hub.connectionUp conn).log = s.hub.log ++ [.up conn] := rfl
    rw [if_pos down]
    refine ⟨_, rfl, ?_, ?_, fun other => ?_⟩
    · obtain ⟨hub, ran, reached⟩ :=
        PubSubServer.step_reached sound.reached (.connect conn) trivial
      simp only [PubSubServer.step, if_pos down.1] at ran
      cases ran
      exact reached
    · change Board.Throughout CleanPublication (s.hub.connectionUp conn).board
      rw [board]
      apply Board.step_throughout sound.clean
      intro topic content impossible
      cases impossible
    · have connections := s.hub.connectionUp_connections conn other
      by_cases here : other = conn
      · subst here
        have own := Link.Sound.opened (s.clients other)
          { Connection.absent with state := .kConnected, context := some [] } rfl rfl
          (new_represents kInitialSize)
        simp only [link, log, board, connections, executedBy_up, if_true, Function.update_self,
          Board.step]
        exact own
      · have same := sound.links other
        simp only [link, log, board, connections, executedBy_up, if_neg here,
          if_neg (Ne.symm here), Function.update_of_ne here, Board.step]
        exact same
  · rw [if_neg down]
    exact ⟨s, rfl, sound⟩

theorem step_hubDown (sound : s.Sound) (conn : Nat) :
    ∃ next, s.step (.hubDown conn) = .ok next ∧ next.Sound := by
  simp only [step]
  by_cases down : (s.hub.connections conn).state = .kDisconnected
  · rw [if_pos down]
    exact ⟨s, rfl, sound⟩
  · obtain ⟨hub, ran, -, log, silent⟩ := sound.reached.agrees.connectionDown down
    have board : hub.board = s.hub.board.step (.leave conn) := PubSubServer.board_extended log
    rw [if_neg down, ran]
    refine ⟨_, rfl, ?_, ?_, fun other => ?_⟩
    · obtain ⟨next, ranAgain, reached⟩ :=
        PubSubServer.step_reached sound.reached (.disconnect conn) trivial
      simp only [PubSubServer.step, if_neg down, ran] at ranAgain
      cases ranAgain
      exact reached
    · change Board.Throughout CleanPublication hub.board
      rw [board]
      apply Board.step_throughout sound.clean
      intro topic content impossible
      cases impossible
    · have executed : executedBy other hub.log = executedBy other s.hub.log := by
        rw [log, executedBy_down]
      have received : hub.board.received other = s.hub.board.received other := by
        rw [board]
        rfl
      have quiet := silent other
      have client : ({ s with hub := hub }.link other).client = (s.link other).client := rfl
      by_cases here : other = conn
      · rw [if_pos here] at quiet
        subst here
        apply (sound.links other).closed client rfl rfl rfl executed quiet.state quiet.sent received
        intro topic
        change hub.board.subscribed other topic = false
        rw [board]
        simp [Board.step]
      · rw [if_neg here] at quiet
        have leaves : ∀ topic, Board.Leaves other topic
            (.leave conn : Board.Action Nat (List Byte) (List Byte)) := fun _ => Ne.symm here
        have nothing : hub.board.received other = s.hub.board.received other ++ [] := by
          rw [received, List.append_nil]
        apply (sound.links other).aside client rfl rfl rfl executed quiet.kept nothing
        · change (hub.connections other).sent = (s.hub.connections other).sent ++ _
          rw [quiet.sent]
          simp
        · intro free
          refine ⟨fun topic => ?_, received⟩
          change hub.board.subscribed other topic = false
          rw [board, Board.step_leaves (leaves topic)]
          exact free topic

theorem step_toHub (sound : s.Sound) (conn size : Nat) {time : Int} (valid : 0 < time) :
    ∃ next, s.step (.toHub conn size time) = .ok next ∧ next.Sound := by
  simp only [step]
  by_cases idle : (s.hub.connections conn).state = .kDisconnected ∨
      (s.towardsHub conn).take size = []
  · rw [if_pos idle]
    exact ⟨s, rfl, sound⟩
  · have up : (s.hub.connections conn).state ≠ .kDisconnected := fun down => idle (Or.inl down)
    have connected : (s.hub.connections conn).state = .kConnected :=
      (sound.links conn).calm.resolve_right up
    obtain ⟨pending, asked, carries⟩ := (sound.links conn).requests connected
    have pendingClean : ∀ command ∈ pending, command.message.Clean := by
      intro command member
      apply Command.clean_message
      apply (sound.links conn).clean
      rw [asked]
      simp [member]
    obtain ⟨bytes, now, later, rest, represents, divided, drained, after⟩ :=
      carries.deliver (fun _ => rfl) pendingClean size
    obtain ⟨hub, ran, serves⟩ := PubSubServer.handleRead_serves sound.reached.agrees
      ((s.towardsHub conn).take size) up represents valid
    have drainedHere : codec.drain (bytes ++ (s.towardsHub conn).take size) =
        ⟨now.map Command.message, rest, false⟩ := drained
    rw [drainedHere] at serves
    have requests : requestsOf (now.map Command.message) = now := requestsOf_messages now
    have reached := PubSubServer.serves_reached sound.reached serves
    obtain ⟨state, last⟩ := serves.known
      (by
        intro message member
        obtain ⟨command, -, rfl⟩ := List.mem_map.mp member
        rw [Command.message_command]
        rfl)
      rfl
    have board := serves.board
    have log := serves.log
    simp only [requests] at board log
    rw [if_neg idle, ran]
    refine ⟨_, rfl, reached, ?_, fun other => ?_⟩
    · change Board.Throughout CleanPublication hub.board
      rw [board]
      apply Board.after_throughout sound.clean
      intro topic content member
      obtain ⟨command, inside, same⟩ := List.mem_map.mp member
      cases command with
      | pub name text =>
          cases same
          apply (sound.links conn).clean (.pub topic content)
          rw [asked, divided]
          simp [inside]
      | sub name => cases same
      | unsub name => cases same
    · have executed : executedBy other hub.log =
          executedBy other s.hub.log ++ if conn = other then now else [] := by
        rw [log, executedBy_commands]
      by_cases here : other = conn
      · subst here
        have still : (hub.connections other).state = .kConnected := state.trans connected
        obtain ⟨publications, received, sent⟩ :=
          PubSubServer.serves_sends sound.reached reached serves connected still
        rw [if_pos rfl] at executed
        have split : s.requested other = executedBy other s.hub.log ++ (now ++ later) := by
          rw [← divided]
          exact asked
        let final : System := { s with
          hub := hub
          arrived := Function.update s.arrived other
            (s.arrived other + ((s.towardsHub other).take size).length) }
        have client : (final.link other).client = (s.link other).client := rfl
        have arrived : (final.link other).arrived =
            (s.link other).arrived + ((s.towardsHub other).take size).length := by
          simp [final, link]
        apply (sound.links other).served client rfl arrived rfl executed split (after _ last)
          state rfl received sent
        intro none free
        have abstains : ∀ action ∈ now.map (Command.action other), Board.Abstains other action := by
          intro action member
          obtain ⟨command, inside, rfl⟩ := List.mem_map.mp member
          apply Command.abstains_unless_sub
          rintro topic rfl
          exact none topic inside
        have idle := Board.after_free abstains free
        rw [← board] at idle
        exact idle
      · have kept := serves.others other here
        rw [if_neg (Ne.symm here), List.append_nil] at executed
        have abstains : ∀ action ∈ now.map (Command.action conn), Board.Abstains other action := by
          intro action member
          obtain ⟨command, -, rfl⟩ := List.mem_map.mp member
          exact command.abstains here
        have idle : (∀ topic, s.hub.board.subscribed other topic = false) →
            (∀ topic, hub.board.subscribed other topic = false) ∧
              hub.board.received other = s.hub.board.received other := by
          rw [board]
          exact Board.after_free abstains
        have sends : ∃ publications,
            hub.board.received other = s.hub.board.received other ++ publications ∧
              (hub.connections other).sent =
                (s.hub.connections other).sent ++ publications.flatMap publicationBytes := by
          rcases (sound.links other).calm with opened | down
          · exact PubSubServer.serves_sends sound.reached reached serves opened
              (kept.state.trans opened)
          · have blocked : (s.hub.connections other).state ≠ .kConnected := by
              intro impossible
              cases down.symm.trans impossible
            refine ⟨[], ?_, ?_⟩
            · rw [(idle (sound.reached.gone other down)).2, List.append_nil]
            · rw [kept.sent blocked]
              simp
        obtain ⟨publications, received, sent⟩ := sends
        let final : System := { s with
          hub := hub
          arrived := Function.update s.arrived conn
            (s.arrived conn + ((s.towardsHub conn).take size).length) }
        have client : (final.link other).client = (s.link other).client := rfl
        have arrived : (final.link other).arrived = (s.link other).arrived := by
          simp [final, link, here]
        exact (sound.links other).aside client rfl arrived rfl executed kept received sent idle

/-- No step fails, and every step keeps the system sound. -/
theorem step_sound (sound : s.Sound) {event : Event} (clean : event.Clean) :
    ∃ next, s.step event = .ok next ∧ next.Sound := by
  cases event with
  | connect conn => exact step_connect sound conn
  | request conn command => exact step_request sound conn clean
  | toHub conn size time => exact step_toHub sound conn size clean
  | toClient conn size => exact step_toClient sound conn size
  | hubDown conn => exact step_hubDown sound conn
  | stop conn =>
      refine ⟨_, rfl, ?_⟩
      unfold PubSubClient.shutdown
      split_ifs
      · exact step_restated sound conn _
      · exact step_restated sound conn (s.clients conn).state
  | clientDown conn => exact ⟨_, rfl, step_restated sound conn _⟩

theorem run_sound (sound : s.Sound) {events : List Event} (clean : ∀ event ∈ events, event.Clean) :
    ∃ final, Machine.run step s events = .ok final ∧ final.Sound := by
  induction events generalizing s with
  | nil => exact ⟨s, rfl, sound⟩
  | cons event events ih =>
      obtain ⟨next, taken, after⟩ := step_sound sound (clean event (by simp))
      obtain ⟨final, ran, last⟩ := ih after fun other member => clean other (by simp [member])
      exact ⟨final, (run_cons_ok events taken).trans ran, last⟩

/-- Everything a client has been sent has been received, and the client has
been called with all of it. -/
theorem Sound.all_told (sound : s.Sound) {conn : Nat} (nothing : s.towardsClient conn = []) :
    (s.clients conn).calls = s.hub.board.received conn := by
  obtain ⟨pending, split, carries⟩ := (sound.links conn).publications
  have way : (s.link conn).connection.sent.drop (s.link conn).taken = [] := nothing
  rw [way] at carries
  have none : pending = [] := by
    apply carries.nothing publicationBytes_eq
    intro value member
    apply publication_clean
    apply sound.clean.received conn
    change value ∈ (s.link conn).received
    rw [split]
    simp [member]
  rw [none, List.append_nil] at split
  exact split.symm

theorem Sound.all_executed (sound : s.Sound) {conn : Nat}
    (connected : (s.hub.connections conn).state = .kConnected)
    (nothing : s.towardsHub conn = []) :
    executedBy conn s.hub.log = s.requested conn := by
  obtain ⟨pending, split, carries⟩ := (sound.links conn).requests connected
  have way : (s.link conn).client.sent.drop (s.link conn).arrived = [] := nothing
  rw [way] at carries
  have none : pending = [] := by
    apply carries.nothing (fun _ => rfl)
    intro command member
    apply Command.clean_message
    apply (sound.links conn).clean
    rw [split]
    simp [member]
  rw [none, List.append_nil] at split
  exact split.symm

/-- In every run of the clients, the hub and the streams between them: nothing
fails; the hub carries out every client's requests in the order they were made,
and all of them when nothing is on its way; every client is called with what it
receives on the board of the hub's log, in this order, and with all of it when
nothing is on its way. -/
theorem requests_and_publications_relayed (events : List Event)
    (clean : ∀ event ∈ events, event.Clean) :
    ∃ s, Machine.run step new events = .ok s ∧
      (∀ conn, executedBy conn s.hub.log <+: s.requested conn) ∧
      (∀ conn, (s.hub.connections conn).state = .kConnected → s.towardsHub conn = [] →
        executedBy conn s.hub.log = s.requested conn) ∧
      (∀ conn, (s.clients conn).calls <+: s.hub.board.received conn) ∧
      ∀ conn, s.towardsClient conn = [] →
        (s.clients conn).calls = s.hub.board.received conn := by
  obtain ⟨s, ran, sound⟩ := run_sound new_sound clean
  refine ⟨s, ran, fun conn => (sound.links conn).leads, fun conn => sound.all_executed, ?_,
    fun conn => sound.all_told⟩
  intro conn
  obtain ⟨pending, split, -⟩ := (sound.links conn).publications
  exact ⟨pending, split.symm⟩

/-- A publication to a subscriber, delivered in pieces. -/
theorem requests_and_publications_relayed_once :
    ∃ s, Machine.run step new
        [.connect 1, .connect 2, .request 1 (.sub (text "a")), .toHub 1 3 5, .toHub 1 9 6,
          .request 2 (.pub (text "a") (text "x")), .toHub 2 99 7, .toClient 1 4,
          .toClient 1 99] = .ok s ∧
      (s.towardsClient 1 = [] → (s.clients 1).calls = s.hub.board.received 1) := by
  obtain ⟨s, ran, -, -, -, told⟩ := requests_and_publications_relayed
    [.connect 1, .connect 2, .request 1 (.sub (text "a")), .toHub 1 3 5, .toHub 1 9 6,
      .request 2 (.pub (text "a") (text "x")), .toHub 2 99 7, .toClient 1 4, .toClient 1 99]
    (by decide)
  exact ⟨s, ran, told 1⟩

/-- The contents published on a topic, in the order of the log. -/
def publishedOn (topic : List Byte) (log : List Entry) : List (List Byte) :=
  log.flatMap fun entry => Board.heard topic entry.action

/-- What a client has been called with about one topic. -/
def toldOf (topic : List Byte) (calls : List (List Byte × List Byte)) : List (List Byte) :=
  calls.filterMap fun call => if call.1 = topic then some call.2 else none

/-- In every run, a client that has subscribed to a topic, and since then has
not subscribed or unsubscribed again nor been disconnected, is called about this
topic with what it had received before, with the last content published before
it subscribed and with every content published since, in order and once. -/
theorem subscription_heard (events : List Event) (clean : ∀ event ∈ events, event.Clean) :
    ∃ s, Machine.run step new events = .ok s ∧
      ∀ conn topic earlier later,
        s.hub.log = earlier ++ .command conn (.sub topic) :: later →
        (∀ entry ∈ later, Board.Leaves conn topic entry.action) →
        s.towardsClient conn = [] →
        toldOf topic (s.clients conn).calls =
          toldOf topic ((Board.empty.after (earlier.map Entry.action)).received conn) ++
            (publishedOn topic earlier).getLast?.toList ++ publishedOn topic later := by
  obtain ⟨s, ran, sound⟩ := run_sound new_sound clean
  refine ⟨s, ran, fun conn topic earlier later log leaves nothing => ?_⟩
  let before : HubBoard := Board.empty.after (earlier.map Entry.action)
  have board : s.hub.board =
      (before.step (.subscribe conn topic)).after (later.map Entry.action) := by
    unfold PubSubServer.board
    rw [log, List.map_append, Board.after_append]
    rfl
  have subscribed : (before.step (.subscribe conn topic)).subscribed conn topic = true := by
    have wanted := Board.subscribe_subscribed before conn conn topic true topic
    rw [if_pos ⟨rfl, rfl⟩] at wanted
    exact wanted
  have last : before.last topic = (publishedOn topic earlier).getLast? := by
    have kept := Board.after_last (Board.empty : HubBoard) topic (earlier.map Entry.action)
    rw [List.flatMap_map] at kept
    exact kept.trans (Option.or_none)
  have since : ∀ action ∈ later.map Entry.action, Board.Leaves conn topic action := by
    intro action member
    obtain ⟨entry, inside, rfl⟩ := List.mem_map.mp member
    exact leaves entry inside
  have heard := Board.after_receivedOf (before.step (.subscribe conn topic)) since
  rw [if_pos subscribed, Board.subscribe_receivedOf, last, ← board, List.flatMap_map] at heard
  rw [sound.all_told nothing]
  exact heard

/-- The second client subscribes after the first publication. -/
theorem subscription_heard_late :
    ∃ s, Machine.run step new
        [.connect 1, .connect 2, .request 1 (.pub (text "a") (text "x")), .toHub 1 99 5,
          .request 2 (.sub (text "a")), .toHub 2 99 6, .toClient 2 99] = .ok s ∧
      (s.hub.log = [.up 1, .up 2, .command 1 (.pub (text "a") (text "x"))] ++
          .command 2 (.sub (text "a")) :: [] →
        s.towardsClient 2 = [] → toldOf (text "a") (s.clients 2).calls = [text "x"]) := by
  obtain ⟨s, ran, heard⟩ := subscription_heard
    [.connect 1, .connect 2, .request 1 (.pub (text "a") (text "x")), .toHub 1 99 5,
      .request 2 (.sub (text "a")), .toHub 2 99 6, .toClient 2 99] (by decide)
  refine ⟨s, ran, fun log nothing => ?_⟩
  have told := heard 2 (text "a") _ [] log (by simp) nothing
  rw [told]
  decide

end System

end Msmuduo.Hub
