import Msmuduo.HubMessages

/-!
# The client of the hub

The message callback of the client takes every message off its input buffer. So
what the subscriber is told after any receives is a function of all the bytes
received, whatever they are and however they were divided.
-/

namespace Msmuduo.Hub.PubSubClient

open Msmuduo.Machine Msmuduo.Framing Msmuduo.Buffer

set_option autoImplicit false

/-- The calls of the subscriber that some messages lead to. -/
def callsOf (subscribeCallback : Bool) (messages : List Message) :
    List (List Byte × List Byte) :=
  messages.filterMap fun message =>
    if message.cmd = text "pub" ∧ subscribeCallback then some (message.topic, message.content)
    else none

theorem callsOf_append (subscribeCallback : Bool) (messages later : List Message) :
    callsOf subscribeCallback (messages ++ later) =
      callsOf subscribeCallback messages ++ callsOf subscribeCallback later :=
  List.filterMap_append

/-- The client after it has drained some bytes, with `buf` as its buffer. -/
def drained (c : PubSubClient) (buf : Buffer) (result : Drained Message Byte) : PubSubClient :=
  let read := { c with
    inputBuffer := buf
    calls := c.calls ++ callsOf c.subscribeCallback result.items }
  if result.bad then read.shutdown else read

@[simp]
theorem drained_inputBuffer (c : PubSubClient) (buf : Buffer) (result : Drained Message Byte) :
    (c.drained buf result).inputBuffer = buf := by
  unfold drained shutdown
  dsimp only
  split_ifs <;> rfl

@[simp]
theorem drained_subscribeCallback (c : PubSubClient) (buf : Buffer)
    (result : Drained Message Byte) :
    (c.drained buf result).subscribeCallback = c.subscribeCallback := by
  unfold drained shutdown
  dsimp only
  split_ifs <;> rfl

@[simp]
theorem drained_calls (c : PubSubClient) (buf : Buffer) (result : Drained Message Byte) :
    (c.drained buf result).calls =
      c.calls ++ callsOf c.subscribeCallback result.items := by
  unfold drained shutdown
  dsimp only
  split_ifs <;> rfl

/-- The loop drains the buffer. -/
theorem onMessage_drains (turns : Nat) {c : PubSubClient} {bytes : List Byte}
    (represents : Represents c.inputBuffer bytes) (enough : bytes.length < turns) :
    ∃ buf, onMessage turns c = .ok (c.drained buf (codec.drain bytes)) ∧
      Represents buf (codec.drain bytes).rest := by
  induction turns generalizing c bytes with
  | zero => exact absurd enough (Nat.not_lt_zero _)
  | succ turns ih =>
      obtain ⟨parsed, ran, outcome⟩ := parseMessage_cut represents
      simp only [onMessage, ran, bind, Except.bind]
      cases cut : cutMessage bytes with
      | more =>
          rw [cut] at outcome
          have waits : codec.drain bytes = ⟨[], bytes, false⟩ := Decoder.drain_more cut
          refine ⟨c.inputBuffer, ?_, by rw [waits]; exact represents⟩
          simp [outcome.1, outcome.2, waits, drained, callsOf, pure, Except.pure]
      | bad =>
          rw [cut] at outcome
          have rejects : codec.drain bytes = ⟨[], bytes, true⟩ := Decoder.drain_bad cut
          refine ⟨c.inputBuffer, ?_, by rw [rejects]; exact represents⟩
          simp [outcome.1, outcome.2, rejects, drained, callsOf, pure, Except.pure]
      | item message rest =>
          rw [cut] at outcome
          obtain ⟨success, cmd, topic, content, after⟩ := outcome
          have shorter : rest.length < turns := by
            have less := cutMessage_shorter cut
            omega
          have split : codec.drain bytes =
              ⟨message :: (codec.drain rest).items, (codec.drain rest).rest,
                (codec.drain rest).bad⟩ := Decoder.drain_item cut
          simp only [success, cmd, topic, content, split]
          by_cases told : message.cmd = text "pub" ∧ c.subscribeCallback
          · obtain ⟨buf, rested, last⟩ := @ih
              { c with
                inputBuffer := parsed.buf
                calls := c.calls ++ [(message.topic, message.content)] } rest after shorter
            refine ⟨buf, ?_, last⟩
            rw [if_pos told, rested]
            simp [drained, callsOf, told]
          · obtain ⟨buf, rested, last⟩ :=
              @ih { c with inputBuffer := parsed.buf } rest after shorter
            refine ⟨buf, ?_, last⟩
            rw [if_neg told, rested]
            simp [drained, callsOf, told]

/-- One receive drains what was kept together with what arrived. -/
theorem handleRead_drains {c : PubSubClient} {bytes : List Byte}
    (represents : Represents c.inputBuffer bytes) (data : List Byte) :
    ∃ buf, c.handleRead data = .ok (c.drained buf (codec.drain (bytes ++ data))) ∧
      Represents buf (codec.drain (bytes ++ data)).rest := by
  obtain ⟨next, read, after⟩ := readFd_received represents data
  have enough : (bytes ++ data).length < next.readableBytes + 1 := by
    rw [after.readable]
    omega
  obtain ⟨buf, ran, last⟩ :=
    @onMessage_drains (next.readableBytes + 1) { c with inputBuffer := next } _ after enough
  refine ⟨buf, ?_, last⟩
  unfold handleRead
  rw [read]
  exact ran

/-- Whether the connection has been shut down depends on the last drain alone:
a rejected front stays rejected. -/
def shutBy (bad : Bool) : TcpConnection.StateE := if bad then .kDisconnecting else .kConnected

theorem drained_state {c : PubSubClient} (buf : Buffer) {first result : Drained Message Byte}
    (shut : c.state = shutBy first.bad) (lasting : first.bad = true → result.bad = true) :
    (c.drained buf result).state = shutBy result.bad := by
  unfold drained shutdown
  dsimp only
  cases bad : result.bad with
  | true =>
      by_cases connected : c.state = .kConnected
      · simp [connected, shutBy]
      · cases before : first.bad with
        | true => simp [shut, before, shutBy]
        | false =>
            rw [before] at shut
            exact absurd shut connected
  | false =>
      cases before : first.bad with
      | true =>
          rw [lasting before] at bad
          cases bad
      | false => simp [shut, before, shutBy]

/-- The client after it has received some bytes since it was connected. -/
structure Follows (subscribeCallback : Bool) (received : List Byte) (c : PubSubClient) : Prop where
  callback : c.subscribeCallback = subscribeCallback
  buffered : Represents c.inputBuffer (codec.drain received).rest
  called : c.calls = callsOf subscribeCallback (codec.drain received).items
  state : c.state = shutBy (codec.drain received).bad

theorem connectionUp_follows (c : PubSubClient) :
    Follows c.subscribeCallback [] c.connectionUp where
  callback := rfl
  buffered := by
    rw [Decoder.drain_nil]
    exact new_represents kInitialSize
  called := by
    rw [Decoder.drain_nil]
    rfl
  state := by
    rw [Decoder.drain_nil]
    rfl

theorem handleRead_follows {subscribeCallback : Bool} {received : List Byte} {c : PubSubClient}
    (follows : Follows subscribeCallback received c) (data : List Byte) :
    ∃ next, c.handleRead data = .ok next ∧
      Follows subscribeCallback (received ++ data) next := by
  obtain ⟨buf, ran, represents⟩ := handleRead_drains follows.buffered data
  have whole := Decoder.drain_append codec received data
  refine ⟨_, ran, ?_, ?_, ?_, ?_⟩
  · rw [drained_subscribeCallback, follows.callback]
  · rw [drained_inputBuffer, whole]
    exact represents
  · rw [drained_calls, follows.called, follows.callback, whole, callsOf_append]
  · have lasting : (codec.drain received).bad = true →
        (codec.drain ((codec.drain received).rest ++ data)).bad = true := by
      intro bad
      have still := (Decoder.drain_bad_append bad data).1
      rw [whole] at still
      exact still
    rw [drained_state buf follows.state lasting, whole]

theorem run_follows {subscribeCallback : Bool} {received : List Byte} {c : PubSubClient}
    (follows : Follows subscribeCallback received c) (deliveries : List (List Byte)) :
    ∃ final, Machine.run handleRead c deliveries = .ok final ∧
      Follows subscribeCallback (received ++ deliveries.flatten) final := by
  induction deliveries generalizing received c with
  | nil => exact ⟨c, rfl, by simpa using follows⟩
  | cons data deliveries ih =>
      obtain ⟨next, taken, after⟩ := handleRead_follows follows data
      obtain ⟨final, ran, last⟩ := ih after
      refine ⟨final, (run_cons_ok deliveries taken).trans ran, ?_⟩
      rw [List.flatten_cons, ← List.append_assoc]
      exact last

/-- A connected client may receive any bytes in any division: no assertion
fails, every loop ends, the subscriber is called with exactly the publications
of the whole stream, in order, and the connection is shut down exactly when
some front of the stream is rejected. -/
theorem callbacks_follow_stream (c : PubSubClient) (deliveries : List (List Byte)) :
    ∃ final, Machine.run handleRead c.connectionUp deliveries = .ok final ∧
      final.calls = callsOf c.subscribeCallback (codec.drain deliveries.flatten).items ∧
      final.state = shutBy (codec.drain deliveries.flatten).bad ∧
      final.inputBuffer.content = (codec.drain deliveries.flatten).rest := by
  obtain ⟨final, ran, last⟩ := run_follows (connectionUp_follows c) deliveries
  exact ⟨final, ran, last.called, last.state, last.buffered.content⟩

/-- One publication in two receives, and a line without a blank behind it. -/
example :
    (codec.drain (text "pub a\r\n" ++ text "x\r\nquit\r\n")).items =
      [⟨text "pub", text "a", text "x"⟩] ∧
    (codec.drain (text "pub a\r\n" ++ text "x\r\nquit\r\n")).bad = true := by
  have front : codec.cut (text "pub a\r\n" ++ text "x\r\nquit\r\n") =
      .item ⟨text "pub", text "a", text "x"⟩ (text "quit\r\n") := by decide
  have behind : codec.cut (text "quit\r\n") = .bad := by decide
  rw [Decoder.drain_item front, Decoder.drain_bad behind]
  exact ⟨rfl, rfl⟩

end Msmuduo.Hub.PubSubClient
