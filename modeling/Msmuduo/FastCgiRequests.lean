import Msmuduo.FastCgiRecords

/-!
# Requests and responses

What a connection does on any bytes in any division: at the end of a delivery in
which a request has ended, the request is handed over and answered. The division does
not matter as long as no delivery goes on into the next request; a client that waits
for the response to a request before it sends the next one keeps to that.

A response is a record with the text, an empty record that ends the output, and
eight bytes that are read as a record of type 0. A record that ends the request is
not sent.
-/

namespace Msmuduo.FastCgi

open Msmuduo.Machine Msmuduo.Window Msmuduo.Endian Msmuduo.Endiantool Msmuduo.Framing
open Msmuduo.Buffer

set_option autoImplicit false

/-! ## Responses -/

/-- The bytes of an output record with this content. -/
def stdoutBytes (content : List Byte) : List Byte :=
  1 :: kFcgiStdout :: 0 :: 1 :: (bigEndian 2 content.length ++
    UInt8.ofNat (paddingOf content.length) :: 0 ::
      (content ++ List.replicate (paddingOf content.length) 0))

/-- What `respond` makes of a content that fits into a record. -/
def responseBytes (content : List Byte) : List Byte :=
  stdoutBytes content ++ stdoutBytes [] ++ List.replicate 8 0

theorem paddingOf_eq (readable : Nat) : paddingOf readable = (8 - readable % 8) % 8 := by
  unfold paddingOf toSizeT sizeTModulus
  change _ &&& (2 ^ 3 - 1) = _
  rw [Nat.and_two_pow_sub_one_eq_mod]
  omega

theorem paddingOf_lt (readable : Nat) : paddingOf readable < 8 := by
  rw [paddingOf_eq]
  exact Nat.mod_lt _ (by decide)

theorem stdoutBytes_encodes {content : List Byte} (fits : content.length < 65536) :
    EncodesRecord ⟨kFcgiStdout, content⟩ (stdoutBytes content) := by
  refine ⟨1, 0, 1, 0, List.replicate (paddingOf content.length) 0, fits, ?_, ?_⟩
  · rw [List.length_replicate]
    exact (paddingOf_lt _).trans (by decide)
  · rw [List.length_replicate]
    rfl

theorem length_stdoutBytes (content : List Byte) : (stdoutBytes content).length % 8 = 0 := by
  unfold stdoutBytes
  simp only [List.length_cons, List.length_append, length_bigEndian, List.length_replicate,
    paddingOf_eq]
  omega

theorem zeros_encode : EncodesRecord ⟨0, []⟩ (List.replicate 8 0) :=
  ⟨0, 0, 0, 0, [], by decide, by decide, rfl⟩

/-- The records of a response. -/
def responseRecords (content : List Byte) : List Record :=
  [⟨kFcgiStdout, content⟩, ⟨kFcgiStdout, []⟩, ⟨0, []⟩]

theorem responses_drained {content : List Byte} (fits : content.length < 65536) (count : Nat) :
    records.drain ((List.replicate count (responseBytes content)).flatten) =
      ⟨(List.replicate count (responseRecords content)).flatten, [], false⟩ := by
  induction count with
  | zero => exact Decoder.drain_nil
  | succ count ih =>
      have one : List.Forall₂ EncodesRecord (responseRecords content)
          [stdoutBytes content, stdoutBytes [], List.replicate 8 0] :=
        List.Forall₂.cons (stdoutBytes_encodes fits)
          (List.Forall₂.cons (stdoutBytes_encodes (by decide))
            (List.Forall₂.cons zeros_encode List.Forall₂.nil))
      have drained := Decoder.drain_pieces records_decides one
        ((List.replicate count (responseBytes content)).flatten)
      have bytes : [stdoutBytes content, stdoutBytes [], List.replicate 8 0].flatten =
          responseBytes content := by
        simp [responseBytes]
      rw [bytes, ih] at drained
      rw [List.replicate_succ, List.flatten_cons, drained, List.replicate_succ, List.flatten_cons]

section

variable {response : Buffer} {content : List Byte}

theorem store_header (machine : ByteOrder) (length : UInt16) (padding : Byte) :
    (RecordHeader.store machine
      { version := 1, type := kFcgiStdout, id := hostToNetwork16 machine 1,
        length := hostToNetwork16 machine length, padding := padding, reserved := 0 }) =
      1 :: kFcgiStdout :: 0 :: 1 :: (bigEndian 2 length.toNat ++ [padding, 0]) := by
  unfold RecordHeader.store hostToNetwork16
  rw [store_htons, store_htons]
  rfl

theorem endStdout_appends (machine : ByteOrder) (represents : Represents response content) :
    ∃ next, endStdout machine response = .ok next ∧
      Represents next (content ++ stdoutBytes []) := by
  have zero : hostToNetwork16 machine 0 = 0 := by
    cases machine with
    | little => rfl
    | big => rfl
  have stored := store_header machine 0 0
  rw [zero] at stored
  unfold endStdout
  dsimp only
  rw [stored]
  exact append_represents represents _

theorem endRequest_appends (machine : ByteOrder) (represents : Represents response content) :
    ∃ next, endRequest machine response = .ok next ∧
      Represents next (content ++ List.replicate 8 0) := by
  have zeros : machine.store 4 (hostToNetwork32 machine (0 : Int32).toUInt32).toNat =
      List.replicate 4 0 := by
    cases machine with
    | little => rfl
    | big => rfl
  obtain ⟨first, appended, firstRepresents⟩ :=
    append_represents represents (List.replicate 4 0)
  obtain ⟨next, last, represented⟩ := append_represents firstRepresents (List.replicate 4 0)
  refine ⟨next, ?_, ?_⟩
  · unfold endRequest appendInt32
    rw [zeros, appended]
    exact last
  · rw [List.append_assoc] at represented
    exact represented

/-- A content that fits becomes a record, padded to eight bytes, and the end of the
output; what follows them is not a record that ends the request. -/
theorem response_recorded (machine : ByteOrder) (represents : Represents response content)
    (fits : content.length < 65536) (room : kRecordHeader ≤ response.prependableBytes) :
    ∃ next, respond machine response = .ok next ∧ next.content = responseBytes content ∧
      records.drain next.content = ⟨responseRecords content, [], false⟩ ∧
      next.content.length % 8 = 0 := by
  have readable : response.readableBytes < 65536 := by
    rw [represents.readable]
    exact fits
  have number : (UInt16.ofNat content.length).toNat = content.length := by
    rw [UInt16.toNat_ofNat']
    exact Nat.mod_eq_of_lt fits
  have padding : (UInt8.ofNat (paddingOf content.length)).toNat = paddingOf content.length := by
    rw [UInt8.toNat_ofNat']
    have bound := paddingOf_lt content.length
    omega
  have stored := store_header machine (UInt16.ofNat content.length)
    (UInt8.ofNat (paddingOf content.length))
  rw [number] at stored
  obtain ⟨headed, prepended, headedRepresents⟩ := prepend_represents represents
    (1 :: kFcgiStdout :: 0 :: 1 :: (bigEndian 2 content.length ++
      [UInt8.ofNat (paddingOf content.length), 0]))
    (by simpa [length_bigEndian, kRecordHeader] using room)
  obtain ⟨padded, appended, paddedRepresents⟩ := append_represents headedRepresents
    (List.replicate (paddingOf content.length) 0)
  obtain ⟨ended, output, endedRepresents⟩ := endStdout_appends machine paddedRepresents
  obtain ⟨next, last, nextRepresents⟩ := endRequest_appends machine endedRepresents
  have bytes : next.content = responseBytes content := by
    rw [nextRepresents.content]
    simp [responseBytes, stdoutBytes]
  have drained := responses_drained fits 1
  simp only [List.replicate_one, List.flatten_cons, List.flatten_nil, List.append_nil] at drained
  refine ⟨next, ?_, bytes, ?_, ?_⟩
  · unfold respond
    rw [if_pos ⟨readable, room⟩, represents.readable]
    simp only [stored, prepended, padding, appended, output, bind, Except.bind]
    exact last
  · rw [bytes]
    exact drained
  · rw [bytes, responseBytes, List.length_append, List.length_append, List.length_replicate]
    have text_ := length_stdoutBytes content
    have empty := length_stdoutBytes []
    omega

/-- The response of `fastcgi_test.cpp`. -/
theorem response_recorded_text :
    ∃ response next, (Buffer.new kInitialSize).append Connection.responseText = .ok response ∧
      respond .little response = .ok next ∧
      next.content = responseBytes Connection.responseText ∧
      records.drain next.content = ⟨responseRecords Connection.responseText, [], false⟩ ∧
      next.content.length % 8 = 0 := by
  obtain ⟨response, appended, represents⟩ :=
    append_represents (new_represents kInitialSize) Connection.responseText
  obtain ⟨next, ran, written⟩ := response_recorded .little represents (by decide)
    (append_reserved (Nat.le_refl _) appended)
  exact ⟨response, next, appended, ran, written⟩

end

/-! ## The service -/

/-- What a connection has done, with its requests as they are assembled. -/
structure Service where
  rest : List Byte
  assembly : Assembly
  requests : List Request
  serving : Bool
  sent : List Byte
  deriving DecidableEq, Repr

namespace Service

def new : Service where
  rest := []
  assembly := Assembly.new
  requests := []
  serving := true
  sent := []

/-- A request is handed over and answered. The next one begins with nothing but the
wish for the connection to stay. -/
def complete (v : Service) : Service where
  rest := v.rest
  assembly := { Assembly.new with keep := v.assembly.keep }
  requests := v.requests ++ [⟨v.assembly.table, v.assembly.body⟩]
  serving := v.serving && v.assembly.keep
  sent := if v.serving then v.sent ++ responseBytes Connection.responseText else v.sent

def settle (v : Service) : Service := if v.assembly.ended then v.complete else v

/-- One delivery. Whether a request has ended is looked at behind all of its records. -/
def deliver (v : Service) (delivery : List Byte) : Service :=
  if delivery = [] then v
  else
    let drained := records.drain (v.rest ++ delivery)
    settle
      { v with
        rest := drained.rest
        assembly := drained.items.foldl Assembly.receive v.assembly }

end Service

def stateOf (serving : Bool) : TcpConnection.StateE :=
  if serving then .kConnected else .kDisconnecting

/-- The connection is in the state of the service. -/
structure Serves (c : Connection) (v : Service) : Prop where
  input : Represents c.inputBuffer v.rest
  codec : Follows c.codec v.assembly
  requests : c.requests = v.requests
  state : c.state = stateOf v.serving
  sent : c.sent = v.sent

theorem new_serves : Serves Connection.new Service.new where
  input := new_represents _
  codec := new_follows
  requests := rfl
  state := rfl
  sent := rfl

section

variable {c : Connection} {v : Service}

theorem send_serving (c : Connection) (serving : Bool) (state : c.state = stateOf serving)
    (message : List Byte) :
    c.send message = { c with sent := if serving then c.sent ++ message else c.sent } := by
  cases serving with
  | true =>
      have connected : c.state = .kConnected := state
      rw [Connection.send, if_pos connected]
      rfl
  | false =>
      have shut : c.state ≠ .kConnected := by
        rw [state]
        intro impossible
        cases impossible
      rw [Connection.send, if_neg shut]
      rfl

theorem onRequest_sends (machine : ByteOrder) (c : Connection) (request : Request)
    (serving : Bool) (state : c.state = stateOf serving) :
    c.onRequest machine request =
      .ok { c with
        requests := c.requests ++ [request]
        sent := if serving then c.sent ++ responseBytes Connection.responseText else c.sent } := by
  obtain ⟨typed, first, typedRepresents⟩ := append_represents (new_represents kInitialSize)
    (text "Context-Type: text/plain\r\n\r\n")
  obtain ⟨response, second, represents⟩ :=
    append_represents typedRepresents (text "hello world")
  have whole : [] ++ text "Context-Type: text/plain\r\n\r\n" ++ text "hello world" =
      Connection.responseText := rfl
  rw [whole] at represents
  have room : kRecordHeader ≤ response.prependableBytes :=
    append_reserved (append_reserved (Nat.le_refl _) first) second
  obtain ⟨record, wrapped, content, -⟩ :=
    response_recorded machine represents (by decide) room
  unfold Connection.onRequest
  simp only [first, second, wrapped, content, inBuffer, Except.mapError, bind, Except.bind, pure,
    Except.pure]
  exact congrArg Except.ok (send_serving { c with requests := c.requests ++ [request] } serving
    state (responseBytes Connection.responseText))

theorem shutdown_serving (c : Connection) (serving : Bool) (state : c.state = stateOf serving) :
    c.shutdown = { c with state := .kDisconnecting } := by
  cases serving with
  | true =>
      have connected : c.state = .kConnected := state
      rw [Connection.shutdown, if_pos connected]
  | false =>
      have shut : c.state = .kDisconnecting := state
      rw [Connection.shutdown, shut]
      obtain ⟨_, _, _, _, _⟩ := c
      cases shut
      rfl

/-- The message callback takes what is whole of the input and settles. -/
theorem onMessage_serves (machine : ByteOrder) {bytes : List Byte}
    (input : Represents c.inputBuffer bytes) (codec : Follows c.codec v.assembly)
    (requests_ : c.requests = v.requests) (state : c.state = stateOf v.serving)
    (sent : c.sent = v.sent) :
    ∃ next, c.onMessage machine = .ok next ∧
      Serves next (Service.settle
        { v with
          rest := (records.drain bytes).rest
          assembly := (records.drain bytes).items.foldl Assembly.receive v.assembly }) := by
  have enough : bytes.length < c.inputBuffer.readableBytes + 1 := by
    rw [input.readable]
    exact Nat.lt_succ_self _
  obtain ⟨parsed, rest, ran, after, left⟩ := parseRequest_follows machine input enough codec
  have request : (⟨parsed.params, parsed.stdin.content⟩ : Request) =
      ⟨((records.drain bytes).items.foldl Assembly.receive v.assembly).table,
        ((records.drain bytes).items.foldl Assembly.receive v.assembly).body⟩ := by
    rw [after.params, after.stdin.content]
  -- The codec is cleared of the request and keeps only what was asked of the connection.
  have cleared : Follows
      { parsed with
        stdin := parsed.stdin.retrieveAll
        paramsStream := parsed.paramsStream.retrieveAll
        params := []
        gotRequest := false }
      { Assembly.new with
        keep := ((records.drain bytes).items.foldl Assembly.receive v.assembly).keep } := by
    constructor
    · exact retrieveAll_represents after.stream
    · rfl
    · exact retrieveAll_represents after.stdin
    · rfl
    · exact after.keepConn
  have answered := onRequest_sends machine { c with codec := parsed, inputBuffer := rest }
    ⟨parsed.params, parsed.stdin.content⟩ v.serving state
  unfold Connection.onMessage Service.settle
  simp only [ran, bind, Except.bind, after.gotRequest]
  split_ifs with ended keep
  · have kept := after.keepConn.symm.trans keep
    rw [answered]
    refine ⟨_, rfl, left, cleared, ?_, ?_, ?_⟩
    · simp only [Service.complete, requests_, request]
    · simp only [Service.complete, kept, Bool.and_true]
      exact state
    · simp only [Service.complete, sent]
  · have lost := after.keepConn.symm.trans (Bool.eq_false_iff.mpr keep)
    rw [answered]
    refine ⟨_, congrArg Except.ok (shutdown_serving _ v.serving state), ?_⟩
    constructor
    · exact left
    · exact cleared
    · simp only [Service.complete, requests_, request]
    · simp only [Service.complete, lost, Bool.and_false]
      rfl
    · simp only [Service.complete, sent]
  · exact ⟨_, rfl, left, after, requests_, state, sent⟩

theorem receive_serves (machine : ByteOrder) (serves : Serves c v) (delivery : List Byte) :
    ∃ next, c.receive machine delivery = .ok next ∧ Serves next (v.deliver delivery) := by
  unfold Connection.receive Service.deliver
  by_cases empty : delivery = []
  · rw [if_pos empty, if_pos empty]
    exact ⟨c, rfl, serves⟩
  · obtain ⟨read, ran, represents⟩ := readFd_received serves.input delivery
    rw [if_neg empty, if_neg empty, ran]
    exact onMessage_serves machine represents serves.codec serves.requests serves.state
      serves.sent

theorem run_serves (machine : ByteOrder) (serves : Serves c v)
    (deliveries : List (List Byte)) :
    ∃ final, Machine.run (Connection.receive machine) c deliveries = .ok final ∧
      Serves final (deliveries.foldl Service.deliver v) := by
  induction deliveries generalizing c v with
  | nil => exact ⟨c, rfl, serves⟩
  | cons delivery deliveries ih =>
      obtain ⟨next, taken, after⟩ := receive_serves machine serves delivery
      obtain ⟨final, ran, last⟩ := ih after
      exact ⟨final, (run_cons_ok deliveries taken).trans ran, last⟩

/-- On any bytes in any division no assertion fails and every loop ends; the
connection hands over, answers and shuts down what the assembly of its records says. -/
theorem codec_refines_assembly (machine : ByteOrder) (deliveries : List (List Byte)) :
    ∃ c, Machine.run (Connection.receive machine) Connection.new deliveries = .ok c ∧
      Serves c (deliveries.foldl Service.deliver Service.new) :=
  run_serves machine new_serves deliveries

end

end Msmuduo.FastCgi
