import Msmuduo.FastCgiRequests

/-!
# Clients that wait

A request is handed over at the end of the delivery in which it ends, so a client that
goes on into the next request within a delivery has two requests taken for one. While
no delivery does that, the connection might as well hand the request over at its last
record: the division into deliveries cannot be told from what it does. A client that
sends a request in any records, padded and divided in any way, and waits for the
response has every request handed over as it was sent.
-/

namespace Msmuduo.FastCgi

open Msmuduo.Machine Msmuduo.Window Msmuduo.Endian Msmuduo.Framing Msmuduo.Buffer

set_option autoImplicit false

/-- The empty record that ends a request. -/
def endOfRequest : Record := ⟨kFcgiStdin, []⟩

/-- The codec looks at records of this type. -/
def Record.used (record : Record) : Bool :=
  record.type = kFcgiBeginRequest || record.type = kFcgiParams || record.type = kFcgiStdin

namespace Assembly

variable {a : Assembly} {record : Record}

theorem receive_unused (a : Assembly) (unused : record.used = false) : a.receive record = a := by
  simp only [Record.used, Bool.or_eq_false_iff, decide_eq_false_iff_not] at unused
  unfold receive
  rw [if_neg unused.1.1, if_neg unused.1.2, if_neg unused.2]

theorem foldl_unused (a : Assembly) {items : List Record}
    (unused : ∀ record ∈ items, record.used = false) : items.foldl receive a = a := by
  induction items with
  | nil => rfl
  | cons record items ih =>
      rw [List.foldl_cons, receive_unused a (unused record List.mem_cons_self)]
      exact ih fun other member => unused other (List.mem_cons_of_mem _ member)

theorem receive_end (a : Assembly) : (a.receive endOfRequest).ended = true := rfl

theorem receive_other (a : Assembly) (other : record ≠ endOfRequest) :
    (a.receive record).ended = a.ended := by
  unfold receive begins addParams addStdin
  split_ifs with begins' begun params empty stdin nothing
  · rfl
  · rfl
  · rfl
  · rfl
  · obtain ⟨type, content⟩ := record
    have same : (⟨type, content⟩ : Record) = endOfRequest := by
      rw [endOfRequest, ← stdin, ← nothing]
    exact absurd same other
  · rfl
  · rfl

end Assembly

/-! ## Handing over at the last record -/

namespace Service

variable {v : Service}

/-- One record, the request being handed over as soon as it has ended. -/
def take (v : Service) (record : Record) : Service :=
  settle { v with assembly := v.assembly.receive record }

/-- Nothing is left to do in this state. -/
structure Waiting (v : Service) : Prop where
  ended : v.assembly.ended = false
  rest : (records.drain v.rest).items = [] ∧ (records.drain v.rest).rest = v.rest

theorem settle_ended (v : Service) : (settle v).assembly.ended = false := by
  unfold settle
  split_ifs with ended
  · rfl
  · exact Bool.eq_false_iff.mpr ended

theorem settle_self (v : Service) (going : v.assembly.ended = false) : settle v = v := by
  unfold settle
  rw [going]
  rfl

theorem take_ended (v : Service) (record : Record) : (v.take record).assembly.ended = false :=
  settle_ended _

theorem take_unused {record : Record} (unused : record.used = false)
    (going : v.assembly.ended = false) : v.take record = v := by
  unfold take
  rw [Assembly.receive_unused v.assembly unused]
  exact settle_self v going

theorem foldl_take_unused {items : List Record} (unused : ∀ record ∈ items, record.used = false)
    (going : v.assembly.ended = false) : items.foldl take v = v := by
  induction items with
  | nil => rfl
  | cons record items ih =>
      rw [List.foldl_cons, take_unused (unused record List.mem_cons_self) going]
      exact ih fun other member => unused other (List.mem_cons_of_mem _ member)

/-- The codec does not look at other records. -/
theorem foldl_take_filter (items : List Record) (going : v.assembly.ended = false) :
    items.foldl take v = (items.filter Record.used).foldl take v := by
  induction items generalizing v with
  | nil => rfl
  | cons record items ih =>
      cases used : record.used with
      | true =>
          rw [List.filter_cons_of_pos used, List.foldl_cons, List.foldl_cons]
          exact ih (take_ended v record)
      | false =>
          have skipped : ¬record.used = true := Bool.eq_false_iff.mp used
          rw [List.filter_cons_of_neg skipped, List.foldl_cons, take_unused used going]
          exact ih going

theorem take_rest (v : Service) (rest : List Byte) (record : Record) :
    ({ v with rest := rest } : Service).take record = { v.take record with rest := rest } := by
  unfold take settle
  dsimp only
  split_ifs <;> rfl

theorem foldl_take_rest (v : Service) (rest : List Byte) (items : List Record) :
    items.foldl take { v with rest := rest } = { items.foldl take v with rest := rest } := by
  induction items generalizing v with
  | nil => rfl
  | cons record items ih => rw [List.foldl_cons, List.foldl_cons, take_rest, ih]

end Service

/-! ## Deliveries that keep requests apart -/

/-- Behind the end of a request nothing is used. -/
def Single : List Record → Prop
  | [] => True
  | record :: items =>
      if record = endOfRequest then ∀ other ∈ items, other.used = false else Single items

instance decidableSingle : (items : List Record) → Decidable (Single items)
  | [] => isTrue trivial
  | record :: items =>
      have := decidableSingle items
      inferInstanceAs (Decidable (if record = endOfRequest then _ else _))

theorem single_of_unused {items : List Record}
    (unused : ∀ record ∈ items, record.used = false) : Single items := by
  induction items with
  | nil => trivial
  | cons record items ih =>
      have apart : record ≠ endOfRequest := by
        intro same
        have used := unused record List.mem_cons_self
        rw [same] at used
        cases used
      rw [Single, if_neg apart]
      exact ih fun other member => unused other (List.mem_cons_of_mem _ member)

theorem Single.append {first second : List Record} (single : Single (first ++ second)) :
    Single first ∧ Single second := by
  induction first with
  | nil => exact ⟨trivial, single⟩
  | cons record first ih =>
      rw [List.cons_append, Single] at single
      rw [Single]
      by_cases last : record = endOfRequest
      · rw [if_pos last] at single ⊢
        constructor
        · exact fun other member => single other (List.mem_append_left _ member)
        · exact single_of_unused fun other member =>
            single other (List.mem_append_right _ member)
      · rw [if_neg last] at single ⊢
        exact ih single

theorem single_of_filter {items : List Record} (single : Single (items.filter Record.used)) :
    Single items := by
  induction items with
  | nil => trivial
  | cons record items ih =>
      rw [Single]
      by_cases last : record = endOfRequest
      · have used : record.used = true := by
          rw [last]
          rfl
        rw [List.filter_cons_of_pos used, Single, if_pos last] at single
        rw [if_pos last]
        intro other member
        by_contra unlike
        have kept := Bool.not_eq_false _ |>.mp unlike
        rw [single other (List.mem_filter.mpr ⟨member, kept⟩)] at kept
        cases kept
      · rw [if_neg last]
        apply ih
        cases used : record.used with
        | true =>
            rw [List.filter_cons_of_pos used, Single, if_neg last] at single
            exact single
        | false =>
            rw [List.filter_cons_of_neg (Bool.eq_false_iff.mp used)] at single
            exact single

/-- No delivery goes on into the next request. -/
def Separate : List Byte → List (List Byte) → Prop
  | _, [] => True
  | rest, delivery :: deliveries =>
      Single (records.drain (rest ++ delivery)).items ∧
        Separate (records.drain (rest ++ delivery)).rest deliveries

theorem separate_of_single {rest : List Byte} {deliveries : List (List Byte)}
    (single : Single (records.drain (rest ++ deliveries.flatten)).items) :
    Separate rest deliveries := by
  induction deliveries generalizing rest with
  | nil => trivial
  | cons delivery deliveries ih =>
      rw [List.flatten_cons, ← List.append_assoc, Decoder.drain_append] at single
      obtain ⟨first, later⟩ := single.append
      exact ⟨first, ih later⟩

namespace Service

variable {v : Service}

/-- While a request ends behind all that is used, it does not matter when it is
handed over. -/
theorem settle_single {items : List Record} (single : Single items)
    (going : v.assembly.ended = false) :
    settle { v with assembly := items.foldl Assembly.receive v.assembly } =
      items.foldl take v := by
  induction items generalizing v with
  | nil => exact settle_self v going
  | cons record items ih =>
      rw [List.foldl_cons, List.foldl_cons]
      by_cases last : record = endOfRequest
      · rw [Single, if_pos last] at single
        rw [Assembly.foldl_unused _ single, foldl_take_unused single (take_ended v record)]
        rfl
      · rw [Single, if_neg last] at single
        have still : (v.assembly.receive record).ended = false := by
          rw [Assembly.receive_other v.assembly last]
          exact going
        have taken : v.take record = { v with assembly := v.assembly.receive record } :=
          settle_self _ still
        rw [taken]
        exact @ih { v with assembly := v.assembly.receive record } single still

theorem deliver_single {delivery : List Byte} (waiting : Waiting v)
    (single : Single (records.drain (v.rest ++ delivery)).items) :
    v.deliver delivery =
      { (records.drain (v.rest ++ delivery)).items.foldl take v with
        rest := (records.drain (v.rest ++ delivery)).rest } := by
  unfold deliver
  by_cases empty : delivery = []
  · rw [if_pos empty, empty, List.append_nil, waiting.rest.1, waiting.rest.2]
    rfl
  · rw [if_neg empty]
    have settled := @settle_single
      { v with rest := (records.drain (v.rest ++ delivery)).rest } _ single waiting.ended
    rw [foldl_take_rest] at settled
    exact settled

theorem foldl_take_ended (items : List Record) (going : v.assembly.ended = false) :
    (items.foldl take v).assembly.ended = false := by
  induction items generalizing v with
  | nil => exact going
  | cons record items ih => exact ih (take_ended v record)

theorem foldl_deliver_single {deliveries : List (List Byte)} (waiting : Waiting v)
    (separate : Separate v.rest deliveries) :
    deliveries.foldl deliver v =
      { (records.drain (v.rest ++ deliveries.flatten)).items.foldl take v with
        rest := (records.drain (v.rest ++ deliveries.flatten)).rest } := by
  induction deliveries generalizing v with
  | nil =>
      rw [List.flatten_nil, List.append_nil, waiting.rest.1, waiting.rest.2]
      rfl
  | cons delivery deliveries ih =>
      have delivered := deliver_single waiting separate.1
      have drained := Decoder.drain_rest records (v.rest ++ delivery)
      have next : Waiting (v.deliver delivery) := by
        rw [delivered]
        constructor
        · exact foldl_take_ended _ waiting.ended
        · rw [drained]
          exact ⟨rfl, rfl⟩
      have rest : (v.deliver delivery).rest = (records.drain (v.rest ++ delivery)).rest := by
        rw [delivered]
      rw [List.foldl_cons, ih next (by rw [rest]; exact separate.2), rest, delivered,
        foldl_take_rest, List.flatten_cons, ← List.append_assoc,
        Decoder.drain_append records (v.rest ++ delivery), List.foldl_append]

end Service

theorem new_waiting : Service.new.Waiting := by
  constructor
  · rfl
  · change (records.drain []).items = [] ∧ (records.drain []).rest = []
    rw [Decoder.drain_nil]
    exact ⟨rfl, rfl⟩

/-- As long as no delivery goes on into the next request, the division of what a
client sends cannot be told from what the connection does. -/
theorem division_irrelevant (machine : ByteOrder) {first second : List (List Byte)}
    (same : first.flatten = second.flatten) (firstSeparate : Separate [] first)
    (secondSeparate : Separate [] second) :
    ∃ once twice, Machine.run (Connection.receive machine) Connection.new first = .ok once ∧
      Machine.run (Connection.receive machine) Connection.new second = .ok twice ∧
      once.requests = twice.requests ∧ once.state = twice.state ∧ once.sent = twice.sent ∧
      once.inputBuffer.content = twice.inputBuffer.content := by
  obtain ⟨once, firstRan, firstServes⟩ := run_serves machine new_serves first
  obtain ⟨twice, secondRan, secondServes⟩ := run_serves machine new_serves second
  have firstDone := Service.foldl_deliver_single new_waiting firstSeparate
  have secondDone := Service.foldl_deliver_single new_waiting secondSeparate
  rw [same, ← secondDone] at firstDone
  rw [firstDone] at firstServes
  refine ⟨once, twice, firstRan, secondRan, ?_, ?_, ?_, ?_⟩
  · rw [firstServes.requests, secondServes.requests]
  · rw [firstServes.state, secondServes.state]
  · rw [firstServes.sent, secondServes.sent]
  · rw [firstServes.input.content, secondServes.input.content]

/-- The end of a request in two deliveries and in one. -/
theorem division_irrelevant_header :
    ∃ once twice, Machine.run (Connection.receive .little) Connection.new
        [[1, 5, 0, 1], [0, 0, 0, 0]] = .ok once ∧
      Machine.run (Connection.receive .little) Connection.new
        [[1, 5, 0, 1, 0, 0, 0, 0]] = .ok twice ∧
      once.requests = twice.requests ∧ once.state = twice.state ∧ once.sent = twice.sent ∧
      once.inputBuffer.content = twice.inputBuffer.content := by
  have whole : records.drain [1, 5, 0, 1, 0, 0, 0, 0] = ⟨[endOfRequest], [], false⟩ := by
    have cut : records.cut [1, 5, 0, 1, 0, 0, 0, 0] = .item endOfRequest [] := rfl
    rw [Decoder.drain_item cut, Decoder.drain_nil]
  have divided : Separate [] [[1, 5, 0, 1], [0, 0, 0, 0]] := by
    apply separate_of_single
    change Single (records.drain [1, 5, 0, 1, 0, 0, 0, 0]).items
    rw [whole]
    decide
  have undivided : Separate [] [[1, 5, 0, 1, 0, 0, 0, 0]] := by
    apply separate_of_single
    change Single (records.drain [1, 5, 0, 1, 0, 0, 0, 0]).items
    rw [whole]
    decide
  exact division_irrelevant .little (by decide) divided undivided

/-! ## Requests as they are sent -/

/-- Records that carry a request to a responder: one that begins it, the parameters
and the body in pieces of any size, each closed by an empty record. Records the codec
does not look at may stand anywhere among them. -/
def Carries (sent : List Record) (entries : List (List Byte × List Byte)) (body : List Byte)
    (keep : Bool) : Prop :=
  ∃ (begins : List Byte) (stream pieces chunks : List (List Byte)),
    sent.filter Record.used =
      ⟨kFcgiBeginRequest, begins⟩ :: (stream.map (Record.mk kFcgiParams) ++
        ⟨kFcgiParams, []⟩ :: (chunks.map (Record.mk kFcgiStdin) ++ [endOfRequest])) ∧
    kRecordHeader ≤ begins.length ∧ begins.take 2 = [0, 1] ∧
    keep = (begins.getD 2 0 = kFcgiKeepConn : Bool) ∧
    [] ∉ stream ∧ List.Forall₂ EncodesPair entries pieces ∧ stream.flatten = pieces.flatten ∧
    [] ∉ chunks ∧ body = chunks.flatten

namespace Assembly

theorem foldl_params (a : Assembly) {stream : List (List Byte)} (nonempty : [] ∉ stream) :
    (stream.map (Record.mk kFcgiParams)).foldl receive a =
      { a with stream := a.stream ++ stream.flatten } := by
  induction stream generalizing a with
  | nil => simp
  | cons content stream ih =>
      have some_ : content ≠ [] := fun empty => nonempty (by simp [empty])
      have others : [] ∉ stream := fun member => nonempty (List.mem_cons_of_mem _ member)
      have taken : a.receive ⟨kFcgiParams, content⟩ =
          { a with stream := a.stream ++ content } := if_neg some_
      rw [List.map_cons, List.foldl_cons, taken, ih _ others, List.flatten_cons,
        List.append_assoc]

theorem foldl_stdin (a : Assembly) {chunks : List (List Byte)} (nonempty : [] ∉ chunks) :
    (chunks.map (Record.mk kFcgiStdin)).foldl receive a =
      { a with body := a.body ++ chunks.flatten } := by
  induction chunks generalizing a with
  | nil => simp
  | cons content chunks ih =>
      have some_ : content ≠ [] := fun empty => nonempty (by simp [empty])
      have others : [] ∉ chunks := fun member => nonempty (List.mem_cons_of_mem _ member)
      have taken : a.receive ⟨kFcgiStdin, content⟩ =
          { a with body := a.body ++ content } := if_neg some_
      rw [List.map_cons, List.foldl_cons, taken, ih _ others, List.flatten_cons,
        List.append_assoc]

/-- Whatever the codec has been asked about the connection before, the records
assemble to the request they carry. -/
theorem foldl_carries {sent : List Record} {entries : List (List Byte × List Byte)}
    {body : List Byte} {keep : Bool} (carries : Carries sent entries body keep) (kept : Bool) :
    (sent.filter Record.used).foldl receive { new with keep := kept } =
      ⟨[], StringMap.assignAll entries [], body, true, keep⟩ := by
  obtain ⟨begins, stream, pieces, chunks, used, long, role, flags, streamNonempty, encoded, bytes,
    chunksNonempty, rfl⟩ := carries
  have begun : receive { new with keep := kept } ⟨kFcgiBeginRequest, begins⟩ =
      { new with keep := keep } := by
    have responder : kRecordHeader ≤ begins.length ∧ begins.take 2 = [0, 1] := ⟨long, role⟩
    rw [flags]
    exact if_pos responder
  obtain ⟨items, drained⟩ :=
    (Decoder.drained_iff pairs_decides stream.flatten entries).mpr ⟨pieces, encoded, bytes⟩
  have parsed : (⟨stream.flatten, [], [], false, keep⟩ : Assembly).receive ⟨kFcgiParams, []⟩ =
      ⟨[], StringMap.assignAll entries [], [], false, keep⟩ := by
    change addParams _ [] = _
    rw [addParams, if_pos rfl, items, drained]
    rfl
  rw [used, List.foldl_cons, begun, List.foldl_append, foldl_params _ streamNonempty,
    List.foldl_cons]
  change List.foldl receive
    (receive (⟨stream.flatten, [], [], false, keep⟩ : Assembly) ⟨kFcgiParams, []⟩) _ = _
  rw [parsed, List.foldl_append, foldl_stdin _ chunksNonempty]
  rfl

end Assembly

theorem single_params {stream : List (List Byte)} {others : List Record} (single : Single others) :
    Single (stream.map (Record.mk kFcgiParams) ++ others) := by
  induction stream with
  | nil => exact single
  | cons content stream ih =>
      have apart : (⟨kFcgiParams, content⟩ : Record) ≠ endOfRequest := by
        intro same
        cases congrArg Record.type same
      rw [List.map_cons, List.cons_append, Single, if_neg apart]
      exact ih

theorem single_stdin {chunks : List (List Byte)} (nonempty : [] ∉ chunks) :
    Single (chunks.map (Record.mk kFcgiStdin) ++ [endOfRequest]) := by
  induction chunks with
  | nil =>
      rw [List.map_nil, List.nil_append, Single, if_pos rfl]
      intro other member
      cases member
  | cons content chunks ih =>
      have apart : (⟨kFcgiStdin, content⟩ : Record) ≠ endOfRequest := by
        intro same
        have empty : content = [] := congrArg Record.content same
        exact nonempty (by simp [empty])
      rw [List.map_cons, List.cons_append, Single, if_neg apart]
      exact ih fun member => nonempty (List.mem_cons_of_mem _ member)

/-- The request ends with its last record. -/
theorem Carries.single {sent : List Record} {entries : List (List Byte × List Byte)}
    {body : List Byte} {keep : Bool} (carries : Carries sent entries body keep) :
    Single (sent.filter Record.used) := by
  obtain ⟨begins, stream, pieces, chunks, used, -, -, -, -, -, -, nonempty, -⟩ := carries
  have begun : (⟨kFcgiBeginRequest, begins⟩ : Record) ≠ endOfRequest := by
    intro same
    cases congrArg Record.type same
  have ended : (⟨kFcgiParams, []⟩ : Record) ≠ endOfRequest := by
    intro same
    cases congrArg Record.type same
  rw [used, Single, if_neg begun]
  apply single_params
  rw [Single, if_neg ended]
  exact single_stdin nonempty

/-- A request on the wire. Its last delivery ends with it: the client waits for the
response before it sends the next one. -/
structure Transmission where
  entries : List (List Byte × List Byte)
  body : List Byte
  keep : Bool
  sent : List Record
  deliveries : List (List Byte)
  carries : Carries sent entries body keep
  encodes : ∃ pieces, List.Forall₂ EncodesRecord sent pieces ∧
    deliveries.flatten = pieces.flatten

def Transmission.request (t : Transmission) : Request :=
  ⟨StringMap.assignAll t.entries [], t.body⟩

/-- A request without parameters and body in one delivery. -/
example : Transmission where
  entries := []
  body := []
  keep := true
  sent := [⟨kFcgiBeginRequest, [0, 1, 1, 0, 0, 0, 0, 0]⟩, ⟨kFcgiParams, []⟩, endOfRequest]
  deliveries := [[1, 1, 0, 1, 0, 8, 0, 0] ++ [0, 1, 1, 0, 0, 0, 0, 0] ++
    [1, 4, 0, 1, 0, 0, 0, 0] ++ [1, 5, 0, 1, 0, 0, 0, 0]]
  carries := ⟨_, [], [], [], rfl, by decide, rfl, by decide, by decide, List.Forall₂.nil, rfl,
    by decide, rfl⟩
  encodes := ⟨[[1, 1, 0, 1, 0, 8, 0, 0] ++ [0, 1, 1, 0, 0, 0, 0, 0], [1, 4, 0, 1, 0, 0, 0, 0],
      [1, 5, 0, 1, 0, 0, 0, 0]],
    List.Forall₂.cons ⟨1, 0, 1, 0, [], by decide, by decide, rfl⟩
      (List.Forall₂.cons ⟨1, 0, 1, 0, [], by decide, by decide, rfl⟩
        (List.Forall₂.cons ⟨1, 0, 1, 0, [], by decide, by decide, rfl⟩ List.Forall₂.nil)),
    rfl⟩

/-- How many requests are answered: all of them up to the first one that does not ask
for the connection to stay. -/
def answered (serving : Bool) : List Bool → Nat
  | [] => 0
  | keep :: keeps => if serving then answered keep keeps + 1 else 0

theorem answered_false (keeps : List Bool) : answered false keeps = 0 := by
  cases keeps with
  | nil => rfl
  | cons keep keeps => rfl

namespace Service

/-- Between two requests of a client that waits. -/
def between (kept : Bool) (requests : List Request) (serving : Bool) (sent : List Byte) :
    Service :=
  ⟨[], { Assembly.new with keep := kept }, requests, serving, sent⟩

theorem foldl_transmission (t : Transmission) (kept : Bool) (requests : List Request)
    (serving : Bool) (sent : List Byte) :
    t.deliveries.foldl deliver (between kept requests serving sent) =
      between t.keep (requests ++ [t.request]) (serving && t.keep)
        (if serving then sent ++ responseBytes Connection.responseText else sent) := by
  obtain ⟨items, rest⟩ :=
    (Decoder.drained_iff records_decides t.deliveries.flatten t.sent).mpr t.encodes
  have waiting : (between kept requests serving sent).Waiting := by
    constructor
    · rfl
    · exact new_waiting.rest
  have single := t.carries.single
  have drained : records.drain ((between kept requests serving sent).rest ++
      t.deliveries.flatten) = records.drain t.deliveries.flatten := rfl
  have separate : Separate (between kept requests serving sent).rest t.deliveries := by
    apply separate_of_single
    rw [drained, items]
    exact single_of_filter single
  have settled := @settle_single (between kept requests serving sent)
    (t.sent.filter Record.used) single rfl
  rw [foldl_deliver_single waiting separate, drained, items, rest,
    foldl_take_filter t.sent rfl, ← settled]
  have assembled := Assembly.foldl_carries t.carries kept
  change ({ settle { between kept requests serving sent with
    assembly := (t.sent.filter Record.used).foldl Assembly.receive
      { Assembly.new with keep := kept } } with rest := [] } : Service) = _
  rw [assembled]
  rfl

theorem foldl_transmissions (transmissions : List Transmission) (kept : Bool)
    (requests : List Request) (serving : Bool) (sent : List Byte) :
    ∃ last, (transmissions.flatMap Transmission.deliveries).foldl deliver
        (between kept requests serving sent) =
      between last (requests ++ transmissions.map Transmission.request)
        (serving && transmissions.all Transmission.keep)
        (sent ++ (List.replicate (answered serving (transmissions.map Transmission.keep))
          (responseBytes Connection.responseText)).flatten) := by
  induction transmissions generalizing kept requests serving sent with
  | nil => exact ⟨kept, by simp [answered]⟩
  | cons t transmissions ih =>
      obtain ⟨last, others⟩ := ih t.keep (requests ++ [t.request]) (serving && t.keep)
        (if serving then sent ++ responseBytes Connection.responseText else sent)
      refine ⟨last, ?_⟩
      rw [List.flatMap_cons, List.foldl_append, foldl_transmission, others, List.append_assoc,
        List.map_cons, List.map_cons, List.all_cons, Bool.and_assoc]
      cases serving with
      | true => simp [answered, List.replicate_succ]
      | false => simp [answered, answered_false]

end Service

/-- Every request of a client that waits is handed over as it was sent, however it is
put into records and however these are divided. Each is answered up to the first one
that does not ask for the connection to stay, at which the connection is shut down. -/
theorem requests_answered (machine : ByteOrder) (transmissions : List Transmission) :
    ∃ c, Machine.run (Connection.receive machine) Connection.new
        (transmissions.flatMap Transmission.deliveries) = .ok c ∧
      c.requests = transmissions.map Transmission.request ∧
      c.inputBuffer.content = [] ∧
      (c.state = .kConnected ↔ ∀ t ∈ transmissions, t.keep = true) ∧
      records.drain c.sent =
        ⟨(List.replicate (answered true (transmissions.map Transmission.keep))
          (responseRecords Connection.responseText)).flatten, [], false⟩ := by
  obtain ⟨c, ran, serves⟩ := run_serves machine new_serves
    (transmissions.flatMap Transmission.deliveries)
  obtain ⟨last, done⟩ := Service.foldl_transmissions transmissions false [] true []
  change List.foldl Service.deliver Service.new _ = _ at done
  rw [done] at serves
  refine ⟨c, ran, ?_, ?_, ?_, ?_⟩
  · rw [serves.requests]
    rfl
  · rw [serves.input.content]
    rfl
  · rw [serves.state]
    change stateOf (true && transmissions.all Transmission.keep) = _ ↔ _
    rw [Bool.true_and, ← List.all_eq_true]
    cases transmissions.all Transmission.keep with
    | true => simp [stateOf]
    | false => simp [stateOf]
  · rw [serves.sent]
    exact responses_drained (by decide) _

end Msmuduo.FastCgi
