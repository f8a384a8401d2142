import Msmuduo.FastCgiParams

/-!
# Records and requests

A record is a header, its content and padding; what the codec finds does not depend
on the byte order of the machine. The codec is compared with an assembler of records:
the parameters are collected until an empty record ends them, and the body until an
empty record ends the request. The loop of `parseRequest` hands the assembler the
records that are whole and keeps the rest.
-/

namespace Msmuduo.FastCgi

open Msmuduo.Machine Msmuduo.Window Msmuduo.Endian Msmuduo.Endiantool Msmuduo.Framing
open Msmuduo.Buffer

set_option autoImplicit false

structure Record where
  type : Byte
  content : List Byte
  deriving DecidableEq, Repr

/-- The bytes of a record. Its version, its request id, its padding and the reserved
byte are any. -/
def EncodesRecord (record : Record) (bytes : List Byte) : Prop :=
  ∃ (version id₁ id₀ reserved : Byte) (padding : List Byte),
    record.content.length < 2 ^ 16 ∧ padding.length < 256 ∧
    bytes = version :: record.type :: id₁ :: id₀ :: (bigEndian 2 record.content.length ++
      UInt8.ofNat padding.length :: reserved :: (record.content ++ padding))

/-- The front of the readable bytes, as the codec sees it. -/
def cutRecord : List Byte → Cut Record Byte
  | _ :: type :: _ :: _ :: length₁ :: length₀ :: padding :: _ :: rest =>
      let length := ByteOrder.big.load [length₁, length₀]
      if length + padding.toNat ≤ rest.length then
        .item ⟨type, rest.take length⟩ (rest.drop (length + padding.toNat))
      else .more
  | _ => .more

theorem cutRecord_short {bytes : List Byte} (short : bytes.length < kRecordHeader) :
    cutRecord bytes = .more := by
  unfold cutRecord
  split
  · exact absurd short (by simp [kRecordHeader])
  · rfl

/-- A list of eight cells at least has eight cells. -/
theorem exists_header {bytes : List Byte} (header : kRecordHeader ≤ bytes.length) :
    ∃ version type id₁ id₀ length₁ length₀ padding reserved rest, bytes =
      version :: type :: id₁ :: id₀ :: length₁ :: length₀ :: padding :: reserved :: rest := by
  match bytes, header with
  | version :: type :: id₁ :: id₀ :: length₁ :: length₀ :: padding :: reserved :: rest, _ =>
      exact ⟨version, type, id₁, id₀, length₁, length₀, padding, reserved, rest, rfl⟩

theorem cutRecord_encodes {record : Record} {bytes : List Byte}
    (encodes : EncodesRecord record bytes) (rest : List Byte) :
    cutRecord (bytes ++ rest) = .item record rest := by
  obtain ⟨version, id₁, id₀, reserved, padding, fits, padded, rfl⟩ := encodes
  have size := length_bigEndian 2 record.content.length
  have loaded : ByteOrder.big.load (bigEndian 2 record.content.length) = record.content.length :=
    ByteOrder.big.load_store 2 record.content.length fits
  have padding_ : (UInt8.ofNat padding.length).toNat = padding.length := by
    rw [UInt8.toNat_ofNat']
    omega
  match two : bigEndian 2 record.content.length, size with
  | [length₁, length₀], _ =>
      rw [two] at loaded
      have whole : record.content.length + padding.length ≤
          (record.content ++ (padding ++ rest)).length := by
        simp only [List.length_append]
        omega
      simp only [List.cons_append, List.nil_append, List.append_assoc, cutRecord, loaded, padding_]
      rw [if_pos whole, List.take_left, ← List.drop_drop, List.drop_left, List.drop_left]

theorem cutRecord_sound {bytes rest : List Byte} {record : Record}
    (cut : cutRecord bytes = .item record rest) :
    ∃ piece, EncodesRecord record piece ∧ bytes = piece ++ rest := by
  unfold cutRecord at cut
  split at cut
  · next version type id₁ id₀ length₁ length₀ padding reserved behind =>
    dsimp only at cut
    split_ifs at cut with whole
    cases cut
    have bound := ByteOrder.big.load_lt [length₁, length₀]
    have stored : bigEndian 2 (ByteOrder.big.load [length₁, length₀]) = [length₁, length₀] :=
      ByteOrder.big.store_load [length₁, length₀]
    simp only [List.length_cons, List.length_nil] at bound
    have contentSize : (behind.take (ByteOrder.big.load [length₁, length₀])).length =
        ByteOrder.big.load [length₁, length₀] := by
      rw [List.length_take]
      omega
    have paddingSize : ((behind.drop (ByteOrder.big.load [length₁, length₀])).take
        padding.toNat).length = padding.toNat := by
      rw [List.length_take, List.length_drop]
      omega
    refine ⟨_, ⟨version, id₁, id₀, reserved, (behind.drop
      (ByteOrder.big.load [length₁, length₀])).take padding.toNat, ?_, ?_, rfl⟩, ?_⟩
    · rw [contentSize]
      omega
    · rw [paddingSize]
      exact padding.toNat_lt
    · rw [contentSize, paddingSize, stored, UInt8.ofNat_toNat, ← List.drop_drop]
      simp only [List.cons_append, List.nil_append, List.append_assoc, List.take_append_drop]
  · cases cut

/-- The records as a decoder. -/
def records : Decoder Record Byte where
  cut := cutRecord
  waits := rfl
  shorter := by
    intro cells record rest cut
    obtain ⟨piece, ⟨version, id₁, id₀, reserved, padding, -, -, same⟩, split⟩ :=
      cutRecord_sound cut
    rw [split, same]
    simp only [List.length_append, List.length_cons]
    omega
  item_stable := by
    intro cells record rest later cut
    obtain ⟨piece, encodes, split⟩ := cutRecord_sound cut
    rw [split, List.append_assoc]
    exact cutRecord_encodes encodes _
  bad_stable := by
    intro cells later cut
    unfold cutRecord at cut
    split at cut
    · dsimp only at cut
      split_ifs at cut
    · cases cut

theorem records_decides : records.Decides EncodesRecord where
  reads := cutRecord_encodes
  sound := cutRecord_sound

/-! ## Assembling requests -/

/-- A request that is being received. -/
structure Assembly where
  stream : List Byte
  table : StringMap
  body : List Byte
  ended : Bool
  keep : Bool
  deriving DecidableEq, Repr

namespace Assembly

def new : Assembly where
  stream := []
  table := []
  body := []
  ended := false
  keep := false

def begins (a : Assembly) (content : List Byte) : Assembly :=
  if kRecordHeader ≤ content.length ∧ content.take 2 = [0, 1] then
    { a with keep := content.getD 2 0 = kFcgiKeepConn }
  else a

def addParams (a : Assembly) (content : List Byte) : Assembly :=
  if content = [] then
    { a with
      stream := leftover (pairs.drain a.stream).rest
      table := StringMap.assignAll (pairs.drain a.stream).items a.table }
  else { a with stream := a.stream ++ content }

def addStdin (a : Assembly) (content : List Byte) : Assembly :=
  if content = [] then { a with ended := true } else { a with body := a.body ++ content }

def receive (a : Assembly) (record : Record) : Assembly :=
  if record.type = kFcgiBeginRequest then a.begins record.content
  else if record.type = kFcgiParams then a.addParams record.content
  else if record.type = kFcgiStdin then a.addStdin record.content
  else a

end Assembly

/-- The codec has assembled the same. -/
structure Follows (codec : FastCgiCodec) (a : Assembly) : Prop where
  stream : Represents codec.paramsStream a.stream
  params : codec.params = a.table
  stdin : Represents codec.stdin a.body
  gotRequest : codec.gotRequest = a.ended
  keepConn : codec.keepConn = a.keep

theorem new_follows : Follows FastCgiCodec.new Assembly.new where
  stream := new_represents _
  params := rfl
  stdin := new_represents _
  gotRequest := rfl
  keepConn := rfl

/-! ## The codec assembles requests -/

section

variable {buf : Buffer} {bytes : List Byte} {codec : FastCgiCodec} {a : Assembly}

theorem window_inside (represents : Represents buf bytes) (offset len : Nat)
    (bound : offset + len ≤ buf.readableBytes) :
    window buf.buffer (buf.peek + offset) (buf.peek + offset + len) =
      (bytes.drop offset).take len := by
  have ordered := represents.ordered
  unfold readableBytes at bound
  rw [← represents.content, Buffer.content, window, window, List.drop_drop, peek,
    List.take_drop, List.take_take]
  congr 2
  omega

theorem getD_inside (represents : Represents buf bytes) (offset : Nat)
    (bound : offset < buf.readableBytes) :
    buf.buffer.getD (buf.peek + offset) 0 = bytes.getD offset 0 := by
  have ordered := represents.ordered
  unfold readableBytes at bound
  rw [List.getD_eq_getElem?_getD, List.getD_eq_getElem?_getD, ← represents.content,
    Buffer.content, window, List.getElem?_drop, List.getElem?_take_of_lt (by omega), peek]

theorem load_two_lt (machine : ByteOrder) (first second : Byte) :
    machine.load [first, second] < 2 ^ 16 := by
  have fits := machine.load_lt [first, second]
  simp only [List.length_cons, List.length_nil] at fits
  omega

/-- Two bytes that are loaded, and converted to network order, are a number in
network order on every machine. -/
theorem htons_load (machine : ByteOrder) (first second : Byte) :
    htons machine (UInt16.ofNat (machine.load [first, second])) =
      UInt16.ofNat (ByteOrder.big.load [first, second]) := by
  have stored := machine.store_load [first, second]
  have number : (UInt16.ofNat (machine.load [first, second])).toNat =
      machine.load [first, second] := by
    rw [UInt16.toNat_ofNat']
    exact Nat.mod_eq_of_lt (load_two_lt machine first second)
  simp only [List.length_cons, List.length_nil] at stored
  rw [htons, number]
  cases machine with
  | little =>
      change littleEndian 2 _ = _ at stored
      rw [bigEndian, stored]
      rfl
  | big =>
      change bigEndian 2 _ = _ at stored
      rw [stored]

theorem role_iff (first second : Byte) :
    UInt16.ofNat (ByteOrder.big.load [first, second]) = kFcgiResponder ↔
      [first, second] = [0, 1] := by
  constructor
  · intro same
    have number := congrArg UInt16.toNat same
    rw [UInt16.toNat_ofNat', Nat.mod_eq_of_lt (load_two_lt _ first second)] at number
    have stored : bigEndian 2 (ByteOrder.big.load [first, second]) = [first, second] :=
      ByteOrder.big.store_load [first, second]
    rw [number] at stored
    exact stored.symm
  · intro same
    rw [same]
    rfl

section

variable {version type id₁ id₀ length₁ length₀ padding reserved : Byte} {rest : List Byte}

theorem header_type (machine : ByteOrder)
    (represents : Represents buf
      (version :: type :: id₁ :: id₀ :: length₁ :: length₀ :: padding :: reserved :: rest)) :
    headerAt machine buf =
      { version := version
        type := type
        id := networkToHost16 machine (UInt16.ofNat (machine.load [id₁, id₀]))
        length := UInt16.ofNat (ByteOrder.big.load [length₁, length₀])
        padding := padding
        reserved := reserved } := by
  have header : kRecordHeader ≤ buf.readableBytes := by
    rw [represents.readable]
    simp [kRecordHeader]
  have memory := represents.window_peek kRecordHeader header
  rw [headerAt, memory]
  simp only [RecordHeader.load, kRecordHeader, window, List.take, List.drop, hostToNetwork16,
    htons_load, List.getD_cons_zero, List.getD_cons_succ]

theorem onParams_follows (machine : ByteOrder) (follows : Follows codec a) (content : List Byte) :
    ∃ accepted next, codec.onParams machine content = .ok (accepted, next) ∧
      Follows next (a.addParams content) := by
  unfold FastCgiCodec.onParams Assembly.addParams
  by_cases empty : content = []
  · have enough : a.stream.length < codec.paramsStream.readableBytes + 1 := by
      rw [follows.stream.readable]
      exact Nat.lt_succ_self _
    obtain ⟨paramsStream, parsed, left⟩ := parseAllParams_spec machine follows.stream enough
    have nothing : ¬0 < ([] : List Byte).length := Nat.lt_irrefl 0
    rw [if_pos empty, empty, if_neg nothing]
    refine ⟨_, _, parsed, ?_⟩
    constructor
    · exact left
    · rw [follows.params]
    · exact follows.stdin
    · exact follows.gotRequest
    · exact follows.keepConn
  · obtain ⟨paramsStream, appended, after⟩ := append_represents follows.stream content
    rw [if_neg empty, if_pos (List.length_pos_iff.mpr empty)]
    refine ⟨true, { codec with paramsStream := paramsStream }, ?_, ?_⟩
    · simp only [appended, inBuffer, Except.mapError, bind, Except.bind, pure, Except.pure]
    · constructor
      · exact after
      · exact follows.params
      · exact follows.stdin
      · exact follows.gotRequest
      · exact follows.keepConn

theorem onStdin_follows (follows : Follows codec a) (content : List Byte) :
    ∃ next, codec.onStdin content = .ok next ∧ Follows next (a.addStdin content) := by
  unfold FastCgiCodec.onStdin Assembly.addStdin
  by_cases empty : content = []
  · have nothing : ¬0 < ([] : List Byte).length := Nat.lt_irrefl 0
    rw [if_pos empty, empty, if_neg nothing]
    refine ⟨{ codec with gotRequest := true }, rfl, ?_⟩
    constructor
    · exact follows.stream
    · exact follows.params
    · exact follows.stdin
    · rfl
    · exact follows.keepConn
  · obtain ⟨stdin, appended, after⟩ := append_represents follows.stdin content
    rw [if_neg empty, if_pos (List.length_pos_iff.mpr empty)]
    refine ⟨{ codec with stdin := stdin }, ?_, ?_⟩
    · simp only [appended, inBuffer, Except.mapError, bind, Except.bind, pure, Except.pure]
    · constructor
      · exact follows.stream
      · exact follows.params
      · exact after
      · exact follows.gotRequest
      · exact follows.keepConn

/-- The role and the flags are read behind the header, inside the content. -/
theorem onBeginRequest_follows (machine : ByteOrder)
    (represents : Represents buf
      (version :: type :: id₁ :: id₀ :: length₁ :: length₀ :: padding :: reserved :: rest))
    (whole : ByteOrder.big.load [length₁, length₀] ≤ rest.length)
    (begins : type = kFcgiBeginRequest) (follows : Follows codec a) :
    ∃ accepted next, codec.onBeginRequest machine (headerAt machine buf) buf =
        .ok (accepted, next) ∧
      Follows next (a.begins (rest.take (ByteOrder.big.load [length₁, length₀]))) := by
  have number : (UInt16.ofNat (ByteOrder.big.load [length₁, length₀])).toNat =
      ByteOrder.big.load [length₁, length₀] := by
    rw [UInt16.toNat_ofNat']
    exact Nat.mod_eq_of_lt (load_two_lt _ _ _)
  have size : buf.readableBytes = rest.length + 8 := represents.readable
  have contentSize : (rest.take (ByteOrder.big.load [length₁, length₀])).length =
      ByteOrder.big.load [length₁, length₀] := List.length_take_of_le whole
  rw [header_type machine represents]
  simp only [FastCgiCodec.onBeginRequest, number, Assembly.begins, contentSize]
  rw [require_ok (by omega), require_ok begins]
  simp only [bind, Except.bind]
  by_cases long : kRecordHeader ≤ ByteOrder.big.load [length₁, length₀]
  · obtain ⟨first, second, flags, _, _, _, _, _, others, rfl⟩ :=
      exists_header (long.trans whole)
    obtain ⟨more, split⟩ : ∃ more, ByteOrder.big.load [length₁, length₀] = more + 3 := by
      unfold kRecordHeader at long
      exact ⟨ByteOrder.big.load [length₁, length₀] - 3, by omega⟩
    simp only [List.length_cons] at size
    have role := window_inside represents kRecordHeader 2 (by unfold kRecordHeader; omega)
    have flag := getD_inside represents (kRecordHeader + 2) (by unfold kRecordHeader; omega)
    rw [← Nat.add_assoc] at flag
    rw [if_pos long, role, flag, split]
    simp only [kRecordHeader, List.drop_succ_cons, List.drop_zero, List.take_succ_cons,
      List.take_zero, List.getD_cons_succ, List.getD_cons_zero, hostToNetwork16, htons_load]
    by_cases responder : [first, second] = [0, 1]
    · have begun : 8 ≤ more + 3 ∧ [first, second] = [0, 1] := by
        rw [← split]
        exact ⟨long, responder⟩
      rw [if_pos ((role_iff first second).mpr responder), if_pos begun]
      refine ⟨true, _, rfl, ?_⟩
      constructor
      · exact follows.stream
      · exact follows.params
      · exact follows.stdin
      · exact follows.gotRequest
      · rfl
    · rw [if_neg (fun same => responder ((role_iff first second).mp same)),
        if_neg (fun both => responder both.2)]
      exact ⟨false, codec, rfl, follows⟩
  · rw [if_neg long, if_neg (fun both => long both.1)]
    exact ⟨false, codec, rfl, follows⟩

theorem dispatch_follows (machine : ByteOrder)
    (represents : Represents buf
      (version :: type :: id₁ :: id₀ :: length₁ :: length₀ :: padding :: reserved :: rest))
    (whole : ByteOrder.big.load [length₁, length₀] ≤ rest.length) (follows : Follows codec a) :
    ∃ next, codec.dispatch machine (headerAt machine buf) buf = .ok next ∧
      Follows next
        (a.receive ⟨type, rest.take (ByteOrder.big.load [length₁, length₀])⟩) := by
  have number : (UInt16.ofNat (ByteOrder.big.load [length₁, length₀])).toNat =
      ByteOrder.big.load [length₁, length₀] := by
    rw [UInt16.toNat_ofNat']
    exact Nat.mod_eq_of_lt (load_two_lt _ _ _)
  have size : buf.readableBytes = rest.length + 8 := represents.readable
  have content := window_inside represents kRecordHeader (ByteOrder.big.load [length₁, length₀])
    (by unfold kRecordHeader; omega)
  have header := header_type machine represents
  have typed : (headerAt machine buf).type = type := by rw [header]
  have length : (headerAt machine buf).length.toNat = ByteOrder.big.load [length₁, length₀] := by
    rw [header]
    exact number
  unfold FastCgiCodec.dispatch Assembly.receive
  simp only [typed, length, content]
  split_ifs with begins params stdin
  · obtain ⟨accepted, next, ran, after⟩ :=
      onBeginRequest_follows machine represents whole begins follows
    refine ⟨next, ?_, after⟩
    simp only [ran, bind, Except.bind, pure, Except.pure]
  · obtain ⟨accepted, next, ran, after⟩ := onParams_follows machine follows
      (rest.take (ByteOrder.big.load [length₁, length₀]))
    refine ⟨next, ?_, after⟩
    simp only [kRecordHeader, List.drop_succ_cons, List.drop_zero, ran, bind, Except.bind, pure,
      Except.pure]
  · exact onStdin_follows follows _
  · exact ⟨codec, rfl, follows⟩

end

/-- The loop hands the assembler every record that is whole, and keeps the rest. -/
theorem parseRequest_follows (machine : ByteOrder) {turns : Nat}
    (represents : Represents buf bytes) (enough : bytes.length < turns)
    (follows : Follows codec a) :
    ∃ next rest, codec.parseRequest machine turns buf = .ok (next, rest) ∧
      Follows next ((records.drain bytes).items.foldl Assembly.receive a) ∧
      Represents rest (records.drain bytes).rest := by
  induction turns generalizing codec buf bytes a with
  | zero => exact absurd enough (Nat.not_lt_zero _)
  | succ turns ih =>
      unfold FastCgiCodec.parseRequest
      by_cases header : kRecordHeader ≤ bytes.length
      · obtain ⟨version, type, id₁, id₀, length₁, length₀, padding, reserved, behind, rfl⟩ :=
          exists_header header
        have size : buf.readableBytes = behind.length + 8 := represents.readable
        have found := header_type machine represents
        have total : kRecordHeader + (headerAt machine buf).length.toNat +
            (headerAt machine buf).padding.toNat =
              8 + (ByteOrder.big.load [length₁, length₀] + padding.toNat) := by
          rw [found, Nat.add_assoc]
          dsimp only
          rw [UInt16.toNat_ofNat', Nat.mod_eq_of_lt (load_two_lt _ _ _)]
          rfl
        rw [if_pos (by rw [represents.readable]; exact header)]
        simp only [total]
        by_cases whole : ByteOrder.big.load [length₁, length₀] + padding.toNat ≤ behind.length
        · have cut : records.cut (version :: type :: id₁ :: id₀ :: length₁ :: length₀ ::
              padding :: reserved :: behind) =
                .item ⟨type, behind.take (ByteOrder.big.load [length₁, length₀])⟩
                  (behind.drop (ByteOrder.big.load [length₁, length₀] + padding.toNat)) :=
            if_pos whole
          obtain ⟨next, ran, after⟩ :=
            dispatch_follows machine represents ((Nat.le_add_right _ _).trans whole) follows
          obtain ⟨rest, retrieved, left⟩ := retrieve_represents represents
            (8 + (ByteOrder.big.load [length₁, length₀] + padding.toNat)) (by omega)
          rw [if_pos (by omega), ran]
          simp only [retrieved, inBuffer, Except.mapError, bind, Except.bind]
          rw [← List.drop_drop] at left
          rw [Decoder.drain_item cut]
          have shorter := records.shorter cut
          exact ih left (shorter.trans_le (Nat.lt_succ_iff.mp enough)) after
        · have cut : records.cut (version :: type :: id₁ :: id₀ :: length₁ :: length₀ ::
              padding :: reserved :: behind) = .more := if_neg whole
          rw [if_neg (by omega), Decoder.drain_more cut]
          exact ⟨codec, buf, rfl, follows, represents⟩
      · have short : records.cut bytes = .more := cutRecord_short (Nat.not_le.mp header)
        rw [if_neg (by rw [represents.readable]; exact header), Decoder.drain_more short]
        exact ⟨codec, buf, rfl, follows, represents⟩

end

end Msmuduo.FastCgi
