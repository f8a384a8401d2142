import Msmuduo.Chat
import Msmuduo.Framing

/-!
# The messages of the chat

A message is its length in network order and its bytes. The codec cuts a message
off the front of the readable bytes, waits for more, or rejects the length; what
it finds does not depend on the byte order of the machine. What `send` writes is
read back as it was.
-/

namespace Msmuduo.Chat

open Msmuduo.Machine Msmuduo.Window Msmuduo.Endian Msmuduo.Endiantool Msmuduo.Framing Msmuduo.Buffer

set_option autoImplicit false

/-- The number in the first four bytes, most significant byte first. -/
def lengthOf (bytes : List Byte) : Nat := ByteOrder.big.load (bytes.take kHeaderLen)

/-- The front of the readable bytes, as the codec sees it. -/
def cutMessage (bytes : List Byte) : Cut (List Byte) Byte :=
  if bytes.length < kHeaderLen then .more
  else if 65536 < lengthOf bytes then .bad
  else if bytes.length < kHeaderLen + lengthOf bytes then .more
  else .item ((bytes.drop kHeaderLen).take (lengthOf bytes))
    (bytes.drop (kHeaderLen + lengthOf bytes))

/-- The bytes of a message. -/
def encode (message : List Byte) : List Byte := bigEndian kHeaderLen message.length ++ message

/-! ## Cutting -/

section

variable {bytes : List Byte}

theorem cutMessage_short (short : bytes.length < kHeaderLen) : cutMessage bytes = .more := by
  rw [cutMessage, if_pos short]

theorem cutMessage_invalid (header : kHeaderLen ≤ bytes.length)
    (invalid : 65536 < lengthOf bytes) : cutMessage bytes = .bad := by
  rw [cutMessage, if_neg (Nat.not_lt.mpr header), if_pos invalid]

theorem cutMessage_waiting (header : kHeaderLen ≤ bytes.length)
    (valid : lengthOf bytes ≤ 65536) (lacking : bytes.length < kHeaderLen + lengthOf bytes) :
    cutMessage bytes = .more := by
  rw [cutMessage, if_neg (Nat.not_lt.mpr header), if_neg (Nat.not_lt.mpr valid), if_pos lacking]

theorem cutMessage_whole (valid : lengthOf bytes ≤ 65536)
    (whole : kHeaderLen + lengthOf bytes ≤ bytes.length) :
    cutMessage bytes = .item ((bytes.drop kHeaderLen).take (lengthOf bytes))
      (bytes.drop (kHeaderLen + lengthOf bytes)) := by
  have header : ¬bytes.length < kHeaderLen := by omega
  rw [cutMessage, if_neg header, if_neg (Nat.not_lt.mpr valid), if_neg (Nat.not_lt.mpr whole)]

/-- A message that was cut off was whole and not too long. -/
theorem cutMessage_item {message rest : List Byte} (cut : cutMessage bytes = .item message rest) :
    lengthOf bytes ≤ 65536 ∧ kHeaderLen + lengthOf bytes ≤ bytes.length ∧
      message = (bytes.drop kHeaderLen).take (lengthOf bytes) ∧
      rest = bytes.drop (kHeaderLen + lengthOf bytes) := by
  unfold cutMessage at cut
  split_ifs at cut with short invalid lacking
  obtain ⟨same, left⟩ := Cut.item.inj cut
  exact ⟨Nat.not_lt.mp invalid, Nat.not_lt.mp lacking, same.symm, left.symm⟩

theorem cutMessage_bad (cut : cutMessage bytes = .bad) :
    kHeaderLen ≤ bytes.length ∧ 65536 < lengthOf bytes := by
  unfold cutMessage at cut
  split_ifs at cut with short invalid lacking
  exact ⟨Nat.not_lt.mp short, invalid⟩

theorem lengthOf_append (later : List Byte) (header : kHeaderLen ≤ bytes.length) :
    lengthOf (bytes ++ later) = lengthOf bytes := by
  rw [lengthOf, List.take_append_of_le_length header, lengthOf]

theorem cutMessage_bounded {message rest : List Byte}
    (cut : cutMessage bytes = .item message rest) : message.length ≤ 65536 := by
  obtain ⟨valid, -, same, -⟩ := cutMessage_item cut
  rw [same, List.length_take]
  exact (Nat.min_le_left _ _).trans valid

end

/-- The codec as a decoder. -/
def codec : Decoder (List Byte) Byte where
  cut := cutMessage
  waits := rfl
  shorter := by
    intro cells message rest cut
    obtain ⟨-, whole, -, left⟩ := cutMessage_item cut
    rw [left, List.length_drop]
    unfold kHeaderLen at *
    omega
  item_stable := by
    intro cells message rest later cut
    obtain ⟨valid, whole, same, left⟩ := cutMessage_item cut
    have header : kHeaderLen ≤ cells.length := by omega
    have length := lengthOf_append later header
    have longer : kHeaderLen + lengthOf (cells ++ later) ≤ (cells ++ later).length := by
      rw [length, List.length_append]
      omega
    rw [cutMessage_whole (by rw [length]; exact valid) longer, length, same, left,
      List.drop_append_of_le_length header, List.drop_append_of_le_length whole,
      List.take_append_of_le_length (by rw [List.length_drop]; omega)]
  bad_stable := by
    intro cells later cut
    obtain ⟨header, invalid⟩ := cutMessage_bad cut
    apply cutMessage_invalid
    · rw [List.length_append]
      omega
    · rw [lengthOf_append later header]
      exact invalid

/-! ## Writing messages -/

theorem lengthOf_encode (message rest : List Byte) (fits : message.length < 256 ^ kHeaderLen) :
    lengthOf (encode message ++ rest) = message.length := by
  have header : (bigEndian kHeaderLen message.length).length = kHeaderLen := length_bigEndian _ _
  rw [lengthOf, encode, List.append_assoc, List.take_append_of_le_length (Nat.le_of_eq header.symm),
    List.take_of_length_le (Nat.le_of_eq header)]
  exact ByteOrder.big.load_store kHeaderLen message.length fits

@[simp]
theorem length_encode (message : List Byte) :
    (encode message).length = kHeaderLen + message.length := by
  rw [encode, List.length_append, length_bigEndian]

/-- A message that is not too long is read back as it was written. -/
theorem cut_encode {message : List Byte} (bounded : message.length ≤ 65536) :
    codec.Reads encode message := by
  intro rest
  have fits : message.length < 256 ^ kHeaderLen := by
    unfold kHeaderLen
    omega
  have length := lengthOf_encode message rest fits
  have header : (bigEndian kHeaderLen message.length).length = kHeaderLen := length_bigEndian _ _
  have behind : (encode message ++ rest).drop kHeaderLen = message ++ rest := by
    rw [encode, List.append_assoc, List.drop_append_of_le_length (Nat.le_of_eq header.symm),
      List.drop_of_length_le (Nat.le_of_eq header), List.nil_append]
  change cutMessage (encode message ++ rest) = _
  rw [cutMessage_whole (by rw [length]; exact bounded)
    (by rw [length, List.length_append, length_encode]; omega), length, behind, List.take_left,
    ← List.drop_drop, behind, List.drop_left]

/-- A longer one is rejected. -/
theorem cut_encode_long {message : List Byte} (long : 65536 < message.length)
    (fits : message.length < 256 ^ kHeaderLen) (rest : List Byte) :
    codec.cut (encode message ++ rest) = .bad := by
  change cutMessage (encode message ++ rest) = _
  apply cutMessage_invalid
  · rw [List.length_append, length_encode]
    omega
  · rw [lengthOf_encode message rest fits]
    exact long

/-- What has been cut off any bytes could be sent. -/
theorem drained_bounded (bytes : List Byte) :
    ∀ message ∈ (codec.drain bytes).items, message.length ≤ 65536 := by
  induction bytes using Decoder.drain.induct codec with
  | case1 bytes waits =>
      intro message member
      rw [Decoder.drain_more waits] at member
      cases member
  | case2 bytes rejects =>
      intro message member
      rw [Decoder.drain_bad rejects] at member
      cases member
  | case3 bytes first rest found ih =>
      intro message member
      rw [Decoder.drain_item found] at member
      rcases List.mem_cons.mp member with same | later
      · rw [same]
        exact cutMessage_bounded found
      · exact ih message later

/-! ## The header in memory -/

section

variable {buf : Buffer} {bytes : List Byte}

theorem ntohl_load (machine : ByteOrder) (header : List Byte) (size : header.length = kHeaderLen) :
    ntohl machine (UInt32.ofNat (machine.load header)) =
      UInt32.ofNat (ByteOrder.big.load header) := by
  have fits := machine.load_lt header
  rw [size] at fits
  have number : (UInt32.ofNat (machine.load header)).toNat = machine.load header := by
    rw [UInt32.toNat_ofNat']
    exact Nat.mod_eq_of_lt fits
  have stored := machine.store_load header
  rw [size] at stored
  rw [ntohl, number]
  unfold kHeaderLen at stored
  rw [stored]

/-- The header is the length in network order, as a signed number. -/
theorem headerAt_represents (machine : ByteOrder) (represents : Represents buf bytes)
    (header : kHeaderLen ≤ bytes.length) :
    headerAt machine buf = (UInt32.ofNat (lengthOf bytes)).toInt32 := by
  have front : window buf.buffer buf.peek (buf.peek + kHeaderLen) = bytes.take kHeaderLen :=
    represents.window_peek kHeaderLen (by rw [represents.readable]; exact header)
  have size : (bytes.take kHeaderLen).length = kHeaderLen := by
    rw [List.length_take]
    exact Nat.min_eq_left header
  rw [headerAt, front, networkToHost32, ntohl_load machine _ size, lengthOf]

theorem lengthOf_lt (bytes : List Byte) : lengthOf bytes < 2 ^ 32 := by
  have fits := ByteOrder.big.load_lt (bytes.take kHeaderLen)
  have size : (bytes.take kHeaderLen).length ≤ 4 := List.length_take_le _ _
  calc lengthOf bytes < 256 ^ (bytes.take kHeaderLen).length := fits
    _ ≤ 256 ^ 4 := Nat.pow_le_pow_right (by decide) size

theorem toInt_signed (length : Nat) (fits : length < 2 ^ 32) :
    (UInt32.ofNat length).toInt32.toInt =
      if length < 2 ^ 31 then (length : Int) else length - 2 ^ 32 := by
  have number : (UInt32.ofNat length).toNat = length := by
    rw [UInt32.toNat_ofNat']
    exact Nat.mod_eq_of_lt fits
  have bits : (UInt32.ofNat length).toInt32.toInt =
      (UInt32.ofNat length).toBitVec.toInt := rfl
  have same : (UInt32.ofNat length).toBitVec.toNat = length := number
  rw [bits, BitVec.toInt_eq_toNat_cond, same]
  split_ifs <;> omega

/-- The two comparisons of the source together reject the lengths above the bound,
those that are negative as a signed number among them. -/
theorem invalid_iff (length : Nat) (fits : length < 2 ^ 32) :
    (maxLength < (UInt32.ofNat length).toInt32 ∨ (UInt32.ofNat length).toInt32 < 0) ↔
      65536 < length := by
  have value := toInt_signed length fits
  have bound : maxLength.toInt = 65536 := by decide
  have zero : (0 : Int32).toInt = 0 := by decide
  rw [Int32.lt_iff_toInt_lt, Int32.lt_iff_toInt_lt, bound, zero, value]
  split_ifs <;> omega

theorem toNat_valid (length : Nat) (valid : length ≤ 65536) :
    (UInt32.ofNat length).toInt32.toNatClampNeg = length := by
  have value := toInt_signed length (by omega)
  rw [Int32.toNatClampNeg, value, if_pos (by omega)]
  rfl

end

/-! ## The frame -/

/-- The buffer `send` hands to the connection holds the encoded message. -/
theorem frame_encodes (machine : ByteOrder) (message : List Byte)
    (bounded : message.length ≤ 65536) :
    ∃ buf, frame machine message = .ok buf ∧ buf.content = encode message := by
  obtain ⟨filled, appended, represents⟩ :=
    append_represents (new_represents kInitialSize) message
  have start : Reserved (new kInitialSize) := Nat.le_refl kCheapPrepend
  have reserved : Reserved filled := append_reserved start appended
  have length : (Int32.ofNat message.length).toUInt32.toNat = message.length := by
    have small : message.length < 2 ^ 32 := by omega
    change (UInt32.ofNat message.length).toNat = message.length
    rw [UInt32.toNat_ofNat']
    exact Nat.mod_eq_of_lt small
  have header : machine.store 4
      (hostToNetwork32 machine (Int32.ofNat message.length).toUInt32).toNat =
        bigEndian kHeaderLen message.length := by
    rw [hostToNetwork32, store_htonl, length]
    rfl
  have room : (bigEndian kHeaderLen message.length).length ≤ filled.prependableBytes := by
    rw [length_bigEndian]
    unfold Reserved at reserved
    exact Nat.le_trans (by decide) reserved
  obtain ⟨buf, prepended, after⟩ := prepend_represents represents _ room
  refine ⟨buf, ?_, ?_⟩
  · simp only [frame, appended, bind, Except.bind, header]
    exact prepended
  · rw [after.content, List.nil_append]
    rfl

end Msmuduo.Chat
