import Mathlib.Data.Nat.Bitwise
import Msmuduo.FastCgi
import Msmuduo.Framing
import Msmuduo.StringMap

/-!
# The parameters of a request

The stream of the parameters is a sequence of pairs, each of them the lengths of its
two strings and the strings. A length below 128 may take one byte and any length
below 2^31 four, with the highest bit set. The codec accepts exactly the streams of
this grammar, on a machine of either byte order.
-/

namespace Msmuduo.FastCgi

open Msmuduo.Machine Msmuduo.Window Msmuduo.Endian Msmuduo.Endiantool Msmuduo.Framing
open Msmuduo.Buffer

set_option autoImplicit false

/-! ## Lengths -/

inductive EncodesLength : Nat → List Byte → Prop where
  | short {length : Nat} (bound : length < 128) : EncodesLength length [UInt8.ofNat length]
  | long {length : Nat} (bound : length < 2 ^ 31) :
      EncodesLength length (bigEndian 4 (2 ^ 31 + length))

/-- The length at the front of a stream and what is behind it. -/
def lengthAt : List Byte → Option (Nat × List Byte)
  | [] => none
  | first :: rest =>
      if first.toNat < 128 then some (first.toNat, rest)
      else if (first :: rest).length < 4 then none
      else some (ByteOrder.big.load ((first :: rest).take 4) % 2 ^ 31, (first :: rest).drop 4)

theorem lengthAt_short {first : Byte} (rest : List Byte) (low : first.toNat < 128) :
    lengthAt (first :: rest) = some (first.toNat, rest) := by
  rw [lengthAt, if_pos low]

theorem lengthAt_long {first : Byte} {rest : List Byte} (high : 128 ≤ first.toNat)
    (whole : 4 ≤ (first :: rest).length) :
    lengthAt (first :: rest) =
      some (ByteOrder.big.load ((first :: rest).take 4) % 2 ^ 31, (first :: rest).drop 4) := by
  rw [lengthAt, if_neg (Nat.not_lt.mpr high), if_neg (Nat.not_lt.mpr whole)]

/-- The highest bit of four bytes is that of the first one. -/
theorem high_iff {first : Byte} {rest : List Byte} (size : (first :: rest).length = 4) :
    128 ≤ first.toNat ↔ 2 ^ 31 ≤ ByteOrder.big.load (first :: rest) := by
  match rest, size with
  | [second, third, fourth], _ =>
      have value : ByteOrder.big.load [first, second, third, fourth] =
          fourth.toNat + 256 * (third.toNat + 256 * (second.toNat + 256 * first.toNat)) := by
        simp [ByteOrder.load, ofLittleEndian]
      have := second.toNat_lt
      have := third.toNat_lt
      have := fourth.toNat_lt
      omega

theorem lengthAt_encodes {length : Nat} {piece : List Byte} (encodes : EncodesLength length piece)
    (rest : List Byte) : lengthAt (piece ++ rest) = some (length, rest) := by
  cases encodes with
  | short bound =>
      have byte : (UInt8.ofNat length).toNat = length := by
        rw [UInt8.toNat_ofNat']
        omega
      have short := lengthAt_short rest (by rw [byte]; exact bound)
      rw [byte] at short
      exact short
  | long bound =>
      have size := length_bigEndian 4 (2 ^ 31 + length)
      have loaded : ByteOrder.big.load (bigEndian 4 (2 ^ 31 + length)) = 2 ^ 31 + length :=
        ByteOrder.big.load_store 4 (2 ^ 31 + length) (by omega)
      cases four : bigEndian 4 (2 ^ 31 + length) with
      | nil =>
          rw [four] at size
          cases size
      | cons first others =>
          rw [four] at size loaded
          have high : 128 ≤ first.toNat := (high_iff size).mpr (by omega)
          have front : (first :: (others ++ rest)).take 4 = first :: others := by
            rw [← List.cons_append]
            exact List.take_left' size
          have back : (first :: (others ++ rest)).drop 4 = rest := by
            rw [← List.cons_append]
            exact List.drop_left' size
          have whole : 4 ≤ (first :: (others ++ rest)).length := by
            rw [← List.cons_append, List.length_append]
            omega
          rw [List.cons_append, lengthAt_long high whole, front, back, loaded]
          congr 2
          omega

theorem lengthAt_sound {stream rest : List Byte} {length : Nat}
    (found : lengthAt stream = some (length, rest)) :
    ∃ piece, EncodesLength length piece ∧ stream = piece ++ rest := by
  unfold lengthAt at found
  split at found
  · cases found
  · next first behind =>
    split_ifs at found with low lacking
    · cases found
      refine ⟨_, EncodesLength.short low, ?_⟩
      rw [UInt8.ofNat_toNat]
      rfl
    · cases found
      have size : ((first :: behind).take 4).length = 4 := by
        rw [List.length_take]
        omega
      have loaded := ByteOrder.big.load_lt ((first :: behind).take 4)
      have stored := ByteOrder.big.store_load ((first :: behind).take 4)
      rw [size] at loaded stored
      have high : 2 ^ 31 ≤ ByteOrder.big.load ((first :: behind).take 4) :=
        (high_iff size).mp (Nat.not_lt.mp low)
      have encodes := @EncodesLength.long
        (ByteOrder.big.load ((first :: behind).take 4) % 2 ^ 31) (Nat.mod_lt _ (by decide))
      have whole : 2 ^ 31 + ByteOrder.big.load ((first :: behind).take 4) % 2 ^ 31 =
          ByteOrder.big.load ((first :: behind).take 4) := by omega
      rw [whole] at encodes
      change bigEndian 4 _ = _ at stored
      rw [stored] at encodes
      exact ⟨_, encodes, (List.take_append_drop 4 (first :: behind)).symm⟩

theorem EncodesLength.length_pos {length : Nat} {piece : List Byte}
    (encodes : EncodesLength length piece) : 0 < piece.length := by
  cases encodes with
  | short _ => exact Nat.zero_lt_one
  | long _ =>
      rw [length_bigEndian]
      exact Nat.zero_lt_succ 3

theorem EncodesLength.lt {length : Nat} {piece : List Byte}
    (encodes : EncodesLength length piece) : length < 2 ^ 31 := by
  cases encodes with
  | short bound => exact bound.trans (by decide)
  | long bound => exact bound

/-! ## Pairs -/

/-- The bytes of a parameter. -/
def EncodesPair (entry : List Byte × List Byte) (bytes : List Byte) : Prop :=
  ∃ nameLen valueLen, EncodesLength entry.1.length nameLen ∧
    EncodesLength entry.2.length valueLen ∧ bytes = nameLen ++ valueLen ++ entry.1 ++ entry.2

def cutPair (stream : List Byte) : Cut (List Byte × List Byte) Byte :=
  match lengthAt stream with
  | none => .more
  | some (nameLen, afterNameLen) =>
      match lengthAt afterNameLen with
      | none => .more
      | some (valueLen, afterLengths) =>
          if nameLen + valueLen ≤ afterLengths.length then
            .item (afterLengths.take nameLen, (afterLengths.drop nameLen).take valueLen)
              (afterLengths.drop (nameLen + valueLen))
          else .more

theorem cutPair_encodes {entry : List Byte × List Byte} {bytes : List Byte}
    (encodes : EncodesPair entry bytes) (rest : List Byte) :
    cutPair (bytes ++ rest) = .item entry rest := by
  obtain ⟨nameLen, valueLen, name, value, rfl⟩ := encodes
  have whole : entry.1.length + entry.2.length ≤ (entry.1 ++ (entry.2 ++ rest)).length := by
    simp only [List.length_append]
    omega
  simp only [cutPair, List.append_assoc, lengthAt_encodes name, lengthAt_encodes value]
  rw [if_pos whole, List.take_left, List.drop_left, List.take_left, ← List.drop_drop,
    List.drop_left, List.drop_left]

theorem cutPair_sound {stream rest : List Byte} {entry : List Byte × List Byte}
    (cut : cutPair stream = .item entry rest) :
    ∃ piece, EncodesPair entry piece ∧ stream = piece ++ rest := by
  unfold cutPair at cut
  split at cut
  · cases cut
  · next nameLen afterNameLen nameFound =>
    split at cut
    · cases cut
    · next valueLen afterLengths valueFound =>
      split_ifs at cut with whole
      cases cut
      obtain ⟨nameBytes, name, split⟩ := lengthAt_sound nameFound
      obtain ⟨valueBytes, value, same⟩ := lengthAt_sound valueFound
      have nameSize : (afterLengths.take nameLen).length = nameLen := by
        rw [List.length_take]
        omega
      have valueSize : ((afterLengths.drop nameLen).take valueLen).length = valueLen := by
        rw [List.length_take, List.length_drop]
        omega
      refine ⟨nameBytes ++ valueBytes ++ afterLengths.take nameLen ++
        (afterLengths.drop nameLen).take valueLen, ?_, ?_⟩
      · refine ⟨nameBytes, valueBytes, ?_, ?_, rfl⟩
        · rw [nameSize]
          exact name
        · rw [valueSize]
          exact value
      · rw [split, same, ← List.drop_drop]
        simp only [List.append_assoc, List.take_append_drop]

/-- The parameters as a decoder. A stream is never rejected: what it lacks may come. -/
def pairs : Decoder (List Byte × List Byte) Byte where
  cut := cutPair
  waits := rfl
  shorter := by
    intro cells entry rest cut
    obtain ⟨piece, ⟨nameLen, valueLen, name, -, same⟩, split⟩ := cutPair_sound cut
    have positive := name.length_pos
    rw [split, same]
    simp only [List.length_append]
    omega
  item_stable := by
    intro cells entry rest later cut
    obtain ⟨piece, encodes, split⟩ := cutPair_sound cut
    rw [split, List.append_assoc]
    exact cutPair_encodes encodes _
  bad_stable := by
    intro cells later cut
    unfold cutPair at cut
    split at cut
    · cases cut
    · split at cut
      · cases cut
      · split_ifs at cut

theorem pairs_decides : pairs.Decides EncodesPair where
  reads := cutPair_encodes
  sound := cutPair_sound

/-! ## The codec reads them -/

section

variable {machine : ByteOrder} {buf : Buffer} {stream : List Byte}

theorem peekInt8_front {first : Byte} {rest : List Byte}
    (represents : Represents buf (first :: rest)) : buf.peekInt8 = .ok first.toInt8 := by
  have copied := @peekBytes_front buf [first] rest .peekInt8 represents
  change buf.peekBytes 1 .peekInt8 = _ at copied
  rw [peekInt8, copied]
  rfl

theorem readInt8_front {first : Byte} {rest : List Byte}
    (represents : Represents buf (first :: rest)) :
    ∃ next, buf.readInt8 = .ok (first.toInt8, next) ∧ Represents next rest := by
  have room : 1 ≤ buf.readableBytes := by
    rw [represents.readable]
    exact Nat.succ_le_succ (Nat.zero_le _)
  obtain ⟨next, retrieved, after⟩ := retrieve_represents represents 1 room
  refine ⟨next, ?_, after⟩
  rw [readInt8, peekInt8_front represents, retrieveInt8]
  simp only [retrieved, bind, Except.bind, pure, Except.pure]

theorem readInt32_front (machine : ByteOrder) (represents : Represents buf stream)
    (whole : 4 ≤ stream.length) :
    ∃ next, buf.readInt32 machine =
        .ok ((UInt32.ofNat (ByteOrder.big.load (stream.take 4))).toInt32, next) ∧
      Represents next (stream.drop 4) := by
  have size : (stream.take 4).length = 4 := by
    rw [List.length_take]
    omega
  have fits := ByteOrder.big.load_lt (stream.take 4)
  have stored := ByteOrder.big.store_load (stream.take 4)
  rw [size] at fits stored
  have number : (UInt32.ofNat (ByteOrder.big.load (stream.take 4))).toNat =
      ByteOrder.big.load (stream.take 4) := by
    rw [UInt32.toNat_ofNat']
    exact Nat.mod_eq_of_lt fits
  have network : (Integer.int32 (UInt32.ofNat (ByteOrder.big.load (stream.take 4))).toInt32).network
      = stream.take 4 := by
    change bigEndian 4 (UInt32.ofNat (ByteOrder.big.load (stream.take 4))).toNat = _
    rw [number]
    exact stored
  have front : Represents buf
      ((Integer.int32 (UInt32.ofNat (ByteOrder.big.load (stream.take 4))).toInt32).network ++
        stream.drop 4) := by
    rw [network, List.take_append_drop]
    exact represents
  obtain ⟨next, ran, after⟩ := readInt_front machine _ front
  obtain ⟨⟨value, rest⟩, read, same⟩ := map_ok_inv ran
  cases same
  exact ⟨next, read, after⟩

theorem highBit_iff (byte : Byte) : byte.toInt8.toUInt8 &&& 0x80 ≠ 0 ↔ 128 ≤ byte.toNat := by
  have same : byte.toInt8.toUInt8 = byte := rfl
  have bound := byte.toNat_lt
  have bit : byte.toNat &&& 2 ^ 7 = 2 ^ 7 * (byte.toNat / 2 ^ 7 % 2) := by
    rw [Nat.and_two_pow, Nat.testBit_eq_decide_div_mod_eq]
    rcases Nat.mod_two_eq_zero_or_one (byte.toNat / 2 ^ 7) with even | odd
    · rw [even]
      rfl
    · rw [odd]
      rfl
  rw [same, Ne, ← UInt8.toNat_inj, UInt8.toNat_and]
  change ¬(byte.toNat &&& 2 ^ 7 = 0) ↔ _
  rw [bit]
  omega

theorem low_eq {byte : Byte} (low : byte.toNat < 128) :
    byte.toInt8.toInt32.toUInt32 = UInt32.ofNat byte.toNat := by
  have extended : ∀ value : Fin 128,
      (UInt8.ofNat value.val).toInt8.toInt32.toUInt32 = UInt32.ofNat value.val := by decide +kernel
  have here := extended ⟨byte.toNat, low⟩
  rw [UInt8.ofNat_toNat] at here
  exact here

theorem masked_eq (value : Nat) :
    (UInt32.ofNat value).toInt32.toUInt32 &&& 0x7fffffff = UInt32.ofNat (value % 2 ^ 31) := by
  have same : (UInt32.ofNat value).toInt32.toUInt32 = UInt32.ofNat value := rfl
  rw [same, ← UInt32.toNat_inj, UInt32.toNat_and, UInt32.toNat_ofNat', UInt32.toNat_ofNat']
  change value % 2 ^ 32 &&& (2 ^ 31 - 1) = _
  rw [Nat.and_two_pow_sub_one_eq_mod]
  omega

theorem readable_cons {first : Byte} {rest : List Byte}
    (represents : Represents buf (first :: rest)) : 1 ≤ buf.readableBytes := by
  rw [represents.readable]
  exact Nat.succ_le_succ (Nat.zero_le _)

/-- Nothing is consumed where a length is incomplete. -/
theorem readLen_none (represents : Represents buf stream) (lacks : lengthAt stream = none) :
    FastCgiCodec.readLen machine buf = .ok (FastCgiCodec.noLength, buf) := by
  unfold FastCgiCodec.readLen
  cases stream with
  | nil =>
      have empty : ¬1 ≤ buf.readableBytes := by
        rw [represents.readable]
        exact Nat.not_succ_le_zero 0
      rw [if_neg empty]
      rfl
  | cons first rest =>
      rw [lengthAt] at lacks
      split_ifs at lacks with low short
      have lacking : ¬4 ≤ buf.readableBytes := by
        rw [represents.readable]
        exact Nat.not_le.mpr short
      rw [if_pos (readable_cons represents), peekInt8_front represents]
      change (if first.toInt8.toUInt8 &&& 0x80 ≠ 0 then _ else _) = _
      rw [if_pos ((highBit_iff first).mpr (Nat.not_lt.mp low)), if_neg lacking]
      rfl

theorem readLen_some (machine : ByteOrder) (represents : Represents buf stream) {length : Nat}
    {rest : List Byte} (found : lengthAt stream = some (length, rest)) :
    ∃ next, FastCgiCodec.readLen machine buf = .ok (UInt32.ofNat length, next) ∧
      Represents next rest := by
  unfold FastCgiCodec.readLen
  cases stream with
  | nil => cases found
  | cons first behind =>
      rw [lengthAt] at found
      rw [if_pos (readable_cons represents), peekInt8_front represents]
      change ∃ next, (if first.toInt8.toUInt8 &&& 0x80 ≠ 0 then _ else _) = _ ∧ _
      split_ifs at found with low short
      · cases found
        obtain ⟨next, read, after⟩ := readInt8_front represents
        refine ⟨next, ?_, after⟩
        rw [if_neg (fun high => absurd ((highBit_iff first).mp high) (Nat.not_le.mpr low)), read]
        change Except.ok (first.toInt8.toInt32.toUInt32, next) = _
        rw [low_eq low]
      · cases found
        have whole : 4 ≤ buf.readableBytes := by
          rw [represents.readable]
          exact Nat.not_lt.mp short
        obtain ⟨next, read, after⟩ :=
          readInt32_front machine represents (Nat.not_lt.mp short)
        refine ⟨next, ?_, after⟩
        rw [if_pos ((highBit_iff first).mpr (Nat.not_lt.mp low)), if_pos whole, read]
        change Except.ok ((UInt32.ofNat _).toInt32.toUInt32 &&& 0x7fffffff, next) = _
        rw [masked_eq]

theorem lengthAt_lt {length : Nat} {rest : List Byte}
    (found : lengthAt stream = some (length, rest)) : length < 2 ^ 31 := by
  obtain ⟨piece, encodes, -⟩ := lengthAt_sound found
  exact encodes.lt

theorem toNat_length {length : Nat} (bound : length < 2 ^ 31) :
    (UInt32.ofNat length).toNat = length := by
  rw [UInt32.toNat_ofNat']
  exact Nat.mod_eq_of_lt (bound.trans (by decide))

/-- A length is never taken for the missing one. -/
theorem length_ne_noLength {length : Nat} (bound : length < 2 ^ 31) :
    UInt32.ofNat length ≠ FastCgiCodec.noLength := by
  intro same
  have number := congrArg UInt32.toNat same
  rw [toNat_length bound] at number
  have invalid : FastCgiCodec.noLength.toNat = 2 ^ 32 - 1 := rfl
  omega

/-- The sum of two lengths does not wrap around. -/
theorem toNat_add_lengths {first second : Nat} (firstBound : first < 2 ^ 31)
    (secondBound : second < 2 ^ 31) :
    (UInt32.ofNat first + UInt32.ofNat second).toNat = first + second := by
  rw [UInt32.toNat_add, toNat_length firstBound, toNat_length secondBound]
  omega

/-- What is left of an incomplete parameter: the lengths that are there have been read. -/
def leftover (stream : List Byte) : List Byte :=
  match lengthAt stream with
  | none => stream
  | some (_, afterNameLen) =>
      match lengthAt afterNameLen with
      | none => afterNameLen
      | some (_, afterLengths) => afterLengths


theorem drain_lengths (none_ : lengthAt stream = none) :
    pairs.drain stream = ⟨[], stream, false⟩ := by
  apply Decoder.drain_more
  change cutPair stream = .more
  rw [cutPair, none_]

theorem drain_values {length : Nat} {afterNameLen : List Byte}
    (name : lengthAt stream = some (length, afterNameLen)) (none_ : lengthAt afterNameLen = none) :
    pairs.drain stream = ⟨[], stream, false⟩ := by
  apply Decoder.drain_more
  change cutPair stream = .more
  simp only [cutPair, name, none_]

theorem drain_lacking {nameLen valueLen : Nat} {afterNameLen afterLengths : List Byte}
    (name : lengthAt stream = some (nameLen, afterNameLen))
    (value : lengthAt afterNameLen = some (valueLen, afterLengths))
    (lacking : ¬nameLen + valueLen ≤ afterLengths.length) :
    pairs.drain stream = ⟨[], stream, false⟩ := by
  apply Decoder.drain_more
  change cutPair stream = .more
  simp only [cutPair, name, value]
  rw [if_neg lacking]

theorem drain_pair {nameLen valueLen : Nat} {afterNameLen afterLengths : List Byte}
    (name : lengthAt stream = some (nameLen, afterNameLen))
    (value : lengthAt afterNameLen = some (valueLen, afterLengths))
    (whole : nameLen + valueLen ≤ afterLengths.length) :
    cutPair stream =
      .item (afterLengths.take nameLen, (afterLengths.drop nameLen).take valueLen)
        (afterLengths.drop (nameLen + valueLen)) := by
  simp only [cutPair, name, value]
  rw [if_pos whole]

/-- The loop takes the parameters off the stream one by one. It succeeds when they
use the stream up. -/
theorem parseAllParams_spec (machine : ByteOrder) {turns : Nat} {codec : FastCgiCodec}
    (represents : Represents codec.paramsStream stream) (enough : stream.length < turns) :
    ∃ paramsStream, codec.parseAllParams machine turns =
        .ok (decide ((pairs.drain stream).rest = []),
          { codec with
            paramsStream := paramsStream
            params := StringMap.assignAll (pairs.drain stream).items codec.params }) ∧
      Represents paramsStream (leftover (pairs.drain stream).rest) := by
  induction turns generalizing codec stream with
  | zero => exact absurd enough (Nat.not_lt_zero _)
  | succ turns ih =>
      unfold FastCgiCodec.parseAllParams
      by_cases empty : stream = []
      · subst empty
        have none_ : ¬0 < codec.paramsStream.readableBytes := by
          rw [represents.readable]
          exact Nat.lt_irrefl 0
        rw [if_neg none_, Decoder.drain_nil]
        exact ⟨codec.paramsStream, rfl, represents⟩
      have some_ : 0 < codec.paramsStream.readableBytes := by
        rw [represents.readable]
        exact List.length_pos_iff.mpr empty
      rw [if_pos some_]
      cases name : lengthAt stream with
      | none =>
          rw [readLen_none represents name, drain_lengths name, leftover, name]
          refine ⟨codec.paramsStream, ?_, represents⟩
          simp [inBuffer, Except.mapError, bind, Except.bind, pure, Except.pure, empty,
            StringMap.assignAll]
      | some found =>
          obtain ⟨nameLen, afterNameLen⟩ := found
          obtain ⟨named, read, namedRepresents⟩ := readLen_some machine represents name
          have nameBound := lengthAt_lt name
          rw [read]
          simp only [inBuffer, Except.mapError, bind, Except.bind]
          rw [if_neg (length_ne_noLength nameBound)]
          cases value : lengthAt afterNameLen with
          | none =>
              rw [readLen_none namedRepresents value, drain_values name value, leftover, name]
              simp only [value]
              refine ⟨named, ?_, namedRepresents⟩
              simp [pure, Except.pure, empty, StringMap.assignAll]
          | some found =>
              obtain ⟨valueLen, afterLengths⟩ := found
              obtain ⟨valued, readValue, valuedRepresents⟩ :=
                readLen_some machine namedRepresents value
              have valueBound := lengthAt_lt value
              rw [readValue]
              simp only
              rw [if_neg (length_ne_noLength valueBound), toNat_add_lengths nameBound valueBound,
                toNat_length nameBound, toNat_length valueBound]
              have size := valuedRepresents.readable
              by_cases whole : nameLen + valueLen ≤ afterLengths.length
              · rw [if_pos (by rw [size]; exact whole)]
                obtain ⟨nameless, takenName, namelessRepresents⟩ :=
                  retrieveAsString_represents valuedRepresents nameLen (by omega)
                obtain ⟨rest, takenValue, restRepresents⟩ :=
                  retrieveAsString_represents namelessRepresents valueLen
                    (by rw [namelessRepresents.readable, List.length_drop]; omega)
                rw [takenName]
                simp only
                rw [takenValue]
                simp only
                have cut := drain_pair name value whole
                have shorter := pairs.shorter cut
                rw [List.drop_drop] at restRepresents
                rw [Decoder.drain_item cut]
                exact @ih (afterLengths.drop (nameLen + valueLen))
                  { codec with
                    paramsStream := rest
                    params := StringMap.assign (afterLengths.take nameLen)
                      ((afterLengths.drop nameLen).take valueLen) codec.params }
                  restRepresents (by omega)
              · rw [if_neg (by rw [size]; exact whole), drain_lacking name value whole, leftover,
                  name]
                simp only [value]
                refine ⟨valued, ?_, valuedRepresents⟩
                simp [pure, Except.pure, empty, StringMap.assignAll]

/-- An empty record ends the parameters. It is accepted exactly when the stream is
made of whole parameters, and these are what the request then has. -/
theorem params_accepted_iff (machine : ByteOrder) (codec : FastCgiCodec)
    (represents : Represents codec.paramsStream stream) :
    ∃ accepted next, codec.onParams machine [] = .ok (accepted, next) ∧
      (accepted = true ↔
        ∃ entries pieces, List.Forall₂ EncodesPair entries pieces ∧ stream = pieces.flatten) ∧
      ∀ entries pieces, List.Forall₂ EncodesPair entries pieces → stream = pieces.flatten →
        next.params = StringMap.assignAll entries codec.params ∧
          Represents next.paramsStream [] := by
  have enough : stream.length < codec.paramsStream.readableBytes + 1 := by
    rw [represents.readable]
    exact Nat.lt_succ_self _
  obtain ⟨paramsStream, parsed, left⟩ := parseAllParams_spec machine represents enough
  refine ⟨_, _, parsed, ?_, ?_⟩
  · rw [decide_eq_true_iff]
    constructor
    · intro whole
      obtain ⟨pieces, encoded, same⟩ :=
        (Decoder.drained_iff pairs_decides stream _).mp ⟨rfl, whole⟩
      exact ⟨_, pieces, encoded, same⟩
    · rintro ⟨entries, pieces, encoded, same⟩
      exact ((Decoder.drained_iff pairs_decides stream entries).mpr ⟨pieces, encoded, same⟩).2
  · intro entries pieces encoded same
    obtain ⟨items, whole⟩ :=
      (Decoder.drained_iff pairs_decides stream entries).mpr ⟨pieces, encoded, same⟩
    rw [whole] at left
    rw [items]
    exact ⟨rfl, left⟩


/-- One parameter in a codec that has received nothing else. -/
theorem params_accepted_iff_one :
    ∃ paramsStream next, (Buffer.new kInitialSize).append [1, 1, 65, 66] = .ok paramsStream ∧
      { FastCgiCodec.new with paramsStream := paramsStream }.onParams .little [] =
        .ok (true, next) ∧
      next.params = [([65], [66])] := by
  obtain ⟨paramsStream, appended, represents⟩ :=
    append_represents (new_represents kInitialSize) [1, 1, 65, 66]
  obtain ⟨accepted, next, ran, accepts, parsed⟩ := params_accepted_iff .little
    { FastCgiCodec.new with paramsStream := paramsStream } represents
  have encoded : List.Forall₂ EncodesPair [([65], [66])] [[1, 1, 65, 66]] := by
    apply List.Forall₂.cons _ List.Forall₂.nil
    exact ⟨[1], [1], EncodesLength.short (by decide), EncodesLength.short (by decide), rfl⟩
  rw [accepts.mpr ⟨_, _, encoded, rfl⟩] at ran
  exact ⟨paramsStream, next, appended, ran, (parsed _ _ encoded rfl).1⟩

end

end Msmuduo.FastCgi
