import Msmuduo.Buffer

/-!
# The buffer refines a byte deque

What the buffer is for is a byte sequence that grows and shrinks at both ends.
`Represents` relates a buffer to such a sequence and carries the order of the
two indices; every operation, called within its asserted precondition, passes
all of its assertions and follows the sequence operation.
-/

namespace Msmuduo.Buffer

open Msmuduo.Machine Msmuduo.Window

set_option autoImplicit false

/-- The indices are in order, the vector has at least the reserved prefix, and
the readable bytes are exactly `bytes`. -/
structure Represents (b : Buffer) (bytes : List Byte) : Prop where
  ordered : b.readerIndex ≤ b.writerIndex
  inside : b.writerIndex ≤ b.buffer.length
  reserve : kCheapPrepend ≤ b.buffer.length
  content : b.content = bytes

variable {b : Buffer} {bytes : List Byte}

theorem Represents.readable (represents : Represents b bytes) :
    b.readableBytes = bytes.length := by
  have ordered := represents.ordered
  have inside := represents.inside
  rw [← represents.content, Buffer.content, length_window, readableBytes]
  omega

theorem Represents.self (represents : Represents b bytes) : Represents b b.content := by
  rw [represents.content]
  exact represents

theorem new_represents (initSize : Nat) : Represents (new initSize) [] where
  ordered := Nat.le_refl _
  inside := by simp [new]
  reserve := by simp [new]
  content := window_self _ _

theorem retrieveAll_represents (represents : Represents b bytes) :
    Represents b.retrieveAll [] where
  ordered := Nat.le_refl _
  inside := represents.reserve
  reserve := represents.reserve
  content := window_self _ _

theorem retrieve_represents (represents : Represents b bytes) (len : Nat)
    (bound : len ≤ b.readableBytes) :
    ∃ next, b.retrieve len = .ok next ∧ Represents next (bytes.drop len) := by
  unfold retrieve
  rw [require_ok bound]
  by_cases partly : len < b.readableBytes
  · refine ⟨{ b with readerIndex := b.readerIndex + len }, ?_, ?_⟩
    · simp [partly, bind, Except.bind, pure, Except.pure]
    · have room := partly
      unfold readableBytes at room
      have advanced := window_advance b.buffer b.readerIndex b.writerIndex len
      exact
        { ordered := by dsimp only; omega
          inside := represents.inside
          reserve := represents.reserve
          content := by rw [← represents.content]; exact advanced }
  · refine ⟨b.retrieveAll, ?_, ?_⟩
    · simp [partly, bind, Except.bind, pure, Except.pure]
    · have drained : bytes.drop len = [] := by
        apply List.drop_eq_nil_of_le
        rw [← represents.readable]
        omega
      rw [drained]
      exact retrieveAll_represents represents

theorem retrieveUntil_represents (represents : Represents b bytes) (offset : Nat)
    (bound : b.peek + offset ≤ b.beginWrite) :
    ∃ next, b.retrieveUntil (b.peek + offset) = .ok next ∧
      Represents next (bytes.drop offset) := by
  unfold retrieveUntil
  rw [require_ok (Nat.le_add_right b.peek offset), require_ok bound,
    Nat.add_sub_cancel_left]
  apply retrieve_represents represents
  unfold peek beginWrite at bound
  unfold readableBytes
  omega

theorem Represents.window_peek (represents : Represents b bytes) (len : Nat)
    (bound : len ≤ b.readableBytes) :
    window b.buffer b.peek (b.peek + len) = bytes.take len := by
  rw [← represents.content, Buffer.content, window, window, List.take_drop,
    List.take_take, Nat.min_eq_left, peek]
  unfold readableBytes at bound
  have ordered := represents.ordered
  omega

theorem retrieveAsString_represents (represents : Represents b bytes) (len : Nat)
    (bound : len ≤ b.readableBytes) :
    ∃ next, b.retrieveAsString len = .ok (bytes.take len, next) ∧
      Represents next (bytes.drop len) := by
  obtain ⟨next, retrieved, after⟩ := retrieve_represents represents len bound
  refine ⟨next, ?_, after⟩
  unfold retrieveAsString
  rw [require_ok bound, retrieved, represents.window_peek len bound]
  rfl

/-- In the moving branch the guard alone gives the asserted distance: the
bytes freed in front must make up for what is missing behind. -/
theorem makeSpace_represents (represents : Represents b bytes) (len : Nat)
    (short : b.writableBytes < len) :
    ∃ next, b.makeSpace len = .ok next ∧ Represents next bytes ∧
      len ≤ next.writableBytes := by
  have ordered := represents.ordered
  have inside := represents.inside
  unfold makeSpace
  by_cases grows : b.writableBytes + b.prependableBytes < len + kCheapPrepend
  · refine ⟨{ b with buffer := resize b.buffer (b.writerIndex + len) 0 }, ?_, ?_, ?_⟩
    · rw [if_pos grows]
      rfl
    · have larger : b.buffer.length ≤ b.writerIndex + len := by
        unfold writableBytes at short
        omega
      exact
        { ordered := ordered
          inside := by simp
          reserve := by simpa using Nat.le_trans represents.reserve larger
          content := by
            rw [← represents.content]
            exact window_resize _ _ _ _ _ inside (Nat.le_add_right _ _) }
    · simp [writableBytes]
  · have freed : kCheapPrepend < b.readerIndex := by
      unfold prependableBytes at grows
      omega
    let moved : Buffer :=
      { buffer := copyForward b.buffer b.readerIndex kCheapPrepend
          (b.writerIndex - b.readerIndex)
        readerIndex := kCheapPrepend
        writerIndex := kCheapPrepend + b.readableBytes }
    have readable : b.readableBytes = moved.readableBytes := by
      simp [moved, readableBytes]
    refine ⟨moved, ?_, ?_, ?_⟩
    · rw [if_neg grows, require_ok freed]
      change (require (b.readableBytes = moved.readableBytes) _ >>= fun _ => _) = _
      rw [require_ok readable]
      rfl
    · exact
        { ordered := by simp [moved]
          inside := by
            simp only [moved, length_copyForward]
            unfold readableBytes
            omega
          reserve := by simpa [moved] using represents.reserve
          content := by
            have copied := window_copyForward b.buffer b.readerIndex kCheapPrepend
              (b.writerIndex - b.readerIndex) (Nat.le_of_lt freed) (by omega)
            rw [Nat.add_sub_cancel' ordered] at copied
            rw [← represents.content]
            exact copied }
    · simp only [moved, writableBytes, readableBytes, length_copyForward]
      unfold writableBytes prependableBytes at grows
      omega

theorem ensureWritableBytes_represents (represents : Represents b bytes) (len : Nat) :
    ∃ next, b.ensureWritableBytes len = .ok next ∧ Represents next bytes ∧
      len ≤ next.writableBytes := by
  unfold ensureWritableBytes
  by_cases short : b.writableBytes < len
  · obtain ⟨next, made, after, room⟩ := makeSpace_represents represents len short
    refine ⟨next, ?_, after, room⟩
    rw [if_pos short, made]
    change (require (len ≤ next.writableBytes) _ >>= fun _ => _) = _
    rw [require_ok room]
    rfl
  · have room : len ≤ b.writableBytes := Nat.le_of_not_lt short
    refine ⟨b, ?_, represents, room⟩
    rw [if_neg short]
    change (require (len ≤ b.writableBytes) _ >>= fun _ => _) = _
    rw [require_ok room]
    rfl

theorem length_fill (represents : Represents b bytes) (data : List Byte)
    (room : data.length ≤ b.writableBytes) :
    (b.fill data).buffer.length = b.buffer.length := by
  have inside := represents.inside
  unfold writableBytes at room
  apply length_overwrite
  unfold beginWrite
  omega

theorem fill_represents (represents : Represents b bytes) (data : List Byte)
    (room : data.length ≤ b.writableBytes) :
    Represents { b.fill data with writerIndex := b.writerIndex + data.length }
      (bytes ++ data) := by
  have ordered := represents.ordered
  have inside := represents.inside
  have size := length_fill represents data room
  have bound : b.writerIndex + data.length ≤ b.buffer.length := by
    unfold writableBytes at room
    omega
  constructor
  · change b.readerIndex ≤ b.writerIndex + data.length
    omega
  · change b.writerIndex + data.length ≤ (b.fill data).buffer.length
    omega
  · change kCheapPrepend ≤ (b.fill data).buffer.length
    rw [size]
    exact represents.reserve
  · rw [← represents.content]
    exact window_overwrite_back _ _ _ _ ordered bound

theorem fill_hasWritten_represents (represents : Represents b bytes)
    (data : List Byte) (room : data.length ≤ b.writableBytes) :
    ∃ next, (b.fill data).hasWritten data.length = .ok next ∧
      Represents next (bytes ++ data) := by
  have filledRoom : data.length ≤ (b.fill data).writableBytes := by
    unfold writableBytes
    rw [length_fill represents data room]
    exact room
  refine ⟨_, ?_, fill_represents represents data room⟩
  unfold hasWritten
  rw [require_ok filledRoom]
  rfl

theorem append_represents (represents : Represents b bytes) (data : List Byte) :
    ∃ next, b.append data = .ok next ∧ Represents next (bytes ++ data) := by
  obtain ⟨ready, ensured, readyRepresents, room⟩ :=
    ensureWritableBytes_represents represents data.length
  obtain ⟨next, written, after⟩ :=
    fill_hasWritten_represents readyRepresents data room
  refine ⟨next, ?_, after⟩
  unfold append
  rw [ensured]
  exact written

theorem prepend_represents (represents : Represents b bytes) (data : List Byte)
    (bound : data.length ≤ b.prependableBytes) :
    ∃ next, b.prepend data = .ok next ∧ Represents next (data ++ bytes) := by
  have ordered := represents.ordered
  have inside := represents.inside
  have start : b.readerIndex - data.length + data.length = b.readerIndex :=
    Nat.sub_add_cancel bound
  have size : (overwrite b.buffer (b.readerIndex - data.length) data).length =
      b.buffer.length := length_overwrite _ _ _ (by omega)
  refine ⟨{ b with
    readerIndex := b.readerIndex - data.length
    buffer := overwrite b.buffer (b.readerIndex - data.length) data }, ?_, ?_⟩
  · unfold prepend
    rw [require_ok bound]
    rfl
  · exact
      { ordered := by dsimp only; omega
        inside := by dsimp only; omega
        reserve := by dsimp only; rw [size]; exact represents.reserve
        content := by
          have extended := window_overwrite_front b.buffer
            (b.readerIndex - data.length) b.writerIndex data (by omega) inside
          rw [start] at extended
          rw [← represents.content]
          exact extended }

theorem unwrite_represents (represents : Represents b bytes) (len : Nat)
    (bound : len ≤ b.readableBytes) :
    ∃ next, b.unwrite len = .ok next ∧
      Represents next (bytes.take (bytes.length - len)) := by
  have inside := represents.inside
  refine ⟨{ b with writerIndex := b.writerIndex - len }, ?_, ?_⟩
  · unfold unwrite
    rw [require_ok bound]
    rfl
  · have ordered := represents.ordered
    unfold readableBytes at bound
    exact
      { ordered := by dsimp only; omega
        inside := by dsimp only; omega
        reserve := represents.reserve
        content := by
          rw [← represents.content]
          exact window_retract _ _ _ _ inside }

/-- The length goes through an `int` and back; on a readable size that
`size_t` can hold the two conversions cancel, also from 2^31 on. -/
theorem shrink_represents (represents : Represents b bytes) (reserve : Nat)
    (fits : b.readableBytes + reserve < sizeTModulus) :
    ∃ next, b.shrink reserve = .ok next ∧ Represents next bytes := by
  obtain ⟨other, ensured, otherRepresents, -⟩ :=
    ensureWritableBytes_represents (new_represents kInitialSize)
      (b.readableBytes + reserve)
  obtain ⟨next, appended, after⟩ := append_represents otherRepresents bytes
  refine ⟨next, ?_, by simpa using after⟩
  have piece : window b.buffer b.peek
      (b.peek + toSizeT (toInt b.readableBytes)) = bytes := by
    rw [toSizeT_toInt _ (by omega), ← represents.content, content, peek, readableBytes,
      Nat.add_sub_cancel' represents.ordered]
  unfold shrink
  rw [ensured]
  change other.append _ = _
  rw [toStringPiece, piece]
  exact appended

theorem readFd_received (represents : Represents b bytes) (data : List Byte) :
    ∃ next, b.readFd (.received data) = .ok ⟨next, toInt data.length, none⟩ ∧
      Represents next (bytes ++ data) := by
  have inside := represents.inside
  unfold readFd
  dsimp only
  by_cases fits : data.length ≤ b.writableBytes
  · rw [if_pos fits, List.take_of_length_le fits]
    exact ⟨_, rfl, fill_represents represents data fits⟩
  · rw [if_neg fits]
    have taken : (data.take b.writableBytes).length = b.writableBytes := by
      rw [List.length_take]
      omega
    have room : (data.take b.writableBytes).length ≤ b.writableBytes :=
      Nat.le_of_eq taken
    have full : (b.fill (data.take b.writableBytes)).buffer.length =
        b.writerIndex + (data.take b.writableBytes).length := by
      rw [length_fill represents _ room, taken]
      unfold writableBytes
      omega
    have filled := fill_represents represents _ room
    rw [← full] at filled
    obtain ⟨next, appended, after⟩ :=
      append_represents filled (data.drop b.writableBytes)
    refine ⟨next, ?_, ?_⟩
    · have spilled : (data.drop b.writableBytes).take
          (data.length - b.writableBytes) = data.drop b.writableBytes :=
        List.take_of_length_le (Nat.le_of_eq List.length_drop)
      dsimp only at appended
      rw [spilled, appended]
      rfl
    · rw [List.append_assoc, List.take_append_drop] at after
      exact after

/-- The calls of the public interface. A pointer argument is given by its
offset from `peek()`, and `hasWritten` together with the bytes its caller put
at `beginWrite()`. -/
inductive Operation where
  | append (data : List Byte)
  | prepend (data : List Byte)
  | retrieve (len : Nat)
  | retrieveUntil (offset : Nat)
  | retrieveAll
  | retrieveAsString (len : Nat)
  | retrieveAllAsString
  | ensureWritableBytes (len : Nat)
  | hasWritten (data : List Byte)
  | unwrite (len : Nat)
  | shrink (reserve : Nat)
  | readFd (outcome : Receive)
  deriving DecidableEq, Repr

def perform (b : Buffer) : Operation → Except Assertion Buffer
  | .append data => b.append data
  | .prepend data => b.prepend data
  | .retrieve len => b.retrieve len
  | .retrieveUntil offset => b.retrieveUntil (b.peek + offset)
  | .retrieveAll => .ok b.retrieveAll
  | .retrieveAsString len => Prod.snd <$> b.retrieveAsString len
  | .retrieveAllAsString => Prod.snd <$> b.retrieveAllAsString
  | .ensureWritableBytes len => b.ensureWritableBytes len
  | .hasWritten data => (b.fill data).hasWritten data.length
  | .unwrite len => b.unwrite len
  | .shrink reserve => b.shrink reserve
  | .readFd outcome => ReadFd.buffer <$> b.readFd outcome

/-- The assertion a call makes about its own argument, the most `WSARecv` can
have received, and for `shrink` that its size fits `size_t`. -/
def Admitted (b : Buffer) : Operation → Prop
  | .append _ => True
  | .prepend data => data.length ≤ b.prependableBytes
  | .retrieve len => len ≤ b.readableBytes
  | .retrieveUntil offset => b.peek + offset ≤ b.beginWrite
  | .retrieveAll => True
  | .retrieveAsString len => len ≤ b.readableBytes
  | .retrieveAllAsString => True
  | .ensureWritableBytes _ => True
  | .hasWritten data => data.length ≤ b.writableBytes
  | .unwrite len => len ≤ b.readableBytes
  | .shrink reserve => b.readableBytes + reserve < sizeTModulus
  | .readFd (.received data) => data.length ≤ b.writableBytes + extrabufSize
  | .readFd (.failed _) => True

instance (b : Buffer) : (operation : Operation) → Decidable (Admitted b operation)
  | .append _ => inferInstanceAs (Decidable True)
  | .prepend data => inferInstanceAs (Decidable (data.length ≤ b.prependableBytes))
  | .retrieve len => inferInstanceAs (Decidable (len ≤ b.readableBytes))
  | .retrieveUntil offset => inferInstanceAs (Decidable (b.peek + offset ≤ b.beginWrite))
  | .retrieveAll => inferInstanceAs (Decidable True)
  | .retrieveAsString len => inferInstanceAs (Decidable (len ≤ b.readableBytes))
  | .retrieveAllAsString => inferInstanceAs (Decidable True)
  | .ensureWritableBytes _ => inferInstanceAs (Decidable True)
  | .hasWritten data => inferInstanceAs (Decidable (data.length ≤ b.writableBytes))
  | .unwrite len => inferInstanceAs (Decidable (len ≤ b.readableBytes))
  | .shrink reserve =>
      inferInstanceAs (Decidable (b.readableBytes + reserve < sizeTModulus))
  | .readFd (.received data) =>
      inferInstanceAs (Decidable (data.length ≤ b.writableBytes + extrabufSize))
  | .readFd (.failed _) => inferInstanceAs (Decidable True)

/-- The same calls on the byte sequence the buffer stands for. -/
def dequeStep (bytes : List Byte) : Operation → List Byte
  | .append data => bytes ++ data
  | .prepend data => data ++ bytes
  | .retrieve len => bytes.drop len
  | .retrieveUntil offset => bytes.drop offset
  | .retrieveAll => []
  | .retrieveAsString len => bytes.drop len
  | .retrieveAllAsString => []
  | .ensureWritableBytes _ => bytes
  | .hasWritten data => bytes ++ data
  | .unwrite len => bytes.take (bytes.length - len)
  | .shrink _ => bytes
  | .readFd (.received data) => bytes ++ data
  | .readFd (.failed _) => bytes

theorem perform_represents (represents : Represents b bytes) (operation : Operation)
    (admitted : Admitted b operation) :
    ∃ next, b.perform operation = .ok next ∧
      Represents next (dequeStep bytes operation) := by
  cases operation with
  | append data => exact append_represents represents data
  | prepend data => exact prepend_represents represents data admitted
  | retrieve len => exact retrieve_represents represents len admitted
  | retrieveUntil offset => exact retrieveUntil_represents represents offset admitted
  | retrieveAll => exact ⟨_, rfl, retrieveAll_represents represents⟩
  | retrieveAsString len =>
      obtain ⟨next, retrieved, after⟩ :=
        retrieveAsString_represents represents len admitted
      exact ⟨next, by simp only [perform, retrieved]; rfl, after⟩
  | retrieveAllAsString =>
      obtain ⟨next, retrieved, after⟩ :=
        retrieveAsString_represents represents b.readableBytes (Nat.le_refl _)
      have drained : bytes.drop b.readableBytes = [] :=
        List.drop_eq_nil_of_le (Nat.le_of_eq represents.readable.symm)
      rw [drained] at after
      exact ⟨next, by simp only [perform, retrieveAllAsString, retrieved]; rfl, after⟩
  | ensureWritableBytes len =>
      obtain ⟨next, ensured, after, -⟩ := ensureWritableBytes_represents represents len
      exact ⟨next, ensured, after⟩
  | hasWritten data => exact fill_hasWritten_represents represents data admitted
  | unwrite len => exact unwrite_represents represents len admitted
  | shrink reserve => exact shrink_represents represents reserve admitted
  | readFd outcome =>
      cases outcome with
      | failed code => exact ⟨b, rfl, represents⟩
      | received data =>
          obtain ⟨next, received, after⟩ := readFd_received represents data
          exact ⟨next, by simp only [perform, received]; rfl, after⟩

/-- The reader index is at or behind the prefix reserved for `prepend`. -/
def Reserved (b : Buffer) : Prop := kCheapPrepend ≤ b.readerIndex

theorem retrieve_reserved {next : Buffer} {len : Nat} (reserved : Reserved b)
    (retrieved : b.retrieve len = .ok next) : Reserved next := by
  obtain ⟨_, -, rest⟩ := bind_ok_inv retrieved
  split at rest
  · cases rest
    exact Nat.le_trans reserved (Nat.le_add_right _ _)
  · cases rest
    exact Nat.le_refl _

theorem retrieveAsString_reserved {result : List Byte × Buffer} {len : Nat}
    (reserved : Reserved b) (retrieved : b.retrieveAsString len = .ok result) :
    Reserved result.2 := by
  obtain ⟨_, -, rest⟩ := bind_ok_inv retrieved
  obtain ⟨next, inner, last⟩ := bind_ok_inv rest
  cases last
  exact retrieve_reserved reserved inner

theorem ensureWritableBytes_reserved {next : Buffer} {len : Nat}
    (reserved : Reserved b) (ensured : b.ensureWritableBytes len = .ok next) :
    Reserved next := by
  obtain ⟨ready, made, rest⟩ := bind_ok_inv ensured
  obtain ⟨_, -, last⟩ := bind_ok_inv rest
  cases last
  split at made
  · unfold makeSpace at made
    split at made
    · cases made
      exact reserved
    · obtain ⟨_, -, checked⟩ := bind_ok_inv made
      obtain ⟨_, -, moved⟩ := bind_ok_inv checked
      cases moved
      exact Nat.le_refl _
  · cases made
    exact reserved

theorem append_reserved {next : Buffer} {data : List Byte} (reserved : Reserved b)
    (appended : b.append data = .ok next) : Reserved next := by
  obtain ⟨ready, ensured, rest⟩ := bind_ok_inv appended
  obtain ⟨_, -, last⟩ := bind_ok_inv rest
  cases last
  have readyReserved : Reserved ready := ensureWritableBytes_reserved reserved ensured
  exact readyReserved

theorem shrink_reserved {next : Buffer} {reserve : Nat}
    (shrunk : b.shrink reserve = .ok next) : Reserved next := by
  obtain ⟨other, ensured, rest⟩ := bind_ok_inv shrunk
  have fresh : Reserved (new kInitialSize) := Nat.le_refl _
  exact append_reserved (ensureWritableBytes_reserved fresh ensured) rest

theorem readFd_reserved {outcome : Receive} {result : ReadFd} (reserved : Reserved b)
    (received : b.readFd outcome = .ok result) : Reserved result.buffer := by
  cases outcome with
  | failed code =>
      cases received
      exact reserved
  | received data =>
      unfold readFd at received
      dsimp only at received
      split at received
      · cases received
        exact reserved
      · obtain ⟨spilled, appended, last⟩ := bind_ok_inv received
        cases last
        have filledReserved : Reserved
            { b.fill (data.take b.writableBytes) with
              writerIndex := (b.fill (data.take b.writableBytes)).buffer.length } :=
          reserved
        exact append_reserved filledReserved appended

def Operation.isPrepend : Operation → Bool
  | .prepend _ => true
  | _ => false

/-- Only `prepend` moves the reader index into the reserved prefix. -/
theorem perform_reserved {next : Buffer} {operation : Operation}
    (reserved : Reserved b) (other : operation.isPrepend = false)
    (performed : b.perform operation = .ok next) : Reserved next := by
  cases operation with
  | append data => exact append_reserved reserved performed
  | prepend data => simp [Operation.isPrepend] at other
  | retrieve len => exact retrieve_reserved reserved performed
  | retrieveUntil offset =>
      obtain ⟨_, -, rest⟩ := bind_ok_inv performed
      obtain ⟨_, -, last⟩ := bind_ok_inv rest
      exact retrieve_reserved reserved last
  | retrieveAll =>
      cases performed
      exact Nat.le_refl _
  | retrieveAsString len =>
      obtain ⟨result, retrieved, rfl⟩ := map_ok_inv performed
      exact retrieveAsString_reserved reserved retrieved
  | retrieveAllAsString =>
      obtain ⟨result, retrieved, rfl⟩ := map_ok_inv performed
      exact retrieveAsString_reserved reserved retrieved
  | ensureWritableBytes len => exact ensureWritableBytes_reserved reserved performed
  | hasWritten data =>
      obtain ⟨_, -, last⟩ := bind_ok_inv performed
      cases last
      exact reserved
  | unwrite len =>
      obtain ⟨_, -, last⟩ := bind_ok_inv performed
      cases last
      exact reserved
  | shrink reserve => exact shrink_reserved performed
  | readFd outcome =>
      obtain ⟨result, received, rfl⟩ := map_ok_inv performed
      exact readFd_reserved reserved received

/-- Any number of buffers, named by their position; `swap` works on two. -/
abbrev Buffers := Nat → Buffer

inductive Event where
  | apply (index : Nat) (operation : Operation)
  | swap (left right : Nat)
  deriving DecidableEq, Repr

/-- Exchanges the values at two positions. -/
def exchange {Value : Type} (values : Nat → Value) (left right : Nat) : Nat → Value :=
  Function.update (Function.update values left (values right)) right (values left)

def step (buffers : Buffers) : Event → Except Assertion Buffers
  | .apply index operation => do
      let next ← (buffers index).perform operation
      return Function.update buffers index next
  | .swap left right => .ok (exchange buffers left right)

def EventAdmitted (buffers : Buffers) : Event → Prop
  | .apply index operation => Admitted (buffers index) operation
  | .swap _ _ => True

instance (buffers : Buffers) : (event : Event) → Decidable (EventAdmitted buffers event)
  | .apply index operation =>
      inferInstanceAs (Decidable (Admitted (buffers index) operation))
  | .swap _ _ => inferInstanceAs (Decidable True)

def dequesStep (deques : Nat → List Byte) : Event → Nat → List Byte
  | .apply index operation =>
      Function.update deques index (dequeStep (deques index) operation)
  | .swap left right => exchange deques left right

def Event.isPrepend : Event → Bool
  | .apply _ operation => operation.isPrepend
  | .swap _ _ => false

theorem exchange_pointwise {First Second : Type} (Related : First → Second → Prop)
    {first : Nat → First} (second : Nat → Second)
    (related : ∀ index, Related (first index) (second index)) (left right : Nat) :
    ∀ index, Related (exchange first left right index)
      (exchange second left right index) := by
  intro index
  unfold exchange
  by_cases atRight : index = right
  · subst atRight
    simpa using related left
  · by_cases atLeft : index = left
    · subst atLeft
      simpa [atRight] using related right
    · simpa [atRight, atLeft] using related index

theorem step_represents (buffers : Buffers) (deques : Nat → List Byte) (event : Event)
    (related : ∀ index, Represents (buffers index) (deques index))
    (admitted : EventAdmitted buffers event) :
    ∃ next, step buffers event = .ok next ∧
      ∀ index, Represents (next index) (dequesStep deques event index) := by
  cases event with
  | apply position operation =>
      obtain ⟨next, performed, after⟩ :=
        perform_represents (related position) operation admitted
      refine ⟨Function.update buffers position next, ?_, ?_⟩
      · simp only [step, performed]
        rfl
      · intro index
        by_cases same : index = position
        · subst same
          simpa [dequesStep] using after
        · simpa [dequesStep, same] using related index
  | swap left right =>
      exact ⟨_, rfl, exchange_pointwise Represents deques related left right⟩

theorem step_reserved (buffers : Buffers) (event : Event) (next : Buffers)
    (reserved : ∀ index, Reserved (buffers index))
    (other : event.isPrepend = false) (taken : step buffers event = .ok next) :
    ∀ index, Reserved (next index) := by
  cases event with
  | apply position operation =>
      obtain ⟨result, performed, last⟩ := bind_ok_inv taken
      cases last
      intro index
      by_cases same : index = position
      · subst same
        simpa using perform_reserved (reserved index) other performed
      · simpa [same] using reserved index
  | swap left right =>
      cases taken
      exact exchange_pointwise (fun buffer (_ : Buffer) => Reserved buffer) buffers
        reserved left right

/-- In every run of admitted calls no assertion fails, the indices stay in
order inside the vector, the readable bytes are those of the byte sequences
under the same calls, and a run that never prepends keeps the reserved prefix
free, so eight bytes can always be prepended. -/
theorem buffers_refine_deques (initSizes : Nat → Nat) (events : List Event)
    (admitted : AllSteps step EventAdmitted (fun index => new (initSizes index)) events) :
    ∃ final, run step (fun index => new (initSizes index)) events = .ok final ∧
      (∀ index, (final index).readerIndex ≤ (final index).writerIndex ∧
        (final index).writerIndex ≤ (final index).buffer.length ∧
        (final index).content = events.foldl dequesStep (fun _ => []) index) ∧
      ((∀ event ∈ events, event.isPrepend = false) →
        ∀ index, kCheapPrepend ≤ (final index).readerIndex ∧
          ∀ data : List Byte, data.length = 8 →
            ∃ next, (final index).prepend data = .ok next) := by
  obtain ⟨final, ran, represents⟩ :=
    run_simulates (fun buffers deques =>
        ∀ index, Represents (buffers index) (deques index))
      dequesStep step_represents (fun _ => [])
      (fun index => new_represents (initSizes index)) admitted
  refine ⟨final, ran, ?_, ?_⟩
  · intro index
    exact ⟨(represents index).ordered, (represents index).inside,
      (represents index).content⟩
  · intro others
    have reserved : ∀ index, Reserved (final index) :=
      run_keeps (fun buffers => ∀ index, Reserved (buffers index))
        (fun _ event => event.isPrepend = false)
        step_reserved (fun _ => Nat.le_refl _)
        (all_steps_of_forall _ (fun _ event member => others event member) _) ran
    intro index
    refine ⟨reserved index, ?_⟩
    intro data size
    have bound : data.length ≤ (final index).prependableBytes := by
      rw [size]
      exact reserved index
    obtain ⟨next, prepended, -⟩ := prepend_represents (represents index) data bound
    exact ⟨next, prepended⟩

/-- Two small buffers: the second append moves the two bytes left to the
front, the received bytes spill into `extrabuf`, and the swap hands the
contents over. -/
theorem two_buffers_refine :
    ∃ final, run step (fun _ => new 6)
        [.apply 0 (.append [1, 2, 3, 4, 5]), .apply 0 (.retrieve 3),
          .apply 0 (.append [6, 7, 8]), .apply 0 (.readFd (.received [9, 10, 11])),
          .swap 0 1] = .ok final ∧
      (final 1).content = [4, 5, 6, 7, 8, 9, 10, 11] ∧
      ∃ next, (final 1).prepend [0, 0, 0, 0, 0, 0, 0, 8] = .ok next := by
  obtain ⟨final, ran, related, reserved⟩ := buffers_refine_deques (fun _ => 6)
    [.apply 0 (.append [1, 2, 3, 4, 5]), .apply 0 (.retrieve 3),
      .apply 0 (.append [6, 7, 8]), .apply 0 (.readFd (.received [9, 10, 11])),
      .swap 0 1] (by decide)
  refine ⟨final, ran, (related 1).2.2.trans (by decide), ?_⟩
  exact (reserved (by decide) 1).2 [0, 0, 0, 0, 0, 0, 0, 8] (by decide)

end Msmuduo.Buffer
