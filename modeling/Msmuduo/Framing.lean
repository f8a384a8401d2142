import Mathlib.Data.List.Basic

/-!
# Messages in a stream

A receiver gets a stream in deliveries of any size and cuts the messages off its
front. A decoder is one such cut together with the facts every receiver relies on:
nothing is decided before a cell has arrived, a message takes at least one cell,
and neither a message nor a rejection is revised when more cells arrive. From
these it follows once for all decoders that the division of the stream into
deliveries does not matter, and that a receiver of well encoded messages never
has anything but a prefix of them.
-/

namespace Msmuduo.Framing

set_option autoImplicit false

universe u v

variable {Item : Type u} {Cell : Type v}

/-- What a receiver sees at the front of the cells it holds. -/
inductive Cut (Item : Type u) (Cell : Type v) where
  | more
  | item (item : Item) (rest : List Cell)
  | bad
  deriving DecidableEq, Repr

structure Decoder (Item : Type u) (Cell : Type v) where
  cut : List Cell → Cut Item Cell
  waits : cut [] = .more
  shorter : ∀ {cells : List Cell} {item : Item} {rest : List Cell},
    cut cells = .item item rest → rest.length < cells.length
  item_stable : ∀ {cells : List Cell} {item : Item} {rest : List Cell} (later : List Cell),
    cut cells = .item item rest → cut (cells ++ later) = .item item (rest ++ later)
  bad_stable : ∀ {cells : List Cell} (later : List Cell),
    cut cells = .bad → cut (cells ++ later) = .bad

/-- What is left when no further message can be cut off. -/
structure Drained (Item : Type u) (Cell : Type v) where
  items : List Item
  rest : List Cell
  bad : Bool
  deriving DecidableEq, Repr

namespace Decoder

variable (decoder : Decoder Item Cell)

/-- Cuts messages off until the decoder waits or rejects. -/
def drain (cells : List Cell) : Drained Item Cell :=
  match _found : decoder.cut cells with
  | .more => ⟨[], cells, false⟩
  | .bad => ⟨[], cells, true⟩
  | .item item rest =>
      let later := drain rest
      ⟨item :: later.items, later.rest, later.bad⟩
termination_by cells.length
decreasing_by exact decoder.shorter _found

variable {decoder}

theorem drain_more {cells : List Cell} (waits : decoder.cut cells = .more) :
    decoder.drain cells = ⟨[], cells, false⟩ := by
  rw [drain]
  split
  · rfl
  · next found => rw [waits] at found; cases found
  · next found => rw [waits] at found; cases found

theorem drain_bad {cells : List Cell} (rejects : decoder.cut cells = .bad) :
    decoder.drain cells = ⟨[], cells, true⟩ := by
  rw [drain]
  split
  · next found => rw [rejects] at found; cases found
  · rfl
  · next found => rw [rejects] at found; cases found

theorem drain_item {cells rest : List Cell} {item : Item}
    (found : decoder.cut cells = .item item rest) :
    decoder.drain cells =
      ⟨item :: (decoder.drain rest).items, (decoder.drain rest).rest,
        (decoder.drain rest).bad⟩ := by
  rw [drain]
  split
  · next other => rw [found] at other; cases other
  · next other => rw [found] at other; cases other
  · next other =>
    cases found.symm.trans other
    rfl

/-- Draining what has arrived and then the rest together with what arrives
later gives the messages of the whole, in this order. -/
theorem drain_append (decoder : Decoder Item Cell) (cells later : List Cell) :
    decoder.drain (cells ++ later) =
      ⟨(decoder.drain cells).items ++ (decoder.drain ((decoder.drain cells).rest ++ later)).items,
        (decoder.drain ((decoder.drain cells).rest ++ later)).rest,
        (decoder.drain ((decoder.drain cells).rest ++ later)).bad⟩ := by
  induction cells using drain.induct decoder with
  | case1 cells waits =>
      rw [drain_more waits]
      rfl
  | case2 cells rejects =>
      rw [drain_bad rejects]
      rfl
  | case3 cells item rest found ih =>
      rw [drain_item found, drain_item (decoder.item_stable later found), ih]
      rfl

/-- Nothing more can be cut off what a drain leaves. -/
theorem drain_rest (decoder : Decoder Item Cell) (cells : List Cell) :
    decoder.drain (decoder.drain cells).rest =
      ⟨[], (decoder.drain cells).rest, (decoder.drain cells).bad⟩ := by
  induction cells using drain.induct decoder with
  | case1 cells waits =>
      rw [drain_more waits]
      exact drain_more waits
  | case2 cells rejects =>
      rw [drain_bad rejects]
      exact drain_bad rejects
  | case3 cells item rest found ih =>
      rw [drain_item found]
      exact ih

@[simp]
theorem drain_nil : decoder.drain [] = ⟨[], [], false⟩ := drain_more decoder.waits

/-- A stream whose front was rejected stays rejected, and nothing more is cut off it. -/
theorem drain_bad_append {cells : List Cell} (bad : (decoder.drain cells).bad = true)
    (later : List Cell) :
    (decoder.drain (cells ++ later)).bad = true ∧
      (decoder.drain (cells ++ later)).items = (decoder.drain cells).items := by
  induction cells using drain.induct decoder with
  | case1 cells waits =>
      rw [drain_more waits] at bad
      cases bad
  | case2 cells rejects =>
      rw [drain_bad (decoder.bad_stable later rejects), drain_bad rejects]
      exact ⟨rfl, rfl⟩
  | case3 cells item rest found ih =>
      rw [drain_item found] at bad
      obtain ⟨still, same⟩ := ih bad
      rw [drain_item (decoder.item_stable later found), drain_item found, same]
      exact ⟨still, rfl⟩

/-! ## Deliveries -/

/-- A receiver takes one delivery: it drains what it had kept and what arrived. -/
def take (decoder : Decoder Item Cell) (held : Drained Item Cell) (delivery : List Cell) :
    Drained Item Cell :=
  let now := decoder.drain (held.rest ++ delivery)
  ⟨held.items ++ now.items, now.rest, now.bad⟩

theorem take_drain (cells delivery : List Cell) :
    decoder.take (decoder.drain cells) delivery = decoder.drain (cells ++ delivery) :=
  (drain_append decoder cells delivery).symm

/-- The division of a stream into deliveries does not matter. -/
theorem foldl_take (cells : List Cell) (deliveries : List (List Cell)) :
    deliveries.foldl decoder.take (decoder.drain cells) =
      decoder.drain (cells ++ deliveries.flatten) := by
  induction deliveries generalizing cells with
  | nil => simp
  | cons delivery deliveries ih =>
      rw [List.foldl_cons, take_drain, ih, List.flatten_cons, List.append_assoc]

/-! ## Encoded messages -/

section

variable {encode : Item → List Cell}

/-- The decoder reads back an encoded message, whatever is behind it. -/
def Reads (decoder : Decoder Item Cell) (encode : Item → List Cell) (item : Item) : Prop :=
  ∀ rest, decoder.cut (encode item ++ rest) = .item item rest

theorem drain_encoded {items : List Item} (reads : ∀ item ∈ items, decoder.Reads encode item)
    (rest : List Cell) :
    decoder.drain (items.flatMap encode ++ rest) =
      ⟨items ++ (decoder.drain rest).items, (decoder.drain rest).rest,
        (decoder.drain rest).bad⟩ := by
  induction items with
  | nil => rfl
  | cons item items ih =>
      have front := reads item (by simp) (items.flatMap encode ++ rest)
      rw [List.flatMap_cons, List.append_assoc, drain_item front,
        ih fun other member => reads other (by simp [member])]
      rfl

/-- A receiver waits while a message has not arrived whole. -/
theorem cut_part {item : Item} (reads : decoder.Reads encode item) {part missing : List Cell}
    (split : part ++ missing = encode item) (nonempty : missing ≠ []) :
    decoder.cut part = .more := by
  have whole := reads []
  rw [List.append_nil, ← split] at whole
  cases front : decoder.cut part with
  | more => rfl
  | bad =>
      rw [decoder.bad_stable missing front] at whole
      cases whole
  | item other rest =>
      rw [decoder.item_stable missing front] at whole
      have empty : rest ++ missing = [] := (Cut.item.inj whole).2
      exact absurd (List.append_eq_nil_iff.mp empty).2 nonempty

/-- Whatever part of an encoded stream has arrived, the messages cut off it are
the first ones of the stream, and what is kept is the front of the others. -/
theorem drain_part {items : List Item} (reads : ∀ item ∈ items, decoder.Reads encode item)
    {part missing : List Cell}
    (split : part ++ missing = items.flatMap encode) :
    ∃ arrived pending rest, items = arrived ++ pending ∧
      decoder.drain part = ⟨arrived, rest, false⟩ ∧
      rest ++ missing = pending.flatMap encode := by
  induction items generalizing part with
  | nil =>
      have empty := List.append_eq_nil_iff.mp split
      refine ⟨[], [], [], rfl, ?_, by simp [empty.2]⟩
      rw [empty.1]
      exact drain_nil
  | cons item items ih =>
      have front := reads item (by simp)
      rw [List.flatMap_cons] at split
      by_cases whole : (encode item).length ≤ part.length
      · -- The first message has arrived; the others are the induction.
        obtain ⟨behind, same⟩ : ∃ behind, part = encode item ++ behind := by
          have leads : encode item <+: part := by
            apply List.prefix_of_prefix_length_le _ ⟨missing, split⟩ whole
            exact List.prefix_append _ _
          exact ⟨_, leads.choose_spec.symm⟩
        rw [same, List.append_assoc] at split
        obtain ⟨arrived, pending, rest, divided, drained, kept⟩ :=
          ih (fun other member => reads other (by simp [member]))
            (List.append_cancel_left split)
        refine ⟨item :: arrived, pending, rest, by rw [divided]; rfl, ?_, kept⟩
        rw [same, drain_item (front behind), drained]
      · obtain ⟨lacking, same⟩ : ∃ lacking, encode item = part ++ lacking := by
          have leads : part <+: encode item := by
            apply List.prefix_of_prefix_length_le ⟨missing, split⟩ (List.prefix_append _ _)
            omega
          exact ⟨_, leads.choose_spec.symm⟩
        have nonempty : lacking ≠ [] := by
          intro empty
          apply whole
          simp [same, empty]
        refine ⟨[], item :: items, part, rfl, drain_more (cut_part front same.symm nonempty), ?_⟩
        rw [split, List.flatMap_cons]

end

/-! ## Grammars -/

section

variable {Encodes : Item → List Cell → Prop}

/-- What the decoder cuts off is what encodes an item, and it reads back every
encoding, whatever is behind it. -/
structure Decides (decoder : Decoder Item Cell) (Encodes : Item → List Cell → Prop) : Prop where
  reads : ∀ {item : Item} {piece : List Cell}, Encodes item piece →
    ∀ rest, decoder.cut (piece ++ rest) = .item item rest
  sound : ∀ {cells rest : List Cell} {item : Item}, decoder.cut cells = .item item rest →
    ∃ piece, Encodes item piece ∧ cells = piece ++ rest

theorem drain_pieces (decides : decoder.Decides Encodes) {items : List Item}
    {pieces : List (List Cell)} (encoded : List.Forall₂ Encodes items pieces) (rest : List Cell) :
    decoder.drain (pieces.flatten ++ rest) =
      ⟨items ++ (decoder.drain rest).items, (decoder.drain rest).rest,
        (decoder.drain rest).bad⟩ := by
  induction encoded with
  | nil => rfl
  | cons first _ ih =>
      rw [List.flatten_cons, List.append_assoc, drain_item (decides.reads first _), ih]
      rfl

theorem drain_sound (decides : decoder.Decides Encodes) (cells : List Cell) :
    ∃ pieces, List.Forall₂ Encodes (decoder.drain cells).items pieces ∧
      cells = pieces.flatten ++ (decoder.drain cells).rest := by
  induction cells using drain.induct decoder with
  | case1 cells waits =>
      rw [drain_more waits]
      exact ⟨[], List.Forall₂.nil, rfl⟩
  | case2 cells rejects =>
      rw [drain_bad rejects]
      exact ⟨[], List.Forall₂.nil, rfl⟩
  | case3 cells item rest found ih =>
      obtain ⟨piece, first, split⟩ := decides.sound found
      obtain ⟨pieces, others, same⟩ := ih
      rw [drain_item found]
      refine ⟨piece :: pieces, List.Forall₂.cons first others, ?_⟩
      rw [List.flatten_cons, List.append_assoc, ← same]
      exact split

/-- The cells are used up exactly when they encode the items that are cut off them. -/
theorem drained_iff (decides : decoder.Decides Encodes) (cells : List Cell) (items : List Item) :
    ((decoder.drain cells).items = items ∧ (decoder.drain cells).rest = []) ↔
      ∃ pieces, List.Forall₂ Encodes items pieces ∧ cells = pieces.flatten := by
  constructor
  · intro drained
    obtain ⟨pieces, encoded, same⟩ := drain_sound decides cells
    rw [drained.1] at encoded
    rw [drained.2, List.append_nil] at same
    exact ⟨pieces, encoded, same⟩
  · rintro ⟨pieces, encoded, rfl⟩
    have drained := drain_pieces decides encoded []
    rw [List.append_nil] at drained
    rw [drained]
    simp

end

end Decoder

end Msmuduo.Framing
