import Msmuduo.FileConfReaderGrammar

/-!
# Saving and loading the configuration

`setVal` writes every entry of the map as a line, through a buffer of 128 bytes,
and a new reader of the file reads the lines back. An entry that does not fit
the buffer is cut, at the latest in front of its newline: it loses its end and
runs into the entry behind it. Only the last entry can do without its newline.
With the `_snprintf` of Windows a buffer that is full has no terminator.

Without a file `setVal` does nothing, and what it returns is 0.
-/

namespace Msmuduo.FileConfReader

open Msmuduo.CString Msmuduo.Pieces Msmuduo.StringMap Msmuduo.Window

set_option autoImplicit false

/-- A key or a value that a line can hold. -/
structure Plain (bytes : List Byte) : Prop where
  nonempty : bytes ≠ []
  begins : bytes.head?.any isBlank = false
  ends : bytes.getLast?.any isBlank = false
  newlineFree : newline ∉ bytes
  hashFree : hash ∉ bytes
  zeroFree : 0 ∉ bytes

structure PlainEntry (entry : List Byte × List Byte) : Prop where
  key : Plain entry.1
  value : Plain entry.2
  equalsFree : equals ∉ entry.1

/-- `setVal` stays inside its buffers, and if it returns 0, the key has the new
value, and a new reader of the file gives every key the value that the one that
wrote it gives. -/
def Reloads (kind : Snprintf) (r : FileConfReader) (disk : Disk) (key val : CString) : Prop :=
  ∀ writes : Writes, ∃ ret wrote written,
    r.setVal kind writes disk key val = .ok (ret, wrote, written) ∧
    (ret = 0 → wrote.getKey key = some val.bytes ∧
      ∀ garbage, ∃ again, new written wrote.configFile garbage = .ok again ∧
        ∀ other, again.getKey other = wrote.getKey other)

/-- The length of the line of an entry, with its newline. -/
def size (entry : List Byte × List Byte) : Nat := entry.1.length + entry.2.length + 2

/-- The lines, with their terminator, fit the buffer; only the last newline may
be lost to the terminator of C99. -/
def Fits (kind : Snprintf) (entries : StringMap) : Prop :=
  match kind with
  | .c99 => (∀ entry ∈ entries.dropLast, size entry ≤ 127) ∧
      ∀ entry ∈ entries.getLast?, size entry ≤ 128
  | .windows => ∀ entry ∈ entries, size entry ≤ 127

/-! ### The line of an entry -/

def line (entry : List Byte × List Byte) : List Byte := entry.1 ++ equals :: entry.2

/-- What the buffer holds of it. -/
def saved (entry : List Byte × List Byte) : List Byte := (line entry ++ [newline]).take 127

theorem length_line (entry : List Byte × List Byte) : (line entry).length + 1 = size entry := by
  rw [line, List.length_append, List.length_cons, size]
  omega

variable {entry : List Byte × List Byte}

theorem PlainEntry.newline_notMem (plain : PlainEntry entry) : newline ∉ line entry := by
  rw [line, List.mem_append, List.mem_cons, not_or, not_or]
  exact ⟨plain.key.newlineFree, by decide, plain.value.newlineFree⟩

theorem PlainEntry.zero_notMem (plain : PlainEntry entry) : 0 ∉ line entry ++ [newline] := by
  rw [line, List.mem_append, List.mem_append, List.mem_cons, not_or, not_or, not_or]
  exact ⟨⟨plain.key.zeroFree, by decide, plain.value.zeroFree⟩, by decide⟩

theorem PlainEntry.entryOf_line (plain : PlainEntry entry) : entryOf (line entry) = some entry := by
  have visible : hash ∉ line entry := by
    rw [line, List.mem_append, List.mem_cons, not_or, not_or]
    exact ⟨plain.key.hashFree, by decide, plain.value.hashFree⟩
  rw [entryOf, takeWhile_absent visible, line, assignment_split plain.equalsFree,
    trim_self plain.key.begins plain.key.ends, trim_self plain.value.begins plain.value.ends,
    if_pos ⟨plain.key.nonempty, plain.value.nonempty⟩]

theorem saved_whole (short : size entry ≤ 127) : saved entry = line entry ++ [newline] := by
  apply List.take_of_length_le
  rw [List.length_append, List.length_singleton, length_line]
  exact short

theorem saved_cut (long : 127 < size entry) : saved entry = (line entry).take 127 := by
  rw [← length_line] at long
  exact List.take_append_of_le_length (Nat.le_of_lt_succ long)

/-! ### Writing -/

theorem pair_line (plain : PlainEntry entry) :
    pair (ofString entry.1).bytes (ofString entry.2).bytes = line entry ++ [newline] := by
  rw [bytes_ofString plain.key.zeroFree, bytes_ofString plain.value.zeroFree, pair, line]

/-- A text with its terminator, printed into the zeroed buffer. -/
theorem string_print {text : List Byte} (clean : 0 ∉ text) :
    string (overwrite (List.replicate 128 0) 0 (text ++ [0])) 0 = .ok text := by
  rw [overwrite, List.take_zero, List.nil_append, List.append_assoc, List.singleton_append]
  exact string_append [] clean _

theorem szPaire_c99 (plain : PlainEntry entry) : szPaire .c99 entry = .ok (saved entry) := by
  rw [szPaire, pair_line plain, Snprintf.print, List.length_replicate]
  exact string_print fun member => plain.zero_notMem (List.mem_of_mem_take member)

theorem szPaire_windows (plain : PlainEntry entry) (short : size entry ≤ 127) :
    szPaire .windows entry = .ok (saved entry) := by
  have whole : (line entry ++ [newline] ++ [0]).take 128 = line entry ++ [newline] ++ [0] := by
    apply List.take_of_length_le
    rw [List.length_append, List.length_append, List.length_singleton, List.length_singleton,
      length_line]
    exact Nat.succ_le_succ short
  rw [szPaire, pair_line plain, Snprintf.print, List.length_replicate, whole, saved_whole short]
  exact string_print plain.zero_notMem

/-- A full buffer has no terminator, and `strlen` runs off it. -/
theorem szPaire_windows_full (plain : PlainEntry entry) (long : 127 < size entry) :
    ∃ fault, szPaire .windows entry = .error fault := by
  rw [← length_line] at long
  have full : (line entry ++ [newline] ++ [0]).take 128 = (line entry ++ [newline]).take 128 := by
    apply List.take_append_of_le_length
    rw [List.length_append, List.length_singleton]
    exact long
  have covered : ((line entry ++ [newline]).take 128).length = 128 := by
    rw [List.length_take, List.length_append, List.length_singleton]
    exact Nat.min_eq_left long
  have unterminated : (0 : Byte) ∉ overwrite (List.replicate 128 0) 0
      ((line entry ++ [newline]).take 128) := by
    rw [overwrite, List.take_zero, List.nil_append, covered, Nat.zero_add,
      List.drop_of_length_le (by rw [List.length_replicate]), List.append_nil]
    exact fun member => plain.zero_notMem (List.mem_of_mem_take member)
  rw [szPaire, pair_line plain, Snprintf.print, List.length_replicate, full, string,
    List.drop_zero, if_neg unterminated]
  exact ⟨_, rfl⟩

/-- The file when every record was written. -/
def file (entries : StringMap) : List Byte := entries.flatMap saved

/-- What the loop writes where every entry can be printed. -/
theorem writeEntries_printed {kind : Snprintf} {entries : StringMap}
    (printed : ∀ entry ∈ entries, szPaire kind entry = .ok (saved entry))
    (accepts : Nat → Bool) (index : Nat) (written : List Byte) :
    ∃ ret content, writeEntries kind accepts index written entries = .ok (ret, content) ∧
      (ret = 0 → content = written ++ file entries) ∧
      ((∀ index, accepts index = true) → ret = 0) := by
  induction entries generalizing index written with
  | nil => exact ⟨0, written, rfl, fun _ => (List.append_nil written).symm, fun _ => rfl⟩
  | cons entry entries ih =>
      have rest := ih (fun other member => printed other (List.mem_cons_of_mem _ member))
        (index + 1) (written ++ saved entry)
      simp only [writeEntries, printed entry List.mem_cons_self, bind, Except.bind, pure,
        Except.pure]
      cases accepted : accepts index with
      | false =>
          refine ⟨-1, written, rfl, fun zero => absurd zero (by decide), fun all => ?_⟩
          exact absurd (all index) (by simp [accepted])
      | true =>
          rcases rest with ⟨ret, content, run, whole, success⟩
          refine ⟨ret, content, run, fun zero => ?_, success⟩
          rw [whole zero, List.append_assoc]
          rfl

/-- Where one cannot be printed, the loop does not get past it. -/
theorem writeEntries_full {kind : Snprintf} {entries : StringMap}
    (full : ∃ entry ∈ entries, ∃ fault, szPaire kind entry = .error fault) (index : Nat)
    (written : List Byte) :
    ∃ fault, writeEntries kind (fun _ => true) index written entries = .error fault := by
  induction entries generalizing index written with
  | nil => simp at full
  | cons entry entries ih =>
      simp only [writeEntries, bind, Except.bind]
      cases printed : szPaire kind entry with
      | error fault => exact ⟨fault, rfl⟩
      | ok bytes =>
          rcases full with ⟨other, member, fault, failed⟩
          rcases List.mem_cons.mp member with rfl | later
          · rw [printed] at failed
            exact absurd failed (by simp)
          · exact ih ⟨other, later, fault, failed⟩ (index + 1) (written ++ bytes)

/-! ### Reading back -/

theorem pieceEntries_saved_append (plain : PlainEntry entry) (short : size entry ≤ 127)
    (rest : List Byte) : pieceEntries (saved entry ++ rest) = entry :: pieceEntries rest := by
  have length := length_line entry
  rw [saved_whole short, List.append_assoc, List.singleton_append,
    pieceEntries_cons plain.newline_notMem, pieceEntries_short plain.newline_notMem (by omega),
    plain.entryOf_line]
  rfl

theorem pieceEntries_file_append {front : StringMap}
    (plain : ∀ entry ∈ front, PlainEntry entry) (short : ∀ entry ∈ front, size entry ≤ 127)
    (rest : List Byte) : pieceEntries (file front ++ rest) = front ++ pieceEntries rest := by
  induction front with
  | nil => rfl
  | cons entry front ih =>
      have later := ih (fun other member => plain other (List.mem_cons_of_mem _ member))
        fun other member => short other (List.mem_cons_of_mem _ member)
      rw [file, List.flatMap_cons, List.append_assoc,
        pieceEntries_saved_append (plain entry List.mem_cons_self)
          (short entry List.mem_cons_self)]
      exact congrArg (entry :: ·) later

/-- The last line may have no newline. -/
theorem pieceEntries_saved (plain : PlainEntry entry) :
    pieceEntries (saved entry) = (entryOf ((line entry).take 127)).toList := by
  have length := length_line entry
  by_cases short : size entry ≤ 127
  · rw [saved_whole short, pieceEntries_newline plain.newline_notMem,
      pieceEntries_short plain.newline_notMem (by omega), List.take_of_length_le (by omega)]
  · rw [saved_cut (Nat.lt_of_not_le short), pieceEntries_short]
    · exact fun member => plain.newline_notMem (List.mem_of_mem_take member)
    · rw [List.length_take]
      omega

theorem pieceEntries_file {front : StringMap} {last : List Byte × List Byte}
    (plain : ∀ entry ∈ front ++ [last], PlainEntry entry)
    (short : ∀ entry ∈ front, size entry ≤ 127) :
    pieceEntries (file (front ++ [last])) =
      front ++ (entryOf ((line last).take 127)).toList := by
  have whole : file (front ++ [last]) = file front ++ saved last := by
    rw [file, List.flatMap_append, List.flatMap_singleton]
    rfl
  rw [whole, pieceEntries_file_append (fun entry member => plain entry (by simp [member])) short,
    pieceEntries_saved (plain last (by simp))]

/-- An entry is no longer than the line it is on. -/
theorem length_entryOf {text : List Byte} (found : entryOf text = some entry) :
    entry.1.length + entry.2.length + 1 ≤ text.length := by
  have visible : (text.takeWhile (· != hash)).length ≤ text.length :=
    (List.takeWhile_sublist _).length_le
  by_cases present : equals ∈ text.takeWhile (· != hash)
  · rcases List.eq_append_cons_of_mem present with ⟨before, after, split, first⟩
    rw [entryOf, split, assignment_split first] at found
    rw [split, List.length_append, List.length_cons] at visible
    split at found
    · have keyLength := length_trim_le isBlank before
      have valueLength := length_trim_le isBlank after
      rw [← Option.some.inj found]
      change (trim isBlank before).length + (trim isBlank after).length + 1 ≤ text.length
      omega
    · exact absurd found (by simp)
  · rw [entryOf, assignment_none present] at found
    exact absurd found (by simp)

/-- The value of every key comes back from the file. -/
def ReadsBack (entries : StringMap) : Prop :=
  ∀ key : CString, (pieceEntries (file entries)).lookup key.bytes = entries.lookup key.bytes

theorem ReadsBack.length_le {entries : StringMap} (reads : ReadsBack entries)
    (ordered : Ordered entries) (plain : ∀ entry ∈ entries, PlainEntry entry) :
    entries.length ≤ (pieceEntries (file entries)).length := by
  have distinct : (entries.map Prod.fst).Nodup := by
    rw [List.Nodup, List.pairwise_map]
    refine ordered.imp ?_
    intro first second before same
    rw [same] at before
    exact List.lt_irrefl _ before
  have kept : entries.map Prod.fst ⊆ (pieceEntries (file entries)).map Prod.fst := by
    intro key member
    rcases List.mem_map.mp member with ⟨entry, inside, rfl⟩
    have found := reads ⟨entry.1, (plain entry inside).key.zeroFree⟩
    rw [(mem_iff_lookup ordered entry.1 entry.2).mp inside] at found
    rcases List.lookup_eq_some_iff.mp found with ⟨front, back, split, -⟩
    rw [split]
    simp
  have count := (List.subperm_of_subset distinct kept).length_le
  rwa [List.length_map, List.length_map] at count

theorem PlainEntry.newline_notMem_dropLast (plain : PlainEntry entry) :
    newline ∉ (saved entry).dropLast := by
  intro member
  apply plain.newline_notMem
  by_cases short : size entry ≤ 127
  · rwa [saved_whole short, List.dropLast_concat] at member
  · rw [saved_cut (Nat.lt_of_not_le short)] at member
    exact List.mem_of_mem_take (List.mem_of_mem_dropLast member)

theorem length_saved_le (entry : List Byte × List Byte) : (saved entry).length ≤ 127 := by
  rw [saved, List.length_take]
  exact Nat.min_le_left _ _

theorem PlainEntry.piece (plain : PlainEntry entry) : Piece newline 255 (saved entry) where
  short := Nat.le_trans (length_saved_le entry) (by decide)
  clean := plain.newline_notMem_dropLast

/-- A line that has lost its newline, with the line behind it. -/
theorem PlainEntry.piece_append {first second : List Byte × List Byte}
    (firstPlain : PlainEntry first) (secondPlain : PlainEntry second) (long : 127 < size first) :
    Piece newline 255 (saved first ++ saved second) where
  short := by
    have firstLength := length_saved_le first
    have secondLength := length_saved_le second
    rw [List.length_append]
    omega
  clean := by
    have length := length_line second
    have nonempty : saved second ≠ [] := by
      rw [← List.length_pos_iff, saved, List.length_take, List.length_append]
      exact Nat.lt_min.mpr ⟨by decide, by simp⟩
    rw [List.dropLast_append_of_ne_nil nonempty, List.mem_append, not_or, saved_cut long]
    exact ⟨fun member => firstPlain.newline_notMem (List.mem_of_mem_take member),
      secondPlain.newline_notMem_dropLast⟩

/-- It runs into the one behind it: there are fewer pieces than entries. -/
theorem length_pieceEntries_lt {front back : StringMap} {first second : List Byte × List Byte}
    (plain : ∀ entry ∈ front ++ first :: second :: back, PlainEntry entry)
    (long : 127 < size first) :
    (pieceEntries (file (front ++ first :: second :: back))).length <
      (front ++ first :: second :: back).length := by
  have whole : file (front ++ first :: second :: back) =
      (front.map saved ++ (saved first ++ saved second) :: back.map saved).flatten ++ [] := by
    simp [file, List.flatMap]
  have each : ∀ part ∈ front.map saved ++ (saved first ++ saved second) :: back.map saved,
      Piece newline 255 part := by
    intro part member
    rcases List.mem_append.mp member with inFront | later
    · rcases List.mem_map.mp inFront with ⟨other, inside, rfl⟩
      exact (plain other (by simp [inside])).piece
    · rcases List.mem_cons.mp later with rfl | inBack
      · exact (plain first (by simp)).piece_append (plain second (by simp)) long
      · rcases List.mem_map.mp inBack with ⟨other, inside, rfl⟩
        exact (plain other (by simp [inside])).piece
  have count := length_pieces_flatten positive [] each
  rw [pieces_nil, ← whole, List.length_append, List.length_cons, List.length_map,
    List.length_map, List.length_nil] at count
  have entries := List.length_filterMap_le (fun piece => entryOf (chomp piece))
    (pieces newline 255 positive (file (front ++ first :: second :: back)))
  rw [pieceEntries, List.length_append, List.length_cons, List.length_cons]
  omega

theorem ReadsBack.short {front : StringMap} {last : List Byte × List Byte}
    (reads : ReadsBack (front ++ [last])) (ordered : Ordered (front ++ [last]))
    (plain : ∀ entry ∈ front ++ [last], PlainEntry entry) :
    ∀ entry ∈ front, size entry ≤ 127 := by
  intro entry member
  by_contra long
  rcases List.append_of_mem member with ⟨before, after, rfl⟩
  have behind : after ++ [last] ≠ [] := by simp
  rcases List.exists_cons_of_ne_nil behind with ⟨second, back, split⟩
  have whole : before ++ entry :: after ++ [last] = before ++ entry :: second :: back := by
    rw [List.append_assoc, List.cons_append, split]
  rw [whole] at reads ordered plain
  have fewer := length_pieceEntries_lt plain (Nat.lt_of_not_le long)
  exact absurd (reads.length_le ordered plain) (Nat.not_le_of_lt fewer)

/-- A last line that is cut further than its newline gives another value. -/
theorem ReadsBack.last {front : StringMap} {last : List Byte × List Byte}
    (reads : ReadsBack (front ++ [last])) (ordered : Ordered (front ++ [last]))
    (plain : ∀ entry ∈ front ++ [last], PlainEntry entry) : size last ≤ 128 := by
  have others : front.lookup last.1 = none := by
    rw [List.lookup_eq_none_iff]
    intro other member
    have before := (List.pairwise_append.mp ordered).2.2 other member last (by simp)
    rw [bne_iff_ne]
    intro same
    rw [same] at before
    exact List.lt_irrefl _ before
  have found := reads ⟨last.1, (plain last (by simp)).key.zeroFree⟩
  rw [pieceEntries_file plain (reads.short ordered plain), List.lookup_append, List.lookup_append,
    others, Option.none_or, Option.none_or, lookup_entry, if_pos rfl] at found
  cases entryIs : entryOf ((line last).take 127) with
  | none =>
      rw [entryIs] at found
      exact absurd found (by simp)
  | some other =>
      rw [entryIs, Option.toList_some, lookup_entry] at found
      split at found
      · next same =>
        have key : last.1 = other.1 := same
        have value : last.2 = other.2 := (Option.some.inj found).symm
        have length := length_entryOf entryIs
        have cut : ((line last).take 127).length ≤ 127 := List.length_take_le _ _
        rw [size, key, value]
        omega
      · exact absurd found (by simp)

/-- The file holds the map exactly if every line but the last fits the buffer and
the last one fits it without its newline. -/
theorem readsBack_iff {entries : StringMap} (ordered : Ordered entries)
    (plain : ∀ entry ∈ entries, PlainEntry entry) : ReadsBack entries ↔ Fits .c99 entries := by
  constructor
  · intro reads
    rcases List.eq_nil_or_concat' entries with rfl | ⟨front, last, rfl⟩
    · exact ⟨by simp, by simp⟩
    · rw [Fits, List.dropLast_concat, List.getLast?_concat]
      refine ⟨reads.short ordered plain, ?_⟩
      rintro entry ⟨⟩
      exact reads.last ordered plain
  · rintro ⟨short, lastShort⟩
    rcases List.eq_nil_or_concat' entries with rfl | ⟨front, last, rfl⟩
    · intro key
      rw [file, List.flatMap_nil, pieceEntries_nil]
    · rw [List.dropLast_concat] at short
      rw [List.getLast?_concat] at lastShort
      have fits := lastShort last rfl
      have length := length_line last
      intro key
      rw [pieceEntries_file plain short, List.take_of_length_le (by omega),
        (plain last (by simp)).entryOf_line]
      rfl

/-! ### Saving -/

variable {kind : Snprintf} {r : FileConfReader} {disk : Disk} {key val : CString}

/-- Both branches of `setVal` assign the value. -/
theorem assign_or_insert (map : ConfigMap) (key value : List Byte) :
    (if (map.lookup key).isSome then map.assign key value else map.insert key value) =
      map.assign key value := by
  split
  · rfl
  · next absent => exact Subtype.ext (if_neg absent)

theorem lookup_assign_self (map : ConfigMap) (key value : List Byte) :
    (map.assign key value).lookup key = some value := by
  have found := lookup_assign map.val key value key
  rwa [if_pos rfl] at found

theorem plain_assign (plain : PlainEntry (key.bytes, val.bytes))
    (entries : ∀ entry ∈ r.configMap.val, PlainEntry entry) :
    ∀ entry ∈ (r.configMap.assign key.bytes val.bytes).val, PlainEntry entry := by
  intro entry member
  rcases mem_assign member with rfl | old
  · exact plain
  · exact entries entry old

theorem setVal_unloaded (unloaded : r.loadOk = false) (writes : Writes) :
    r.setVal kind writes disk key val = .ok (0, r, disk) := by
  rw [setVal, unloaded]
  rfl

/-- The call where `fopen` opens the file. -/
theorem setVal_opened (loaded : r.loadOk = true) (accepts : Nat → Bool) :
    r.setVal kind ⟨true, accepts⟩ disk key val =
      (writeEntries kind accepts 0 [] (r.configMap.assign key.bytes val.bytes).val).map
        fun (ret, content) =>
          (ret, { r with configMap := r.configMap.assign key.bytes val.bytes },
            disk.store r.configFile content) := by
  simp only [setVal, loaded, writeFile, assign_or_insert, Option.getD_none, bind, Except.bind,
    pure, Except.pure, Bool.not_true, Bool.false_eq_true, if_false, if_true]
  cases writeEntries kind accepts 0 [] (r.configMap.assign key.bytes val.bytes).val <;> rfl

theorem setVal_unopened (loaded : r.loadOk = true) (accepts : Nat → Bool) :
    r.setVal kind ⟨false, accepts⟩ disk key val =
      .ok (-1, { r with configMap := r.configMap.assign key.bytes val.bytes }, disk) := by
  simp only [setVal, loaded, writeFile, assign_or_insert, bind, Except.bind, pure, Except.pure,
    Bool.not_true, Bool.false_eq_true, if_false]

theorem file_zeroFree {entries : StringMap} (plain : ∀ entry ∈ entries, PlainEntry entry) :
    0 ∉ file entries := by
  intro member
  rcases List.mem_flatMap.mp member with ⟨entry, inside, zero⟩
  exact (plain entry inside).zero_notMem (List.mem_of_mem_take zero)

/-- A new reader of the file gives the values of the map exactly if the file
reads back. -/
theorem new_file_iff (loaded : r.loadOk = true) (map : ConfigMap)
    (plain : ∀ entry ∈ map.val, PlainEntry entry) :
    (∀ garbage, ∃ again, new (disk.store r.configFile (file map.val)) r.configFile garbage =
      .ok again ∧ ∀ other, again.getKey other = { r with configMap := map }.getKey other) ↔
      ReadsBack map.val := by
  have run := new_eq disk r.configFile ⟨file map.val, file_zeroFree plain⟩
  have values (garbage : Bool) (again : FileConfReader)
      (made : new (disk.store r.configFile (file map.val)) r.configFile garbage = .ok again)
      (other : CString) :
      again.getKey other = (pieceEntries (file map.val)).lookup other.bytes := by
    rw [← Except.ok.inj ((run garbage).symm.trans made)]
    exact ConfigMap.lookup_insertAll_empty _ _
  have kept (other : CString) :
      { r with configMap := map }.getKey other = map.val.lookup other.bytes := if_pos loaded
  constructor
  · intro reload other
    rcases reload true with ⟨again, made, same⟩
    rw [← values true again made other, same, kept]
  · intro reads garbage
    refine ⟨_, run garbage, fun other => ?_⟩
    rw [values garbage _ (run garbage) other, kept]
    exact reads other

theorem Fits.printed {entries : StringMap} (fits : Fits kind entries)
    (plain : ∀ entry ∈ entries, PlainEntry entry) :
    ∀ entry ∈ entries, szPaire kind entry = .ok (saved entry) := by
  intro entry member
  cases kind with
  | c99 => exact szPaire_c99 (plain entry member)
  | windows => exact szPaire_windows (plain entry member) (fits entry member)

theorem Fits.c99 {entries : StringMap} (fits : Fits kind entries) : Fits .c99 entries := by
  cases kind with
  | c99 => exact fits
  | windows =>
      refine ⟨fun entry member => fits entry (List.mem_of_mem_dropLast member), ?_⟩
      intro entry member
      exact Nat.le_succ_of_le (fits entry (List.mem_of_getLast? member))

theorem Reloads.loadOk (reloads : Reloads kind r disk key val) : r.loadOk = true := by
  by_contra unloaded
  have nothing := Bool.eq_false_of_not_eq_true unloaded
  rcases reloads ⟨true, fun _ => true⟩ with ⟨ret, wrote, written, run, success⟩
  rw [setVal_unloaded nothing] at run
  rcases Prod.mk.inj (Except.ok.inj run) with ⟨rfl, same⟩
  rcases Prod.mk.inj same with ⟨rfl, -⟩
  have found := (success rfl).1
  rw [getKey, nothing] at found
  exact absurd found (by simp)

theorem Reloads.fits (reloads : Reloads kind r disk key val)
    (plain : PlainEntry (key.bytes, val.bytes))
    (entries : ∀ entry ∈ r.configMap.val, PlainEntry entry) :
    Fits kind (r.configMap.assign key.bytes val.bytes).val := by
  have loaded := reloads.loadOk
  have plainAll := plain_assign plain entries
  have ordered := (r.configMap.assign key.bytes val.bytes).property
  rcases reloads ⟨true, fun _ => true⟩ with ⟨ret, wrote, written, run, success⟩
  rw [setVal_opened loaded] at run
  cases kind with
  | c99 =>
      rcases writeEntries_printed (fun entry member => szPaire_c99 (plainAll entry member))
        (fun _ => true) 0 [] with ⟨done, content, writes, whole, zero⟩
      rw [writes] at run
      rcases Prod.mk.inj (Except.ok.inj run) with ⟨rfl, same⟩
      rcases Prod.mk.inj same with ⟨rfl, rfl⟩
      have reload := (success (zero fun _ => rfl)).2
      rw [whole (zero fun _ => rfl), List.nil_append] at reload
      exact (readsBack_iff ordered plainAll).mp
        ((new_file_iff loaded (r.configMap.assign key.bytes val.bytes) plainAll).mp reload)
  | windows =>
      intro entry member
      by_contra long
      have full := szPaire_windows_full (plainAll entry member) (Nat.lt_of_not_le long)
      rcases writeEntries_full ⟨entry, member, full⟩ 0 [] with ⟨fault, failed⟩
      rw [failed] at run
      exact absurd run (by simp [Except.map])

/-- A configuration reloads unchanged exactly if a file was opened before and
every line fits the buffer. -/
theorem reloads_iff (kind : Snprintf) (r : FileConfReader) (disk : Disk) (key val : CString)
    (plain : PlainEntry (key.bytes, val.bytes))
    (entries : ∀ entry ∈ r.configMap.val, PlainEntry entry) :
    Reloads kind r disk key val ↔
      r.loadOk = true ∧ Fits kind (r.configMap.assign key.bytes val.bytes).val := by
  constructor
  · intro reloads
    exact ⟨reloads.loadOk, reloads.fits plain entries⟩
  · rintro ⟨loaded, fits⟩ ⟨opens, accepts⟩
    have plainAll := plain_assign plain entries
    cases opens with
    | false => exact ⟨-1, _, _, setVal_unopened loaded accepts, fun zero => absurd zero (by decide)⟩
    | true =>
        rcases writeEntries_printed (fits.printed plainAll) accepts 0 [] with
          ⟨ret, content, writes, whole, -⟩
        have run : r.setVal kind ⟨true, accepts⟩ disk key val = _ :=
          setVal_opened loaded accepts
        rw [writes] at run
        refine ⟨ret, _, _, run, fun zero => ⟨?_, ?_⟩⟩
        · rw [getKey, if_pos loaded]
          exact lookup_assign_self _ _ _
        · rw [whole zero, List.nil_append]
          exact (new_file_iff loaded _ plainAll).mpr
            ((readsBack_iff (r.configMap.assign key.bytes val.bytes).property plainAll).mpr
              fits.c99)

/-- A reader with no entries. -/
def unset (loadOk : Bool) : FileConfReader :=
  { loadOk := loadOk, configMap := ConfigMap.empty, configFile := ⟨text "conf", by decide⟩ }

def keyA : CString := ⟨text "a", by decide⟩

def valueB : CString := ⟨text "b", by decide⟩

/-- A value of 126 bytes. -/
def longValue : CString where
  bytes := List.replicate 126 120
  clean := by rw [List.mem_replicate]; decide

theorem unset_plain (loadOk : Bool) :
    ∀ entry ∈ (unset loadOk).configMap.val, PlainEntry entry :=
  fun _ member => absurd member List.not_mem_nil

theorem unset_assign (loadOk : Bool) (key value : List Byte) :
    ((unset loadOk).configMap.assign key value).val = [(key, value)] := rfl

/-- What the only entry of a file may measure. -/
theorem Reloads.size_le (reloads : Reloads kind (unset true) disk key val)
    (plain : PlainEntry (key.bytes, val.bytes)) :
    key.bytes.length + val.bytes.length + 2 ≤ 128 := by
  have fits := (reloads.fits plain (unset_plain true)).c99
  rw [unset_assign] at fits
  exact fits.2 _ List.getLast?_singleton

theorem plain_a_b : PlainEntry (keyA.bytes, valueB.bytes) where
  key := by constructor <;> decide
  value := by constructor <;> decide
  equalsFree := by decide

theorem plain_a_long : PlainEntry (keyA.bytes, longValue.bytes) where
  key := plain_a_b.key
  value :=
    { nonempty := by decide
      begins := rfl
      ends := by rw [longValue, List.getLast?_replicate]; decide
      newlineFree := by rw [longValue, List.mem_replicate]; decide
      hashFree := by rw [longValue, List.mem_replicate]; decide
      zeroFree := longValue.clean }
  equalsFree := by decide

theorem a_b_reloads : Reloads .windows (unset true) (fun _ => none) keyA valueB := by
  apply (reloads_iff .windows (unset true) (fun _ => none) keyA valueB plain_a_b
    (unset_plain true)).mpr
  refine ⟨rfl, ?_⟩
  intro entry member
  rw [unset_assign] at member
  rw [List.mem_singleton.mp member]
  decide

/-- A reader whose file could not be opened saves nothing. The end of a long value
is lost, or the buffer is read beyond its end. -/
theorem value_lost :
    PlainEntry (keyA.bytes, valueB.bytes) ∧ PlainEntry (keyA.bytes, longValue.bytes) ∧
      ∀ kind, ¬Reloads kind (unset false) (fun _ => none) keyA valueB ∧
        ¬Reloads kind (unset true) (fun _ => none) keyA longValue := by
  refine ⟨plain_a_b, plain_a_long, fun kind => ⟨fun reloads => ?_, fun reloads => ?_⟩⟩
  · exact absurd reloads.loadOk (by decide)
  · have short := reloads.size_le plain_a_long
    have keyLength : keyA.bytes.length = 1 := rfl
    have valueLength : longValue.bytes.length = 126 := List.length_replicate
    omega

end Msmuduo.FileConfReader
