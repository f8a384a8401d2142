import Msmuduo.FileConfReader

/-!
# The grammar of the configuration file

A configuration file consists of lines, and the first line that has an entry for
a key determines its value. The reader takes a line of more than 255 bytes for
several ones: it may miss the entry of the line, cut its value off, or find
entries in the rest of a value or of a comment.

Both readings are compared key by key. A line of at most 255 bytes gives a key
the same value in both; `Harmless` says when a longer one does not matter.
-/

namespace Msmuduo.FileConfReader

open Msmuduo.CString Msmuduo.Pieces

set_option autoImplicit false

/-- The map the lines of a file stand for. -/
def grammar (content : List Byte) : ConfigMap :=
  ConfigMap.empty.insertAll ((content.splitOn newline).filterMap entryOf)

/-! ### Lines and their pieces -/

theorem newline_notMem_lines {content line : List Byte}
    (member : line ∈ content.splitOn newline) : newline ∉ line := by
  induction content generalizing line with
  | nil => simp_all
  | cons byte content ih =>
      rw [List.splitOn_cons_eq_if_modifyHead] at member
      split at member
      · rcases List.mem_cons.mp member with rfl | later
        · exact List.not_mem_nil
        · exact ih later
      · next other =>
        cases lines : content.splitOn newline with
        | nil => exact absurd lines (List.splitOn_ne_nil _ _)
        | cons first rest =>
            rw [lines, List.modifyHead_cons, List.mem_cons] at member
            rw [lines] at ih
            rcases member with rfl | later
            · rw [List.mem_cons, not_or]
              refine ⟨?_, ih List.mem_cons_self⟩
              intro same
              exact other (beq_iff_eq.mpr same.symm)
            · exact ih (List.mem_cons_of_mem _ later)

theorem chomp_line {line : List Byte} (clean : newline ∉ line) : chomp line = line := by
  apply if_neg
  intro ends
  exact clean (List.mem_of_getLast? ends)

theorem chomp_newline (line : List Byte) : chomp (line ++ [newline]) = line := by
  rw [chomp, List.getLast?_concat, if_pos rfl, List.dropLast_concat]

theorem pieceEntries_nil : pieceEntries [] = [] := by
  rw [pieceEntries, pieces_nil]
  rfl

/-- A line of at most 255 bytes is one piece. -/
theorem pieceEntries_short {line : List Byte} (clean : newline ∉ line)
    (short : line.length ≤ 255) : pieceEntries line = (entryOf line).toList := by
  by_cases empty : line = []
  · rw [empty, pieceEntries_nil]
    rfl
  · rw [pieceEntries, pieces_last empty clean short, List.filterMap_cons, chomp_line clean]
    cases entryOf line <;> rfl

/-- A piece of 255 bytes without a newline. -/
theorem pieceEntries_cut {front : List Byte} (back : List Byte) (clean : newline ∉ front)
    (full : front.length = 255) :
    pieceEntries (front ++ back) = (entryOf front).toList ++ pieceEntries back := by
  rw [pieceEntries, pieces_cut back clean full, List.filterMap_cons, chomp_line clean]
  cases entryOf front <;> rfl

/-- The newline at the end of a line adds no entry. -/
theorem pieceEntries_newline {line : List Byte} (clean : newline ∉ line) :
    pieceEntries (line ++ [newline]) = pieceEntries line := by
  by_cases short : line.length < 255
  · rw [pieceEntries_short clean (Nat.le_of_lt short), pieceEntries, pieces_stop [] clean short,
      pieces_nil, List.filterMap_cons, chomp_newline]
    cases entryOf line <;> rfl
  · have long : 255 ≤ line.length := Nat.le_of_not_lt short
    have full : (line.take 255).length = 255 := by rw [List.length_take, Nat.min_eq_left long]
    have cleanFront : newline ∉ line.take 255 := fun member => clean (List.mem_of_mem_take member)
    have cleanBack : newline ∉ line.drop 255 := fun member => clean (List.mem_of_mem_drop member)
    have ended := pieceEntries_cut (line.drop 255 ++ [newline]) cleanFront full
    have plain := pieceEntries_cut (line.drop 255) cleanFront full
    rw [← List.append_assoc, List.take_append_drop] at ended
    rw [List.take_append_drop] at plain
    rw [ended, plain, pieceEntries_newline cleanBack]
termination_by line.length
decreasing_by
  rw [List.length_drop]
  omega

theorem pieceEntries_cons {line : List Byte} (clean : newline ∉ line) (rest : List Byte) :
    pieceEntries (line ++ newline :: rest) = pieceEntries line ++ pieceEntries rest := by
  rw [← pieceEntries_newline clean, pieceEntries, pieces_append_stop, List.filterMap_append]
  rfl

/-- The reader cuts every line for itself. -/
theorem pieceEntries_lines {lines : List (List Byte)}
    (clean : ∀ line ∈ lines, newline ∉ line) :
    pieceEntries ([newline].intercalate lines) = lines.flatMap pieceEntries := by
  induction lines with
  | nil => exact pieceEntries_nil
  | cons line lines ih =>
      have rest := ih fun line member => clean line (List.mem_cons_of_mem _ member)
      cases lines with
      | nil => simp
      | cons next later =>
          rw [List.intercalate_cons_of_ne_nil (by simp), List.append_assoc, List.singleton_append,
            pieceEntries_cons (clean line List.mem_cons_self), rest]
          rfl

/-! ### Two readings of a sequence -/

section

universe u v

variable {Line : Type u} {Value : Type v}

/-- Both readings of a line give the same value; or one gives none, and with the
lines behind it gives the value of the other. -/
def Agree (whole cut : Line → Option Value) (line : Line) (back : List Line) : Prop :=
  whole line = cut line ∨
    whole line = none ∧ back.findSome? whole = cut line ∨
    cut line = none ∧ back.findSome? cut = whole line

/-- At each of the long lines in front of which neither reading gives a value. -/
def AgreeFrom (whole cut : Line → Option Value) (Long : Line → Prop) (lines : List Line) :
    Prop :=
  ∀ front line back, lines = front ++ line :: back → Long line →
    front.findSome? whole = none → front.findSome? cut = none → Agree whole cut line back

variable {whole cut : Line → Option Value} {Long : Line → Prop}

theorem agreeFrom_cons {line : Line} {lines : List Line} :
    AgreeFrom whole cut Long (line :: lines) ↔
      (Long line → Agree whole cut line lines) ∧
        (whole line = none → cut line = none → AgreeFrom whole cut Long lines) := by
  constructor
  · intro agree
    refine ⟨fun long => agree [] line lines rfl long rfl rfl, ?_⟩
    intro noWhole noCut front other back split long unsetWhole unsetCut
    apply agree (line :: front) other back (by rw [split, List.cons_append]) long
    · rw [List.findSome?_cons, noWhole, unsetWhole]
    · rw [List.findSome?_cons, noCut, unsetCut]
  · rintro ⟨here, later⟩ front other back split long unsetWhole unsetCut
    cases front with
    | nil =>
        rcases List.cons.inj split with ⟨rfl, rfl⟩
        exact here long
    | cons first front =>
        rcases List.cons.inj split with ⟨rfl, rest⟩
        have noWhole := List.findSome?_eq_none_iff.mp unsetWhole line List.mem_cons_self
        have noCut := List.findSome?_eq_none_iff.mp unsetCut line List.mem_cons_self
        rw [List.findSome?_cons, noWhole] at unsetWhole
        rw [List.findSome?_cons, noCut] at unsetCut
        exact later noWhole noCut front other back rest long unsetWhole unsetCut

/-- The first line to which one of the readings gives a value decides. -/
theorem findSome?_eq_iff {lines : List Line}
    (short : ∀ line ∈ lines, ¬Long line → whole line = cut line) :
    lines.findSome? whole = lines.findSome? cut ↔ AgreeFrom whole cut Long lines := by
  induction lines with
  | nil =>
      refine ⟨fun _ front line back split => ?_, fun _ => rfl⟩
      exact absurd split (by simp)
  | cons line lines ih =>
      have rest := ih fun other member => short other (List.mem_cons_of_mem _ member)
      have here := short line List.mem_cons_self
      rw [agreeFrom_cons, List.findSome?_cons, List.findSome?_cons, Agree]
      by_cases long : Long line
      · cases wholeHere : whole line with
        | none => cases cutHere : cut line <;> simp [rest, long]
        | some value =>
            cases cutHere : cut line with
            | none => simp [long, eq_comm]
            | some other => simp [long]
      · rw [here long]
        cases cut line <;> simp [rest, long]

end

/-! ### The reader and the grammar -/

/-- The value a line gives a key. -/
def wholeValue (key line : List Byte) : Option (List Byte) :=
  (entryOf line).toList.lookup key

/-- The value the 255-byte pieces of a line give a key. -/
def cutValue (key line : List Byte) : Option (List Byte) := (pieceEntries line).lookup key

/-- At every line of more than 255 bytes, and for every key to which the lines
in front give no value, neither whole nor in pieces, the line gives the same
value whole and in pieces; or one of the two gives none, and the lines behind
make up for it. -/
def Harmless (content : List Byte) : Prop :=
  ∀ key, AgreeFrom (wholeValue key) (cutValue key) (fun line => 255 < line.length)
    (content.splitOn newline)

theorem lookup_flatMap {Line : Type} (entries : Line → List (List Byte × List Byte))
    (lines : List Line) (key : List Byte) :
    (lines.flatMap entries).lookup key =
      lines.findSome? fun line => (entries line).lookup key := by
  induction lines with
  | nil => rfl
  | cons line lines ih =>
      rw [List.flatMap_cons, List.lookup_append, ih, List.findSome?_cons]
      cases (entries line).lookup key <;> rfl

theorem lookup_grammar (content key : List Byte) :
    (grammar content).lookup key =
      (content.splitOn newline).findSome? (wholeValue key) := by
  rw [grammar, ConfigMap.lookup_insertAll_empty, List.filterMap_eq_flatMap_toList, lookup_flatMap]
  rfl

theorem lookup_pieceEntries (content key : List Byte) :
    (pieceEntries content).lookup key =
      (content.splitOn newline).findSome? (cutValue key) := by
  have clean : ∀ line ∈ content.splitOn newline, newline ∉ line :=
    fun line => newline_notMem_lines
  have lines := pieceEntries_lines clean
  rw [List.intercalate_splitOn] at lines
  rw [lines, lookup_flatMap]
  rfl

/-- The reader gives the map of the grammar exactly if no long line does harm. -/
theorem pieces_grammar_iff (content : List Byte) :
    ConfigMap.empty.insertAll (pieceEntries content) = grammar content ↔ Harmless content := by
  have byKey (key : List Byte) :
      (ConfigMap.empty.insertAll (pieceEntries content)).lookup key =
        (grammar content).lookup key ↔
      AgreeFrom (wholeValue key) (cutValue key) (fun line => 255 < line.length)
        (content.splitOn newline) := by
    rw [ConfigMap.lookup_insertAll_empty, lookup_pieceEntries, lookup_grammar, eq_comm]
    apply findSome?_eq_iff
    intro line member short
    rw [wholeValue, cutValue,
      pieceEntries_short (newline_notMem_lines member) (Nat.le_of_not_lt short)]
  constructor
  · intro same key
    exact (byKey key).mp (congrArg (ConfigMap.lookup · key) same)
  · intro harmless
    exact ConfigMap.ext_lookup fun key => (byKey key).mpr (harmless key)

theorem harmless_of_short {content : List Byte}
    (short : ∀ line ∈ content.splitOn newline, line.length ≤ 255) : Harmless content := by
  intro key front line back split long
  have member : line ∈ content.splitOn newline := by simp [split]
  exact absurd (short line member) (Nat.not_le_of_lt long)

/-- `loadFile` reads a file by its grammar exactly if no long line does harm. -/
theorem configMap_grammar_iff (disk : Disk) (filename content : CString) (garbage : Bool) :
    (new (disk.store filename content.bytes) filename garbage).map (·.configMap) =
      .ok (grammar content.bytes) ↔ Harmless content.bytes := by
  rw [new_eq, ← pieces_grammar_iff]
  exact ⟨fun same => Except.ok.inj same, congrArg Except.ok⟩

/-- A line that is all comment: 255 times `'#'` in front of `a=b`. -/
def longComment : CString where
  bytes := List.replicate 255 hash ++ text "a=b"
  clean := by simp only [List.mem_append, List.mem_replicate]; decide

/-- The reader cuts `a=b` off and has a key that the file does not define. -/
theorem long_comment_defines_key :
    (new (Disk.store (fun _ => none) ⟨[], by decide⟩ longComment.bytes) ⟨[], by decide⟩
      false).map (·.configMap) ≠ .ok (grammar longComment.bytes) := by
  have pieces : pieceEntries longComment.bytes = [(text "a", text "b")] := by
    have clean : newline ∉ List.replicate 255 hash := by
      rw [List.mem_replicate]
      decide
    rw [longComment, pieceEntries_cut (text "a=b") clean List.length_replicate,
      pieceEntries_short (by decide) (by decide)]
    decide
  have lines : longComment.bytes.splitOn newline = [longComment.bytes] := by
    apply List.splitOn_eq_singleton
    simp only [longComment, List.mem_append, List.mem_replicate]
    decide
  rw [new_eq, pieces, grammar, lines]
  intro same
  exact absurd (congrArg (ConfigMap.lookup · (text "a")) (Except.ok.inj same)) (by decide)

end Msmuduo.FileConfReader
