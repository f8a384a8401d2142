import Msmuduo.CString
import Msmuduo.Pieces
import Msmuduo.StringMap
import Msmuduo.Window

/-!
# The configuration file

A transcription of `FileConfReader.cpp`. A file is the bytes its stream delivers,
`fgets(buf, 256, fp)` the next piece of it, and `buf` the memory that holds the
piece and its terminator: nothing behind the terminator is looked at. Pointers
into `buf` are offsets.

`load_ok_` is not set before a file was opened; what the constructor finds there
is an argument. `snprintf` is the function of C99 or, with the definition in
`stdafx.h`, the `_snprintf` of Windows. For a file that holds no zero byte the
loop inserts one entry at most for each piece, that of its line.
-/

namespace Msmuduo

open Msmuduo.CString Msmuduo.Pieces Msmuduo.StringMap Msmuduo.Window

set_option autoImplicit false

/-- A `map<string, string>`. -/
abbrev ConfigMap := { map : StringMap // Ordered map }

namespace ConfigMap

def empty : ConfigMap := ⟨[], List.Pairwise.nil⟩

def lookup (map : ConfigMap) (key : List Byte) : Option (List Byte) := map.val.lookup key

def assign (map : ConfigMap) (key value : List Byte) : ConfigMap :=
  ⟨StringMap.assign key value map, assign_ordered map.property key value⟩

def insert (map : ConfigMap) (key value : List Byte) : ConfigMap :=
  ⟨StringMap.insert key value map, insert_ordered map.property key value⟩

def insertAll (map : ConfigMap) (entries : List (List Byte × List Byte)) : ConfigMap :=
  ⟨StringMap.insertAll entries map, insertAll_ordered entries map.property⟩

theorem insertAll_append (map : ConfigMap) (first second : List (List Byte × List Byte)) :
    map.insertAll (first ++ second) = (map.insertAll first).insertAll second :=
  Subtype.ext List.foldl_append

theorem ext_lookup {left right : ConfigMap}
    (same : ∀ key, left.lookup key = right.lookup key) : left = right :=
  Subtype.ext (ordered_ext left.property right.property same)

theorem lookup_insertAll_empty (entries : List (List Byte × List Byte)) (key : List Byte) :
    (empty.insertAll entries).lookup key = entries.lookup key :=
  StringMap.lookup_insertAll entries [] key

end ConfigMap

/-- The files by their names. -/
abbrev Disk := CString → Option (List Byte)

def Disk.store (disk : Disk) (name : CString) (content : List Byte) : Disk :=
  fun other => if other = name then some content else disk other

/-- Whether `fopen` opens the file to be written, and which calls of `fwrite`
write their record. -/
structure Writes where
  opens : Bool
  accepts : Nat → Bool

/-- What `snprintf` stands for. -/
inductive Snprintf where
  | c99
  | windows
  deriving DecidableEq, Repr

/-- `snprintf(buf, sizeof buf, ...)`, where the arguments format to `text`. -/
def Snprintf.print (kind : Snprintf) (buf text : List Byte) : List Byte :=
  match kind with
  | c99 => overwrite buf 0 (text.take (buf.length - 1) ++ [0])
  | windows => overwrite buf 0 ((text ++ [0]).take buf.length)

structure FileConfReader where
  loadOk : Bool
  configMap : ConfigMap
  configFile : CString

namespace FileConfReader

def newline : Byte := 10

def hash : Byte := 35

def equals : Byte := 61

/-- `' '` or `'\t'` -/
def isBlank (byte : Byte) : Bool := byte == 32 || byte == 9

/-- Returns the pointer behind the blanks, and the memory with the blanks at the
end erased. -/
def trimSpace (memory : List Byte) (name : Nat) :
    Except OutOfBounds (List Byte × Option Nat) := do
  let startPos ← advance isBlank memory name
  let left ← strlen memory startPos
  if left = 0 then return (memory, none)
  let length ← strlen memory name
  let (memory, endPos) ← eraseBack isBlank memory (name + length)
  let len := endPos - startPos + 1
  if len ≤ 0 then return (memory, none)
  return (memory, some startPos)

def parseLine (memory : List Byte) (map : ConfigMap) : Except OutOfBounds ConfigMap := do
  match ← strchr memory 0 equals with
  | none => return map
  | some p => do
      let memory ← write memory p 0
      let (memory, key) ← trimSpace memory 0
      let (memory, val) ← trimSpace memory (p + 1)
      match key, val with
      | some key, some val => do
          let key ← string memory key
          let val ← string memory val
          return map.insert key val
      | _, _ => return map

/-- The body of the loop in `loadFile` once the newline is removed. -/
def readText (buf : List Byte) (map : ConfigMap) : Except OutOfBounds ConfigMap := do
  let ch ← strchr buf 0 hash
  let buf ← match ch with
    | some ch => write buf ch 0
    | none => pure buf
  let len ← strlen buf 0
  if len = 0 then return map
  parseLine buf map

/-- The body of the loop in `loadFile`. -/
def readLine (buf : List Byte) (map : ConfigMap) : Except OutOfBounds ConfigMap := do
  let len ← strlen buf 0
  let last ← read buf (len - 1)
  let buf ← if last = newline then write buf (len - 1) 0 else pure buf
  readText buf map

theorem positive : 0 < 255 := by decide

/-- The loop in `loadFile`, which ends where `fgets` finds nothing to read. -/
def readLines (stream : List Byte) (map : ConfigMap) : Except OutOfBounds ConfigMap :=
  if stream = [] then .ok map
  else do
    let map ← readLine ((nextPiece newline 255 stream).1 ++ [0]) map
    readLines (nextPiece newline 255 stream).2 map
termination_by stream.length
decreasing_by exact length_rest_lt newline positive ‹_›

def loadFile (r : FileConfReader) (disk : Disk) (filename : CString) :
    Except OutOfBounds FileConfReader := do
  let r := { r with configFile := filename }
  match disk filename with
  | none => return r
  | some stream => do
      let map ← readLines stream r.configMap
      return { r with configMap := map, loadOk := true }

/-- `FileConfReader(filename)` -/
def new (disk : Disk) (filename : CString) (garbage : Bool) :
    Except OutOfBounds FileConfReader :=
  loadFile
    { loadOk := garbage, configMap := ConfigMap.empty, configFile := ⟨[], by decide⟩ }
    disk filename

def getKey (r : FileConfReader) (key : CString) : Option (List Byte) :=
  if r.loadOk then r.configMap.lookup key.bytes else none

/-- The text of `"%s=%s\n"`. -/
def pair (first second : List Byte) : List Byte := first ++ equals :: second ++ [newline]

/-- What `fwrite` is given for an entry: the bytes in front of the first zero
byte of `szPaire`. -/
def szPaire (kind : Snprintf) (entry : List Byte × List Byte) :
    Except OutOfBounds (List Byte) :=
  string (kind.print (List.replicate 128 0)
    (pair (ofString entry.1).bytes (ofString entry.2).bytes)) 0

/-- The loop in `writeFile` from the entry with the given index on. -/
def writeEntries (kind : Snprintf) (accepts : Nat → Bool) (index : Nat)
    (written : List Byte) : StringMap → Except OutOfBounds (Int × List Byte)
  | [] => .ok (0, written)
  | entry :: entries => do
      let bytes ← szPaire kind entry
      if accepts index then
        writeEntries kind accepts (index + 1) (written ++ bytes) entries
      else return (-1, written)

def writeFile (r : FileConfReader) (kind : Snprintf) (writes : Writes) (disk : Disk)
    (filename : Option CString) : Except OutOfBounds (Int × Disk) := do
  let name := filename.getD r.configFile
  if writes.opens then
    let (ret, written) ← writeEntries kind writes.accepts 0 [] r.configMap.val
    return (ret, disk.store name written)
  else return (-1, disk)

def setVal (r : FileConfReader) (kind : Snprintf) (writes : Writes) (disk : Disk)
    (key val : CString) : Except OutOfBounds (Int × FileConfReader × Disk) := do
  -- `return NULL`
  if !r.loadOk then return (0, r, disk)
  let map :=
    if (r.configMap.lookup key.bytes).isSome then r.configMap.assign key.bytes val.bytes
    else r.configMap.insert key.bytes val.bytes
  let r := { r with configMap := map }
  let (ret, disk) ← r.writeFile kind writes disk none
  return (ret, r, disk)

/-! ### A line -/

/-- What is on both sides of the first `'='`, trimmed, if neither is empty. -/
def assignment (text : List Byte) : Option (List Byte × List Byte) :=
  let key := trim isBlank (text.takeWhile (· != equals))
  let value := trim isBlank (text.dropWhile (· != equals)).tail
  if equals ∈ text ∧ key ≠ [] ∧ value ≠ [] then some (key, value) else none

/-- The entry of a line, which ends in front of the first `'#'`. -/
def entryOf (line : List Byte) : Option (List Byte × List Byte) :=
  assignment (line.takeWhile (· != hash))

/-- The line without the newline at its end. -/
def chomp (line : List Byte) : List Byte :=
  if line.getLast? = some newline then line.dropLast else line

/-- The bytes of a string that `trimSpace` has gone over. -/
def erased (string : List Byte) : List Byte :=
  if trim isBlank string = [] then string
  else string.takeWhile isBlank ++ trim isBlank string ++
    List.replicate ((string.dropWhile isBlank).rtakeWhile isBlank).length 0

theorem length_erased (string : List Byte) : (erased string).length = string.length := by
  have whole := congrArg List.length (trim_frame isBlank string)
  unfold erased
  split
  · rfl
  · simpa only [List.length_append, List.length_replicate] using whole

theorem trim_clean {string : List Byte} (clean : 0 ∉ string) : 0 ∉ trim isBlank string := by
  intro member
  apply clean
  rw [← trim_frame isBlank string]
  exact List.mem_append_left _ (List.mem_append_right _ member)

/-- The pointer that `trimSpace` returns is one to the trimmed string. -/
theorem string_erased {text : List Byte} (clean : 0 ∉ text) (nonempty : trim isBlank text ≠ [])
    (front back : List Byte) :
    string (front ++ erased text ++ 0 :: back)
      (front.length + (text.takeWhile isBlank).length) = .ok (trim isBlank text) := by
  have zeros : List.replicate ((text.dropWhile isBlank).rtakeWhile isBlank).length (0 : Byte) ++
      0 :: back =
      0 :: (List.replicate ((text.dropWhile isBlank).rtakeWhile isBlank).length 0 ++ back) := by
    rw [← List.cons_append, ← List.replicate_succ, List.replicate_succ', List.append_assoc]
    rfl
  have memory : front ++ erased text ++ 0 :: back =
      front ++ text.takeWhile isBlank ++ trim isBlank text ++
        0 :: (List.replicate ((text.dropWhile isBlank).rtakeWhile isBlank).length 0 ++ back) := by
    rw [erased, if_neg nonempty, ← zeros]
    simp only [List.append_assoc]
  rw [memory, ← List.length_append]
  exact string_append _ (trim_clean clean) _

/-- A text that neither begins nor ends with a blank, between blanks. -/
theorem trimSpace_text {lead text trail : List Byte}
    (leadBlank : ∀ byte ∈ lead, isBlank byte = true)
    (trailBlank : ∀ byte ∈ trail, isBlank byte = true)
    (begins : ∃ first rest, text = first :: rest ∧ isBlank first = false)
    (ends : ∃ core last, text = core ++ [last] ∧ isBlank last = false)
    (clean : 0 ∉ lead ++ text ++ trail) (front back : List Byte) :
    trimSpace (front ++ (lead ++ text ++ trail) ++ 0 :: back) front.length =
      .ok (front ++ (lead ++ text ++ List.replicate trail.length 0) ++ 0 :: back,
        some (front ++ lead).length) := by
  rcases begins with ⟨first, rest, begins, firstText⟩
  rcases ends with ⟨core, last, ends, lastText⟩
  have start : advance isBlank (front ++ (lead ++ text ++ trail) ++ 0 :: back) front.length =
      .ok (front ++ lead).length := by
    have split : front ++ (lead ++ text ++ trail) ++ 0 :: back =
        front ++ lead ++ first :: (rest ++ trail ++ 0 :: back) := by
      rw [begins]
      simp only [List.append_assoc, List.cons_append]
    rw [split]
    exact advance_stop front leadBlank firstText _
  have left : strlen (front ++ (lead ++ text ++ trail) ++ 0 :: back) (front ++ lead).length =
      .ok (text ++ trail).length := by
    have split : front ++ (lead ++ text ++ trail) ++ 0 :: back =
        front ++ lead ++ (text ++ trail) ++ 0 :: back := by simp only [List.append_assoc]
    rw [split]
    apply strlen_append
    intro member
    apply clean
    rw [List.append_assoc]
    exact List.mem_append_right _ member
  have stop : eraseBack isBlank (front ++ (lead ++ text ++ trail) ++ 0 :: back)
      (front.length + (lead ++ text ++ trail).length) =
      .ok (front ++ (lead ++ text ++ List.replicate trail.length 0) ++ 0 :: back,
        ((front ++ lead ++ core).length : Int)) := by
    have split (run : List Byte) :
        front ++ (lead ++ text ++ run) = front ++ lead ++ core ++ [last] ++ run := by
      rw [ends]
      simp only [List.append_assoc]
    rw [← List.length_append, split, split]
    exact eraseBack_stop (front ++ lead ++ core) lastText trailBlank (0 :: back)
  have positive : ¬(text ++ trail).length = 0 := by
    rw [begins]
    simp
  have order : ¬((front ++ lead ++ core).length : Int) - (front ++ lead).length + 1 ≤ 0 := by
    simp only [List.length_append, Nat.cast_add]
    omega
  simp only [trimSpace, start, left, strlen_append front clean, stop, bind, Except.bind, pure,
    Except.pure, if_neg positive, if_neg order]

theorem trimSpace_eq {string : List Byte} (clean : 0 ∉ string) (front back : List Byte) :
    trimSpace (front ++ string ++ 0 :: back) front.length =
      .ok (front ++ erased string ++ 0 :: back,
        if trim isBlank string = [] then none
        else some (front.length + (string.takeWhile isBlank).length)) := by
  by_cases empty : trim isBlank string = []
  · have start := advance_stop front (trim_eq_nil empty) (by decide : isBlank 0 = false) back
    have left := strlen_append (front ++ string) (List.not_mem_nil (a := 0)) back
    rw [List.append_nil] at left
    simp only [trimSpace, start, left, bind, Except.bind, pure, Except.pure, List.length_nil,
      if_pos, erased, empty]
  · have frame := trim_frame isBlank string
    rw [← frame] at clean
    have text := trimSpace_text (fun _ => List.mem_takeWhile_imp)
      (fun _ => List.mem_rtakeWhile_imp) (trim_first empty) (trim_last empty) clean front back
    rw [frame, List.length_append] at text
    rw [erased, if_neg empty, if_neg empty]
    exact text

theorem assignment_none {text : List Byte} (absent : equals ∉ text) : assignment text = none :=
  if_neg fun conditions => absent conditions.1

theorem assignment_split {before after : List Byte} (first : equals ∉ before) :
    assignment (before ++ equals :: after) =
      if trim isBlank before ≠ [] ∧ trim isBlank after ≠ [] then
        some (trim isBlank before, trim isBlank after)
      else none := by
  have present : equals ∈ before ++ equals :: after := by simp
  simp only [assignment, takeWhile_append_cons first, dropWhile_append_cons first, List.tail_cons,
    present, true_and]

theorem parseLine_eq {line : List Byte} (clean : 0 ∉ line) (back : List Byte) (map : ConfigMap) :
    parseLine (line ++ 0 :: back) map = .ok (map.insertAll (assignment line).toList) := by
  by_cases present : equals ∈ line
  · rcases List.eq_append_cons_of_mem present with ⟨before, after, rfl, first⟩
    have cleanBefore : 0 ∉ before := fun member => clean (List.mem_append_left _ member)
    have cleanAfter : 0 ∉ after := fun member =>
      clean (List.mem_append_right _ (List.mem_cons_of_mem _ member))
    have found : strchr (before ++ equals :: after ++ 0 :: back) 0 equals =
        .ok (some before.length) := strchr_some clean first back
    have cut : write (before ++ equals :: after ++ 0 :: back) before.length 0 =
        .ok (before ++ 0 :: (after ++ 0 :: back)) := write_inside before equals after _ 0
    have key : trimSpace (before ++ 0 :: (after ++ 0 :: back)) 0 =
        .ok (erased before ++ 0 :: (after ++ 0 :: back),
          if trim isBlank before = [] then none
          else some (before.takeWhile isBlank).length) := by
      have result := trimSpace_eq cleanBefore [] (after ++ 0 :: back)
      simpa only [List.nil_append, List.length_nil, Nat.zero_add] using result
    have value : trimSpace (erased before ++ 0 :: (after ++ 0 :: back)) (before.length + 1) =
        .ok (erased before ++ 0 :: (erased after ++ 0 :: back),
          if trim isBlank after = [] then none
          else some (before.length + 1 + (after.takeWhile isBlank).length)) := by
      have result := trimSpace_eq cleanAfter (erased before ++ [0]) back
      simpa only [List.append_assoc, List.cons_append, List.nil_append, List.length_append,
        List.length_singleton, length_erased] using result
    simp only [parseLine, found, cut, key, value, bind, Except.bind, pure, Except.pure]
    rw [assignment_split first]
    by_cases noKey : trim isBlank before = []
    · have refused : ¬(trim isBlank before ≠ [] ∧ trim isBlank after ≠ []) :=
        fun conditions => conditions.1 noKey
      rw [if_pos noKey, if_neg refused]
      rfl
    · by_cases noValue : trim isBlank after = []
      · have refused : ¬(trim isBlank before ≠ [] ∧ trim isBlank after ≠ []) :=
          fun conditions => conditions.2 noValue
        rw [if_neg noKey, if_pos noValue, if_neg refused]
        rfl
      · have keyRead := string_erased cleanBefore noKey [] (erased after ++ 0 :: back)
        have valueRead := string_erased cleanAfter noValue (erased before ++ [0]) back
        simp only [List.append_assoc, List.cons_append, List.nil_append, List.length_nil,
          Nat.zero_add, List.length_append, List.length_singleton, length_erased]
          at keyRead valueRead
        rw [if_neg noKey, if_neg noValue, if_pos ⟨noKey, noValue⟩]
        simp only [keyRead, valueRead]
        rfl
  · simp only [parseLine, strchr_none clean present, bind, Except.bind, pure, Except.pure,
      assignment_none present]
    rfl

/-- An empty text, which the loop passes over, has no entry either. -/
theorem parseLine_unless_empty {line : List Byte} (clean : 0 ∉ line) (back : List Byte)
    (map : ConfigMap) :
    (if line.length = 0 then .ok map else parseLine (line ++ 0 :: back) map) =
      .ok (map.insertAll (assignment line).toList) := by
  split
  · next empty =>
    rw [List.length_eq_zero_iff.mp empty]
    rfl
  · exact parseLine_eq clean back map

theorem readText_eq {line : List Byte} (clean : 0 ∉ line) (back : List Byte) (map : ConfigMap) :
    readText (line ++ 0 :: back) map = .ok (map.insertAll (entryOf line).toList) := by
  by_cases present : hash ∈ line
  · rcases List.eq_append_cons_of_mem present with ⟨before, after, rfl, first⟩
    have cleanBefore : 0 ∉ before := fun member => clean (List.mem_append_left _ member)
    have found : strchr (before ++ hash :: after ++ 0 :: back) 0 hash =
        .ok (some before.length) := strchr_some clean first back
    have cut : write (before ++ hash :: after ++ 0 :: back) before.length 0 =
        .ok (before ++ 0 :: (after ++ 0 :: back)) := write_inside before hash after _ 0
    have len := strlen_head cleanBefore (after ++ 0 :: back)
    simp only [readText, found, cut, len, bind, Except.bind, pure, Except.pure]
    rw [entryOf, takeWhile_append_cons first]
    exact parseLine_unless_empty cleanBefore _ map
  · simp only [readText, strchr_none clean present, strlen_head clean, bind, Except.bind, pure,
      Except.pure]
    rw [entryOf, takeWhile_absent present]
    exact parseLine_unless_empty clean back map

/-- Each piece of a file without zero bytes is taken as a line. -/
theorem readLine_eq {piece : List Byte} (clean : 0 ∉ piece) (nonempty : piece ≠ [])
    (map : ConfigMap) :
    readLine (piece ++ [0]) map = .ok (map.insertAll (entryOf (chomp piece)).toList) := by
  rcases List.eq_nil_or_concat' piece with empty | ⟨front, last, rfl⟩
  · exact absurd empty nonempty
  · have cleanFront : 0 ∉ front := fun member => clean (List.mem_append_left _ member)
    have len := strlen_head clean []
    rw [List.length_append, List.length_singleton] at len
    have index : ((front.length + 1 : Nat) : Int) - 1 = front.length := by omega
    have split : front ++ [last] ++ [0] = front ++ last :: [0] := by simp
    simp only [readLine, len, index, bind, Except.bind]
    rw [split, read_append, chomp, List.getLast?_concat]
    by_cases ends : last = newline
    · simp only [ends, write_append, List.dropLast_concat, if_true]
      exact readText_eq cleanFront [0] map
    · simp only [if_neg ends, Option.some.injEq, pure, Except.pure]
      rw [← split]
      exact readText_eq clean [] map

/-! ### A file -/

/-- The entries of the pieces of a file. -/
def pieceEntries (stream : List Byte) : List (List Byte × List Byte) :=
  (pieces newline 255 positive stream).filterMap fun piece => entryOf (chomp piece)

theorem pieceEntries_next {stream : List Byte} (nonempty : stream ≠ []) :
    pieceEntries stream =
      (entryOf (chomp (nextPiece newline 255 stream).1)).toList ++
        pieceEntries (nextPiece newline 255 stream).2 := by
  rw [pieceEntries, pieces_next nonempty, List.filterMap_cons]
  cases entryOf (chomp (nextPiece newline 255 stream).1) <;> rfl

theorem readLines_eq {stream : List Byte} (clean : 0 ∉ stream) (map : ConfigMap) :
    readLines stream map = .ok (map.insertAll (pieceEntries stream)) := by
  fun_induction readLines stream map with
  | case1 map =>
      rw [pieceEntries, pieces_nil]
      rfl
  | case2 stream map nonempty ih =>
      have whole := nextPiece_append newline 255 stream
      have cleanPiece : 0 ∉ (nextPiece newline 255 stream).1 := by
        intro member
        exact clean (whole ▸ List.mem_append_left _ member)
      have cleanRest : 0 ∉ (nextPiece newline 255 stream).2 := by
        intro member
        exact clean (whole ▸ List.mem_append_right _ member)
      have something : (nextPiece newline 255 stream).1 ≠ [] := by
        intro none
        rw [none, List.nil_append] at whole
        have shorter := length_rest_lt newline positive nonempty
        rw [whole] at shorter
        exact Nat.lt_irrefl _ shorter
      simp only [readLine_eq cleanPiece something, bind, Except.bind]
      rw [ih _ cleanRest, pieceEntries_next nonempty, ConfigMap.insertAll_append]

theorem new_eq (disk : Disk) (filename content : CString) (garbage : Bool) :
    new (disk.store filename content.bytes) filename garbage =
      .ok
        { loadOk := true, configMap := ConfigMap.empty.insertAll (pieceEntries content.bytes),
          configFile := filename } := by
  have found : disk.store filename content.bytes filename = some content.bytes := if_pos rfl
  simp only [new, loadFile, found, readLines_eq content.clean, bind, Except.bind, pure,
    Except.pure]

end FileConfReader

end Msmuduo
