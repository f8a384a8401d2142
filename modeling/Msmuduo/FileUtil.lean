import Msmuduo.CString

/-!
# File names in paths

A transcription of the two functions of `FileUtil.cpp` that take the last
component out of a path. Pointers are offsets from `filePath` and every byte is
read through them. Both functions end alike: they look for the separator in
front of the component and copy what is behind it.
-/

namespace Msmuduo.FileUtil

open Msmuduo.CString

set_option autoImplicit false

/-- `'/'` or `'\\'` -/
def isSeparator (byte : UInt8) : Bool := byte == 47 || byte == 92

def dot : UInt8 := 46

/-- The end of both functions: `nameStart` goes down from the byte in front of
`nameEnd` to a separator, and the bytes behind it are assigned to `filename`. -/
def nameBefore (memory : List UInt8) (nameEnd : Int) : Except OutOfBounds (List UInt8) := do
  let separator ← retreat isSeparator memory (nameEnd - 1)
  let nameStart := separator + 1
  if nameStart < nameEnd then range memory nameStart nameEnd else return []

def getFileNameFromPath (filePath : CString) : Except OutOfBounds (List UInt8) := do
  let length ← strlen filePath.memory 0
  let nameEnd : Int := length - 1
  let nameEnd ← retreat (fun byte => !isSeparator byte) filePath.memory nameEnd
  nameBefore filePath.memory (nameEnd + 1)

/-- The loop over `ptr`, which has `count` bytes from `filePath` up to itself:
`nameEnd` is moved to a dot, and left alone when a separator comes first. -/
def extensionStart (memory : List UInt8) (nameEnd : Int) : Nat → Except OutOfBounds Int
  | 0 => .ok nameEnd
  | count + 1 => do
      let byte ← read memory count
      if byte = dot then return count
      else if isSeparator byte then return nameEnd
      else extensionStart memory nameEnd count

def getFileNameNotExtFromPath (filePath : CString) : Except OutOfBounds (List UInt8) := do
  let length ← strlen filePath.memory 0
  let nameEnd : Int := length - 1
  let last ← read filePath.memory nameEnd
  if isSeparator last then
    let nameEnd ← retreat (fun byte => !isSeparator byte) filePath.memory nameEnd
    nameBefore filePath.memory (nameEnd + 1)
  else
    let nameEnd ← extensionStart filePath.memory nameEnd length
    nameBefore filePath.memory nameEnd

/-! ### The last component -/

/-- What is behind the last separator. -/
def component (path : List UInt8) : List UInt8 := path.rtakeWhile fun byte => !isSeparator byte

/-- What is in front of the last component. -/
def directory (path : List UInt8) : List UInt8 := path.rdropWhile fun byte => !isSeparator byte

def endsWithSeparator (path : List UInt8) : Bool := path.getLast?.any isSeparator

/-- Everything from the last dot on removed. -/
def withoutExtension (name : List UInt8) : List UInt8 :=
  if dot ∈ name then (name.rdropWhile (· != dot)).dropLast else name

theorem directory_append_component (path : List UInt8) : directory path ++ component path = path :=
  List.rdropWhile_append_rtakeWhile

theorem nameBefore_eq {memory : List UInt8} {count : Nat} (inside : count ≤ memory.length) :
    nameBefore memory count = .ok (component (memory.take count)) := by
  have whole := directory_append_component (memory.take count)
  have lengths := congrArg List.length whole
  rw [List.length_append, List.length_take, Nat.min_eq_left inside] at lengths
  unfold nameBefore
  rw [retreat_pred isSeparator inside]
  change (if ((directory (memory.take count)).length - 1 + 1 : Int) < count then
    range memory ((directory (memory.take count)).length - 1 + 1) count else .ok []) = _
  rw [sub_add_cancel]
  by_cases empty : component (memory.take count) = []
  · rw [empty, List.length_nil] at lengths
    rw [if_neg (by omega), empty]
  · have positive := List.length_pos_iff.mpr empty
    rw [if_pos (by omega), range, if_pos (by omega)]
    have behind := congrArg (List.drop (directory (memory.take count)).length) whole
    rw [List.drop_left] at behind
    exact congrArg Except.ok behind.symm

theorem nameBefore_front {front memory : List UInt8} (kept : front <+: memory) :
    nameBefore memory front.length = .ok (component front) := by
  rw [nameBefore_eq kept.length_le, ← List.prefix_iff_eq_take.mp kept]

theorem component_append (front : List UInt8) {name : List UInt8}
    (clean : ∀ byte ∈ name, isSeparator byte = false) :
    component (front ++ name) = component front ++ name := by
  unfold component List.rtakeWhile
  rw [List.reverse_append, List.takeWhile_append_of_pos, List.reverse_append,
    List.reverse_reverse]
  intro byte member
  rw [clean byte (List.mem_reverse.mp member)]
  rfl

theorem component_concat (front : List UInt8) {last : UInt8} (plain : isSeparator last = false) :
    component (front ++ [last]) = component front ++ [last] := by
  apply component_append front
  intro byte member
  rwa [List.mem_singleton.mp member]

theorem component_clean (path : List UInt8) :
    ∀ byte ∈ component path, isSeparator byte = false := by
  intro byte member
  have kept := List.mem_rtakeWhile_imp member
  rwa [Bool.not_eq_true'] at kept

theorem component_directory (path : List UInt8) : component (directory path) = [] := by
  apply List.rtakeWhile_eq_nil_iff.mpr
  intro nonempty
  exact List.rdropWhile_last_not _ _ nonempty

/-- The last byte of a directory is a separator. -/
theorem directory_ends {path front : List UInt8} {last : UInt8}
    (ends : directory path = front ++ [last]) : isSeparator last = true := by
  have nonempty : directory path ≠ [] := by
    rw [ends]
    simp
  have stopped := List.rdropWhile_last_not (fun byte => !isSeparator byte) path nonempty
  have last_ : (directory path).getLast nonempty = last := by simp [ends]
  change ¬(!isSeparator ((directory path).getLast nonempty)) = true at stopped
  rw [last_] at stopped
  simpa using stopped

/-- The common start of both functions on a path whose last bytes are
separators, which may be none. -/
theorem nameBefore_stripped (filePath : CString) :
    (do
      let nameEnd ← retreat (fun byte => !isSeparator byte) filePath.memory
        (filePath.bytes.length - 1)
      nameBefore filePath.memory (nameEnd + 1)) =
      .ok (component (filePath.bytes.rdropWhile isSeparator)) := by
  have inside : filePath.bytes.length ≤ filePath.memory.length := by simp [CString.memory]
  have whole : filePath.memory.take filePath.bytes.length = filePath.bytes := by
    simp [CString.memory]
  have shorter : filePath.bytes.rdropWhile isSeparator <+: filePath.memory :=
    (List.rdropWhile_prefix isSeparator filePath.bytes).trans (List.prefix_append _ _)
  rw [retreat_pred _ inside, whole]
  simp only [Bool.not_not]
  change nameBefore filePath.memory
    ((filePath.bytes.rdropWhile isSeparator).length - 1 + 1 : Int) = _
  rw [sub_add_cancel]
  exact nameBefore_front shorter

theorem getFileNameFromPath_eq (filePath : CString) :
    getFileNameFromPath filePath =
      .ok (component (filePath.bytes.rdropWhile isSeparator)) := by
  unfold getFileNameFromPath
  rw [strlen_memory]
  exact nameBefore_stripped filePath

/-! ### The extension -/

/-- The loop passes over bytes that are neither dots nor separators. -/
theorem extensionStart_clean (front : List UInt8) {run : List UInt8} (back : List UInt8)
    (nameEnd : Int) (dotless : dot ∉ run) (clean : ∀ byte ∈ run, isSeparator byte = false) :
    extensionStart (front ++ run ++ back) nameEnd (front ++ run).length =
      extensionStart (front ++ run ++ back) nameEnd front.length := by
  induction run using List.reverseRecOn generalizing back with
  | nil => rw [List.append_nil]
  | append_singleton run byte ih =>
      have found : (front ++ (run ++ [byte]) ++ back)[(front ++ run).length]? = some byte := by
        rw [← List.append_assoc, List.append_assoc (front ++ run),
          List.getElem?_append_right le_rfl]
        simp
      have length : (front ++ (run ++ [byte])).length = (front ++ run).length + 1 := by
        simp only [List.length_append, List.length_singleton]
        omega
      have memory : front ++ (run ++ [byte]) ++ back = front ++ run ++ (byte :: back) := by simp
      have other : byte ≠ dot := fun same => dotless (by simp [same])
      have plain := clean byte (by simp)
      rw [length, extensionStart, read_ofNat found]
      change (if byte = dot then _ else if isSeparator byte then _ else _) = _
      rw [if_neg other, plain, memory]
      exact ih (byte :: back) (fun member => dotless (List.mem_append_left _ member))
        fun byte member => clean byte (List.mem_append_left _ member)

/-- A dot behind which there is neither a dot nor a separator. -/
theorem extensionStart_dot (front : List UInt8) {extension : List UInt8} (back : List UInt8)
    (nameEnd : Int) (dotless : dot ∉ extension)
    (clean : ∀ byte ∈ extension, isSeparator byte = false) :
    extensionStart (front ++ dot :: extension ++ back) nameEnd
      (front ++ dot :: extension).length = .ok (front.length : Int) := by
  have split : front ++ dot :: extension = front ++ [dot] ++ extension := by simp
  have found : (front ++ [dot] ++ extension ++ back)[front.length]? = some dot := by simp
  rw [split, extensionStart_clean (front ++ [dot]) back nameEnd dotless clean,
    List.length_append, List.length_singleton, extensionStart, read_ofNat found]
  rfl

/-- No dot behind the last separator. -/
theorem extensionStart_none (path back : List UInt8) (nameEnd : Int)
    (dotless : dot ∉ component path) :
    extensionStart (path ++ back) nameEnd path.length = .ok nameEnd := by
  have whole := directory_append_component path
  conv_lhs => rw [← whole]
  rw [extensionStart_clean _ back nameEnd dotless (component_clean path)]
  rcases List.eq_nil_or_concat' (directory path) with empty | ⟨front, last, ends⟩
  · rw [empty]
    rfl
  · have separator := directory_ends ends
    have other : last ≠ dot := by
      rintro rfl
      exact absurd separator (by decide)
    have found : (front ++ [last] ++ component path ++ back)[front.length]? = some last := by
      simp
    rw [ends, List.length_append, List.length_singleton, extensionStart, read_ofNat found]
    change (if last = dot then _ else if isSeparator last then _ else _) = _
    rw [if_neg other, if_pos separator]
    rfl

/-- A name with a dot, taken apart at the last one. -/
theorem withoutExtension_dot {stem extension : List UInt8} (dotless : dot ∉ extension) :
    withoutExtension (stem ++ dot :: extension) = stem := by
  have present : dot ∈ stem ++ dot :: extension := by simp
  have dropped : (stem ++ dot :: extension).rdropWhile (· != dot) = stem ++ [dot] := by
    unfold List.rdropWhile
    rw [List.reverse_append, List.reverse_cons, List.append_assoc,
      List.dropWhile_append_of_pos]
    · simp
    · intro byte member
      rw [bne_iff_ne]
      exact ne_of_mem_of_not_mem (List.mem_reverse.mp member) dotless
  rw [withoutExtension, if_pos present, dropped, List.dropLast_concat]

theorem split_last_dot {name : List UInt8} (present : dot ∈ name) :
    ∃ stem extension, name = stem ++ dot :: extension ∧ dot ∉ extension := by
  rcases List.eq_append_cons_of_mem (List.mem_reverse.mpr present) with
    ⟨behind, before, split, clean⟩
  refine ⟨before.reverse, behind.reverse, ?_, by simpa using clean⟩
  have turned := congrArg List.reverse split
  simpa using turned

/-! ### Where the two functions agree -/

/-- Both functions return without a read outside the path and its terminator,
and `getFileNameNotExtFromPath` returns the same name, less its extension when
the path does not end with a separator. -/
def Agrees (filePath : CString) : Prop :=
  ∃ name, getFileNameFromPath filePath = .ok name ∧
    getFileNameNotExtFromPath filePath =
      .ok (if endsWithSeparator filePath.bytes then name else withoutExtension name)

theorem endsWithSeparator_concat (front : List UInt8) (last : UInt8) :
    endsWithSeparator (front ++ [last]) = isSeparator last := by
  unfold endsWithSeparator
  rw [List.getLast?_concat]
  rfl

/-- On a path that is not empty the first read is the one of its last byte. -/
theorem getFileNameNotExtFromPath_concat {filePath : CString} {front : List UInt8} {last : UInt8}
    (ends : filePath.bytes = front ++ [last]) :
    getFileNameNotExtFromPath filePath =
      if isSeparator last then .ok (component (filePath.bytes.rdropWhile isSeparator))
      else (do
        let nameEnd ← extensionStart filePath.memory (filePath.bytes.length - 1)
          filePath.bytes.length
        nameBefore filePath.memory nameEnd) := by
  have index : (filePath.bytes.length - 1 : Int) = (front.length : Nat) := by
    rw [ends, List.length_append, List.length_singleton]
    omega
  have found : filePath.memory[front.length]? = some last := by
    rw [CString.memory, ends]
    simp
  have start := read_ofNat found
  rw [← index] at start
  unfold getFileNameNotExtFromPath
  rw [strlen_memory]
  change (read filePath.memory (filePath.bytes.length - 1) >>= fun last => _) = _
  rw [start]
  change (if isSeparator last then _ else _) = _
  split
  · exact nameBefore_stripped filePath
  · rfl

/-- A name that ends with no separator keeps what is in front of its last dot,
and loses its last byte when there is none. -/
theorem getFileNameNotExtFromPath_name {filePath : CString} {front : List UInt8} {last : UInt8}
    (ends : filePath.bytes = front ++ [last]) (plain : isSeparator last = false) :
    getFileNameNotExtFromPath filePath =
      .ok (if dot ∈ component filePath.bytes then withoutExtension (component filePath.bytes)
        else (component filePath.bytes).dropLast) := by
  have whole := directory_append_component filePath.bytes
  have clean := component_clean filePath.bytes
  rw [getFileNameNotExtFromPath_concat ends, plain, if_neg (by decide)]
  split
  · next present =>
    rcases split_last_dot present with ⟨stem, extension, split, dotless⟩
    have bytes : directory filePath.bytes ++ stem ++ dot :: extension = filePath.bytes := by
      rw [List.append_assoc, ← split, whole]
    have kept : directory filePath.bytes ++ stem <+: filePath.memory :=
      List.IsPrefix.trans ⟨_, bytes⟩ (List.prefix_append _ _)
    have moved : extensionStart filePath.memory (filePath.bytes.length - 1)
        filePath.bytes.length = .ok ((directory filePath.bytes ++ stem).length : Int) := by
      have dots := extensionStart_dot (directory filePath.bytes ++ stem) [0]
        (filePath.bytes.length - 1) dotless fun byte member => clean byte (by simp [split, member])
      rwa [bytes] at dots
    have stemClean : ∀ byte ∈ stem, isSeparator byte = false := fun byte member =>
      clean byte (by simp [split, member])
    rw [moved]
    change nameBefore filePath.memory ((directory filePath.bytes ++ stem).length : Nat) = _
    rw [nameBefore_front kept, component_append _ stemClean, component_directory, split,
      withoutExtension_dot dotless]
    rfl
  · next absent =>
    have stays := extensionStart_none filePath.bytes [0] (filePath.bytes.length - 1) absent
    have index : (filePath.bytes.length - 1 : Int) = (front.length : Nat) := by
      rw [ends, List.length_append, List.length_singleton]
      omega
    have kept : front <+: filePath.memory :=
      List.IsPrefix.trans ⟨_, ends.symm⟩ (List.prefix_append _ _)
    rw [CString.memory, stays]
    change nameBefore filePath.memory (filePath.bytes.length - 1) = _
    rw [index, nameBefore_front kept, ends, component_concat front plain, List.dropLast_concat]

/-! ### Where the functions agree -/

/-- On the empty path `*nameEnd` is read in front of the string. -/
theorem getFileNameNotExtFromPath_nil {filePath : CString} (empty : filePath.bytes = []) :
    getFileNameNotExtFromPath filePath = .error (.read (-1)) := by
  unfold getFileNameNotExtFromPath
  rw [strlen_memory, empty]
  rfl

theorem agrees_separator {filePath : CString} {front : List UInt8} {last : UInt8}
    (ends : filePath.bytes = front ++ [last]) (separator : isSeparator last = true) :
    Agrees filePath := by
  refine ⟨_, getFileNameFromPath_eq filePath, ?_⟩
  have last_ : endsWithSeparator filePath.bytes = true := by
    rw [ends, endsWithSeparator_concat, separator]
  rw [getFileNameNotExtFromPath_concat ends, separator, last_]
  rfl

/-- A component without a dot loses its last byte. -/
theorem agrees_name_iff {filePath : CString} {front : List UInt8} {last : UInt8}
    (ends : filePath.bytes = front ++ [last]) (plain : isSeparator last = false) :
    Agrees filePath ↔ dot ∈ component filePath.bytes := by
  have last_ : endsWithSeparator filePath.bytes = false := by
    rw [ends, endsWithSeparator_concat, plain]
  have stripped : filePath.bytes.rdropWhile isSeparator = filePath.bytes := by
    rw [ends]
    exact List.rdropWhile_concat_neg _ _ _ (by rw [plain]; decide)
  have name := getFileNameFromPath_eq filePath
  rw [stripped] at name
  have component_nonempty : component filePath.bytes ≠ [] := by
    rw [ends, component_concat front plain]
    simp
  unfold Agrees
  rw [getFileNameNotExtFromPath_name ends plain, last_]
  constructor
  · rintro ⟨_, found, same⟩
    cases name.symm.trans found
    by_contra absent
    simp only [absent, if_false, withoutExtension, Bool.false_eq_true, Except.ok.injEq] at same
    have shorter := congrArg List.length same
    rw [List.length_dropLast] at shorter
    have positive := List.length_pos_iff.mpr component_nonempty
    omega
  · intro present
    refine ⟨_, name, ?_⟩
    rw [if_pos present]
    rfl

/-- The functions agree on the paths that are not empty and whose last
component has a dot, unless it is followed by a separator. On the empty path
`*nameEnd` is read in front of the string; without a dot, `nameEnd` stays on the
last byte where the end behind it is meant. -/
theorem agrees_iff (filePath : CString) :
    Agrees filePath ↔ filePath.bytes ≠ [] ∧
      (endsWithSeparator filePath.bytes = true ∨ dot ∈ component filePath.bytes) := by
  rcases List.eq_nil_or_concat' filePath.bytes with empty | ⟨front, last, ends⟩
  · constructor
    · rintro ⟨name, -, returned⟩
      rw [getFileNameNotExtFromPath_nil empty] at returned
      cases returned
    · rintro ⟨nonempty, -⟩
      exact absurd empty nonempty
  · have nonempty : filePath.bytes ≠ [] := by
      rw [ends]
      simp
    have last_ : endsWithSeparator filePath.bytes = isSeparator last := by
      rw [ends, endsWithSeparator_concat]
    rw [last_]
    cases separator : isSeparator last with
    | true => exact iff_of_true (agrees_separator ends separator) ⟨nonempty, Or.inl rfl⟩
    | false =>
        rw [agrees_name_iff ends separator]
        simp [nonempty]

/-- `"/usr/bin/make"` -/
def usrBinMake : CString :=
  ⟨[47, 117, 115, 114, 47, 98, 105, 110, 47, 109, 97, 107, 101], by decide⟩

/-- The name `"make"` comes out as `"mak"`, and on `""` a byte outside is read. -/
theorem make_loses_a_byte :
    ¬Agrees usrBinMake ∧ getFileNameNotExtFromPath usrBinMake = .ok [109, 97, 107] ∧
      getFileNameNotExtFromPath ⟨[], by decide⟩ = .error (.read (-1)) := by
  have whole : getFileNameFromPath usrBinMake = .ok [109, 97, 107, 101] := by decide
  have cut : getFileNameNotExtFromPath usrBinMake = .ok [109, 97, 107] := by decide
  refine ⟨?_, cut, by decide⟩
  rintro ⟨name, found, same⟩
  rw [whole] at found
  cases found
  rw [cut] at same
  revert same
  decide

end Msmuduo.FileUtil
