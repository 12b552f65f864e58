import Bogbin.Core.Sha256Proof
import Bogbin.Kernel.SyscallFrame

/-!
# The law of the writable files

What the calls do to the writable files is one of the steps of `BogfsStep`, and every call answers
with an event.  `BogfsLaw` says that a file is what was last written to its path; from it the answer
to every read is true (`Truthful`).
-/

namespace Bogbin.Kernel

open Buffer Bogbin.Core KernelState

/-- What a call does on the writable files and answers. -/
inductive BogfsEvent
  | quiet
  | refused (reject_reason : String)
  | wrote (path contents : Bytes)
  | read (path : Bytes) (length : ℕ) (contents : Bytes) (version : Option UInt32)
      (hash : Option Digest)
  | stat (path report : Bytes)
  deriving DecidableEq

/-- The contents of the writes to a path, oldest first. -/
def writes_to (path : Bytes) (events : List BogfsEvent) : List Bytes :=
  events.filterMap fun
    | .wrote p contents => if p = path then some contents else none
    | _ => none

/-- The contents of the most recent write to a path; a file starts empty. -/
def last_write (path : Bytes) (events : List BogfsEvent) : Bytes :=
  (writes_to path events).getLast?.getD []

/-- What an answer says is true after the events before it. -/
def Truthful (events : List BogfsEvent) : BogfsEvent → Prop
  | .quiet => True
  | .refused reject_reason => reject_reason ≠ "committed_hash_mismatch"
  | .wrote .. => True
  | .read path length contents version hash =>
    contents = last_write path events ∧ length = (last_write path events).length ∧
      version = some (UInt32.ofNat (writes_to path events).length) ∧
      hash = some (sha256 (last_write path events))
  | .stat path report =>
    report = leBytes 4 (writes_to path events).length ++ leBytes 4 (last_write path events).length ++
      (sha256 (last_write path events)).val

/-- A step on the files, with its event. -/
inductive BogfsStep (overflow_checks : Bool) : WritableBogfs → BogfsEvent → WritableBogfs → Prop
  | quiet (files : WritableBogfs) : BogfsStep overflow_checks files .quiet files
  | refused {files : WritableBogfs} {reject_reason : String}
      (mismatch : reject_reason = "committed_hash_mismatch" →
        ∃ index, sha256 ((files index).data.val.take (files index).length) ≠ (files index).hash) :
      BogfsStep overflow_checks files (.refused reject_reason) files
  | write {files : WritableBogfs} {index : Fin WRITABLE_BOGFS_MAX_FILES} {contents : Bytes}
      {data : {b : Bytes // b.length = WRITABLE_BOGFS_MAX_FILE_SIZE}} {after : ℕ}
      (fits : contents.length ≤ WRITABLE_BOGFS_MAX_FILE_SIZE)
      (stored : data.val.take contents.length = contents)
      (used : used_after overflow_checks files index contents.length = some after)
      (room : after ≤ WRITABLE_BOGFS_TOTAL_CAPACITY) :
      BogfsStep overflow_checks files (.wrote (files index).path contents)
        (Function.update files index { files index with
          data := data
          length := contents.length
          version := (files index).version + 1
          hash := sha256 contents })
  | read (files : WritableBogfs) (index : Fin WRITABLE_BOGFS_MAX_FILES) :
      BogfsStep overflow_checks files (.read (files index).path (files index).length
        ((files index).data.val.take (files index).length) (some (files index).version)
        (some (files index).hash)) files
  | stat (files : WritableBogfs) (index : Fin WRITABLE_BOGFS_MAX_FILES) :
      BogfsStep overflow_checks files (.stat (files index).path (stat_bytes (files index))) files

/-- A file is what was last written to its path. -/
structure FileLaw (events : List BogfsEvent) (file : WritableBogFsFile) : Prop where
  length_le : file.length ≤ WRITABLE_BOGFS_MAX_FILE_SIZE
  contents : file.data.val.take file.length = last_write file.path events
  version : file.version = UInt32.ofNat (writes_to file.path events).length
  hash : file.hash = sha256 (last_write file.path events)

/-- Every file keeps its law and its path, and the files fit into the capacity. -/
structure BogfsLaw (events : List BogfsEvent) (files : WritableBogfs) : Prop where
  path : ∀ i, (files i).path = (WritableBogfs.initial i).path
  file : ∀ i, FileLaw events (files i)
  used_le : writable_bogfs_used_bytes files ≤ WRITABLE_BOGFS_TOTAL_CAPACITY

section Histories

variable {path : Bytes} {events : List BogfsEvent}

theorem writes_to_append (e : BogfsEvent) :
    writes_to path (events ++ [e]) = writes_to path events ++ writes_to path [e] :=
  List.filterMap_append

theorem FileLaw.length_eq {file : WritableBogFsFile} (h : FileLaw events file) :
    file.length = (last_write file.path events).length := by
  have hdata := file.data.2
  have hlength := h.length_le
  rw [← h.contents, List.length_take]
  omega

theorem FileLaw.append {file : WritableBogFsFile} (h : FileLaw events file) {e : BogfsEvent}
    (he : writes_to file.path [e] = []) : FileLaw (events ++ [e]) file := by
  have hwrites : writes_to file.path (events ++ [e]) = writes_to file.path events := by
    rw [writes_to_append, he, List.append_nil]
  constructor
  case length_le => exact h.length_le
  case contents => rw [last_write, hwrites, ← last_write, h.contents]
  case version => rw [hwrites, h.version]
  case hash => rw [last_write, hwrites, ← last_write, h.hash]

theorem writes_to_other {p contents : Bytes} (h : p ≠ path) :
    writes_to path [.wrote p contents] = [] := by
  simp [writes_to, h]

theorem writes_to_same {contents : Bytes} : writes_to path [.wrote path contents] = [contents] := by
  simp [writes_to]

end Histories

/-! ## The capacity -/

theorem used_bytes_eq (files : WritableBogfs) (index : Fin WRITABLE_BOGFS_MAX_FILES) :
    writable_bogfs_used_bytes files =
      (files index).length + ∑ i ∈ Finset.univ.erase index, (files i).length := by
  rw [Finset.add_sum_erase _ (fun i => (files i).length) (Finset.mem_univ index), Fin.sum_univ_def]
  rfl

theorem used_bytes_update (files : WritableBogfs) (index : Fin WRITABLE_BOGFS_MAX_FILES)
    (file : WritableBogFsFile) :
    writable_bogfs_used_bytes (Function.update files index file) =
      writable_bogfs_used_bytes files - (files index).length + file.length := by
  have hrest : ∑ i ∈ Finset.univ.erase index, (Function.update files index file i).length =
      ∑ i ∈ Finset.univ.erase index, (files i).length :=
    Finset.sum_congr rfl fun i hi => by rw [Function.update_of_ne (Finset.ne_of_mem_erase hi)]
  rw [used_bytes_eq (Function.update files index file) index, used_bytes_eq files index, hrest,
    Function.update_self]
  omega

theorem length_le_used_bytes (files : WritableBogfs) (index : Fin WRITABLE_BOGFS_MAX_FILES) :
    (files index).length ≤ writable_bogfs_used_bytes files := by
  rw [used_bytes_eq files index]
  omega

namespace BogfsLaw

variable {overflow_checks : Bool} {events : List BogfsEvent} {files : WritableBogfs}
  (h : BogfsLaw events files)

include h

/-- The capacity computation neither underflows nor overflows. -/
theorem used_after_eq (index : Fin WRITABLE_BOGFS_MAX_FILES) {length : ℕ}
    (hlength : length ≤ WRITABLE_BOGFS_MAX_FILE_SIZE) :
    used_after overflow_checks files index length =
      some (writable_bogfs_used_bytes files - (files index).length + length) := by
  have hused := h.used_le
  have hcapacity : WRITABLE_BOGFS_TOTAL_CAPACITY = 96 := rfl
  have hmax : WRITABLE_BOGFS_MAX_FILE_SIZE = 64 := rfl
  rw [used_after, if_pos (by omega)]

theorem path_ne {i j : Fin WRITABLE_BOGFS_MAX_FILES} (hij : i ≠ j) :
    (files i).path ≠ (files j).path := by
  have hinitial : ∀ i j, i ≠ j →
      (WritableBogfs.initial i).path ≠ (WritableBogfs.initial j).path := by decide
  rw [h.path i, h.path j]
  exact hinitial i j hij

theorem append {e : BogfsEvent} (he : ∀ path, writes_to path [e] = []) :
    BogfsLaw (events ++ [e]) files where
  path := h.path
  file i := (h.file i).append (he _)
  used_le := h.used_le

theorem write {index : Fin WRITABLE_BOGFS_MAX_FILES} {contents : Bytes}
    {data : {b : Bytes // b.length = WRITABLE_BOGFS_MAX_FILE_SIZE}} {after : ℕ}
    (fits : contents.length ≤ WRITABLE_BOGFS_MAX_FILE_SIZE)
    (stored : data.val.take contents.length = contents)
    (used : used_after overflow_checks files index contents.length = some after)
    (room : after ≤ WRITABLE_BOGFS_TOTAL_CAPACITY) :
    BogfsLaw (events ++ [.wrote (files index).path contents])
      (Function.update files index { files index with
        data := data
        length := contents.length
        version := (files index).version + 1
        hash := sha256 contents }) := by
  have hwrites : writes_to (files index).path (events ++ [.wrote (files index).path contents]) =
      writes_to (files index).path events ++ [contents] := by
    rw [writes_to_append, writes_to_same]
  have hlast : last_write (files index).path (events ++ [.wrote (files index).path contents]) =
      contents := by
    rw [last_write, hwrites, List.getLast?_concat]
    rfl
  constructor
  case path =>
    intro i
    by_cases hi : i = index
    · subst hi
      rw [Function.update_self]
      exact h.path i
    · rw [Function.update_of_ne hi]
      exact h.path i
  case file =>
    intro i
    by_cases hi : i = index
    · subst hi
      rw [Function.update_self]
      constructor
      case length_le => exact fits
      case contents =>
        dsimp only
        rw [stored, hlast]
      case version =>
        dsimp only
        rw [hwrites, List.length_append, (h.file i).version, List.length_singleton,
          UInt32.ofNat_add]
        rfl
      case hash =>
        dsimp only
        rw [hlast]
    · rw [Function.update_of_ne hi]
      exact (h.file i).append (writes_to_other (h.path_ne (Ne.symm hi)))
  case used_le =>
    rw [h.used_after_eq index fits] at used
    rw [used_bytes_update]
    have hafter := Option.some.inj used
    dsimp only
    omega

/-- Every step on the files keeps the law. -/
theorem step {e : BogfsEvent} {files' : WritableBogfs}
    (hs : BogfsStep overflow_checks files e files') : BogfsLaw (events ++ [e]) files' := by
  cases hs with
  | quiet => exact h.append fun _ => rfl
  | refused => exact h.append fun _ => rfl
  | write fits stored used room => exact h.write fits stored used room
  | read => exact h.append fun _ => rfl
  | stat => exact h.append fun _ => rfl

/-- Every answer is true. -/
theorem truthful {e : BogfsEvent} {files' : WritableBogfs}
    (hs : BogfsStep overflow_checks files e files') : Truthful events e := by
  cases hs with
  | quiet => trivial
  | refused mismatch =>
    intro hreason
    obtain ⟨index, hne⟩ := mismatch hreason
    rw [(h.file index).contents, (h.file index).hash] at hne
    exact hne rfl
  | write => trivial
  | read index =>
    have hfile := h.file index
    exact ⟨hfile.contents, hfile.length_eq, congrArg some hfile.version, congrArg some hfile.hash⟩
  | stat index =>
    have hfile := h.file index
    have hversion : leBytes 4 (files index).version.toNat =
        leBytes 4 (writes_to (files index).path events).length := by
      rw [hfile.version, UInt32.toNat_ofNat']
      exact leBytes_mod 4 _
    unfold Truthful stat_bytes
    rw [hversion, hfile.length_eq, hfile.hash]

end BogfsLaw

theorem sha256_empty : sha256 [] = SHA256_EMPTY := by decide +kernel

theorem bogfsLaw_initial : BogfsLaw [] .initial where
  path _ := rfl
  file i := by
    have hempty (path : Bytes) (writable force_hash_failure : Bool) :
        FileLaw [] (.empty path writable force_hash_failure) := by
      constructor
      case length_le => exact Nat.zero_le _
      case contents => rfl
      case version => rfl
      case hash => exact sha256_empty.symm
    fin_cases i <;> exact hempty ..
  used_le := by decide

end Bogbin.Kernel
