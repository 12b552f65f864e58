import Bogbin.Tools.MakeBogfs
import Bogbin.Tools.AppPackerProof

/-!
# Built images mount

The loop of the mount reads the entries of the table one after the other; the entry of a file has the
file's bytes, the first 63 bytes of its path, and the digest matches off the block boundary
(`mount_entries_table`).  So every file can be read under its path exactly when no path is cut, no
digest differs and the heap has room for the entries (`bogfs_agrees_iff`).
-/

namespace Bogbin.Tools

open Buffer Layout Bogbin.Core Bogbin.Bogvm Bogbin.Kernel

/-! ## Texts -/

/-- The encoding of a text is a text. -/
theorem from_utf8_utf8 (s : String) : from_utf8 (utf8 s) = some (utf8 s) := by
  have hbytes : (⟨(utf8 s).toArray⟩ : ByteArray) = s.toByteArray := by
    ext1
    simp [utf8]
  unfold from_utf8
  rw [if_pos]
  rw [hbytes]
  exact ByteArray.validateUTF8_eq_true_iff.mpr s.isValidUTF8

theorem utf8_injective : Function.Injective utf8 := by
  intro s s' h
  apply String.toByteArray_inj.mp
  ext1
  exact Array.toList_inj.mp h

theorem utf8_eq_flatMap (s : String) : utf8 s = s.toList.flatMap String.utf8EncodeChar := by
  unfold utf8
  rw [← String.utf8Encode_toList, List.utf8Encode]
  simp

theorem uint8_ofNat_ne_zero {n : ℕ} (hlo : 0 < n) (hhi : n < 256) : 0 ≠ UInt8.ofNat n := by
  intro h
  have hvalue := congrArg UInt8.toNat h
  rw [UInt8.toNat_ofNat'] at hvalue
  simp at hvalue
  omega

/-- Only NUL is encoded with a zero byte. -/
theorem zero_notMem_utf8EncodeChar {c : Char} (h : c ≠ Char.ofNat 0) :
    0 ∉ String.utf8EncodeChar c := by
  have hpos : 0 < c.val.toNat := by
    by_contra hle
    apply h
    apply Char.ext
    apply UInt32.toNat_inj.mp
    show c.val.toNat = 0
    omega
  have hlt : c.val.toNat < 0x110000 := by
    have hvalid := c.valid
    simp only [UInt32.isValidChar, Nat.isValidChar] at hvalid
    omega
  unfold String.utf8EncodeChar
  dsimp only
  split_ifs <;> simp only [List.mem_cons, List.not_mem_nil, or_false, not_or]
  · exact uint8_ofNat_ne_zero hpos (by omega)
  · exact ⟨uint8_ofNat_ne_zero (by omega) (by omega), uint8_ofNat_ne_zero (by omega) (by omega)⟩
  · exact ⟨uint8_ofNat_ne_zero (by omega) (by omega), uint8_ofNat_ne_zero (by omega) (by omega),
      uint8_ofNat_ne_zero (by omega) (by omega)⟩
  · exact ⟨uint8_ofNat_ne_zero (by omega) (by omega), uint8_ofNat_ne_zero (by omega) (by omega),
      uint8_ofNat_ne_zero (by omega) (by omega), uint8_ofNat_ne_zero (by omega) (by omega)⟩

theorem zero_notMem_utf8 {s : String} (h : Char.ofNat 0 ∉ s.toList) : 0 ∉ utf8 s := by
  rw [utf8_eq_flatMap, List.mem_flatMap]
  rintro ⟨c, hc, hzero⟩
  exact zero_notMem_utf8EncodeChar (fun heq => h (heq ▸ hc)) hzero

/-! ## Paths -/

/-- The names of a path of a directory. -/
def PlainPath (path : Path) : Prop :=
  path ≠ [] ∧ ∀ name ∈ path, PlainPart name ∧ Char.ofNat 0 ∉ name

theorem toList_rel_path {path : Path} (h : path ≠ []) :
    ("/" ++ as_posix path).toList = '/' :: List.intercalate ['/'] path := by
  rw [as_posix, if_neg h]
  simp

theorem mem_of_mem_intercalate {c separator : Char} {parts : Path}
    (h : c ∈ List.intercalate [separator] parts) : c = separator ∨ ∃ part ∈ parts, c ∈ part := by
  induction parts with
  | nil => simp at h
  | cons part parts ih =>
    cases parts with
    | nil =>
      rw [List.intercalate_singleton] at h
      exact .inr ⟨part, List.mem_cons_self, h⟩
    | cons next parts =>
      rw [List.intercalate_cons_cons, List.append_assoc, List.singleton_append] at h
      rcases List.mem_append.mp h with hpart | hrest
      · exact .inr ⟨part, List.mem_cons_self, hpart⟩
      · rcases List.mem_cons.mp hrest with heq | hrest
        · exact .inl heq
        · rcases ih hrest with heq | ⟨q, hq, hmem⟩
          · exact .inl heq
          · exact .inr ⟨q, List.mem_cons_of_mem _ hq, hmem⟩

theorem zero_notMem_rel_path {path : Path} (h : PlainPath path) : 0 ∉ rel_path path := by
  refine zero_notMem_utf8 ?_
  rw [toList_rel_path h.1]
  intro hmem
  rcases List.mem_cons.mp hmem with heq | hmem
  · exact absurd heq (by decide)
  · rcases mem_of_mem_intercalate hmem with heq | ⟨name, hname, hzero⟩
    · exact absurd heq (by decide)
    · exact (h.2 name hname).2 hzero

theorem rel_path_injective {path path' : Path} (h : PlainPath path) (h' : PlainPath path')
    (heq : rel_path path = rel_path path') : path = path' := by
  have htext := congrArg String.toList (utf8_injective heq)
  rw [String.toList_append, String.toList_append] at htext
  have hposix : as_posix path = as_posix path' :=
    String.toList_inj.mp (List.append_cancel_left htext)
  rw [← path_parts_as_posix h.1 fun name hname => (h.2 name hname).1, hposix,
    path_parts_as_posix h'.1 fun name hname => (h'.2 name hname).1]

theorem length_path_padded (path : Path) : (path_padded path).length = 64 := by
  unfold path_padded
  dsimp only
  rw [List.length_append, length_zeros, List.length_take]
  omega

/-- The path of an entry: at most 63 bytes, and all of the path when it is no longer. -/
theorem bogfs_entry_path_padded {path : Path} (h : PlainPath path) :
    (bogfs_entry_path (path_padded path)).length ≤ 63 ∧
      ((rel_path path).length ≤ 63 → bogfs_entry_path (path_padded path) = rel_path path) := by
  have htake : (path_padded path).takeWhile (· ≠ 0) = (rel_path path).take 63 := by
    unfold path_padded
    dsimp only
    have hall : ∀ b ∈ (rel_path path).take 63, decide (b ≠ 0) = true := fun b hb =>
      decide_eq_true fun heq => zero_notMem_rel_path h (heq ▸ List.mem_of_mem_take hb)
    rw [List.takeWhile_append_of_pos hall]
    obtain ⟨n, hn⟩ : ∃ n, 64 - ((rel_path path).take 63).length = n + 1 := by
      refine ⟨63 - ((rel_path path).take 63).length, ?_⟩
      rw [List.length_take]
      omega
    rw [hn]
    simp [zeros, List.replicate_succ]
  unfold bogfs_entry_path
  rw [htake]
  constructor
  · unfold from_utf8
    split_ifs
    · rw [Option.getD_some, List.length_take]
      omega
    · exact Nat.zero_le 63
  · intro hle
    rw [List.take_of_length_le hle, rel_path, from_utf8_utf8, Option.getD_some]

/-! ## The image -/

/-- The bytes of an entry. -/
def entry_parts (offset : ℕ) (f : Path × Bytes) : List Bytes :=
  [path_padded f.1, beBytes 4 offset, beBytes 4 f.2.length, digest f.2]

/-- The table of files whose contents begin at an offset. -/
def table_bytes : ℕ → List (Path × Bytes) → Bytes
  | _, [] => []
  | offset, f :: files => (entry_parts offset f).flatten ++ table_bytes (offset + f.2.length) files

theorem length_entry_parts (offset : ℕ) (f : Path × Bytes) :
    (entry_parts offset f).flatten.length = 104 := by
  simp [entry_parts, length_path_padded]

theorem length_table_bytes (offset : ℕ) (files : List (Path × Bytes)) :
    (table_bytes offset files).length = 104 * files.length := by
  induction files generalizing offset with
  | nil => rfl
  | cons f files ih =>
    rw [table_bytes, List.length_append, length_entry_parts, ih, List.length_cons]
    omega

/-- The total length of the contents. -/
def total_length (files : List (Path × Bytes)) : ℕ := (files.map fun f => f.2.length).sum

theorem total_length_perm {files files' : List (Path × Bytes)} (h : files.Perm files') :
    total_length files = total_length files' :=
  (h.map fun f : Path × Bytes => f.2.length).sum_eq

theorem length_payloads (files : List (Path × Bytes)) :
    (files.map Prod.snd).flatten.length = total_length files := by
  rw [List.length_flatten, List.map_map]
  rfl

theorem mapM_write_entry {offset : ℕ} {files : List (Path × Bytes)} {table : List Bytes}
    (h : (table_entries offset files).mapM write_entry = .ok table) :
    table.flatten = table_bytes offset files := by
  induction files generalizing offset table with
  | nil =>
    obtain rfl := Except.ok.inj h
    rfl
  | cons f files ih =>
    rw [table_entries, List.mapM_cons] at h
    obtain ⟨first, hfirst, h⟩ := bind_eq_ok.mp h
    obtain ⟨rest, hrest, h⟩ := bind_eq_ok.mp h
    obtain rfl := Except.ok.inj h
    obtain ⟨off, hoff, hfirst⟩ := bind_eq_ok.mp hfirst
    obtain ⟨len, hlen, hfirst⟩ := bind_eq_ok.mp hfirst
    obtain rfl := Except.ok.inj hfirst
    obtain rfl := (to_bytes_4_eq_ok.mp hoff).2
    obtain rfl := (to_bytes_4_eq_ok.mp hlen).2
    rw [List.flatten_cons, ih hrest, table_bytes, entry_parts]
    simp [digest]

/-- The magic and the number of files. -/
def head_bytes (count : ℕ) : Bytes := ascii "BOGFS" ++ [0] ++ beBytes 4 count

theorem length_head_bytes (count : ℕ) : (head_bytes count).length = 10 := by
  have hmagic : (ascii "BOGFS").length = 5 := by decide
  simp [head_bytes, hmagic]

/-- An image: its head, its table and the contents. -/
def image_bytes (files : List (Path × Bytes)) : Bytes :=
  head_bytes files.length ++ table_bytes (10 + 104 * files.length) files ++
    (files.map Prod.snd).flatten

theorem length_image_bytes (files : List (Path × Bytes)) :
    (image_bytes files).length = 10 + 104 * files.length + total_length files := by
  rw [image_bytes, List.length_append, List.length_append, length_head_bytes, length_table_bytes,
    length_payloads]

theorem make_bogfs_eq_ok {src_dir : Bogvm.Tree Bytes} {image : Bytes}
    (h : make_bogfs src_dir = .ok image) :
    ∃ files, files.Perm src_dir.files ∧ files.length < 2 ^ 32 ∧ image = image_bytes files := by
  unfold make_bogfs at h
  obtain ⟨count, hcount, h⟩ := bind_eq_ok.mp h
  obtain ⟨table, htable, h⟩ := bind_eq_ok.mp h
  obtain rfl := Except.ok.inj h
  obtain ⟨hlt, rfl⟩ := to_bytes_4_eq_ok.mp hcount
  refine ⟨src_dir.files.mergeSort path_le, List.mergeSort_perm _ _, by omega, ?_⟩
  have hmagic : (ascii "BOGFS" ++ [0] : Bytes).length = 6 := by decide
  have hoffset (n : ℕ) : (ascii "BOGFS" ++ [0] : Bytes).length + 4 + n * (64 + 4 + 4 + 32) =
      10 + 104 * n := by
    rw [hmagic]
    omega
  rw [mapM_write_entry htable, Int.toNat_natCast, hoffset]
  rfl

/-- A directory is packed when its image is small enough. -/
theorem make_bogfs_of_small {src_dir : Bogvm.Tree Bytes}
    (h : 10 + 104 * src_dir.files.length + total_length src_dir.files < 2 ^ 32) :
    ∃ image, make_bogfs src_dir = .ok image := by
  have hsmall (n : ℕ) (hn : n < 2 ^ 32) : to_bytes_4 beBytes n = .ok (beBytes 4 n) :=
    to_bytes_4_eq_ok.mpr ⟨⟨by omega, by omega⟩, rfl⟩
  have htable (offset : ℕ) (files : List (Path × Bytes)) (hfiles : offset + total_length files <
      2 ^ 32) : ∃ table, (table_entries offset files).mapM write_entry = .ok table := by
    induction files generalizing offset with
    | nil => exact ⟨[], rfl⟩
    | cons f files ih =>
      have htotal : total_length (f :: files) = f.2.length + total_length files := List.sum_cons
      obtain ⟨table, hrest⟩ := ih (offset + f.2.length) (by omega)
      rw [table_entries, List.mapM_cons, hrest]
      unfold write_entry
      dsimp only
      rw [hsmall offset (by omega), hsmall f.2.length (by omega)]
      exact ⟨_, rfl⟩
  have hperm := List.mergeSort_perm src_dir.files path_le
  have hlen := hperm.length_eq
  have htotal := total_length_perm hperm
  have hmagic : (ascii "BOGFS" ++ [0] : Bytes).length = 6 := by decide
  obtain ⟨table, hrest⟩ := htable ((ascii "BOGFS" ++ [0] : Bytes).length + 4 +
    (src_dir.files.mergeSort path_le).length * (64 + 4 + 4 + 32))
    (src_dir.files.mergeSort path_le) (by omega)
  unfold make_bogfs
  dsimp only
  rw [hsmall _ (by omega), hrest]
  exact ⟨_, rfl⟩

/-! ## The mount -/

/-- The mounted entry of a file. -/
def mounted_entry (f : Path × Bytes) : BogFsEntry :=
  ⟨bogfs_entry_path (path_padded f.1), f.2, (sha256 f.2).val = digest f.2⟩

/-- The loop reads a table of files whose contents end the data. -/
theorem mount_entries_table {image : Bytes} {files : List (Path × Bytes)} {offset data_offset : ℕ}
    {front middle before : Bytes}
    (htable : image = front ++ table_bytes data_offset files ++ middle)
    (hfront : front.length = offset)
    (hdata : image = before ++ (files.map Prod.snd).flatten) (hbefore : before.length = data_offset)
    (hlen : image.length < 2 ^ 32) :
    mount_entries image files.length offset = .ok (files.map mounted_entry) := by
  induction files generalizing offset data_offset front before with
  | nil => rfl
  | cons f files ih =>
    have hplaced : placed front.length (entry_parts data_offset f) =
        [(offset, path_padded f.1), (offset + 64, beBytes 4 data_offset),
          (offset + 68, beBytes 4 f.2.length), (offset + 72, digest f.2)] := by
      simp [placed, entry_parts, length_path_padded, hfront]
    have hpart {off len : ℕ} {part : Bytes}
        (hmem : (off, part) ∈ placed front.length (entry_parts data_offset f))
        (hpart : part.length = len) : slice image off len = part := by
      subst hpart
      have hslice := slice_placed hmem (table_bytes (data_offset + f.2.length) files ++ middle)
      rwa [← List.append_assoc, List.append_assoc front, ← table_bytes, ← htable] at hslice
    have himage : image.length = offset + (104 * files.length + 104) + middle.length := by
      rw [htable, List.length_append, List.length_append, length_table_bytes, hfront,
        List.length_cons]
      omega
    have hbound : data_offset + f.2.length ≤ image.length := by
      rw [hdata, List.length_append, hbefore, List.map_cons, List.flatten_cons, List.length_append]
      omega
    have hpath : slice image offset 64 = path_padded f.1 :=
      hpart (by simp [hplaced]) (length_path_padded f.1)
    have hnumber {off value : ℕ}
        (hmem : (off, beBytes 4 value) ∈ placed front.length (entry_parts data_offset f))
        (hvalue : value < 2 ^ 32) : read_be_u32 image off = value := by
      rw [read_be_u32, hpart hmem (length_beBytes 4 value), beValue_beBytes,
        Nat.mod_eq_of_lt (by norm_num; exact hvalue)]
    have hstart := @hnumber (offset + 64) data_offset (by simp [hplaced]) (by omega)
    have hlength := @hnumber (offset + 68) f.2.length (by simp [hplaced]) (by omega)
    have hhash : slice image (offset + 72) 32 = digest f.2 :=
      hpart (by simp [hplaced]) (length_digest _)
    have hcontent : slice image data_offset f.2.length = f.2 := by
      rw [hdata, slice_append_right _ _ hbefore.le, hbefore, Nat.sub_self, List.map_cons,
        List.flatten_cons, slice_append_left _ _ (by omega), slice_eq_self _ le_rfl]
    have hrest := @ih (offset + 104) (data_offset + f.2.length)
      (front ++ (entry_parts data_offset f).flatten) (before ++ f.2) ?_ ?_ ?_ ?_
    · have hentry : add_usize offset BOGFS_ENTRY_SIZE = .ok (offset + 104) :=
        add_usize_eq_ok.mpr ⟨by show offset + 104 < _; omega, rfl⟩
      have hend : add_usize data_offset f.2.length = .ok (data_offset + f.2.length) :=
        add_usize_eq_ok.mpr ⟨by omega, rfl⟩
      rw [List.length_cons, mount_entries, hentry]
      show (if image.length < offset + 104 then _ else _) = _
      rw [if_neg (by omega)]
      dsimp only
      rw [hstart, hlength, hend]
      show (if image.length < data_offset + f.2.length then _ else _) = _
      rw [if_neg (by omega), hrest, hpath, hhash, hcontent]
      rfl
    · rw [htable, table_bytes]
      simp only [List.append_assoc]
    · rw [List.length_append, length_entry_parts, hfront]
    · rw [hdata]
      simp only [List.map_cons, List.flatten_cons, List.append_assoc]
    · rw [List.length_append, hbefore]

/-- The heap has room for the entries of the files. -/
def HeapHasRoom (count : ℕ) : Prop :=
  HEAP_CHECK_SIZE + count * BOGFS_ENTRY_ALLOCATION ≤ HEAP_SIZE

/-- A built image mounts with the entries of its files when the heap has room for them. -/
theorem mount_image {files : List (Path × Bytes)} (hcount : files.length < 2 ^ 32)
    (htotal : total_length files < 2 ^ 31) :
    (HeapHasRoom files.length →
      mount_bogfs (image_bytes files) = .ok (some (files.map mounted_entry))) ∧
    (¬ HeapHasRoom files.length → ∀ entries, mount_bogfs (image_bytes files) ≠ .ok entries) := by
  have hlen := length_image_bytes files
  have hparts : image_bytes files = [ascii "BOGFS" ++ [0], beBytes 4 files.length].flatten ++
      (table_bytes (10 + 104 * files.length) files ++ (files.map Prod.snd).flatten) := by
    simp [image_bytes, head_bytes]
  have hplaced : placed 0 [ascii "BOGFS" ++ [0], beBytes 4 files.length] =
      [(0, ascii "BOGFS" ++ [0]), (6, beBytes 4 files.length)] := by
    have hmagic : (ascii "BOGFS").length = 5 := by decide
    simp [placed, hmagic]
  have hmagic : slice (image_bytes files) 0 6 = ascii "BOGFS" ++ [0] := by
    rw [hparts]
    exact slice_flatten (by simp [hplaced]) (by decide) _
  have hfile_count : read_be_u32 (image_bytes files) 6 = files.length := by
    rw [read_be_u32, hparts, slice_flatten (by simp [hplaced]) (length_beBytes 4 files.length),
      beValue_beBytes, Nat.mod_eq_of_lt (by norm_num; exact hcount)]
  have hstart : ¬ ((image_bytes files).length < 10 ∨
      slice (image_bytes files) 0 6 ≠ ascii "BOGFS" ++ [0]) := by
    rintro (hshort | hne)
    · omega
    · exact hne hmagic
  unfold mount_bogfs
  rw [if_neg hstart, hfile_count]
  have hheap : HEAP_SIZE = 4194304 := rfl
  have hcheck : HEAP_CHECK_SIZE = 4 := rfl
  have hentry : BOGFS_ENTRY_ALLOCATION = 20 := rfl
  unfold HeapHasRoom
  rw [hheap, hcheck, hentry]
  constructor
  · intro hroom
    rw [reject_bind_eq_ok]
    refine ⟨by omega, ?_⟩
    rw [@mount_entries_table (image_bytes files) files 10 (10 + 104 * files.length)
      (head_bytes files.length) (files.map Prod.snd).flatten
      (head_bytes files.length ++ table_bytes (10 + 104 * files.length) files) rfl
      (length_head_bytes _) rfl ?_ (by omega)]
    · rfl
    · rw [List.length_append, length_head_bytes, length_table_bytes]
  · intro hroom entries hok
    rw [reject_bind_eq_ok] at hok
    omega

/-! ## Agreement -/

/-- The mounted image holds the files of the directory under their paths, and nothing else. -/
def BogfsAgrees (src_dir : Bogvm.Tree Bytes) (image : Bytes) : Prop :=
  ∃ entries, mount_bogfs image = .ok entries ∧ ∀ path data,
    bogfs_read entries path = some data ↔ ∃ f ∈ src_dir.files, rel_path f.1 = path ∧ f.2 = data

/-- The directories whose images hold all files: the heap has room, no path is cut and no digest
misses a padding block. -/
structure Mountable (src_dir : Bogvm.Tree Bytes) : Prop where
  room : HeapHasRoom src_dir.files.length
  paths : ∀ f ∈ src_dir.files, (rel_path f.1).length ≤ 63
  contents : ∀ f ∈ src_dir.files, f.2 = [] ∨ f.2.length % 64 ≠ 0 ∨ PaddingFixed f.2

theorem bogfs_read_eq_some {entries : List BogFsEntry} {path data : Bytes}
    (h : bogfs_read (some entries) path = some data) :
    ∃ entry ∈ entries, entry.path = path ∧ entry.hash_match = true ∧ entry.data = data := by
  obtain ⟨entry, hfind, rfl⟩ := Option.map_eq_some_iff.mp h
  have hentry := List.find?_some hfind
  rw [decide_eq_true_eq] at hentry
  exact ⟨entry, List.mem_of_find?_eq_some hfind, hentry.1, hentry.2, rfl⟩

/-- A readable path finds the entry of the only file that has it. -/
theorem bogfs_read_of_mem {entries : List BogFsEntry} {entry : BogFsEntry} (hmem : entry ∈ entries)
    (hmatch : entry.hash_match = true)
    (honly : ∀ other ∈ entries, other.path = entry.path → other = entry) :
    bogfs_read (some entries) entry.path = some entry.data := by
  unfold bogfs_read
  rw [Option.getD_some]
  cases hfind : entries.find? fun other =>
      decide (other.path = entry.path ∧ other.hash_match = true) with
  | none =>
    have hnone := List.find?_eq_none.mp hfind entry hmem
    simp [hmatch] at hnone
  | some other =>
    have hother := List.find?_some hfind
    rw [decide_eq_true_eq] at hother
    rw [honly other (List.mem_of_find?_eq_some hfind) hother.1]
    rfl

theorem mounted_entry_match_iff (f : Path × Bytes) : (mounted_entry f).hash_match = true ↔
    f.2 = [] ∨ f.2.length % 64 ≠ 0 ∨ PaddingFixed f.2 := by
  rw [← sha256_eq_standard_iff]
  show decide ((sha256 f.2).val = digest f.2) = true ↔ _
  rw [decide_eq_true_eq]
  exact Subtype.ext_iff.symm

section Agreement

variable {src_dir : Bogvm.Tree Bytes} (hdir : SourceDir src_dir) {image : Bytes}
  (hok : make_bogfs src_dir = .ok image) (htotal : total_length src_dir.files < 2 ^ 31)

include hdir

theorem SourceDir.plainPath {f : Path × Bytes} (hf : f ∈ src_dir.files) : PlainPath f.1 :=
  ⟨hdir.nonempty f hf, hdir.plain f hf⟩

theorem SourceDir.eq_of_rel_path {f g : Path × Bytes} (hf : f ∈ src_dir.files)
    (hg : g ∈ src_dir.files) (heq : rel_path f.1 = rel_path g.1) : f = g :=
  List.inj_on_of_nodup_map hdir.distinct hf hg
    (rel_path_injective (hdir.plainPath hf) (hdir.plainPath hg) heq)

include hok htotal

theorem mountable_of_agrees (h : BogfsAgrees src_dir image) : Mountable src_dir := by
  obtain ⟨files, hperm, hcount, rfl⟩ := make_bogfs_eq_ok hok
  obtain ⟨hmounts, hpanics⟩ := mount_image hcount (total_length_perm hperm ▸ htotal)
  obtain ⟨entries, hmount, hread⟩ := h
  have hroom : HeapHasRoom files.length := by
    by_contra hnot
    exact hpanics hnot entries hmount
  obtain rfl := Except.ok.inj (hmount.symm.trans (hmounts hroom))
  have hfound (f : Path × Bytes) (hf : f ∈ src_dir.files) : ∃ g ∈ src_dir.files,
      bogfs_entry_path (path_padded g.1) = rel_path f.1 ∧ (mounted_entry g).hash_match = true := by
    obtain ⟨entry, hentry, hpath, hmatch, -⟩ :=
      bogfs_read_eq_some ((hread (rel_path f.1) f.2).mpr ⟨f, hf, rfl, rfl⟩)
    obtain ⟨g, hg, rfl⟩ := List.mem_map.mp hentry
    exact ⟨g, hperm.mem_iff.mp hg, hpath, hmatch⟩
  have hpaths : ∀ f ∈ src_dir.files, (rel_path f.1).length ≤ 63 := by
    intro f hf
    obtain ⟨g, hg, hpath, -⟩ := hfound f hf
    rw [← hpath]
    exact (bogfs_entry_path_padded (hdir.plainPath hg)).1
  refine ⟨by rwa [← hperm.length_eq], hpaths, fun f hf => ?_⟩
  obtain ⟨g, hg, hpath, hmatch⟩ := hfound f hf
  rw [(bogfs_entry_path_padded (hdir.plainPath hg)).2 (hpaths g hg)] at hpath
  obtain rfl := hdir.eq_of_rel_path hg hf hpath
  exact (mounted_entry_match_iff g).mp hmatch

theorem agrees_of_mountable (h : Mountable src_dir) : BogfsAgrees src_dir image := by
  obtain ⟨files, hperm, hcount, rfl⟩ := make_bogfs_eq_ok hok
  obtain ⟨hmounts, -⟩ := mount_image hcount (total_length_perm hperm ▸ htotal)
  obtain ⟨hroom, hpaths, hcontents⟩ := h
  rw [← hperm.length_eq] at hroom
  have hpath (f : Path × Bytes) (hf : f ∈ src_dir.files) : (mounted_entry f).path = rel_path f.1 :=
    (bogfs_entry_path_padded (hdir.plainPath hf)).2 (hpaths f hf)
  refine ⟨_, hmounts hroom, fun path data => ⟨fun hread => ?_, ?_⟩⟩
  · obtain ⟨entry, hentry, rfl, -, rfl⟩ := bogfs_read_eq_some hread
    obtain ⟨g, hg, rfl⟩ := List.mem_map.mp hentry
    have hg := hperm.mem_iff.mp hg
    exact ⟨g, hg, (hpath g hg).symm, rfl⟩
  · rintro ⟨f, hf, rfl, rfl⟩
    rw [← hpath f hf]
    apply bogfs_read_of_mem (List.mem_map_of_mem (hperm.mem_iff.mpr hf))
      ((mounted_entry_match_iff f).mpr (hcontents f hf))
    intro other hother heq
    obtain ⟨g, hg, rfl⟩ := List.mem_map.mp hother
    have hg := hperm.mem_iff.mp hg
    rw [hpath g hg, hpath f hf] at heq
    rw [hdir.eq_of_rel_path hg hf heq]

/-- For every directory that `make_bogfs` packs: mounting the image and reading gives back exactly
the files, if and only if the heap has room for the entries, no path is longer than 63 bytes and no
content ends at a block boundary of the hash where its padding matters. -/
theorem bogfs_agrees_iff : BogfsAgrees src_dir image ↔ Mountable src_dir :=
  ⟨mountable_of_agrees hdir hok htotal, agrees_of_mountable hdir hok htotal⟩

end Agreement

/-- A directory with one file. -/
def one_file (content : Bytes) : Bogvm.Tree Bytes := ⟨[([['a']], content)], []⟩

theorem one_file_dir (content : Bytes) : SourceDir (one_file content) := by
  refine ⟨List.nodup_singleton _, fun f hf => ?_, fun f hf name hname => ?_⟩
  · rw [List.mem_singleton.mp hf]
    exact List.cons_ne_nil _ _
  · rw [List.mem_singleton.mp hf] at hname
    rw [List.mem_singleton.mp hname]
    exact ⟨⟨by decide, by decide, by decide⟩, by decide⟩

/-- The image of an empty file. -/
theorem bogfs_agrees_empty_file : ∃ image, make_bogfs (one_file []) = .ok image ∧
    (BogfsAgrees (one_file []) image ↔ Mountable (one_file [])) := by
  obtain ⟨image, himage⟩ := @make_bogfs_of_small (one_file [])
    (show 10 + 104 * 1 + 0 < 2 ^ 32 by norm_num)
  exact ⟨image, himage, bogfs_agrees_iff (one_file_dir []) himage (show 0 < 2 ^ 31 by norm_num)⟩

/-- The image of a file of sixty-four zero bytes. -/
theorem block_file_not_read : SourceDir (one_file (zeros 64)) ∧
    ∃ image, make_bogfs (one_file (zeros 64)) = .ok image ∧
      ¬ BogfsAgrees (one_file (zeros 64)) image := by
  have htotal : total_length (one_file (zeros 64)).files = 64 := by
    simp [total_length, one_file]
  obtain ⟨image, himage⟩ := @make_bogfs_of_small (one_file (zeros 64)) (by
    rw [htotal]
    norm_num [one_file])
  refine ⟨one_file_dir _, image, himage, fun hagrees => ?_⟩
  obtain ⟨-, -, hcontents⟩ := mountable_of_agrees (one_file_dir _) himage (by omega) hagrees
  have hsame := (sha256_eq_standard_iff (zeros 64)).mpr (hcontents _ List.mem_cons_self)
  revert hsame
  decide +kernel

end Bogbin.Tools
