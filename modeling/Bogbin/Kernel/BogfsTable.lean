import Bogbin.Kernel.BogfsMount
import Bogbin.Library.StateExcept

/-!
# What a mount records

`checked_mount_bogfs` is the mount with every access to the module checked against its length.  The
checks never fail (`checked_mount_bogfs_eq`), so a mount can only end early by the size of the heap or by
a sum of an offset and a length that leaves 32 bits (`mounts_safely_iff`).
-/

namespace Bogbin.Kernel

open Buffer StateExcept Bogbin.Core

/-! ## Checked accesses -/

/-- `data[offset..offset + len]`; a range beyond the data is a panic. -/
def checked_slice (data : Bytes) (offset len : ℕ) : Except String Bytes := do
  reject_if (data.length < offset + len) "out of range"
  .ok (slice data offset len)

/-- The loop over the table. -/
def checked_entries (bogfs_data : Bytes) : ℕ → ℕ → Except String (List BogFsEntry)
  | 0, _ => .ok []
  | count + 1, offset => do
    let entry_end ← add_usize offset BOGFS_ENTRY_SIZE
    if bogfs_data.length < entry_end then .ok []
    else
      let path_bytes ← checked_slice bogfs_data offset 64
      let start_bytes ← checked_slice bogfs_data (offset + 64) 4
      let length_bytes ← checked_slice bogfs_data (offset + 68) 4
      let expected_hash ← checked_slice bogfs_data (offset + 72) 32
      let data_end ← add_usize (beValue start_bytes) (beValue length_bytes)
      if bogfs_data.length < data_end then checked_entries bogfs_data count entry_end
      else
        let file_data ← checked_slice bogfs_data (beValue start_bytes) (beValue length_bytes)
        let entries ← checked_entries bogfs_data count entry_end
        .ok (⟨bogfs_entry_path path_bytes, file_data,
          (sha256 file_data).val = expected_hash⟩ :: entries)

def checked_mount_bogfs (bogfs_data : Bytes) : Except String (Option (List BogFsEntry)) := do
  if bogfs_data.length < 10 then .ok none
  else
    let magic ← checked_slice bogfs_data 0 6
    if magic ≠ ascii "BOGFS" ++ [0] then .ok none
    else
      let count_bytes ← checked_slice bogfs_data 6 4
      reject_if (HEAP_SIZE < HEAP_CHECK_SIZE + beValue count_bytes * BOGFS_ENTRY_ALLOCATION)
        "out of memory"
      let entries ← checked_entries bogfs_data (beValue count_bytes) 10
      .ok (some entries)

theorem checked_slice_eq {data : Bytes} {offset len : ℕ} (h : offset + len ≤ data.length) :
    checked_slice data offset len = .ok (slice data offset len) := by
  unfold checked_slice
  rw [reject_bind_eq_ok]
  exact ⟨by omega, rfl⟩

theorem add_usize_of_lt {a b : ℕ} (h : a + b < 2 ^ 32) : add_usize a b = .ok (a + b) :=
  add_usize_eq_ok.mpr ⟨h, rfl⟩

theorem add_usize_of_le {a b : ℕ} (h : 2 ^ 32 ≤ a + b) : add_usize a b = .error "overflow" := by
  unfold add_usize reject_if
  rw [if_pos h]
  rfl

/-- The bounds of an entry and of its data cover every access of the loop. -/
theorem checked_entries_eq (data : Bytes) (count offset : ℕ) :
    checked_entries data count offset = mount_entries data count offset := by
  induction count generalizing offset with
  | zero => rfl
  | succ count ih =>
    have hsize : BOGFS_ENTRY_SIZE = 104 := rfl
    unfold checked_entries mount_entries
    by_cases hentry : offset + BOGFS_ENTRY_SIZE < 2 ^ 32
    · rw [add_usize_of_lt hentry, ok_bind, ok_bind]
      by_cases hshort : data.length < offset + BOGFS_ENTRY_SIZE
      · rw [if_pos hshort, if_pos hshort]
      · rw [if_neg hshort, if_neg hshort, checked_slice_eq (by omega), ok_bind,
          checked_slice_eq (by omega), ok_bind, checked_slice_eq (by omega), ok_bind,
          checked_slice_eq (by omega), ok_bind]
        change (add_usize (read_be_u32 data (offset + 64)) (read_be_u32 data (offset + 68)) >>= _) =
          (add_usize (read_be_u32 data (offset + 64)) (read_be_u32 data (offset + 68)) >>= _)
        refine except_bind_congr fun data_end hend => ?_
        by_cases hbeyond : data.length < data_end
        · rw [if_pos hbeyond, if_pos hbeyond, ih]
        · have hsum := (add_usize_eq_ok.mp hend).2
          rw [if_neg hbeyond, if_neg hbeyond, ih]
          change (checked_slice data (read_be_u32 data (offset + 64))
            (read_be_u32 data (offset + 68)) >>= _) = _
          rw [checked_slice_eq (by omega), ok_bind]
    · rw [add_usize_of_le (by omega)]
      rfl

/-- No access of a mount leaves the module. -/
theorem checked_mount_bogfs_eq (image : Bytes) : checked_mount_bogfs image = mount_bogfs image := by
  unfold checked_mount_bogfs mount_bogfs
  by_cases hshort : image.length < 10
  · rw [if_pos hshort, if_pos (.inl hshort)]
  · rw [if_neg hshort, checked_slice_eq (by omega), ok_bind]
    by_cases hmagic : slice image 0 6 ≠ ascii "BOGFS" ++ [0]
    · rw [if_pos hmagic, if_pos (.inr hmagic)]
    · rw [if_neg hmagic, if_neg (not_or.mpr ⟨hshort, hmagic⟩), checked_slice_eq (by omega), ok_bind]
      simp only [checked_entries_eq]
      rfl

/-! ## The table -/

structure TableEntry where
  path : Bytes
  start_off : ℕ
  length : ℕ
  expected_hash : Bytes

/-- The entry in the window of 104 bytes at an offset. -/
def table_entry (image : Bytes) (offset : ℕ) : TableEntry where
  path := bogfs_entry_path (slice image offset 64)
  start_off := read_be_u32 image (offset + 64)
  length := read_be_u32 image (offset + 68)
  expected_hash := slice image (offset + 72) 32

/-- The first `count` entries from an offset on, as far as their windows are in the image. -/
def entries_from (image : Bytes) (count offset : ℕ) : List TableEntry :=
  ((List.range' offset count BOGFS_ENTRY_SIZE).filter
    (· + BOGFS_ENTRY_SIZE ≤ image.length)).map (table_entry image)

def HasMagic (image : Bytes) : Prop := 10 ≤ image.length ∧ slice image 0 6 = ascii "BOGFS" ++ [0]

instance (image : Bytes) : Decidable (HasMagic image) := inferInstanceAs (Decidable (_ ∧ _))

def file_count (image : Bytes) : ℕ := read_be_u32 image 6

/-- The table of an image; without the magic there is none. -/
def table (image : Bytes) : List TableEntry :=
  if HasMagic image then entries_from image (file_count image) 10 else []

namespace TableEntry

/-- The byte range `[start, start + length)`. -/
def content (e : TableEntry) (image : Bytes) : Bytes := slice image e.start_off e.length

def InBounds (e : TableEntry) (image : Bytes) : Prop := e.start_off + e.length ≤ image.length

/-- The range is in the image and has the stored digest. -/
def Verified (e : TableEntry) (image : Bytes) : Prop :=
  e.InBounds image ∧ (sha256 (e.content image)).val = e.expected_hash

instance (e : TableEntry) (image : Bytes) : Decidable (e.InBounds image) :=
  inferInstanceAs (Decidable (_ ≤ _))

instance (e : TableEntry) (image : Bytes) : Decidable (e.Verified image) :=
  inferInstanceAs (Decidable (_ ∧ _))

/-- What the mount keeps of an entry in bounds. -/
def record (e : TableEntry) (image : Bytes) : BogFsEntry :=
  ⟨e.path, e.content image, (sha256 (e.content image)).val = e.expected_hash⟩

/-- The sum of the bounds check fits `usize`. -/
def Fits (e : TableEntry) : Prop := e.start_off + e.length < 2 ^ 32

end TableEntry

theorem entries_from_succ {image : Bytes} {count offset : ℕ}
    (h : offset + BOGFS_ENTRY_SIZE ≤ image.length) :
    entries_from image (count + 1) offset =
      table_entry image offset :: entries_from image count (offset + BOGFS_ENTRY_SIZE) := by
  unfold entries_from
  rw [List.range'_succ, List.filter_cons_of_pos (by simpa using h), List.map_cons]

/-- Behind an incomplete entry there are no complete ones. -/
theorem entries_from_of_short {image : Bytes} {count offset : ℕ}
    (h : image.length < offset + BOGFS_ENTRY_SIZE) : entries_from image count offset = [] := by
  unfold entries_from
  rw [List.map_eq_nil_iff, List.filter_eq_nil_iff]
  intro at_offset hmem
  have hle := (List.mem_range'.mp hmem)
  obtain ⟨i, -, rfl⟩ := hle
  simp only [decide_eq_true_eq, not_le]
  omega

/-! ## The mounted entries -/

/-- The loop records the entries in bounds when no sum on its way leaves 32 bits. -/
theorem mount_entries_eq_ok {image : Bytes} {count offset : ℕ}
    (hsmall : offset + BOGFS_ENTRY_SIZE * count < 2 ^ 32) {entries : List BogFsEntry} :
    mount_entries image count offset = .ok entries ↔
      (∀ e ∈ entries_from image count offset, e.Fits) ∧
        entries = ((entries_from image count offset).filter (·.InBounds image)).map
          (·.record image) := by
  induction count generalizing offset entries with
  | zero => simp [mount_entries, entries_from, eq_comm]
  | succ count ih =>
    rw [Nat.mul_succ] at hsmall
    unfold mount_entries
    rw [add_usize_of_lt (by omega), ok_bind]
    by_cases hshort : image.length < offset + BOGFS_ENTRY_SIZE
    · rw [if_pos hshort, entries_from_of_short hshort]
      simp [eq_comm]
    · rw [if_neg hshort, entries_from_succ (by omega), List.forall_mem_cons]
      have hrest := @ih (offset + BOGFS_ENTRY_SIZE) (by omega)
      change (add_usize (table_entry image offset).start_off (table_entry image offset).length >>= _) =
        _ ↔ _
      by_cases hfits : (table_entry image offset).Fits
      · rw [add_usize_of_lt hfits, ok_bind]
        by_cases hbeyond : image.length <
            (table_entry image offset).start_off + (table_entry image offset).length
        · have hout : ¬ (table_entry image offset).InBounds image := not_le.mpr hbeyond
          rw [if_pos hbeyond, hrest, List.filter_cons_of_neg (by simpa using hout)]
          simp [hfits]
        · have hin : (table_entry image offset).InBounds image := not_lt.mp hbeyond
          rw [if_neg hbeyond, List.filter_cons_of_pos (by simpa using hin), bind_eq_ok, List.map_cons]
          constructor
          · rintro ⟨others, hothers, heq⟩
            rw [hrest] at hothers
            rw [Except.ok.injEq] at heq
            exact ⟨⟨hfits, hothers.1⟩, by rw [← heq, ← hothers.2]; rfl⟩
          · rintro ⟨⟨-, hothers⟩, rfl⟩
            exact ⟨_, hrest.mpr ⟨hothers, rfl⟩, rfl⟩
      · rw [add_usize_of_le (not_lt.mp hfits)]
        simp [hfits, error_bind]

/-- Every access and every sum of a mount is in range, and the entries marked as matching are the
verified entries of the table in their order. -/
def MountsSafely (image : Bytes) : Prop :=
  ∃ mounted, checked_mount_bogfs image = .ok mounted ∧
    (mounted.getD []).filter (·.hash_match) =
      ((table image).filter (·.Verified image)).map (·.record image)

theorem filter_record (entries : List TableEntry) (image : Bytes) :
    ((entries.filter (·.InBounds image)).map (·.record image)).filter (·.hash_match) =
      (entries.filter (·.Verified image)).map (·.record image) := by
  rw [List.filter_map, List.filter_filter]
  congr 1
  refine List.filter_congr fun e _ => ?_
  rw [Bool.eq_iff_iff, Bool.and_eq_true, decide_eq_true_eq, decide_eq_true_eq, and_comm]
  exact and_congr_right fun _ => decide_eq_true_iff

theorem mount_bogfs_of_magic {image : Bytes} (h : HasMagic image) {mounted : Option (List BogFsEntry)} :
    mount_bogfs image = .ok mounted ↔
      HEAP_CHECK_SIZE + file_count image * BOGFS_ENTRY_ALLOCATION ≤ HEAP_SIZE ∧
      (∀ e ∈ table image, e.Fits) ∧
      mounted = some (((table image).filter (·.InBounds image)).map (·.record image)) := by
  have hheap : HEAP_SIZE = 4194304 := rfl
  have hcheck : HEAP_CHECK_SIZE = 4 := rfl
  have hentry : BOGFS_ENTRY_ALLOCATION = 20 := rfl
  have hsize : BOGFS_ENTRY_SIZE = 104 := rfl
  have hshort : ¬ (image.length < 10 ∨ slice image 0 6 ≠ ascii "BOGFS" ++ [0]) :=
    not_or.mpr ⟨not_lt.mpr h.1, not_not.mpr h.2⟩
  unfold mount_bogfs table
  rw [if_neg hshort, if_pos h, reject_bind_eq_ok, not_lt]
  change HEAP_CHECK_SIZE + file_count image * _ ≤ _ ∧
    (mount_entries image (file_count image) 10 >>= _) = _ ↔ _
  refine and_congr_right fun hroom => ?_
  -- a table that fits the heap is far from the end of the address space
  have hsmall : 10 + BOGFS_ENTRY_SIZE * file_count image < 2 ^ 32 := by
    rw [hheap, hcheck, hentry] at hroom
    rw [hsize]
    omega
  rw [bind_eq_ok]
  constructor
  · rintro ⟨entries, hentries, heq⟩
    obtain ⟨hfits, rfl⟩ := (mount_entries_eq_ok hsmall).mp hentries
    exact ⟨hfits, (Except.ok.inj heq).symm⟩
  · rintro ⟨hfits, rfl⟩
    exact ⟨_, (mount_entries_eq_ok hsmall).mpr ⟨hfits, rfl⟩, rfl⟩

theorem mount_bogfs_of_no_magic {image : Bytes} (h : ¬ HasMagic image) :
    mount_bogfs image = .ok none := by
  unfold mount_bogfs
  rw [if_pos]
  by_contra hmagic
  rw [not_or, not_lt, not_not] at hmagic
  exact h hmagic

/-- A mount is safe exactly when the heap has room for the announced entries and no sum of an offset and
a length in the table leaves 32 bits. -/
theorem mounts_safely_iff (image : Bytes) :
    MountsSafely image ↔ (HasMagic image →
      HEAP_CHECK_SIZE + file_count image * BOGFS_ENTRY_ALLOCATION ≤ HEAP_SIZE ∧
        ∀ e ∈ table image, e.start_off + e.length < 2 ^ 32) := by
  unfold MountsSafely
  simp only [checked_mount_bogfs_eq]
  by_cases hmagic : HasMagic image
  · simp only [mount_bogfs_of_magic hmagic, hmagic, forall_const]
    constructor
    · rintro ⟨mounted, ⟨hroom, hfits, -⟩, -⟩
      exact ⟨hroom, hfits⟩
    · rintro ⟨hroom, hfits⟩
      exact ⟨_, ⟨hroom, hfits, rfl⟩, filter_record _ image⟩
  · simp [mount_bogfs_of_no_magic hmagic, hmagic, table]

/-- One entry of length `2 ^ 32 - 1` at the offset 114. -/
def overflowing_image : Bytes :=
  ascii "BOGFS" ++ [0] ++ beBytes 4 1 ++ zeros 64 ++ beBytes 4 114 ++ beBytes 4 (2 ^ 32 - 1) ++ zeros 32

/-- The bounds check of an entry panics before it can reject the entry. -/
theorem overflowing_image_not_safe :
    ¬ MountsSafely overflowing_image ∧ mount_bogfs overflowing_image = .error "overflow" := by
  refine ⟨?_, by decide +kernel⟩
  rw [mounts_safely_iff]
  decide +kernel

end Bogbin.Kernel
