import Mathlib

/-!
# Fixed buffers

A buffer is a list.  `slice b off len` is the window `b[off..off + len]`, `patch b off src`
overwrites the window of `src.length` elements at `off`, and a read of a patched buffer is either a
read of the source of the patch or of the old buffer (`slice_patch_of_le`, `slice_patch_of_ge`,
`slice_patch_inside`).  The second half encodes natural numbers in a fixed number of bytes, in both
byte orders.
-/

namespace Buffer

/-! ## Windows -/

section Windows

variable {α : Type*}

/-- The `len` elements of `b` from offset `off` on. -/
def slice (b : List α) (off len : ℕ) : List α := (b.drop off).take len

/-- `b` with the window of `src.length` elements at `off` overwritten by `src`. -/
def patch (b : List α) (off : ℕ) (src : List α) : List α :=
  b.take off ++ src ++ b.drop (off + src.length)

theorem length_slice (b : List α) {off len : ℕ} (h : off + len ≤ b.length) :
    (slice b off len).length = len := by
  simp only [slice, List.length_take, List.length_drop]
  omega

theorem length_slice_le (b : List α) (off len : ℕ) : (slice b off len).length ≤ len := by
  simp [slice]

@[simp] theorem length_patch (b : List α) {off : ℕ} {src : List α}
    (h : off + src.length ≤ b.length) : (patch b off src).length = b.length := by
  simp only [patch, List.length_append, List.length_take, List.length_drop]
  omega

theorem getElem?_slice (b : List α) (off len i : ℕ) :
    (slice b off len)[i]? = if i < len then b[off + i]? else none := by
  simp [slice, List.getElem?_take, List.getElem?_drop]

theorem getElem?_patch (b : List α) {off : ℕ} {src : List α} (h : off ≤ b.length) (i : ℕ) :
    (patch b off src)[i]? =
      if i < off then b[i]? else if i < off + src.length then src[i - off]? else b[i]? := by
  unfold patch
  rw [List.append_assoc, List.getElem?_append, List.getElem?_append, List.getElem?_take,
    List.getElem?_drop, List.length_take, Nat.min_eq_left h]
  split_ifs <;> first | rfl | omega | (congr 1; omega)

/-- Two windows are equal when they agree at every index. -/
theorem slice_congr {b d : List α} {off off' len : ℕ}
    (h : ∀ i < len, b[off + i]? = d[off' + i]?) : slice b off len = slice d off' len := by
  apply List.ext_getElem?
  intro i
  rw [getElem?_slice, getElem?_slice]
  split_ifs with hi
  · exact h i hi
  · rfl

theorem slice_eq_self (b : List α) {len : ℕ} (h : b.length ≤ len) : slice b 0 len = b := by
  simp [slice, List.take_of_length_le h]

theorem slice_zero (b : List α) (len : ℕ) : slice b 0 len = b.take len := by simp [slice]

theorem drop_eq_slice {b : List α} {off len : ℕ} (h : b.length = off + len) :
    b.drop off = slice b off len := by
  rw [slice, List.take_of_length_le (by rw [List.length_drop]; omega)]

theorem slice_add (b : List α) (off len len' : ℕ) :
    slice b off (len + len') = slice b off len ++ slice b (off + len) len' := by
  simp only [slice, List.take_add, List.drop_drop]

@[simp] theorem slice_len_zero (b : List α) (off : ℕ) : slice b off 0 = [] := by simp [slice]

theorem slice_slice (b : List α) {off len off' len' : ℕ} (h : off' + len' ≤ len) :
    slice (slice b off len) off' len' = slice b (off + off') len' := by
  apply List.ext_getElem?
  intro i
  simp only [getElem?_slice]
  split_ifs <;> first | rfl | omega | (congr 1; omega)

/-- A read of exactly the patched window returns the source of the patch. -/
theorem slice_patch_same (b : List α) {off : ℕ} {src : List α} (h : off ≤ b.length) :
    slice (patch b off src) off src.length = src := by
  apply List.ext_getElem?
  intro i
  rw [getElem?_slice, getElem?_patch b h]
  split_ifs with h1 h2 h3
  · omega
  · congr 1; omega
  · omega
  · rw [List.getElem?_eq_none (by omega)]

/-- A read inside the patched window reads the source of the patch. -/
theorem slice_patch_inside (b : List α) {off : ℕ} {src : List α} {off' len : ℕ}
    (h : off ≤ b.length) (hlo : off ≤ off') (hhi : off' + len ≤ off + src.length) :
    slice (patch b off src) off' len = slice src (off' - off) len := by
  apply slice_congr
  intro i hi
  rw [getElem?_patch b h, if_neg (by omega), if_pos (by omega)]
  congr 1
  omega

/-- A patch behind the window does not change it. -/
theorem slice_patch_of_le (b : List α) {off : ℕ} {src : List α} {off' len : ℕ}
    (h : off ≤ b.length) (hle : off' + len ≤ off) :
    slice (patch b off src) off' len = slice b off' len := by
  apply slice_congr
  intro i hi
  rw [getElem?_patch b h, if_pos (by omega)]

/-- A patch in front of the window does not change it. -/
theorem slice_patch_of_ge (b : List α) {off : ℕ} {src : List α} {off' len : ℕ}
    (h : off ≤ b.length) (hge : off + src.length ≤ off') :
    slice (patch b off src) off' len = slice b off' len := by
  apply slice_congr
  intro i hi
  rw [getElem?_patch b h, if_neg (by omega), if_neg (by omega)]

theorem slice_replicate (a : α) {n off len : ℕ} (h : off + len ≤ n) :
    slice (List.replicate n a) off len = List.replicate len a := by
  simp only [slice, List.drop_replicate, List.take_replicate]
  congr 1
  omega

theorem slice_append_left (b d : List α) {off len : ℕ} (h : off + len ≤ b.length) :
    slice (b ++ d) off len = slice b off len := by
  apply slice_congr
  intro i hi
  rw [List.getElem?_append_left (by omega)]

theorem slice_append_right (b d : List α) {off len : ℕ} (h : b.length ≤ off) :
    slice (b ++ d) off len = slice d (off - b.length) len := by
  apply slice_congr
  intro i hi
  rw [List.getElem?_append_right (by omega)]
  congr 1
  omega

/-! ### Writing the fields of a record -/

/-- `b` with fields written at their offsets, in order. -/
def write (b : List α) (fs : List (ℕ × List α)) : List α :=
  fs.foldl (fun b f => patch b f.1 f.2) b

/-- The windows of two fields do not meet. -/
def Apart (f g : ℕ × List α) : Prop := f.1 + f.2.length ≤ g.1 ∨ g.1 + g.2.length ≤ f.1

/-- Every field lies in a buffer of length `n`. -/
def Within (n : ℕ) (fs : List (ℕ × List α)) : Prop := ∀ f ∈ fs, f.1 + f.2.length ≤ n

theorem length_write {b : List α} {fs : List (ℕ × List α)} (h : Within b.length fs) :
    (write b fs).length = b.length := by
  induction fs generalizing b with
  | nil => rfl
  | cons f fs ih =>
    have hf : (patch b f.1 f.2).length = b.length := length_patch b (h f List.mem_cons_self)
    have hrest : Within (patch b f.1 f.2).length fs := fun g hg =>
      hf ▸ h g (List.mem_cons_of_mem f hg)
    exact (ih hrest).trans hf

theorem write_append (b : List α) (fs gs : List (ℕ × List α)) :
    write b (fs ++ gs) = write (write b fs) gs :=
  List.foldl_append

/-- A window that meets no field keeps its contents. -/
theorem slice_write_gap {b : List α} {fs : List (ℕ × List α)} {off len : ℕ}
    (h : Within b.length fs)
    (hgap : ∀ f ∈ fs, off + len ≤ f.1 ∨ f.1 + f.2.length ≤ off) :
    slice (write b fs) off len = slice b off len := by
  induction fs generalizing b with
  | nil => rfl
  | cons f fs ih =>
    have hin : f.1 + f.2.length ≤ b.length := h f List.mem_cons_self
    have hf : (patch b f.1 f.2).length = b.length := length_patch b hin
    have hrest : Within (patch b f.1 f.2).length fs := fun g hg =>
      hf ▸ h g (List.mem_cons_of_mem f hg)
    refine (ih hrest fun g hg => hgap g (List.mem_cons_of_mem f hg)).trans ?_
    rcases hgap f List.mem_cons_self with hle | hge
    · exact slice_patch_of_le b (by omega) hle
    · exact slice_patch_of_ge b (by omega) hge

/-- A field that no other field meets can be read back. -/
theorem slice_write_field {b : List α} {fs : List (ℕ × List α)} {off len : ℕ} {src : List α}
    (h : Within b.length fs) (hapart : fs.Pairwise Apart) (hmem : (off, src) ∈ fs)
    (hlen : src.length = len) : slice (write b fs) off len = src := by
  subst hlen
  induction fs generalizing b with
  | nil => simp at hmem
  | cons f fs ih =>
    have hin : f.1 + f.2.length ≤ b.length := h f List.mem_cons_self
    have hf : (patch b f.1 f.2).length = b.length := length_patch b hin
    have hrest : Within (patch b f.1 f.2).length fs := fun g hg =>
      hf ▸ h g (List.mem_cons_of_mem f hg)
    obtain ⟨hhead, htail⟩ := List.pairwise_cons.mp hapart
    rcases List.mem_cons.mp hmem with rfl | hmem
    · exact (slice_write_gap hrest hhead).trans (slice_patch_same b (by omega))
    · exact ih hrest htail hmem

/-- Cutting a buffer into `n` windows of equal size loses nothing. -/
theorem flatMap_slice_range (b : List α) (size n : ℕ) (h : b.length = n * size) :
    (List.range n).flatMap (fun i => slice b (i * size) size) = b := by
  induction n generalizing b with
  | zero => simp [List.length_eq_zero_iff.mp (h.trans (Nat.zero_mul size))]
  | succ n ih =>
    have hlen : (b.take (n * size)).length = n * size := by
      rw [List.length_take, h, Nat.succ_mul]; omega
    rw [List.range_succ, List.flatMap_append, List.flatMap_singleton]
    have hfirst : (List.range n).flatMap (fun i => slice b (i * size) size) =
        (List.range n).flatMap (fun i => slice (b.take (n * size)) (i * size) size) := by
      rw [List.flatMap_def, List.flatMap_def]
      congr 1
      apply List.map_congr_left
      intro i hi
      have hin : i * size + size ≤ n * size := by
        have := Nat.mul_le_mul_right size (Nat.succ_le_of_lt (List.mem_range.mp hi))
        rwa [Nat.succ_mul] at this
      apply slice_congr
      intro j hj
      rw [List.getElem?_take, if_pos (by omega)]
    have hlast : slice b (n * size) size = b.drop (n * size) := by
      unfold slice
      apply List.take_of_length_le
      rw [List.length_drop, h, Nat.succ_mul]
      omega
    rw [hfirst, ih _ hlen, hlast, List.take_append_drop]

end Windows

/-! ## Numbers in a fixed number of bytes -/

/-- `n` modulo `256 ^ k` in `k` bytes, least significant byte first. -/
def leBytes : ℕ → ℕ → List UInt8
  | 0, _ => []
  | k + 1, n => UInt8.ofNat (n % 256) :: leBytes k (n / 256)

/-- The number whose bytes are `bs`, least significant byte first. -/
def leValue : List UInt8 → ℕ
  | [] => 0
  | b :: bs => b.toNat + 256 * leValue bs

/-- `n` modulo `256 ^ k` in `k` bytes, most significant byte first. -/
def beBytes (k n : ℕ) : List UInt8 := (leBytes k n).reverse

/-- The number whose bytes are `bs`, most significant byte first. -/
def beValue (bs : List UInt8) : ℕ := leValue bs.reverse

@[simp] theorem length_leBytes (k n : ℕ) : (leBytes k n).length = k := by
  induction k generalizing n with
  | zero => rfl
  | succ k ih => simp [leBytes, ih]

@[simp] theorem length_beBytes (k n : ℕ) : (beBytes k n).length = k := by simp [beBytes]

theorem leValue_leBytes (k n : ℕ) : leValue (leBytes k n) = n % 256 ^ k := by
  induction k generalizing n with
  | zero => simp [leBytes, leValue, Nat.mod_one]
  | succ k ih =>
    have hb : (UInt8.ofNat (n % 256)).toNat = n % 256 := by
      simp
    rw [leBytes, leValue, ih, hb, Nat.pow_succ, Nat.mul_comm (256 ^ k) 256, Nat.mod_mul]

theorem leValue_lt (bs : List UInt8) : leValue bs < 256 ^ bs.length := by
  induction bs with
  | nil => simp [leValue]
  | cons b bs ih =>
    have hb := b.toNat_lt
    rw [leValue, List.length_cons, Nat.pow_succ]
    omega

theorem leBytes_leValue (bs : List UInt8) : leBytes bs.length (leValue bs) = bs := by
  induction bs with
  | nil => rfl
  | cons b bs ih =>
    have hb : b.toNat < 256 := b.toNat_lt
    have hmod : (b.toNat + 256 * leValue bs) % 256 = b.toNat := by omega
    have hdiv : (b.toNat + 256 * leValue bs) / 256 = leValue bs := by omega
    rw [List.length_cons, leValue, leBytes, hmod, hdiv, ih, UInt8.ofNat_toNat]

theorem leValue_leBytes_of_lt {k n : ℕ} (h : n < 256 ^ k) : leValue (leBytes k n) = n := by
  rw [leValue_leBytes, Nat.mod_eq_of_lt h]

theorem leBytes_mod (k n : ℕ) : leBytes k (n % 256 ^ k) = leBytes k n := by
  have h := leBytes_leValue (leBytes k n)
  rwa [length_leBytes, leValue_leBytes] at h

theorem beValue_beBytes (k n : ℕ) : beValue (beBytes k n) = n % 256 ^ k := by
  rw [beValue, beBytes, List.reverse_reverse, leValue_leBytes]

end Buffer
