import Bogbin.Core.Sha256

/-!
# What the two SHA-256 functions compute

`sha256_standard` is the padded iteration of `process_block` (`sha256_standard_eq`).  The loop of
`sha256` is followed block by block (`sha256Loop_block`), down to a rest that fits the buffer
(`sha256Loop_state`); only a nonempty rest reaches the padding branch.
-/

namespace Bogbin.Core

open Buffer PaddedHash

/-! ## Final blocks -/

theorem patch_zeros_rest {rest : Bytes} (h : rest.length < 64) :
    patch (patch (zeros 64) 0 rest) rest.length [0x80] =
      rest ++ 0x80 :: zeros (63 - rest.length) := by
  simp only [patch, zeros, List.take_zero, List.nil_append, Nat.zero_add, List.drop_replicate,
    List.take_left, List.length_singleton, List.drop_append, List.append_assoc,
    List.drop_of_length_le (Nat.le_succ rest.length), Nat.add_sub_cancel_left,
    List.singleton_append]
  congr 3
  omega

theorem patch_rest_length {rest : Bytes} (h : rest.length < 56) (len_bytes : Bytes)
    (hlen : len_bytes.length = 8) :
    patch (rest ++ 0x80 :: zeros (63 - rest.length)) 56 len_bytes =
      rest ++ 0x80 :: (zeros (55 - rest.length) ++ len_bytes) := by
  have hsplit : zeros (63 - rest.length) = zeros (55 - rest.length) ++ zeros 8 := by
    rw [zeros, zeros, zeros, ← List.replicate_add]
    congr 1
    omega
  have htake : (rest ++ 0x80 :: zeros (55 - rest.length)).length = 56 := by
    simp only [List.length_append, List.length_cons, length_zeros]
    omega
  have hassoc : rest ++ 0x80 :: (zeros (55 - rest.length) ++ zeros 8) =
      (rest ++ 0x80 :: zeros (55 - rest.length)) ++ zeros 8 := by
    rw [List.append_assoc, List.cons_append]
  rw [hsplit, hassoc]
  unfold patch
  rw [List.take_left' htake, List.drop_eq_nil_of_le (by simp [hlen]; omega)]
  simp

theorem patch_zeros_length (len_bytes : Bytes) (hlen : len_bytes.length = 8) :
    patch (zeros 64) 56 len_bytes = zeros 56 ++ len_bytes := by
  simp [patch, zeros, hlen]

/-- The rest of a message and its padding, absorbed through one final block. -/
theorem absorb_rest_of_lt {rest : Bytes} {n : ℕ} (hr : rest.length < 56)
    (hn : n % 64 = rest.length) (h : ShaState) :
    absorb process_block h (rest ++ padding n) =
      process_block h (patch (rest ++ 0x80 :: zeros (63 - rest.length)) 56
        (beBytes 8 (8 * n))) := by
  rw [patch_rest_length hr _ (length_beBytes ..), padding_one_block hr hn]
  refine absorb_block process_block h ?_
  simp only [List.length_append, List.length_cons, List.length_replicate, length_beBytes]
  omega

/-- The rest of a message and its padding, absorbed through two final blocks. -/
theorem absorb_rest_of_ge {rest : Bytes} {n : ℕ} (hlo : 56 ≤ rest.length) (hhi : rest.length < 64)
    (hn : n % 64 = rest.length) (h : ShaState) :
    absorb process_block h (rest ++ padding n) =
      process_block (process_block h (rest ++ 0x80 :: zeros (63 - rest.length)))
        (patch (zeros 64) 56 (beBytes 8 (8 * n))) := by
  rw [patch_zeros_length _ (length_beBytes ..), padding_two_blocks hlo hhi hn,
    ← List.append_assoc, absorb_block_append]
  · refine absorb_block process_block _ ?_
    simp
  · simp only [List.length_append, List.length_cons, List.length_replicate]
    omega

/-- `sha256_standard` is the padded iteration of the compression function. -/
theorem sha256_standard_eq (data : Bytes) :
    sha256_standard data = (digestState process_block ShaState.init data).out := by
  have hrest : (remainder data).length < 64 := by
    rw [length_remainder]
    exact Nat.mod_lt _ (by norm_num)
  have hmod : data.length % 64 = (remainder data).length := (length_remainder data).symm
  rw [digestState, absorb_append]
  unfold sha256_standard
  dsimp only
  rw [patch_zeros_rest hrest]
  split_ifs with hge
  · rw [absorb_rest_of_ge hge hrest hmod]
    rfl
  · rw [absorb_rest_of_lt (by omega) hmod]
    rfl

/-! ## The byte loop -/

theorem set_patch {b src : Bytes} {n : ℕ} (x : UInt8) (h : n + src.length < b.length) :
    (patch b n src).set (n + src.length) x = patch b n (src ++ [x]) := by
  apply List.ext_getElem?
  intro i
  rw [List.getElem?_set, getElem?_patch b (by omega), getElem?_patch b (by omega),
    length_patch b (by omega), List.length_append, List.length_singleton, List.getElem?_append]
  split_ifs <;> first | rfl | omega | skip
  all_goals
    have hi : i = n + src.length := by omega
    simp [hi]

/-- The loop copies input bytes as long as the buffer has room. -/
theorem sha256Loop_fill (data block : Bytes) (h : ShaState) (i n j : ℕ)
    (hblock : block.length = 64) (hj : n + j ≤ 64) (hi : i + j ≤ data.length) :
    sha256Loop data i n block h =
      sha256Loop data (i + j) (n + j) (patch block n (slice data i j)) h := by
  induction j with
  | zero => simp [patch]
  | succ j ih =>
    have hlen : (slice data i j).length = j := length_slice data (by omega)
    have hlt : i + j < data.length := by omega
    have hnext : slice data i j ++ [data[i + j]] = slice data i (j + 1) := by
      apply List.ext_getElem?
      intro k
      rw [List.getElem?_append, getElem?_slice, getElem?_slice, hlen]
      split_ifs with h1 h2 h2
      · rfl
      · omega
      · have hk : k = j := by omega
        simp [hk]
      · exact List.getElem?_eq_none (by simp; omega)
    have hset := @set_patch block (slice data i j) n data[i + j] (by rw [hlen]; omega)
    rw [hlen] at hset
    rw [ih (by omega) (by omega), sha256Loop, dif_pos (Or.inl hlt),
      dif_pos ⟨by omega, hlt⟩, hset, hnext, Nat.add_assoc, Nat.add_assoc]

/-- A complete block of input passes through the buffer into the chaining value. -/
theorem sha256Loop_block (data block : Bytes) (h : ShaState) (i : ℕ) (hblock : block.length = 64)
    (hi : i + 64 ≤ data.length) :
    sha256Loop data i 0 block h =
      sha256Loop data (i + 64) 0 (slice data i 64) (process_block h (slice data i 64)) := by
  have hlen : (slice data i 64).length = 64 := length_slice data hi
  have hfull : patch block 0 (slice data i 64) = slice data i 64 := by
    unfold patch
    rw [List.drop_eq_nil_of_le (by omega)]
    simp
  rw [sha256Loop_fill data block h i 0 64 hblock (by omega) hi, hfull, sha256Loop,
    dif_pos (Or.inr (by omega)), dif_neg (by omega), if_pos (by omega)]

theorem zeroFill_patch {block rest : Bytes} (x : UInt8) {n : ℕ} (hblock : block.length = 64)
    (hrest : rest.length < n) (hn : n ≤ 64) :
    zeroFill (patch block 0 (rest ++ [x])) (rest.length + 1) n =
      patch block 0 (rest ++ x :: zeros (n - (rest.length + 1))) := by
  apply List.ext_getElem?
  intro i
  unfold zeroFill
  rw [getElem?_patch _ (by rw [length_patch _ (by simp; omega)]; omega),
    getElem?_patch _ (by omega), getElem?_patch _ (by omega), length_zeros]
  simp only [List.length_append, List.length_cons, List.length_nil, length_zeros,
    Nat.not_lt_zero, if_false, Nat.zero_add, Nat.sub_zero]
  have happ : rest ++ x :: zeros (n - (rest.length + 1)) =
      (rest ++ [x]) ++ zeros (n - (rest.length + 1)) := by simp
  rw [happ]
  split_ifs <;> first | rfl | omega | skip
  · have hi : i < (rest ++ [x]).length := by
      rw [List.length_append, List.length_singleton]
      assumption
    exact (List.getElem?_append_left hi).symm
  · have hi : (rest ++ [x]).length ≤ i := by
      rw [List.length_append, List.length_singleton]
      omega
    rw [List.getElem?_append_right hi, List.length_append, List.length_singleton]

/-- The padding branch absorbs the buffered rest together with the padding. -/
theorem padBlock_state {block rest : Bytes} {n : ℕ} (hblock : block.length = 64)
    (hrest : rest.length < 64) (hn : n % 64 = rest.length) (h : ShaState) :
    (padBlock (beBytes 8 (8 * n)) rest.length (patch block 0 rest) h).2 =
      absorb process_block h (rest ++ padding n) := by
  have hset := @set_patch block rest 0 0x80 (by omega)
  rw [Nat.zero_add] at hset
  have hfull {n : ℕ} (hn : rest.length < n) (m : Bytes) (hm : n + m.length = 64) :
      patch block 0 (rest ++ 0x80 :: zeros (n - (rest.length + 1)) ++ m) =
        rest ++ 0x80 :: zeros (n - (rest.length + 1)) ++ m := by
    unfold patch
    rw [List.drop_eq_nil_of_le (by simp; omega)]
    simp
  unfold padBlock
  dsimp only
  rw [hset]
  split_ifs with hlen
  · have hfill := @zeroFill_patch block rest 0x80 64 hblock hrest le_rfl
    have hnil := hfull hrest [] rfl
    rw [List.append_nil] at hnil
    have h63 : 64 - (rest.length + 1) = 63 - rest.length := by omega
    have hsecond : patch (zeroFill (rest ++ 0x80 :: zeros (63 - rest.length)) 0 56) 56
        (beBytes 8 (8 * n)) = patch (zeros 64) 56 (beBytes 8 (8 * n)) := by
      rw [patch_zeros_length _ (length_beBytes ..)]
      unfold zeroFill patch
      rw [List.take_append_of_le_length (by simp), List.drop_eq_nil_of_le (by simp; omega)]
      simp [zeros]
    rw [hfill, hnil, h63, absorb_rest_of_ge (by omega) hrest hn, hsecond]
  · have hfill := @zeroFill_patch block rest 0x80 56 hblock (by omega) (by norm_num)
    have h55 : 56 - (rest.length + 1) = 55 - rest.length := by omega
    have hpatch : patch (patch block 0 (rest ++ 0x80 :: zeros (56 - (rest.length + 1)))) 56
        (beBytes 8 (8 * n)) =
          patch (rest ++ 0x80 :: zeros (63 - rest.length)) 56 (beBytes 8 (8 * n)) := by
      have h8 : (beBytes 8 (8 * n)).length = 8 := length_beBytes ..
      have h56 : (rest ++ 0x80 :: zeros (55 - rest.length)).length = 56 := by
        simp only [List.length_append, List.length_cons, length_zeros]
        omega
      rw [patch_rest_length (by omega) _ h8, h55]
      unfold patch
      rw [List.take_zero, List.nil_append, List.take_left' h56,
        List.drop_eq_nil_of_le (by simp [hblock, h8]; omega)]
      simp
    rw [hfill, absorb_rest_of_lt (by omega) hn, hpatch]

/-- The chaining value after the loop: the complete blocks are absorbed, and a nonempty rest is
absorbed with its padding.  A message that ends at a block boundary is not padded. -/
theorem sha256Loop_state (data rest : Bytes) :
    ∀ (i : ℕ) (block : Bytes) (h : ShaState), data.drop i = rest → block.length = 64 →
      rest.length % 64 = data.length % 64 →
      (sha256Loop data i 0 block h).2 =
        if rest.length % 64 = 0 then absorb process_block h rest
        else absorb process_block h (rest ++ padding data.length) := by
  induction rest using block_induction with
  | short rest hshort =>
    intro i block h hdrop hblock hmod
    have hlen : rest.length = data.length - i := by rw [← hdrop, List.length_drop]
    by_cases hzero : rest.length = 0
    · rw [sha256Loop, dif_neg (by omega), if_pos (by omega), absorb_of_short _ _ hshort]
    · -- the rest is copied behind the start of the buffer and meets the padding branch
      have hslice : slice data i rest.length = rest := by
        rw [slice, hdrop, List.take_length]
      have hend : i + rest.length = data.length := by omega
      rw [if_neg (by omega), sha256Loop_fill data block h i 0 rest.length hblock (by omega)
        (by omega), hslice, hend, Nat.zero_add, sha256Loop, dif_pos (Or.inr (by omega)),
        dif_neg (by omega), if_neg (by omega), ← padBlock_state hblock hshort (by omega) h]
      dsimp only
      rw [sha256Loop, dif_neg (by omega)]
  | block c m hc ih =>
    intro i block h hdrop hblock hmod
    have hlen : (c ++ m).length = data.length - i := by rw [← hdrop, List.length_drop]
    rw [List.length_append, hc] at hlen hmod
    have hslice : slice data i 64 = c := by rw [slice, hdrop, List.take_left' hc]
    have hnext : data.drop (i + 64) = m := by
      rw [← List.drop_drop, hdrop, List.drop_left' hc]
    have hcm : (c ++ m).length % 64 = m.length % 64 := by
      rw [List.length_append, hc]
      omega
    rw [sha256Loop_block data block h i hblock (by omega), hslice,
      ih (i + 64) c (process_block h c) hnext hc (by omega), hcm, List.append_assoc,
      absorb_block_append _ _ hc, absorb_block_append _ _ hc]

/-- The padding branch that `sha256` keeps for the empty input. -/
theorem empty_block (block : Bytes) (hblock : block.length = 64) :
    patch (patch (block.set 0 0x80) 1 (zeros 55)) 56 (beBytes 8 0) =
      0x80 :: (zeros 55 ++ beBytes 8 0) := by
  have h8 : (beBytes 8 0).length = 8 := length_beBytes ..
  have hlen : (block.set 0 0x80).length = 64 := by rw [List.length_set, hblock]
  apply List.ext_getElem?
  intro i
  rw [getElem?_patch _ (by rw [length_patch _ (by simp [hblock])]; omega),
    getElem?_patch _ (by omega), length_zeros, h8]
  rcases i with _ | i
  · simp [hblock]
  · rw [List.getElem?_cons_succ, List.getElem?_append, length_zeros]
    split_ifs <;> first | omega | rfl | (congr 1; omega) | skip
    · rw [List.getElem?_eq_none (by omega), List.getElem?_eq_none (by omega)]

/-- At a block boundary `sha256` stops after the last block of the message. -/
theorem sha256_of_full_blocks {data : Bytes} (hne : data ≠ []) (h : data.length % 64 = 0) :
    sha256 data = (absorb process_block ShaState.init data).out := by
  have hstate := sha256Loop_state data data 0 (zeros 64) ShaState.init rfl (length_zeros 64) rfl
  rw [if_pos h] at hstate
  unfold sha256
  dsimp only
  rw [if_neg (by simpa using hne), hstate]

/-- Off the block boundary, and on the empty input, `sha256` is `sha256_standard`; a nonempty input
that ends at a block boundary is digested without its padding block. -/
theorem sha256_eq_standard_or_unpadded (data : Bytes) :
    (data = [] ∨ data.length % 64 ≠ 0 → sha256 data = sha256_standard data) ∧
      (data ≠ [] → data.length % 64 = 0 →
        sha256 data = (absorb process_block ShaState.init data).out) := by
  refine ⟨?_, sha256_of_full_blocks⟩
  rintro (rfl | hmod)
  · rw [sha256_standard_eq]
    unfold sha256
    dsimp only
    rw [sha256Loop, dif_neg (by simp)]
    simp only [List.isEmpty_nil, if_true]
    rw [empty_block (zeros 64) (length_zeros 64)]
    refine congrArg ShaState.out (absorb_block process_block ShaState.init ?_).symm
    simp
  · have hstate := sha256Loop_state data data 0 (zeros 64) ShaState.init rfl (length_zeros 64) rfl
    have hne : data.isEmpty = false := by
      cases data with
      | nil => simp at hmod
      | cons _ _ => rfl
    rw [if_neg hmod] at hstate
    rw [sha256_standard_eq, digestState]
    unfold sha256
    dsimp only
    rw [hne, hstate]
    rfl

/-- The empty input, and sixty-four zero bytes. -/
theorem sha256_empty_and_block :
    sha256 [] = sha256_standard [] ∧
      sha256 (zeros 64) = (process_block ShaState.init (zeros 64)).out := by
  refine ⟨(sha256_eq_standard_or_unpadded []).1 (.inl rfl), ?_⟩
  rw [(sha256_eq_standard_or_unpadded (zeros 64)).2 (by decide) (by decide)]
  exact congrArg ShaState.out (absorb_block process_block ShaState.init (length_zeros 64))

/-- Sixty-four zero bytes end at a block boundary. -/
theorem sha256_ne_standard_at_block_boundary :
    ¬ ∀ data : Bytes, sha256 data = sha256_standard data := by
  intro h
  have h64 := h (zeros 64)
  rw [sha256_of_full_blocks (by decide) (by decide)] at h64
  revert h64
  decide +kernel

/-! ## The padding block -/

/-- The words of a digest are its bytes. -/
theorem ShaState.out_injective : Function.Injective ShaState.out := by
  intro s t h
  have hword {a b : UInt32} (hab : beBytes 4 a.toNat = beBytes 4 b.toNat) : a = b := by
    have hvalue := congrArg beValue hab
    have ha := a.toNat_lt
    have hb := b.toNat_lt
    rw [beValue_beBytes, beValue_beBytes, Nat.mod_eq_of_lt (by omega),
      Nat.mod_eq_of_lt (by omega)] at hvalue
    exact UInt32.toNat_inj.mp hvalue
  have hbytes := congrArg Subtype.val h
  simp only [ShaState.out, List.flatMap_cons, List.flatMap_nil, List.append_nil] at hbytes
  obtain ⟨h0, hbytes⟩ := List.append_inj hbytes (by simp)
  obtain ⟨h1, hbytes⟩ := List.append_inj hbytes (by simp)
  obtain ⟨h2, hbytes⟩ := List.append_inj hbytes (by simp)
  obtain ⟨h3, hbytes⟩ := List.append_inj hbytes (by simp)
  obtain ⟨h4, hbytes⟩ := List.append_inj hbytes (by simp)
  obtain ⟨h5, hbytes⟩ := List.append_inj hbytes (by simp)
  obtain ⟨h6, h7⟩ := List.append_inj hbytes (by simp)
  cases s
  cases t
  simp only at h0 h1 h2 h3 h4 h5 h6 h7
  simp only [ShaState.mk.injEq]
  exact ⟨hword h0, hword h1, hword h2, hword h3, hword h4, hword h5, hword h6, hword h7⟩

/-- The data has a padding block of its own, and that block does not change the chaining value. -/
def PaddingFixed (data : Bytes) : Prop :=
  data ≠ [] ∧ data.length % 64 = 0 ∧
    process_block (absorb process_block ShaState.init data) (padding data.length) =
      absorb process_block ShaState.init data

/-- The two digests of data agree off the block boundary and where the padding block is a fixed
point of the compression. -/
theorem sha256_eq_standard_iff (data : Bytes) :
    sha256 data = sha256_standard data ↔
      data = [] ∨ data.length % 64 ≠ 0 ∨ PaddingFixed data := by
  obtain ⟨hpadded, hunpadded⟩ := sha256_eq_standard_or_unpadded data
  by_cases hboundary : data ≠ [] ∧ data.length % 64 = 0
  · obtain ⟨hne, hmod⟩ := hboundary
    have hrest : remainder data = [] := by
      rw [← List.length_eq_zero_iff, length_remainder, hmod]
    have hlen : (padding data.length).length = 64 := by
      rw [length_padding, hmod]
    have hstate : digestState process_block ShaState.init data =
        process_block (absorb process_block ShaState.init data) (padding data.length) := by
      rw [digestState, absorb_append, hrest, List.nil_append, absorb_block _ _ hlen]
    rw [hunpadded hne hmod, sha256_standard_eq, hstate]
    constructor
    · intro h
      exact .inr (.inr ⟨hne, hmod, (ShaState.out_injective h).symm⟩)
    · rintro (h | h | ⟨-, -, h⟩)
      · exact absurd h hne
      · exact absurd hmod h
      · rw [h]
  · have hoff : data = [] ∨ data.length % 64 ≠ 0 := by
      by_contra hnot
      push Not at hnot
      exact hboundary hnot
    refine iff_of_true (hpadded hoff) ?_
    rcases hoff with hnil | hmod
    · exact .inl hnil
    · exact .inr (.inl hmod)

end Bogbin.Core
