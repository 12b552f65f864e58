import Bogbin.Library.Buffer

/-!
# Iterated hash functions with length padding

A compression function `compress : σ → List UInt8 → σ` on 64-byte blocks is iterated over a message
(`absorb`), and `digestState` absorbs the message followed by its padding: the byte `0x80`, zeros up
to eight bytes below a block boundary, and the length of the message in bits.  Nothing is assumed of
`compress`.
-/

namespace PaddedHash

open Buffer

variable {α σ : Type*}

/-! ## Cutting a message into blocks -/

/-- The complete 64-element blocks of `m`, in order. -/
def blocks (m : List α) : List (List α) :=
  (List.range (m.length / 64)).map fun i => slice m (64 * i) 64

/-- What `blocks` leaves over. -/
def remainder (m : List α) : List α := m.drop (64 * (m.length / 64))

theorem length_remainder (m : List α) : (remainder m).length = m.length % 64 := by
  simp only [remainder, List.length_drop]
  omega

theorem blocks_of_short {m : List α} (h : m.length < 64) : blocks m = [] := by
  simp [blocks, Nat.div_eq_of_lt h]

theorem remainder_of_short {m : List α} (h : m.length < 64) : remainder m = m := by
  simp [remainder, Nat.div_eq_of_lt h]

theorem div_block_append {c : List α} (hc : c.length = 64) (m : List α) :
    (c ++ m).length / 64 = m.length / 64 + 1 := by
  rw [List.length_append, hc, Nat.add_comm, Nat.add_div_right _ (by norm_num)]

/-- A message that begins with a complete block. -/
theorem blocks_block_append {c : List α} (hc : c.length = 64) (m : List α) :
    blocks (c ++ m) = c :: blocks m := by
  unfold blocks
  rw [div_block_append hc, List.range_succ_eq_map, List.map_cons, List.map_map]
  congr 1
  · rw [slice_append_left c m (by omega), Nat.mul_zero, slice_eq_self c (by omega)]
  · apply List.map_congr_left
    intro i _
    have hi : 64 * (i + 1) - c.length = 64 * i := by omega
    rw [Function.comp_apply, Nat.succ_eq_add_one, slice_append_right c m (by omega), hi]

theorem remainder_block_append {c : List α} (hc : c.length = 64) (m : List α) :
    remainder (c ++ m) = remainder m := by
  unfold remainder
  rw [div_block_append hc, List.drop_append, List.drop_eq_nil_of_le (by omega), List.nil_append]
  congr 1
  omega

/-- Induction over the complete blocks of a message: a rest shorter than a block, or a block in
front of a message. -/
theorem block_induction {P : List α → Prop} (short : ∀ m : List α, m.length < 64 → P m)
    (block : ∀ c m : List α, c.length = 64 → P m → P (c ++ m)) (m : List α) : P m := by
  induction h : m.length using Nat.strong_induction_on generalizing m with
  | _ n ih =>
    by_cases hm : m.length < 64
    · exact short m hm
    · rw [← List.take_append_drop 64 m]
      refine block _ _ ?_ (ih (m.length - 64) (by omega) _ (List.length_drop ..))
      rw [List.length_take]
      omega

/-! ## Absorbing blocks -/

section Absorb

variable (compress : σ → List UInt8 → σ)

/-- The chaining value after the complete blocks of `m`. -/
def absorb (s : σ) (m : List UInt8) : σ := (blocks m).foldl compress s

theorem absorb_of_short (s : σ) {m : List UInt8} (h : m.length < 64) :
    absorb compress s m = s := by
  rw [absorb, blocks_of_short h, List.foldl_nil]

theorem absorb_block_append (s : σ) {c : List UInt8} (hc : c.length = 64) (m : List UInt8) :
    absorb compress s (c ++ m) = absorb compress (compress s c) m := by
  rw [absorb, blocks_block_append hc, List.foldl_cons, absorb]

theorem absorb_block (s : σ) {c : List UInt8} (hc : c.length = 64) :
    absorb compress s c = compress s c := by
  have h := absorb_block_append compress s hc []
  rwa [List.append_nil, absorb_of_short compress (compress s c) (m := []) (by simp)] at h

/-- The padding only meets the rest that the complete blocks leave over. -/
theorem absorb_append (s : σ) (m p : List UInt8) :
    absorb compress s (m ++ p) = absorb compress (absorb compress s m) (remainder m ++ p) := by
  induction m using block_induction generalizing s with
  | short m h => rw [absorb_of_short compress s h, remainder_of_short h]
  | block c m hc ih =>
    rw [List.append_assoc, absorb_block_append compress s hc, absorb_block_append compress s hc,
      remainder_block_append hc, ih]

end Absorb

/-! ## Padding -/

/-- The padding of a message of `n` bytes: `0x80`, zeros, and `8 * n` in eight bytes. -/
def padding (n : ℕ) : List UInt8 :=
  0x80 :: (List.replicate ((119 - n % 64) % 64) 0 ++ beBytes 8 (8 * n))

theorem length_padding (n : ℕ) : (padding n).length = (119 - n % 64) % 64 + 9 := by
  simp [padding]

/-- A padded message consists of complete blocks. -/
theorem length_append_padding_mod (m : List UInt8) :
    (m ++ padding m.length).length % 64 = 0 := by
  rw [List.length_append, length_padding]
  omega

/-- The chaining value after the padded message. -/
def digestState (compress : σ → List UInt8 → σ) (iv : σ) (m : List UInt8) : σ :=
  absorb compress iv (m ++ padding m.length)

/-- A rest of fewer than 56 bytes and its padding fill one block. -/
theorem padding_one_block {r n : ℕ} (hr : r < 56) (hn : n % 64 = r) :
    padding n = 0x80 :: (List.replicate (55 - r) 0 ++ beBytes 8 (8 * n)) := by
  have h : (119 - n % 64) % 64 = 55 - r := by omega
  rw [padding, h]

/-- A rest of at least 56 bytes and its padding fill two blocks; the second one holds zeros and the
length. -/
theorem padding_two_blocks {r n : ℕ} (hlo : 56 ≤ r) (hhi : r < 64) (hn : n % 64 = r) :
    padding n = 0x80 :: List.replicate (63 - r) 0 ++
      (List.replicate 56 0 ++ beBytes 8 (8 * n)) := by
  have h : (119 - n % 64) % 64 = (63 - r) + 56 := by omega
  rw [padding, h, List.replicate_add, List.cons_append, List.append_assoc]

end PaddedHash
