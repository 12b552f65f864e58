import Bogbin.Container.Transforms
import Bogbin.Library.BurrowsWheeler

/-!
# The transforms are reversible

`invert_transform` takes back what `apply_transform_with_param` has done (`invert_apply_transform`).
-/

namespace Bogbin.Container

open Bogvm

section Maps

variable {data alphabet : Bytes} {first : UInt8}

theorem follow_xor (rest : Bytes) : follow (fun b previous => b ^^^ previous) first
    (rest.zipWith (fun b previous => b ^^^ previous) (first :: rest)) = rest := by
  induction rest generalizing first with
  | nil => rfl
  | cons b rest ih =>
    have hb : b ^^^ first ^^^ first = b := by rw [UInt8.xor_assoc, UInt8.xor_self, UInt8.xor_zero]
    rw [List.zipWith_cons_cons, follow, hb, ih]

theorem follow_delta (rest : Bytes) : follow (fun b previous => previous + b) first
    (rest.zipWith (fun b previous => b - previous) (first :: rest)) = rest := by
  induction rest generalizing first with
  | nil => rfl
  | cons b rest ih =>
    have hb : first + (b - first) = b := by rw [UInt8.add_comm, UInt8.sub_add_cancel]
    rw [List.zipWith_cons_cons, follow, hb, ih]

theorem from_previous_xor : from_previous (fun b previous => b ^^^ previous)
    (with_previous (fun b previous => b ^^^ previous) data) = data := by
  cases data with
  | nil => rfl
  | cons first rest => rw [with_previous, from_previous, follow_xor]

theorem from_previous_delta : from_previous (fun b previous => previous + b)
    (with_previous (fun b previous => b - previous) data) = data := by
  cases data with
  | nil => rfl
  | cons first rest => rw [with_previous, from_previous, follow_delta]

theorem swap_nibbles_ofNat : ∀ n < 256, swap_nibbles (swap_nibbles (UInt8.ofNat n)) = UInt8.ofNat n := by
  decide +kernel

theorem swap_nibbles_twice (b : UInt8) : swap_nibbles (swap_nibbles b) = b := by
  have h := swap_nibbles_ofNat b.toNat b.toNat_lt
  rwa [UInt8.ofNat_toNat] at h

theorem map_swap_nibbles : (data.map swap_nibbles).map swap_nibbles = data := by
  rw [List.map_map]
  conv_rhs => rw [← List.map_id data]
  exact List.map_congr_left fun b _ => swap_nibbles_twice b

/-! ## Moves to the front -/

theorem mem_all_bytes (b : UInt8) : b ∈ all_bytes :=
  List.mem_map.mpr ⟨b.toNat, List.mem_range.mpr b.toNat_lt, UInt8.ofNat_toNat⟩

theorem move_to_front_perm {value : UInt8} (h : value ∈ alphabet) :
    (move_to_front alphabet (alphabet.idxOf value) value).Perm alphabet := by
  unfold move_to_front
  split_ifs
  · exact List.Perm.refl _
  · have hlt := List.idxOf_lt_length_of_mem h
    have hperm := List.getElem_cons_eraseIdx_perm hlt
    rwa [List.getElem_idxOf hlt] at hperm

/-- The decoder follows the alphabet of the encoder. -/
theorem mtf_decode_encode_loop (h : alphabet.Perm all_bytes) :
    mtf_decode_loop alphabet (mtf_encode_loop alphabet data) = data := by
  induction data generalizing alphabet with
  | nil => rfl
  | cons value rest ih =>
    have hmem : value ∈ alphabet := h.mem_iff.mpr (mem_all_bytes value)
    have hlt := List.idxOf_lt_length_of_mem hmem
    have hlength : alphabet.length = 256 := by
      rw [h.length_eq, all_bytes, List.length_map, List.length_range]
    have hindex : (UInt8.ofNat (alphabet.idxOf value)).toNat = alphabet.idxOf value := by
      rw [UInt8.toNat_ofNat']
      exact Nat.mod_eq_of_lt (by omega)
    have hvalue : alphabet.getD (alphabet.idxOf value) 0 = value := by
      rw [List.getD_eq_getElem _ _ hlt, List.getElem_idxOf hlt]
    rw [mtf_encode_loop, mtf_decode_loop, hindex, hvalue, ih ((move_to_front_perm hmem).trans h)]

theorem mtf_decode_encode : mtf_decode (mtf_encode data) = data :=
  mtf_decode_encode_loop (List.Perm.refl _)

end Maps

/-! ## The Burrows-Wheeler transform -/

section Bwt

variable {data : Bytes}

theorem take_le_take {a b : Bytes} (k : ℕ) (hlength : a.length = b.length) (h : a ≤ b) :
    a.take k ≤ b.take k := by
  induction k generalizing a b with
  | zero => exact List.nil_le _
  | succ k ih =>
    cases a with
    | nil => exact List.nil_le _
    | cons x a =>
      cases b with
      | nil => cases hlength
      | cons y b =>
        rw [List.take_succ_cons, List.take_succ_cons]
        rw [List.cons_le_cons_iff] at h ⊢
        exact h.imp_right fun ⟨hxy, hab⟩ => ⟨hxy, ih (Nat.succ.inj hlength) hab⟩

theorem rowOrder : BurrowsWheeler.RowOrder fun a b : Bytes => decide (a ≤ b) where
  trans a b c hab hbc := decide_eq_true (List.le_trans (of_decide_eq_true hab) (of_decide_eq_true hbc))
  total a b := by simpa using List.le_total a b
  antisymm a b hab hba := List.le_antisymm (of_decide_eq_true hab) (of_decide_eq_true hba)
  take a b k hlength hab := decide_eq_true (take_le_take k hlength (of_decide_eq_true hab))

theorem lt_or_eq_of_le {a b : Bytes} (h : a ≤ b) : a < b ∨ a = b := by
  by_cases hlt : a < b
  · exact Or.inl hlt
  · exact Or.inr (List.le_antisymm h (List.not_lt.mp hlt))

theorem rotation_le_total (a b : Bytes × ℕ) : (rotation_le a b || rotation_le b a) = true := by
  unfold rotation_le
  rw [Bool.or_eq_true, decide_eq_true_eq, decide_eq_true_eq]
  rcases List.le_total a.1 b.1 with h | h
  · rcases lt_or_eq_of_le h with h | h
    · exact Or.inl (Or.inl h)
    · rcases Nat.le_total a.2 b.2 with hindex | hindex
      · exact Or.inl (Or.inr ⟨h, hindex⟩)
      · exact Or.inr (Or.inr ⟨h.symm, hindex⟩)
  · rcases lt_or_eq_of_le h with h | h
    · exact Or.inr (Or.inl h)
    · rcases Nat.le_total a.2 b.2 with hindex | hindex
      · exact Or.inl (Or.inr ⟨h.symm, hindex⟩)
      · exact Or.inr (Or.inr ⟨h, hindex⟩)

theorem rotation_le_trans (a b c : Bytes × ℕ) (hab : rotation_le a b = true)
    (hbc : rotation_le b c = true) : rotation_le a c = true := by
  unfold rotation_le at hab hbc ⊢
  rw [decide_eq_true_eq] at hab hbc ⊢
  rcases hab with hab | ⟨hab, habi⟩
  · rcases hbc with hbc | ⟨hbc, -⟩
    · exact Or.inl (List.lt_trans hab hbc)
    · exact Or.inl (hbc ▸ hab)
  · rcases hbc with hbc | ⟨hbc, hbci⟩
    · exact Or.inl (hab ▸ hbc)
    · exact Or.inr ⟨hab.trans hbc, habi.trans hbci⟩

/-- The rows of the sorted rotations. -/
theorem rotations_sorted :
    ((rotations data).map Prod.fst).Pairwise fun a b => decide (a ≤ b) = true := by
  have hsorted := List.pairwise_mergeSort rotation_le_trans rotation_le_total
    ((List.range data.length).map fun index => (rotation data index, index))
  refine List.pairwise_map.mpr (hsorted.imp fun {a b} hab => ?_)
  unfold rotation_le at hab
  rcases of_decide_eq_true hab with hab | ⟨hab, -⟩
  · exact decide_eq_true (List.le_of_lt hab)
  · exact decide_eq_true (hab ▸ List.le_refl _)

theorem rotations_perm : ((rotations data).map Prod.fst).Perm
    ((List.range data.length).map (BurrowsWheeler.rotation data)) := by
  have hperm := (List.mergeSort_perm ((List.range data.length).map fun index =>
    (rotation data index, index)) rotation_le).map Prod.fst
  rwa [List.map_map] at hperm

/-- The row of the primary index is the text. -/
theorem rotations_primary (hne : data ≠ []) :
    ((rotations data).map Prod.fst)[(rotations data).findIdx fun r => r.2 = 0]? = some data := by
  have hmem {r : Bytes × ℕ} : r ∈ rotations data ↔
      r ∈ (List.range data.length).map fun index => (rotation data index, index) := List.mem_mergeSort
  have hzero : (rotation data 0, 0) ∈ rotations data := by
    refine hmem.mpr (List.mem_map.mpr ⟨0, ?_, rfl⟩)
    exact List.mem_range.mpr (List.length_pos_of_ne_nil hne)
  have hlt : (rotations data).findIdx (fun r => r.2 = 0) < (rotations data).length :=
    List.findIdx_lt_length_of_exists ⟨_, hzero, by simp⟩
  have hfound := @List.findIdx_getElem _ (fun r : Bytes × ℕ => decide (r.2 = 0)) (rotations data) hlt
  obtain ⟨index, -, hindex⟩ := List.mem_map.mp (hmem.mp (List.getElem_mem hlt))
  rw [List.getElem?_map, List.getElem?_eq_getElem hlt]
  rw [← hindex] at hfound ⊢
  obtain rfl : index = 0 := of_decide_eq_true hfound
  simp [rotation]

theorem bwt_decode_encode : bwt_decode (bwt_encode data).1 (bwt_encode data).2 = .ok data := by
  by_cases hne : data = []
  · rw [hne]
    rfl
  · have hlength : (rotations data).length = data.length := by
      rw [rotations, List.length_mergeSort, List.length_map, List.length_range]
    have hprimary := rotations_primary hne
    obtain ⟨hlt, -⟩ := List.getElem?_eq_some_iff.mp hprimary
    rw [List.length_map, hlength] at hlt
    have hpos := List.length_pos_of_ne_nil hne
    have hpasses := BurrowsWheeler.passes_rotations (d := 0) rowOrder rotations_sorted
      (@rotations_perm data)
    rw [List.length_map, hlength, List.map_map] at hpasses
    unfold bwt_encode bwt_decode
    rw [if_neg hne]
    dsimp only
    rw [if_neg (List.ne_nil_of_length_pos (by rw [List.length_map, hlength]; exact hpos)),
      List.length_map, hlength, if_neg (not_le.mpr hlt)]
    have htable : (bwt_pass ((rotations data).map fun r => r.1.getLastD 0))^[data.length]
        (List.replicate data.length []) = (rotations data).map Prod.fst := hpasses
    rw [htable, List.getD_eq_getElem?_getD, hprimary, Option.getD_some]

end Bwt

/-! ## Lengths -/

section Lengths

variable {f : UInt8 → UInt8 → UInt8} {data alphabet : Bytes}

@[simp] theorem length_with_previous : (with_previous f data).length = data.length := by
  cases data with
  | nil => rfl
  | cons first rest => simp [with_previous]

theorem length_mtf_encode_loop : (mtf_encode_loop alphabet data).length = data.length := by
  induction data generalizing alphabet with
  | nil => rfl
  | cons value rest ih => simp [mtf_encode_loop, ih]

@[simp] theorem length_mtf_encode : (mtf_encode data).length = data.length := length_mtf_encode_loop

@[simp] theorem length_bwt_encode : (bwt_encode data).1.length = data.length := by
  unfold bwt_encode
  split_ifs with hne
  · simp [hne]
  · simp [rotations, List.length_mergeSort]

theorem length_apply_transform (transform : Transform) (data : Bytes) :
    (apply_transform_with_param transform data).1.length = data.length := by
  cases transform <;> simp [apply_transform_with_param]

end Lengths

/-- Every transform can be taken back with its parameter. -/
theorem invert_apply_transform (transform : Transform) (data : Bytes) :
    invert_transform transform (apply_transform_with_param transform data).1
      (apply_transform_with_param transform data).2 = .ok data := by
  cases transform with
  | identity => rfl
  | xor_previous => exact congrArg Except.ok from_previous_xor
  | delta_previous => exact congrArg Except.ok from_previous_delta
  | nibble_split => exact congrArg Except.ok map_swap_nibbles
  | mtf => exact congrArg Except.ok mtf_decode_encode
  | bwt => exact bwt_decode_encode
  | bwt_mtf =>
    show bwt_decode (mtf_decode (mtf_encode (bwt_encode data).1)) (bwt_encode data).2 = .ok data
    rw [mtf_decode_encode, bwt_decode_encode]

/-- Every transform keeps the length of the data and can be taken back, on periodic data, too, where
rotations are equal. -/
theorem transforms_reversible (transform : Transform) (data : Bytes) :
    (apply_transform_with_param transform data).1.length = data.length ∧
      invert_transform transform (apply_transform_with_param transform data).1
        (apply_transform_with_param transform data).2 = .ok data :=
  ⟨length_apply_transform transform data, invert_apply_transform transform data⟩

end Bogbin.Container
