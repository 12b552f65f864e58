import Bogbin.Container.Grammar

/-!
# Reading a stream of the grammar

Each reader takes exactly the bytes that the grammar writes, and what a reader accepts has the length
that its descriptor determines.
-/

namespace Bogbin.Container

open Bogvm Vm StateExcept

/-! ## Numbers -/

section Varuint

variable {s s' raw : Bytes} {m n shift value : ℕ} {b : UInt8}

@[simp] theorem read_byte_cons : read_byte (b :: s) = .ok b s := rfl

theorem read_byte_eq_ok : read_byte s = .ok b s' ↔ s = b :: s' := by
  cases s with
  | nil => exact ⟨fun h => (nomatch h), fun h => (nomatch h)⟩
  | cons c rest =>
    rw [read_byte_cons, EStateM.Result.ok.injEq, List.cons.injEq]

theorem or_shiftLeft (h : value < 2 ^ shift) : value ||| n <<< shift = value + n * 2 ^ shift := by
  rw [Nat.shiftLeft_eq, Nat.lor_comm, Nat.mul_comm, ← Nat.two_pow_add_eq_or_of_lt h, Nat.add_comm]

theorem encode_varuint_of_lt (h : m < 128) : encode_varuint m = [UInt8.ofNat m] := Leb128.encode_of_lt h

theorem encode_varuint_of_le (h : 128 ≤ m) :
    encode_varuint m = UInt8.ofNat (m % 128 + 128) :: encode_varuint (m / 128) :=
  Leb128.encode_of_le h

theorem decode_varuint_loop_cons : decode_varuint_loop (n + 1) shift value raw (b :: s) =
    if b.toNat < 128 then
      if encode_varuint (value ||| (b.toNat % 128) <<< shift) = raw ++ [b] then
        .ok (value ||| (b.toNat % 128) <<< shift) s
      else .error .ContainerError s
    else decode_varuint_loop n (shift + 7) (value ||| (b.toNat % 128) <<< shift) (raw ++ [b]) s := by
  rw [decode_varuint_loop, bind_of_ok read_byte_cons]
  by_cases hb : b.toNat < 128
  · by_cases henc : encode_varuint (value ||| (b.toNat % 128) <<< shift) = raw ++ [b]
    · simp [hb, henc, expect]
    · simp [hb, henc, expect, bind_of_error throw_apply]
  · simp [hb]

/-- The bytes that are left continue a number of which some digits have been read. -/
theorem decode_varuint_loop_encode (hvalue : value < 2 ^ shift) (hm : m < 128 ^ (n + 1))
    (hraw : encode_varuint (value + m * 2 ^ shift) = raw ++ encode_varuint m) :
    decode_varuint_loop (n + 1) shift value raw (encode_varuint m ++ s) =
      .ok (value + m * 2 ^ shift) s := by
  induction n generalizing m shift value raw with
  | zero =>
    have hsmall : m < 128 := by simpa using hm
    rw [encode_varuint_of_lt hsmall] at hraw ⊢
    rw [List.singleton_append, decode_varuint_loop_cons, Leb128.toNat_last hsmall, if_pos hsmall,
      Nat.mod_eq_of_lt hsmall, or_shiftLeft hvalue, if_pos hraw]
  | succ n ih =>
    by_cases hsmall : m < 128
    · rw [encode_varuint_of_lt hsmall] at hraw ⊢
      rw [List.singleton_append, decode_varuint_loop_cons, Leb128.toNat_last hsmall, if_pos hsmall,
        Nat.mod_eq_of_lt hsmall, or_shiftLeft hvalue, if_pos hraw]
    · have hle : 128 ≤ m := Nat.le_of_not_lt hsmall
      have hmod : (m % 128 + 128) % 128 = m % 128 := by omega
      have hsplit : value + m % 128 * 2 ^ shift + m / 128 * 2 ^ (shift + 7) = value + m * 2 ^ shift := by
        have hdiv : m * 2 ^ shift = (m % 128 + 128 * (m / 128)) * 2 ^ shift := by
          rw [Nat.mod_add_div]
        rw [hdiv, pow_add]
        ring
      have hlt : value + m % 128 * 2 ^ shift < 2 ^ (shift + 7) := by
        have hdigit : m % 128 + 1 ≤ 128 := Nat.mod_lt _ (by decide)
        calc value + m % 128 * 2 ^ shift < 2 ^ shift + m % 128 * 2 ^ shift := by omega
          _ = (m % 128 + 1) * 2 ^ shift := by ring
          _ ≤ 128 * 2 ^ shift := Nat.mul_le_mul_right _ hdigit
          _ = 2 ^ (shift + 7) := by rw [pow_add]; ring
      have hrest := @ih (raw ++ [UInt8.ofNat (m % 128 + 128)]) (m / 128) (shift + 7)
        (value + m % 128 * 2 ^ shift) hlt
        (Nat.div_lt_of_lt_mul (by rwa [← pow_succ']))
      rw [encode_varuint_of_le hle] at hraw ⊢
      rw [List.cons_append, decode_varuint_loop_cons, Leb128.toNat_digit, if_neg (by omega), hmod,
        or_shiftLeft hvalue]
      rw [hsplit, hraw, List.append_assoc] at hrest
      exact hrest rfl

theorem decode_varuint_encode (h : m < 128 ^ 10) :
    decode_varuint (encode_varuint m ++ s) = .ok m s := by
  have hloop := @decode_varuint_loop_encode s [] m 9 0 0 (by decide) h (by simp)
  rwa [pow_zero, Nat.mul_one, Nat.zero_add] at hloop

/-- Too many digits. -/
theorem decode_varuint_loop_large (h : 128 ^ n ≤ m) :
    ∃ s', decode_varuint_loop n shift value raw (encode_varuint m ++ s) = .error .ContainerError s' := by
  induction n generalizing m shift value raw with
  | zero => exact ⟨_, rfl⟩
  | succ n ih =>
    have hle : 128 ≤ m := le_trans (Nat.le_self_pow (Nat.succ_ne_zero n) 128) h
    have hrest := @ih (raw ++ [UInt8.ofNat (m % 128 + 128)]) (m / 128) (shift + 7)
      (value ||| (m % 128) <<< shift) ((Nat.le_div_iff_mul_le (by decide)).mpr (by rwa [← pow_succ]))
    rw [encode_varuint_of_le hle, List.cons_append, decode_varuint_loop_cons, Leb128.toNat_digit,
      if_neg (by omega), show (m % 128 + 128) % 128 = m % 128 by omega]
    exact hrest

theorem decode_varuint_large (h : 128 ^ 10 ≤ m) :
    ∃ s', decode_varuint (encode_varuint m ++ s) = .error .ContainerError s' :=
  decode_varuint_loop_large h

theorem decode_varuint_loop_ok (h : decode_varuint_loop n shift value raw s = .ok m s') :
    ∃ read, s = read ++ s' ∧ encode_varuint m = raw ++ read := by
  induction n generalizing shift value raw s with
  | zero => cases h
  | succ n ih =>
    cases s with
    | nil => cases h
    | cons b rest =>
      rw [decode_varuint_loop_cons] at h
      split_ifs at h with hb henc
      · obtain ⟨rfl, rfl⟩ := EStateM.Result.ok.inj h
        exact ⟨[b], rfl, henc⟩
      · obtain ⟨read, rfl, hread⟩ := ih h
        exact ⟨b :: read, rfl, by rw [hread, List.append_assoc, List.singleton_append]⟩

/-- A number is read from its digits only. -/
theorem decode_varuint_ok (h : decode_varuint s = .ok m s') : s = encode_varuint m ++ s' := by
  obtain ⟨read, rfl, hread⟩ := decode_varuint_loop_ok h
  rw [hread, List.nil_append]

theorem decode_varuint_lt (h : decode_varuint s = .ok m s') : m < 2 ^ 70 := by
  by_contra hlarge
  obtain ⟨s'', herror⟩ := @decode_varuint_large s' m (by omega)
  rw [decode_varuint_ok h, herror] at h
  cases h

/-- The numbers below `2 ^ 70` are read back from their digits, and nothing else is read; no number's
digits continue those of another one. -/
theorem varuint_exact (n : ℕ) (s : Bytes) :
    (∀ read, decode_varuint (read ++ s) = .ok n s ↔ n < 2 ^ 70 ∧ read = encode_varuint n) ∧
      (∀ data, decode_varuint data = .ok n s → ∃ read, data = read ++ s) ∧
      ∀ m, encode_varuint m <+: encode_varuint n → m = n := by
  refine ⟨fun read => ⟨fun h => ⟨decode_varuint_lt h, ?_⟩, ?_⟩, fun data h => ?_, fun m h => ?_⟩
  · exact List.append_cancel_right (decode_varuint_ok h)
  · rintro ⟨hlt, rfl⟩
    exact decode_varuint_encode (by omega)
  · exact ⟨encode_varuint n, decode_varuint_ok h⟩
  · exact Leb128.encode_prefix_eq h

/-- A zero byte that a number does not need is refused. -/
theorem varuint_exact_zero : decode_varuint (encode_varuint 0 ++ []) = .ok 0 [] ∧
    decode_varuint [0x80, 0] ≠ .ok 0 [] := by
  refine ⟨((varuint_exact 0 []).1 _).mpr ⟨by norm_num, rfl⟩, fun h => ?_⟩
  exact absurd (((varuint_exact 0 []).1 [0x80, 0]).mp h).2 (by decide)

end Varuint

/-! ## Descriptors -/

section Descriptors

variable {s s' : Bytes} {transform : Transform} {basis : Basis} {bitmask : Bool} {param found : ℕ}
  {plan : ChunkPlan} {record : Record} {header : Header} {start_byte delta : UInt8} {count fuel : ℕ}
  {records : List Record}

theorem encode_descriptor_ne : encode_descriptor transform basis bitmask ≠ BOGPK_DESCRIPTOR_SENTINEL := by
  cases transform <;> cases basis <;> cases bitmask <;> decide

theorem transform_of_descriptor :
    TRANSFORM_ORDER[(encode_descriptor transform basis bitmask).toNat >>> 5]? = some transform := by
  cases transform <;> cases basis <;> cases bitmask <;> decide

theorem basis_of_descriptor :
    BASIS_ORDER[((encode_descriptor transform basis bitmask).toNat >>> 1) % 16]? = some basis := by
  cases transform <;> cases basis <;> cases bitmask <;> decide

theorem bitmask_of_descriptor :
    (encode_descriptor transform basis bitmask).toNat.testBit 0 = bitmask := by
  cases transform <;> cases basis <;> cases bitmask <;> decide

theorem descriptor_transform_encode :
    descriptor_transform (encode_descriptor transform basis bitmask) = pure transform := by
  unfold descriptor_transform
  rw [transform_of_descriptor]

theorem decode_descriptor_encode :
    decode_descriptor (encode_descriptor transform basis bitmask) start_byte delta param count s =
      .ok ⟨transform, basis, start_byte, delta, param, count, bitmask⟩ s := by
  unfold decode_descriptor
  rw [descriptor_transform_encode, bind_of_ok pure_apply, basis_of_descriptor, bitmask_of_descriptor]
  rfl

/-- The numbers of a record can be read. -/
structure ChunkPlan.Readable (plan : ChunkPlan) : Prop where
  transform_param : if plan.transform.is_bwt then plan.transform_param < 128 ^ 10
    else plan.transform_param = 0
  residual_count : plan.residuals.length < 128 ^ 10

theorem read_transform_param_bytes (h : plan.Readable) :
    read_transform_param (encode_descriptor plan.transform basis bitmask)
      (transform_param_bytes plan.transform plan.transform_param ++ s) = .ok plan.transform_param s := by
  have hparam := h.transform_param
  unfold read_transform_param transform_param_bytes
  rw [descriptor_transform_encode, bind_of_ok pure_apply]
  by_cases hbwt : plan.transform.is_bwt = true
  · rw [if_pos hbwt] at hparam ⊢
    rw [if_pos hbwt]
    exact decode_varuint_encode hparam
  · rw [if_neg hbwt] at hparam ⊢
    rw [if_neg hbwt, hparam]
    rfl

theorem read_record_bytes (hlegal : record.Legal header.runs)
    (hplans : ∀ plan ∈ record.plans, plan.Readable) (hcount : header.chunk_count < 128 ^ 10)
    (hfound : found + record.plans.length ≤ header.chunk_count) :
    read_record header found (record.bytes ++ s) = .ok (record.plans.map ChunkPlan.descriptor) s := by
  cases record with
  | chunk plan =>
    have hplan : plan.Readable := hplans plan (List.mem_singleton.mpr rfl)
    unfold read_record
    rw [Record.bytes, ChunkPlan.head, List.append_assoc, List.cons_append, List.cons_append, List.cons_append,
      bind_of_ok read_byte_cons, if_neg encode_descriptor_ne, bind_of_ok read_byte_cons,
      bind_of_ok read_byte_cons, bind_of_ok (read_transform_param_bytes hplan),
      bind_of_ok (decode_varuint_encode hplan.residual_count), bind_of_ok decode_descriptor_encode]
    rfl
  | run run_length plan =>
    obtain ⟨hruns, hrun, hempty⟩ := hlegal
    have hplan : plan.Readable := hplans plan (List.mem_replicate.mpr ⟨by omega, rfl⟩)
    have hfound' : found + run_length ≤ header.chunk_count := by
      simpa [Record.plans] using hfound
    have hsmall : run_length < 128 ^ 10 := by omega
    have hexpect {c : Prop} [Decidable c] (hc : c) {s : Bytes} : expect c s = .ok () s :=
      expect_eq_ok.mpr ⟨hc, rfl⟩
    unfold read_record
    rw [Record.bytes, ChunkPlan.head, List.cons_append, List.cons_append, bind_of_ok read_byte_cons,
      if_pos rfl,
      bind_of_ok (hexpect hruns), List.append_assoc, bind_of_ok (decode_varuint_encode hsmall),
      bind_of_ok (hexpect hrun), List.cons_append, List.cons_append, List.cons_append,
      bind_of_ok read_byte_cons, bind_of_ok read_byte_cons, bind_of_ok read_byte_cons,
      bind_of_ok (read_transform_param_bytes hplan), bind_of_ok (hexpect hfound'),
      bind_of_ok decode_descriptor_encode, Record.plans, List.map_replicate, ChunkPlan.descriptor, hempty]
    rfl

theorem length_plans_pos {runs : Bool} (h : record.Legal runs) : 0 < record.plans.length := by
  cases record with
  | chunk plan => exact Nat.one_pos
  | run run_length plan =>
    rw [Record.plans, List.length_replicate]
    have hrun := h.2.1
    omega

/-- The loop reads the records. -/
theorem read_descriptors_bytes (hlegal : ∀ record ∈ records, record.Legal header.runs)
    (hplans : ∀ plan ∈ records.flatMap Record.plans, plan.Readable)
    (hcount : header.chunk_count < 128 ^ 10)
    (hfound : found + (records.flatMap Record.plans).length = header.chunk_count)
    (hfuel : (records.flatMap Record.plans).length ≤ fuel) :
    read_descriptors header fuel found (records.flatMap Record.bytes ++ s) =
      .ok ((records.flatMap Record.plans).map ChunkPlan.descriptor) s := by
  induction records generalizing found fuel with
  | nil =>
    rw [List.flatMap_nil, List.length_nil, Nat.add_zero] at hfound
    cases fuel with
    | zero => rfl
    | succ fuel =>
      rw [read_descriptors, if_pos hfound.ge]
      rfl
  | cons record rest ih =>
    obtain ⟨hrecord, hrest⟩ := List.forall_mem_cons.mp hlegal
    have hpos := length_plans_pos hrecord
    rw [List.flatMap_cons, List.length_append] at hfound hfuel
    rw [List.flatMap_cons, List.forall_mem_append] at hplans
    obtain ⟨fuel, rfl⟩ := Nat.exists_eq_add_of_lt (Nat.lt_of_lt_of_le hpos (le_trans
      (Nat.le_add_right _ _) hfuel))
    rw [Nat.zero_add] at hfuel ⊢
    rw [read_descriptors, if_neg (by omega), List.flatMap_cons, List.append_assoc,
      bind_of_ok (read_record_bytes hrecord hplans.1 hcount (by omega)), List.length_map,
      bind_of_ok (ih hrest hplans.2 (by omega) (by omega)), List.flatMap_cons, List.map_append]
    rfl

end Descriptors

/-! ## Residuals -/

section Residuals

variable {s s' mask : Bytes} {length n offset next : ℕ} {previous : Option ℕ} {residuals patches : List Patch}
  {offsets : List ℕ} {descriptor : Descriptor} {plan : ChunkPlan}

/-- There is room for the offsets. -/
theorem length_of_rising (h : Rising length next residuals) (hnext : next ≤ length) :
    next + residuals.length ≤ length := by
  induction residuals generalizing next with
  | nil => exact hnext
  | cons patch rest ih =>
    obtain ⟨hle, hlt, hrest⟩ := h
    have hroom := ih hrest hlt
    rw [List.length_cons]
    omega

theorem delta_residuals_none {patch : Patch} {rest : List Patch} :
    delta_residuals none (patch :: rest) =
      encode_varuint patch.offset ++ patch.byte :: delta_residuals (some patch.offset) rest := rfl

theorem delta_residuals_some {patch : Patch} {rest : List Patch} :
    delta_residuals (some offset) (patch :: rest) = encode_varuint (patch.offset - offset - 1) ++
      patch.byte :: delta_residuals (some patch.offset) rest := rfl

theorem read_residuals_loop_bytes (h : Rising length (next_offset previous) residuals)
    (hlength : length ≤ 128 ^ 10) :
    read_residuals_loop length residuals.length previous (delta_residuals previous residuals ++ s) =
      .ok residuals s := by
  induction residuals generalizing previous with
  | nil => rfl
  | cons patch rest ih =>
    obtain ⟨hle, hlt, hrest⟩ := h
    have hexpect {c : Prop} [Decidable c] (hc : c) {s : Bytes} : expect c s = .ok () s :=
      expect_eq_ok.mpr ⟨hc, rfl⟩
    have hloop := @ih (some patch.offset) hrest
    rw [List.length_cons, read_residuals_loop]
    cases previous with
    | none =>
      rw [delta_residuals_none, List.append_assoc, bind_of_ok (decode_varuint_encode (Nat.lt_of_lt_of_le hlt hlength)), bind_of_ok (hexpect hlt),
        List.cons_append, bind_of_ok read_byte_cons, bind_of_ok hloop]
      rfl
    | some offset =>
      have hoffset : offset + 1 + (patch.offset - offset - 1) = patch.offset := by
        simp only [next_offset] at hle
        omega
      rw [delta_residuals_some, List.append_assoc, bind_of_ok (decode_varuint_encode (by omega))]
      simp only [hoffset]
      rw [bind_of_ok (hexpect (by rwa [hoffset])), List.cons_append, bind_of_ok read_byte_cons, bind_of_ok hloop]
      rfl

theorem read_patches_bytes :
    read_patches (residuals.map Patch.offset) (residuals.map Patch.byte ++ s) = .ok residuals s := by
  induction residuals with
  | nil => rfl
  | cons patch rest ih =>
    rw [List.map_cons, List.map_cons, read_patches, List.cons_append, bind_of_ok read_byte_cons,
      bind_of_ok ih]
    rfl

/-! ### The mask -/

@[simp] theorem length_mark : (mark mask offset).length = mask.length := List.length_modify ..

theorem length_foldl_mark : (offsets.foldl mark mask).length = mask.length := by
  induction offsets generalizing mask with
  | nil => rfl
  | cons offset rest ih => rw [List.foldl_cons, ih, length_mark]

theorem toNat_or_bit {b : UInt8} {i : ℕ} (h : i < 8) :
    (UInt8.ofNat (b.toNat ||| 1 <<< i)).toNat = b.toNat ||| 1 <<< i := by
  have hbit : 1 <<< i < 2 ^ 8 := by
    rw [Nat.shiftLeft_eq, Nat.one_mul]
    exact Nat.pow_lt_pow_right (by decide) h
  rw [UInt8.toNat_ofNat']
  exact Nat.mod_eq_of_lt (Nat.or_lt_two_pow b.toNat_lt hbit)

theorem marked_mark (h : offset / 8 < mask.length) (n : ℕ) :
    marked (mark mask offset) n = (marked mask n || decide (n = offset)) := by
  unfold marked mark
  rw [List.getD_eq_getElem?_getD, List.getD_eq_getElem?_getD]
  by_cases hbyte : offset / 8 = n / 8
  · rw [← hbyte, List.getElem?_modify_eq, List.getElem?_eq_getElem h]
    show (UInt8.ofNat (_ ||| 1 <<< (offset % 8))).toNat.testBit (n % 8) = _
    rw [toNat_or_bit (Nat.mod_lt _ (by decide)), Nat.testBit_or, Nat.one_shiftLeft, Nat.testBit_two_pow]
    congr 1
    exact decide_eq_decide.mpr (by omega)
  · have hne : n ≠ offset := fun heq => hbyte (by rw [heq])
    rw [List.getElem?_modify_ne _ _ hbyte, decide_eq_false hne, Bool.or_false]

theorem marked_foldl_mark (h : ∀ offset ∈ offsets, offset / 8 < mask.length) (n : ℕ) :
    marked (offsets.foldl mark mask) n = (marked mask n || decide (n ∈ offsets)) := by
  induction offsets generalizing mask with
  | nil => rw [List.foldl_nil, decide_eq_false List.not_mem_nil, Bool.or_false]
  | cons offset rest ih =>
    obtain ⟨hoffset, hrest⟩ := List.forall_mem_cons.mp h
    rw [List.foldl_cons, ih (fun o ho => by rw [length_mark]; exact hrest o ho), marked_mark hoffset,
      Bool.or_assoc, ← Bool.decide_or]
    congr 1
    exact decide_eq_decide.mpr List.mem_cons.symm

theorem marked_replicate (n : ℕ) : marked (List.replicate length 0) n = false := by
  unfold marked
  rw [List.getD_eq_getElem?_getD, List.getElem?_replicate]
  split_ifs
  · exact Nat.zero_testBit _
  · exact Nat.zero_testBit _

theorem pairwise_of_rising (h : Rising length next patches) :
    (patches.map Patch.offset).Pairwise (· < ·) ∧
      ∀ offset ∈ patches.map Patch.offset, next ≤ offset ∧ offset < length := by
  induction patches generalizing next with
  | nil => exact ⟨List.Pairwise.nil, nofun⟩
  | cons patch rest ih =>
    obtain ⟨hle, hlt, hrest⟩ := h
    obtain ⟨hpairwise, hbounds⟩ := ih hrest
    refine ⟨List.pairwise_cons.mpr ⟨fun offset hmem => (hbounds offset hmem).1, hpairwise⟩,
      List.forall_mem_cons.mpr ⟨⟨hle, hlt⟩, fun offset hmem => ?_⟩⟩
    have hbound := hbounds offset hmem
    exact ⟨by omega, hbound.2⟩

/-- The mask of the offsets. -/
def offset_mask (length : ℕ) (residuals : List Patch) : Bytes :=
  (residuals.map Patch.offset).foldl mark (List.replicate ((length + 7) / 8) 0)

theorem length_offset_mask : (offset_mask length residuals).length = (length + 7) / 8 := by
  rw [offset_mask, length_foldl_mark, List.length_replicate]

theorem marked_offset_mask (h : Rising length 0 residuals) (n : ℕ) :
    marked (offset_mask length residuals) n = decide (n ∈ residuals.map Patch.offset) := by
  unfold offset_mask
  rw [marked_foldl_mark (fun offset hmem => ?_), marked_replicate, Bool.false_or]
  have hlt := ((pairwise_of_rising h).2 offset hmem).2
  rw [List.length_replicate]
  omega

theorem filter_offset_mask (h : Rising length 0 residuals) :
    (List.range length).filter (marked (offset_mask length residuals)) =
      residuals.map Patch.offset := by
  obtain ⟨hpairwise, hbounds⟩ := pairwise_of_rising h
  have hleft : ((List.range length).filter (marked (offset_mask length residuals))).Pairwise (· < ·) :=
    List.pairwise_lt_range.filter _
  refine List.Perm.eq_of_pairwise (fun a b _ _ hab hba => absurd hab (Nat.lt_asymm hba)) hleft hpairwise ?_
  refine (List.perm_ext_iff_of_nodup (hleft.imp Nat.ne_of_lt) (hpairwise.imp Nat.ne_of_lt)).mpr fun n => ?_
  rw [List.mem_filter, marked_offset_mask h, decide_eq_true_eq, List.mem_range]
  exact ⟨And.right, fun hmem => ⟨(hbounds n hmem).2, hmem⟩⟩

/-- No bit beyond the length. -/
theorem shiftRight_offset_mask (h : Rising length 0 residuals) (hlength : length % 8 ≠ 0) :
    ((offset_mask length residuals).getLastD 0).toNat >>> (length % 8) = 0 := by
  refine Nat.eq_of_testBit_eq fun i => ?_
  rw [Nat.zero_testBit, Nat.testBit_shiftRight]
  by_cases hi : length % 8 + i < 8
  · have hlast : (offset_mask length residuals).getLastD 0 =
        (offset_mask length residuals).getD (length / 8) 0 := by
      rw [List.getLastD_eq_getLast?, List.getLast?_eq_getElem?, List.getD_eq_getElem?_getD,
        length_offset_mask]
      congr 2
      omega
    have hmark := marked_offset_mask h (length / 8 * 8 + (length % 8 + i))
    have hout : length / 8 * 8 + (length % 8 + i) ∉ residuals.map Patch.offset := by
      intro hmem
      have hlt := ((pairwise_of_rising h).2 _ hmem).2
      omega
    rw [decide_eq_false hout, marked, show (length / 8 * 8 + (length % 8 + i)) / 8 = length / 8 by omega,
      show (length / 8 * 8 + (length % 8 + i)) % 8 = length % 8 + i by omega] at hmark
    rw [hlast]
    exact hmark
  · refine Nat.testBit_lt_two_pow (lt_of_lt_of_le (UInt8.toNat_lt _) ?_)
    exact Nat.pow_le_pow_right (by decide) (Nat.le_of_not_lt hi)

theorem read_bitmask_residuals_bytes (h : Rising length 0 residuals) :
    read_bitmask_residuals residuals.length length (bitmask_residuals length residuals ++ s) =
      .ok residuals s := by
  have hexpect {c : Prop} [Decidable c] (hc : c) {s : Bytes} : expect c s = .ok () s :=
    expect_eq_ok.mpr ⟨hc, rfl⟩
  have hroom := length_of_rising h (Nat.zero_le _)
  rw [Nat.zero_add] at hroom
  have hread : read_bytes ((length + 7) / 8) (bitmask_residuals length residuals ++ s) =
      .ok (offset_mask length residuals) (residuals.map Patch.byte ++ s) := by
    have hmask := @length_offset_mask length residuals
    have hbytes : bitmask_residuals length residuals ++ s =
        offset_mask length residuals ++ (residuals.map Patch.byte ++ s) := List.append_assoc _ _ _
    rw [read_bytes_eq_ok, hbytes, ← hmask]
    exact ⟨by rw [List.length_append]; exact Nat.le_add_right _ _, List.take_left.symm,
      List.drop_left.symm⟩
  unfold read_bitmask_residuals
  rw [bind_of_ok (hexpect hroom), bind_of_ok hread, bind_of_ok (hexpect (shiftRight_offset_mask h)),
    filter_offset_mask h, bind_of_ok (hexpect (List.length_map _))]
  exact read_patches_bytes

/-! ### The size of the data -/

/-- The bytes that the decoder takes for the residuals of a chunk. -/
def residual_size (descriptor : Descriptor) (length : ℕ) : ℕ :=
  if descriptor.bitmask then (length + 7) / 8 + descriptor.residual_count
  else 2 * descriptor.residual_count

/-- An offset takes one byte, as a chunk is short. -/
theorem size_read_residuals_loop (hlength : length ≤ 128)
    (h : read_residuals_loop length n previous s = .ok patches s') : s.length = s'.length + 2 * n := by
  induction n generalizing previous s s' patches with
  | zero =>
    obtain ⟨-, rfl⟩ := EStateM.Result.ok.inj h
    rfl
  | succ n ih =>
    obtain ⟨delta, s₁, hdelta, h⟩ := StateExcept.bind_eq_ok.mp h
    obtain ⟨⟨⟩, s₂, hexpect, h⟩ := StateExcept.bind_eq_ok.mp h
    obtain ⟨byte, s₃, hbyte, h⟩ := StateExcept.bind_eq_ok.mp h
    obtain ⟨rest, s₄, hrest, h⟩ := StateExcept.bind_eq_ok.mp h
    obtain ⟨-, rfl⟩ := EStateM.Result.ok.inj h
    obtain ⟨hlt, rfl⟩ := expect_eq_ok.mp hexpect
    have hsmall : delta < 128 := by
      cases previous with
      | none => exact Nat.lt_of_lt_of_le hlt hlength
      | some offset => exact Nat.lt_of_lt_of_le (Nat.lt_of_le_of_lt (Nat.le_add_left _ _) hlt) hlength
    have hs := decode_varuint_ok hdelta
    rw [hs, encode_varuint_of_lt hsmall, read_byte_eq_ok.mp hbyte]
    have hsize := ih hrest
    simp only [List.length_append, List.length_cons, List.length_nil]
    omega

theorem size_read_patches (h : read_patches offsets s = .ok patches s') :
    s.length = s'.length + offsets.length := by
  induction offsets generalizing s s' patches with
  | nil =>
    obtain ⟨-, rfl⟩ := EStateM.Result.ok.inj h
    rfl
  | cons offset rest ih =>
    obtain ⟨byte, s₁, hbyte, h⟩ := StateExcept.bind_eq_ok.mp h
    obtain ⟨patches', s₂, hrest, h⟩ := StateExcept.bind_eq_ok.mp h
    obtain ⟨-, rfl⟩ := EStateM.Result.ok.inj h
    rw [read_byte_eq_ok.mp hbyte, List.length_cons, ih hrest, List.length_cons, Nat.add_assoc]

theorem size_read_bitmask_residuals (h : read_bitmask_residuals n length s = .ok patches s') :
    s.length = s'.length + ((length + 7) / 8 + n) := by
  obtain ⟨⟨⟩, s₁, hroom, h⟩ := StateExcept.bind_eq_ok.mp h
  obtain ⟨mask, s₂, hmask, h⟩ := StateExcept.bind_eq_ok.mp h
  obtain ⟨⟨⟩, s₃, hhigh, h⟩ := StateExcept.bind_eq_ok.mp h
  obtain ⟨⟨⟩, s₄, hcount, h⟩ := StateExcept.bind_eq_ok.mp h
  obtain ⟨-, rfl⟩ := expect_eq_ok.mp hroom
  obtain ⟨hle, -, rfl⟩ := read_bytes_eq_ok.mp hmask
  obtain ⟨-, rfl⟩ := expect_eq_ok.mp hhigh
  obtain ⟨hoffsets, rfl⟩ := expect_eq_ok.mp hcount
  have hsize := size_read_patches h
  rw [List.length_drop, hoffsets] at hsize
  omega

theorem size_chunk_residuals (hlength : length ≤ 128)
    (h : chunk_residuals descriptor length s = .ok patches s') :
    s.length = s'.length + residual_size descriptor length := by
  unfold chunk_residuals at h
  unfold residual_size
  split_ifs at h ⊢
  · exact size_read_bitmask_residuals h
  · obtain ⟨⟨⟩, s₁, hroom, hloop⟩ := StateExcept.bind_eq_ok.mp h
    obtain ⟨-, rfl⟩ := expect_eq_ok.mp hroom
    exact size_read_residuals_loop hlength hloop

theorem length_delta_residuals (h : Rising length (next_offset previous) residuals)
    (hlength : length ≤ 128) : (delta_residuals previous residuals).length = 2 * residuals.length := by
  induction residuals generalizing previous with
  | nil => rfl
  | cons patch rest ih =>
    obtain ⟨hle, hlt, hrest⟩ := h
    have hsize := @ih (some patch.offset) hrest
    have hsmall : patch.offset < 128 := Nat.lt_of_lt_of_le hlt hlength
    cases previous with
    | none =>
      rw [delta_residuals_none, encode_varuint_of_lt hsmall]
      simp only [List.length_append, List.length_cons, List.length_nil, hsize]
      omega
    | some offset =>
      rw [delta_residuals_some, encode_varuint_of_lt (by omega)]
      simp only [List.length_append, List.length_cons, List.length_nil, hsize]
      omega

theorem length_bitmask_residuals :
    (bitmask_residuals length residuals).length = (length + 7) / 8 + residuals.length := by
  have hmask := @length_offset_mask length residuals
  unfold offset_mask at hmask
  rw [bitmask_residuals, List.length_append, hmask, List.length_map]

/-- The data of a chunk has the size that its descriptor says, if the chunk has residuals or if they are
not in a bitmask. -/
theorem length_residual_data (h : plan.Legal length) (hlength : length ≤ 128) :
    (plan.residual_data length).length =
      if plan.residuals = [] then 0 else residual_size plan.descriptor length := by
  unfold ChunkPlan.residual_data residual_size residual_bytes
  split_ifs with hempty hdescriptor hbitmask hbitmask
  · rfl
  · exact length_bitmask_residuals
  · exact absurd hdescriptor hbitmask
  · exact absurd hbitmask hdescriptor
  · exact length_delta_residuals h.rising hlength

/-- The decoder reads the residuals of a chunk, if a chunk without residuals is not in a bitmask. -/
theorem chunk_residuals_bytes (h : plan.Legal length) (hlength : length ≤ 128)
    (hplain : plan.residuals = [] → plan.bitmask = false) :
    chunk_residuals plan.descriptor length (plan.residual_data length ++ s) =
      .ok plan.residuals s := by
  have hroom := length_of_rising h.rising (Nat.zero_le _)
  rw [Nat.zero_add] at hroom
  have hdelta : read_residuals plan.residuals.length length (delta_residuals none plan.residuals ++ s) =
      .ok plan.residuals s := by
    unfold read_residuals
    rw [bind_of_ok (@expect_eq_ok _ _ _ _ ()|>.mpr ⟨hroom, rfl⟩)]
    exact read_residuals_loop_bytes h.rising (by omega)
  unfold chunk_residuals ChunkPlan.residual_data residual_bytes
  show (if plan.bitmask = true then read_bitmask_residuals plan.residuals.length length
    else read_residuals plan.residuals.length length) _ = _
  by_cases hempty : plan.residuals = []
  · rw [hplain hempty, if_pos hempty, if_neg Bool.false_ne_true]
    rw [hempty] at hdelta ⊢
    exact hdelta
  · rw [if_neg hempty]
    split_ifs
    · exact read_bitmask_residuals_bytes h.rising
    · exact hdelta

end Residuals

end Bogbin.Container
