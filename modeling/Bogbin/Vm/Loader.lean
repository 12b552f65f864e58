import Bogbin.Bogvm.JsonReader
import Bogbin.Vm.Declared

/-!
# Loading a program

`load_bogbin` reads the manifest and the instructions of a file.  What the assembler has written is
read back (`load_program`), and its run finds every node and claim that it names.
-/

namespace Bogbin.Vm

open Bogvm JsonReader StateExcept
open Buffer (slice beValue beBytes)

/-- `unpack`, a structure of two bytes and three 16-bit numbers. -/
def Instruction.unpack (data : Bytes) : Except PyError Instruction :=
  if data.length = 8 then
    .ok ⟨beValue (slice data 0 1), beValue (slice data 1 1), beValue (slice data 2 2),
      beValue (slice data 4 2), beValue (slice data 6 2)⟩
  else .error .StructError

/-- The parts of a stream, eight bytes each. -/
def stream_parts (stream : Bytes) : List Bytes :=
  (List.range (stream.length / 8)).map fun i => slice stream (i * 8) 8

/-- `struct.unpack(">I", data)` -/
def unpack_u32 (data : Bytes) : Except PyError ℕ :=
  if data.length = 4 then .ok (beValue data) else .error .StructError

def load_bogbin (float_repr : Text → String) (data : Bytes) :
    Except PyError (Json × List Instruction × String) :=
  if MAGIC.isPrefixOf data = false then .error .VMError
  else do
    let program_hash := hexdigest data
    let offset := MAGIC.length
    let manifest_len ← unpack_u32 (slice data offset 4)
    let offset := offset + 4
    let manifest ← loads_bytes float_repr (slice data offset manifest_len)
    let stream := data.drop (offset + manifest_len)
    if stream.length % 8 ≠ 0 then .error .VMError
    else do
      let instructions ← (stream_parts stream).mapM Instruction.unpack
      .ok (manifest, instructions, program_hash)

/-! ## Instructions -/

section Instructions

variable {instr : Instruction} {part : Bytes}

theorem length_of_pack (h : instr.pack = .ok part) : part.length = 8 := by
  unfold Instruction.pack at h
  split_ifs at h
  obtain rfl := Except.ok.inj h
  simp

theorem unpack_pack (h : instr.pack = .ok part) : Instruction.unpack part = .ok instr := by
  have hlength := length_of_pack h
  unfold Instruction.pack at h
  split_ifs at h with hfits
  obtain ⟨hopcode, hflags, htarget, hsource, hparam⟩ := hfits
  obtain rfl := Except.ok.inj h
  have hone {n : ℕ} (hn : n ≤ 255) : beValue (beBytes 1 n) = n := by
    rw [Buffer.beValue_beBytes, Nat.mod_eq_of_lt (by omega)]
  have htwo {n : ℕ} (hn : n ≤ 65535) : beValue (beBytes 2 n) = n := by
    rw [Buffer.beValue_beBytes, Nat.mod_eq_of_lt (by omega)]
  unfold Instruction.unpack
  rw [if_pos hlength]
  exact congrArg Except.ok (by
    rw [Instruction.mk.injEq]
    exact ⟨hone hopcode, hone hflags, htwo htarget, htwo hsource, htwo hparam⟩)

/-- The parts of the packed instructions are the packed instructions. -/
theorem stream_parts_flatten {parts : List Bytes} (h : ∀ part ∈ parts, part.length = 8) :
    stream_parts parts.flatten = parts := by
  have hlength (parts : List Bytes) (h : ∀ part ∈ parts, part.length = 8) :
      parts.flatten.length = parts.length * 8 := by
    rw [List.length_flatten, List.map_congr_left h, List.map_const', List.sum_replicate, smul_eq_mul]
  unfold stream_parts
  rw [hlength parts h, Nat.mul_div_cancel _ (by decide)]
  induction parts with
  | nil => rfl
  | cons part parts ih =>
    obtain ⟨hpart, hparts⟩ := List.forall_mem_cons.mp h
    rw [List.length_cons, List.range_succ_eq_map, List.map_cons, List.map_map, List.flatten_cons]
    have hfirst : slice (part ++ parts.flatten) (0 * 8) 8 = part := by
      rw [Nat.zero_mul, Buffer.slice_append_left _ _ (by omega), Buffer.slice_eq_self _ (by omega)]
    have hrest : (fun i => slice (part ++ parts.flatten) (i * 8) 8) ∘ Nat.succ =
        fun i => slice parts.flatten (i * 8) 8 := by
      funext i
      rw [Function.comp_apply, Buffer.slice_append_right _ _ (by omega), hpart]
      congr 1
      omega
    rw [hfirst, hrest, ih hparts]

end Instructions

/-! ## Manifests -/

section Manifests

variable {float_repr : Text → String} {items : List (String × Json)}

theorem mem_of_mem_of {field : String × Json} (h : field ∈ Dict.of items) : field ∈ items :=
  mem_of_get_of (Dict.get_of_mem (Dict.sorted_of items) h)

theorem readable_dict (h : ∀ item ∈ items, Readable float_repr item.2) :
    Readable float_repr (.obj (Dict.of items)) :=
  .obj _ (Dict.sorted_of items) fun field hfield => h field (mem_of_mem_of hfield)

theorem readable_nat {n : ℕ} (h : n < 10 ^ 4300) : Readable float_repr (.int n) := by
  refine .int n ?_
  rw [toList_toString_ofNat]
  exact (Nat.length_toDigits_le_iff (by decide) (by decide)).mpr h

theorem readable_id_table {values : List Json} (h : ∀ v ∈ values, Readable float_repr v) :
    Readable float_repr (.obj (id_table values)) := by
  refine readable_dict fun item hitem => ?_
  obtain ⟨entry, hentry, rfl⟩ := List.mem_map.mp hitem
  exact h _ (List.fst_mem_of_mem_zipIdx hentry)

theorem readable_names (names : List Text) :
    Readable float_repr (.obj (id_table (names.map text_json))) := by
  refine readable_id_table fun v hv => ?_
  obtain ⟨name, -, rfl⟩ := List.mem_map.mp hv
  exact .str _

theorem lt_of_le_u16 {n : ℕ} (h : n ≤ 65536) : n < 10 ^ 4300 :=
  h.trans_lt ((by norm_num : 65536 < 10 ^ 5).trans (Nat.pow_lt_pow_right (by decide) (by decide)))

theorem readable_manifest {a : Assembler} (ha : Declares a) (hcount : a.instructions.length < 10 ^ 4300) :
    Readable float_repr (.obj a.manifest) := by
  have hclaims : Readable float_repr
      (.obj (id_table (a.claims.zipIdx.map fun entry => claim_meta entry.2 entry.1))) := by
    refine readable_id_table fun v hv => ?_
    obtain ⟨⟨claim, id⟩, hentry, rfl⟩ := List.mem_map.mp hv
    obtain ⟨hsource, htarget⟩ := ha.claim_nodes claim (List.fst_mem_of_mem_zipIdx hentry)
    have hid : id < a.claims.length := by
      have hlt := List.snd_lt_of_mem_zipIdx hentry
      omega
    have hnodes := ha.nodes_le
    have hle := ha.claims_le
    refine readable_dict fun item hitem => ?_
    simp only [List.mem_cons, List.not_mem_nil, or_false] at hitem
    rcases hitem with rfl | rfl | rfl | rfl
    · exact readable_nat (lt_of_le_u16 (by omega))
    · exact .str _
    · exact readable_nat (lt_of_le_u16 (by omega))
    · exact readable_nat (lt_of_le_u16 (by omega))
  refine readable_dict fun item hitem => ?_
  simp only [List.mem_cons, List.not_mem_nil, or_false] at hitem
  rcases hitem with rfl | rfl | rfl | rfl | rfl | rfl | rfl
  · exact .str _
  · exact readable_nat (lt_of_le_u16 (by decide))
  · exact readable_names _
  · exact hclaims
  · exact readable_names _
  · exact readable_names _
  · exact readable_nat hcount

end Manifests

/-! ## Programs -/

section Programs

variable {float_repr : Text → String} {a : Assembler} {bytes : Bytes}

/-- A program is read back. -/
theorem load_program (ha : Declares a) (h : a.program = .ok bytes) (hsize : bytes.length < 10 ^ 4300) :
    load_bogbin float_repr bytes = .ok (.obj a.manifest, a.instructions, hexdigest bytes) := by
  obtain ⟨parts, hparts, hprogram⟩ := bind_eq_ok.mp h
  split_ifs at hprogram with hlong
  have hbytes := Except.ok.inj hprogram
  have hforall := forall_of_mapM_eq_ok hparts
  have hlength : ∀ part ∈ parts, part.length = 8 := by
    intro part hpart
    obtain ⟨instr, -, hpack⟩ := forall₂_mem hforall part hpart
    exact length_of_pack hpack
  have hsum : parts.flatten.length = parts.length * 8 := by
    rw [List.length_flatten, List.map_congr_left hlength, List.map_const', List.sum_replicate,
      smul_eq_mul]
  have hcount : a.instructions.length < 10 ^ 4300 := by
    rw [← hbytes, List.length_append, hsum, ← hforall.length_eq] at hsize
    omega
  have hmagic : MAGIC.length = 8 := rfl
  have hinitial : MAGIC.isPrefixOf bytes = true := by
    rw [List.isPrefixOf_iff_prefix, ← hbytes, List.append_assoc, List.append_assoc]
    exact List.prefix_append _ _
  have hfield : slice bytes MAGIC.length 4 = beBytes 4 a.manifest_bytes.length := by
    rw [← hbytes, List.append_assoc, List.append_assoc, Buffer.slice_append_right _ _ le_rfl,
      Nat.sub_self, Buffer.slice_append_left _ _ (by rw [Buffer.length_beBytes]),
      Buffer.slice_eq_self _ (by rw [Buffer.length_beBytes])]
  have hmanifest : slice bytes (MAGIC.length + 4) a.manifest_bytes.length = a.manifest_bytes := by
    have hfront : (MAGIC ++ beBytes 4 a.manifest_bytes.length).length = MAGIC.length + 4 := by
      rw [List.length_append, Buffer.length_beBytes]
    rw [← hbytes, List.append_assoc, Buffer.slice_append_right _ _ hfront.le, hfront, Nat.sub_self,
      Buffer.slice_append_left _ _ (by rw [Nat.zero_add]), Buffer.slice_eq_self _ le_rfl]
  have hstream : bytes.drop (MAGIC.length + 4 + a.manifest_bytes.length) = parts.flatten := by
    have hfront : (MAGIC ++ beBytes 4 a.manifest_bytes.length ++ a.manifest_bytes).length =
        MAGIC.length + 4 + a.manifest_bytes.length := by
      rw [List.length_append, List.length_append, Buffer.length_beBytes]
    rw [← hbytes, ← hfront, List.drop_left]
  have hunpack : parts.mapM Instruction.unpack = .ok a.instructions :=
    mapM_eq_ok (hforall.flip.imp fun _ _ => unpack_pack)
  have hlong' : a.manifest_bytes.length < 256 ^ 4 := by omega
  unfold load_bogbin
  rw [if_neg (by rw [hinitial]; exact Bool.noConfusion)]
  dsimp only
  rw [hfield, unpack_u32, if_pos (Buffer.length_beBytes _ _), Buffer.beValue_beBytes,
    Nat.mod_eq_of_lt hlong', ok_bind, hmanifest, Assembler.manifest_bytes,
    loads_canonical_bytes (readable_manifest ha hcount), ok_bind, ← Assembler.manifest_bytes, hstream,
    if_neg (by rw [hsum, Nat.mul_mod_left]; exact not_not_intro rfl), stream_parts_flatten hlength, hunpack]
  rfl

variable {text : Text}

/-- A text that assembles is loaded as the manifest and the instructions of its lines, and every
instruction that a run of them reaches finds what it names: the run gives a receipt, as completed or as
blocked. -/
theorem assembled_receipted (float_repr : Text → String) (h : assemble_text text = .ok bytes)
    (hsize : bytes.length < 10 ^ 4300) :
    ∃ a, parse_lines (splitlines text) .new = .ok () a ∧
      load_bogbin float_repr bytes = .ok (.obj a.manifest, a.instructions, hexdigest bytes) ∧
      ∃ receipt code, run_with_block_receipt a.manifest (hexdigest bytes) a.instructions =
          .ok (receipt, code) ∧ HasStatus receipt code := by
  unfold assemble_text at h
  split at h
  · rename_i a hparse
    have ha := parse_lines_declares declares_new _ _ hparse
    refine ⟨a, hparse, load_program ha h hsize, ?_⟩
    exact (block_receipt_iff (tables_manifest a) (hexdigest bytes)).mpr (allGuarded_of_ordered ha.ordered)
  · cases h

/-- A claim that is verified. -/
def claim_text : Text := "CREATE_NODE a\nCREATE_CLAIM c a a\nVERIFY c\nHALT\n".toList

theorem assembled_receipted_claim : ∃ (bytes : Bytes) (a : Assembler),
    assemble_text claim_text = .ok bytes ∧ parse_lines (splitlines claim_text) .new = .ok () a ∧
      load_bogbin String.ofList bytes = .ok (.obj a.manifest, a.instructions, hexdigest bytes) ∧
      ∃ receipt code, run_with_block_receipt a.manifest (hexdigest bytes) a.instructions =
          .ok (receipt, code) ∧ HasStatus receipt code := by
  have hshort : (assemble_text claim_text).toOption.any (·.length < 1000) = true := by decide +kernel
  cases hassemble : assemble_text claim_text with
  | error e =>
    rw [hassemble] at hshort
    cases hshort
  | ok bytes =>
    rw [hassemble] at hshort
    have hlt : bytes.length < 1000 := of_decide_eq_true hshort
    have hsize : bytes.length < 10 ^ 4300 := hlt.trans (Nat.pow_lt_pow_right (by decide) (by decide) :
      10 ^ 3 < 10 ^ 4300)
    obtain ⟨a, hparse, hload, hreceipt⟩ := assembled_receipted String.ofList hassemble hsize
    exact ⟨bytes, a, rfl, hparse, hload, hreceipt⟩

end Programs

end Bogbin.Vm
