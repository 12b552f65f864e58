import Bogbin.Core.ProcessTable
import Bogbin.Kernel.Machine
import Bogbin.Kernel.PagingProof

/-!
# What the loaders put into a slot

The record of a process whose slot was mapped (`launched_facts`), and the code, the page tables and the
record after each loader.
-/

namespace Bogbin.Kernel

open Buffer Bogbin.Core

/-- The memory of a process in its slot. -/
def slot_memory (L : Layout) (slot_index code_length : ℕ) : ProcessExecutionMemory where
  code_base := L.code_base slot_index
  code_length := code_length
  stack_base := L.stack_base slot_index
  stack_top := L.stack_base slot_index + PROCESS_STACK_SLOT_SIZE
  slot_index := slot_index
  assigned := true

/-- A code that was not cut off has the hash of its loader. -/
def HashedCode (app_hash : Digest) (code : Bytes) : Prop :=
  code.length < PROCESS_CODE_SLOT_SIZE → app_hash = sha256 code ∨ app_hash = sha256_standard code

/-- The mapping check that the loaders make for a slot. -/
def Paging.Verified (P : Paging) (L : Layout) (slot_index code_length cr3 : ℕ) : Prop :=
  P.verify_process_mapping_invariants L slot_index (L.code_base slot_index) code_length
    (L.stack_base slot_index) cr3 = true

/-! ## The record of a new process -/

/-- What the marks of the loaders decide about an address space. -/
structure SpaceFacts (a : AddressSpaceMetadata) (status : AddressSpaceVerificationStatus) (cr3 : ℕ)
    (private_user_mappings : Bool) : Prop where
  status : a.verification_status = status
  cr3 : a.cr3 = cr3
  mappings : a.private_user_mappings = private_user_mappings
  sound : a.process_isolation_enforced = true → a.private_user_mappings = true

section Space

variable {a : AddressSpaceMetadata} {cr3 cr3' : ℕ} {mappings : Bool}

theorem scaffolded_facts (id : ℕ) (memory : ProcessExecutionMemory) :
    SpaceFacts (.scaffolded id memory app_hash) .MetadataVerified 0 false :=
  ⟨rfl, rfl, rfl, fun h => h⟩

theorem identity_facts (app_hash : Digest) (hcr3 : cr3 ≠ 0) (h : SpaceFacts a .MetadataVerified cr3' false) :
    SpaceFacts (a.mark_per_process_identity cr3 app_hash) .PerProcessCr3IdentityMap cr3 false := by
  have hcond : ¬ (cr3 = 0 ∨ (a.verification_status ≠ .MetadataVerified ∧
      a.verification_status ≠ .KernelPagingEnabled)) := by
    rintro (hzero | ⟨hstatus, -⟩)
    · exact hcr3 hzero
    · exact hstatus h.status
  unfold AddressSpaceMetadata.mark_per_process_identity
  rw [if_neg hcond]
  exact ⟨rfl, rfl, h.mappings, Bool.noConfusion⟩

theorem kernel_protected_facts (app_hash : Digest) (hcr3 : cr3 ≠ 0)
    (h : SpaceFacts a .PerProcessCr3IdentityMap cr3' false) :
    SpaceFacts (a.mark_kernel_protected_identity cr3 app_hash) .KernelProtectedProcessIdentity cr3
      false := by
  have hcond : ¬ (cr3 = 0 ∨ a.verification_status ≠ .PerProcessCr3IdentityMap) := by
    rintro (hzero | hstatus)
    · exact hcr3 hzero
    · exact hstatus h.status
  unfold AddressSpaceMetadata.mark_kernel_protected_identity
  rw [if_neg hcond]
  exact ⟨rfl, rfl, rfl, Bool.noConfusion⟩

theorem private_facts (app_hash : Digest) (hcr3 : cr3 ≠ 0)
    (h : SpaceFacts a .KernelProtectedProcessIdentity cr3' false) :
    SpaceFacts (a.mark_private_user_mappings cr3 app_hash) .PrivateUserMappings cr3 true := by
  have hcond : ¬ (cr3 = 0 ∨ a.verification_status ≠ .KernelProtectedProcessIdentity) := by
    rintro (hzero | hstatus)
    · exact hcr3 hzero
    · exact hstatus h.status
  unfold AddressSpaceMetadata.mark_private_user_mappings
  rw [if_neg hcond]
  exact ⟨rfl, rfl, rfl, fun _ => rfl⟩

end Space

/-- The record of a new process after its loader. -/
structure LaunchFacts (record : ProcessRecord) (pid : ℕ) (memory : ProcessExecutionMemory)
    (app_hash : Digest) (cr3 : ℕ) (verified : Bool) : Prop where
  pid : record.pid = pid
  state : record.state = .Verified
  app_hash : record.app_hash = some app_hash
  memory : record.execution_memory = memory
  context : record.context = .empty
  cr3 : record.address_space.cr3 = cr3
  mappings : record.address_space.private_user_mappings = true → verified = true
  sound : record.Sound

namespace LaunchFacts

variable {record : ProcessRecord} {pid : ℕ} {memory : ProcessExecutionMemory} {app_hash : Digest}
  {cr3 cr3' : ℕ} {verified mappings : Bool} {status : AddressSpaceVerificationStatus}

theorem mark (h : LaunchFacts record pid memory app_hash cr3' verified)
    (f : AddressSpaceMetadata → Digest → AddressSpaceMetadata)
    (hf : SpaceFacts (f record.address_space app_hash) status cr3 mappings)
    (hverified : mappings = true → verified = true) :
    LaunchFacts (record.mark_address_space f) pid memory app_hash cr3 verified := by
  unfold ProcessRecord.mark_address_space
  rw [h.app_hash]
  exact ⟨h.pid, h.state, rfl, h.memory, h.context, hf.cr3, fun hm => hverified (hf.mappings ▸ hm),
    hf.sound⟩

theorem kept {record' : ProcessRecord} (h : LaunchFacts record pid memory app_hash cr3 verified)
    (hkept : record.Kept record') (hstate : record'.state = record.state)
    (hcontext : record'.context = record.context) :
    LaunchFacts record' pid memory app_hash cr3 verified where
  pid := hkept.pid.trans h.pid
  state := hstate.trans h.state
  app_hash := (congrArg Identity.app_hash hkept.identity).trans h.app_hash
  memory := (congrArg Identity.execution_memory hkept.identity).trans h.memory
  context := hcontext.trans h.context
  cr3 := (congrArg Identity.cr3 hkept.identity).trans h.cr3
  mappings hm := h.mappings ((congrArg Identity.private_user_mappings hkept.identity).symm.trans hm)
  sound := hkept.sound h.sound

end LaunchFacts

theorem mark_address_space_space {record : ProcessRecord} {app_hash : Digest}
    (h : record.app_hash = some app_hash) (f : AddressSpaceMetadata → Digest → AddressSpaceMetadata) :
    (record.mark_address_space f).address_space = f record.address_space app_hash := by
  unfold ProcessRecord.mark_address_space
  rw [h]

theorem mark_address_space_pid (record : ProcessRecord)
    (f : AddressSpaceMetadata → Digest → AddressSpaceMetadata) :
    (record.mark_address_space f).pid = record.pid := by
  unfold ProcessRecord.mark_address_space
  split
  · rfl
  · rfl

theorem launched_record_pid (record : ProcessRecord) {memory : ProcessExecutionMemory} {image : Image}
    {paging_enabled : Bool} {process_cr3 : ℕ}
    {user_mapped private_test_page_mapped verified isolation_proven : Bool} :
    (launched_record record memory image paging_enabled process_cr3 user_mapped
      private_test_page_mapped verified isolation_proven).pid = record.pid := by
  have hscaffold (r : ProcessRecord) : r.assign_scaffolded_address_space.1.pid = r.pid := by
    unfold ProcessRecord.assign_scaffolded_address_space
    split_ifs
    · rfl
    · split
      · rfl
      · rfl
  have hassign (r : ProcessRecord) : (r.assign_execution_memory memory).1.pid = r.pid := by
    unfold ProcessRecord.assign_execution_memory
    split_ifs
    · rfl
    · rfl
  have hverified (r : ProcessRecord) : (r.mark_verified image.app_hash).1.pid = r.pid := by
    unfold ProcessRecord.mark_verified
    split_ifs
    · rfl
    · rfl
  have hadmitted : (if image.dynamic_loader_admitted then record.mark_dynamic_loader_admitted
      else record).pid = record.pid := by
    split_ifs
    · rfl
    · rfl
  have hbase := (hscaffold _).trans ((hassign _).trans ((hverified _).trans hadmitted))
  unfold launched_record
  dsimp only
  generalize (((if image.dynamic_loader_admitted then record.mark_dynamic_loader_admitted
    else record).mark_verified image.app_hash).1.assign_execution_memory
      memory).1.assign_scaffolded_address_space.1 = r at hbase ⊢
  split_ifs
  · exact (mark_address_space_pid _ _).trans ((mark_address_space_pid _ _).trans
      ((mark_address_space_pid _ _).trans ((mark_address_space_pid _ _).trans hbase)))
  · exact (mark_address_space_pid _ _).trans ((mark_address_space_pid _ _).trans
      ((mark_address_space_pid _ _).trans hbase))
  · exact (mark_address_space_pid _ _).trans ((mark_address_space_pid _ _).trans hbase)
  · exact (mark_address_space_pid _ _).trans hbase
  · exact hbase

/-- The record up to the scaffold of its address space. -/
theorem scaffolded_record (pid : ℕ) (path : Bytes) (image : Image) {memory : ProcessExecutionMemory}
    (hassigned : memory.assigned = true) (verified : Bool) :
    let record := if image.dynamic_loader_admitted then
      (ProcessRecord.new pid path).mark_dynamic_loader_admitted else .new pid path
    let record := (record.mark_verified image.app_hash).1
    let record := (record.assign_execution_memory memory).1.assign_scaffolded_address_space.1
    LaunchFacts record pid memory image.app_hash 0 verified ∧
      SpaceFacts record.address_space .MetadataVerified 0 false := by
  have hassign (r : ProcessRecord) (hr : r.execution_memory.assigned = false) :
      (r.assign_execution_memory memory).1 = { r with execution_memory := memory } := by
    have hcond : memory.assigned = true ∧ !r.execution_memory.assigned := by simp [hassigned, hr]
    unfold ProcessRecord.assign_execution_memory
    rw [if_pos hcond]
  have hscaffold (r : ProcessRecord) (hr : r.execution_memory.assigned = true)
      (hstatus : r.address_space.verification_status = .Unassigned) (hash : r.app_hash = some image.app_hash) :
      r.assign_scaffolded_address_space.1 =
        { r with address_space := .scaffolded r.pid r.execution_memory image.app_hash } := by
    have hcond : ¬ (r.address_space.verification_status ≠ .Unassigned ∨ !r.execution_memory.assigned) := by
      simp [hr, hstatus]
    unfold ProcessRecord.assign_scaffolded_address_space
    rw [if_neg hcond, hash]
  cases image.dynamic_loader_admitted with
  | false =>
    dsimp only [Bool.false_eq_true, if_false]
    rw [hassign _ rfl, hscaffold _ hassigned rfl rfl]
    exact ⟨⟨rfl, rfl, rfl, rfl, rfl, rfl, Bool.noConfusion, fun h => h⟩, scaffolded_facts _ _⟩
  | true =>
    dsimp only [if_true]
    rw [hassign _ rfl, hscaffold _ hassigned rfl rfl]
    exact ⟨⟨rfl, rfl, rfl, rfl, rfl, rfl, Bool.noConfusion, fun h => h⟩, scaffolded_facts _ _⟩

theorem launched_facts {pid : ℕ} {path : Bytes} {image : Image} {memory : ProcessExecutionMemory}
    (hassigned : memory.assigned = true) (paging_enabled : Bool) {process_cr3 : ℕ}
    (hcr3 : process_cr3 ≠ 0) (user_mapped private_test_page_mapped verified isolation_proven : Bool) :
    LaunchFacts
      (launched_record (.new pid path) memory image paging_enabled process_cr3 user_mapped
        private_test_page_mapped verified isolation_proven)
      pid memory image.app_hash (if paging_enabled then process_cr3 else 0) verified := by
  obtain ⟨hrecord, hspace⟩ := scaffolded_record pid path image hassigned verified
  unfold launched_record
  dsimp only at hrecord hspace ⊢
  generalize ((((if image.dynamic_loader_admitted then
    (ProcessRecord.new pid path).mark_dynamic_loader_admitted else .new pid path).mark_verified
      image.app_hash).1.assign_execution_memory memory).1.assign_scaffolded_address_space).1 = record
    at hrecord hspace ⊢
  by_cases hpaging : paging_enabled = true ∧ process_cr3 ≠ 0
  · rw [if_pos hpaging, if_pos hpaging.1]
    have hspace1 := identity_facts image.app_hash hcr3 hspace
    have hrecord1 := hrecord.mark (·.mark_per_process_identity process_cr3 ·) hspace1 Bool.noConfusion
    rw [← mark_address_space_space hrecord.app_hash (·.mark_per_process_identity process_cr3 ·)] at hspace1
    cases user_mapped with
    | false => exact hrecord1
    | true =>
      have hspace2 := kernel_protected_facts image.app_hash hcr3 hspace1
      have hrecord2 := hrecord1.mark (·.mark_kernel_protected_identity process_cr3 ·) hspace2
        Bool.noConfusion
      rw [← mark_address_space_space hrecord1.app_hash (·.mark_kernel_protected_identity process_cr3 ·)]
        at hspace2
      rw [if_pos rfl]
      by_cases hverified : private_test_page_mapped = true ∧ verified = true
      · have hspace3 := private_facts image.app_hash hcr3 hspace2
        have hrecord3 := hrecord2.mark (·.mark_private_user_mappings process_cr3 ·) hspace3
          fun _ => hverified.2
        rw [if_pos hverified]
        cases isolation_proven with
        | false => exact hrecord3
        | true =>
          obtain ⟨hkept, hstate, hcontext⟩ := ProcessRecord.mark_process_isolation_proven_facts
            (((record.mark_per_process_identity process_cr3).mark_kernel_protected_identity
              process_cr3).mark_private_user_mappings process_cr3)
          exact hrecord3.kept hkept hstate hcontext
      · rw [if_neg hverified]
        exact hrecord2
  · have hoff : ¬ paging_enabled = true := fun h => hpaging ⟨h, hcr3⟩
    rw [if_neg hpaging, if_neg hoff]
    exact hrecord

end Bogbin.Kernel
