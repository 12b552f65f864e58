import Bogbin.Core.Process

/-!
# The records of the address spaces

A process record that only its own transitions change is coherent after every sequence of them
(`recorded_coherent`): once an address space is assigned its hash is that of its fields, and a space
that claims to be isolated has private mappings of its own behind a page directory.  What carries the
induction is that the hash of the application is set once, and that private mappings come with a page
directory which no later transition takes away (`Founded`).
-/

namespace Bogbin.Core

/-! ## Transitions -/

/-- The transitions that change an address space or what its hash is made of. -/
inductive AddressSpaceOp
  | mark_verified (app_hash : Digest)
  | assign_execution_memory (memory : ProcessExecutionMemory)
  | assign_scaffolded_address_space
  | mark_global_paging (kernel_cr3 : ℕ)
  | mark_per_process_identity (cr3 : ℕ)
  | mark_kernel_protected_identity (cr3 : ℕ)
  | mark_private_user_mappings (cr3 : ℕ)
  | mark_process_isolation_proven
  | record_page_fault

namespace AddressSpaceOp

def run (r : ProcessRecord) : AddressSpaceOp → ProcessRecord
  | mark_verified app_hash => (r.mark_verified app_hash).1
  | assign_execution_memory memory => (r.assign_execution_memory memory).1
  | assign_scaffolded_address_space => r.assign_scaffolded_address_space.1
  | mark_global_paging kernel_cr3 => r.mark_global_paging kernel_cr3
  | mark_per_process_identity cr3 => r.mark_per_process_identity cr3
  | mark_kernel_protected_identity cr3 => r.mark_kernel_protected_identity cr3
  | mark_private_user_mappings cr3 => r.mark_private_user_mappings cr3
  | mark_process_isolation_proven => r.mark_process_isolation_proven
  | record_page_fault => r.record_page_fault

/-- A fault is recorded only for an address space that is assigned. -/
def Admitted (r : ProcessRecord) : AddressSpaceOp → Prop
  | record_page_fault => r.address_space.verification_status ≠ .Unassigned
  | _ => True

end AddressSpaceOp

/-- The records that the transitions make of a new one. -/
inductive Recorded : ProcessRecord → Prop
  | new (pid : ProcessId) (app_path : Bytes) : Recorded (.new pid app_path)
  | step {r : ProcessRecord} (op : AddressSpaceOp) (h : Recorded r) (hadmitted : op.Admitted r) :
      Recorded (op.run r)

/-- The hash of an assigned address space is that of its fields, and an isolated one is mapped. -/
structure ProcessRecord.Coherent (r : ProcessRecord) : Prop where
  hash : r.address_space.verification_status ≠ .Unassigned → ∃ app_hash, r.app_hash = some app_hash ∧
    r.address_space.address_space_hash = r.address_space.compute_hash app_hash
  isolated : r.address_space.process_isolation_enforced = true →
    r.address_space.private_user_mappings = true ∧
      r.address_space.kernel_protection_enforced = true ∧
      r.address_space.paging_enabled = true ∧ r.address_space.cr3 ≠ 0

/-! ## Address spaces -/

namespace AddressSpaceMetadata

/-- What a mapping rests on. -/
structure Founded (m : AddressSpaceMetadata) : Prop where
  paged : m.private_user_mappings = true → m.paging_enabled = true ∧ m.cr3 ≠ 0
  isolated : m.process_isolation_enforced = true →
    m.private_user_mappings = true ∧ m.kernel_protection_enforced = true

/-- The hash is that of the fields. -/
def Fresh (m : AddressSpaceMetadata) (app_hash : Digest) : Prop :=
  m.address_space_hash = m.compute_hash app_hash

section Marks

variable {m : AddressSpaceMetadata} {memory : ProcessExecutionMemory} {app_hash : Digest} {id cr3 : ℕ}

theorem fresh_rehash (m : AddressSpaceMetadata) (app_hash : Digest) :
    (m.rehash app_hash).Fresh app_hash := rfl

theorem founded_rehash (h : m.Founded) : (m.rehash app_hash).Founded := ⟨h.paged, h.isolated⟩

theorem founded_unassigned : unassigned.Founded := by
  constructor <;> (intro h; cases h)

theorem scaffolded_ok : (scaffolded id memory app_hash).Fresh app_hash ∧
    (scaffolded id memory app_hash).Founded := by
  refine ⟨rfl, ?_, ?_⟩ <;> (intro h; cases h)

/-- A transition of a founded address space leaves it as it is, or gives a founded one with a fresh
hash. -/
def Keeps (m m' : AddressSpaceMetadata) (app_hash : Digest) : Prop :=
  m' = m ∨ m'.Fresh app_hash ∧ m'.Founded

theorem global_paging_keeps (h : m.Founded) :
    Keeps m (m.mark_global_paging cr3 app_hash) app_hash := by
  unfold mark_global_paging
  split_ifs with hrefused
  · exact .inl rfl
  · refine .inr ⟨fresh_rehash _ _, founded_rehash ⟨fun _ => ⟨rfl, ?_⟩, h.isolated⟩⟩
    exact fun hzero => hrefused (.inl hzero)

theorem per_process_identity_keeps :
    Keeps m (m.mark_per_process_identity cr3 app_hash) app_hash := by
  unfold mark_per_process_identity
  split_ifs with hrefused
  · exact .inl rfl
  · refine .inr ⟨fresh_rehash _ _, founded_rehash ⟨fun _ => ⟨rfl, ?_⟩, fun hisolated => ?_⟩⟩
    · exact fun hzero => hrefused (.inl hzero)
    · cases hisolated

theorem kernel_protected_identity_keeps :
    Keeps m (m.mark_kernel_protected_identity cr3 app_hash) app_hash := by
  unfold mark_kernel_protected_identity
  split_ifs with hrefused
  · exact .inl rfl
  · refine .inr ⟨fresh_rehash _ _, founded_rehash ⟨?_, ?_⟩⟩ <;> (intro h; cases h)

theorem private_user_mappings_keeps :
    Keeps m (m.mark_private_user_mappings cr3 app_hash) app_hash := by
  unfold mark_private_user_mappings
  split_ifs with hrefused
  · exact .inl rfl
  · refine .inr ⟨fresh_rehash _ _, founded_rehash ⟨fun _ => ⟨rfl, ?_⟩, fun hisolated => ?_⟩⟩
    · exact fun hzero => hrefused (.inl hzero)
    · cases hisolated

/-- The claim of isolation is made only for private mappings behind a protected kernel. -/
theorem process_isolation_proven_keeps (h : m.Founded) :
    Keeps m (m.mark_process_isolation_proven app_hash) app_hash := by
  unfold mark_process_isolation_proven
  split
  · exact .inl rfl
  · next hrefused =>
    refine .inr ⟨fresh_rehash _ _, founded_rehash ⟨h.paged, fun _ => ?_⟩⟩
    simpa using hrefused

end Marks

end AddressSpaceMetadata

/-! ## Records -/

open AddressSpaceMetadata

/-- What every transition preserves. -/
structure ProcessRecord.Held (r : ProcessRecord) : Prop where
  verified : r.app_hash ≠ none → r.state ≠ .Created
  fresh : r.address_space.verification_status ≠ .Unassigned →
    ∃ app_hash, r.app_hash = some app_hash ∧ r.address_space.Fresh app_hash
  founded : r.address_space.Founded

namespace ProcessRecord.Held

variable {r : ProcessRecord} {app_hash : Digest} {cr3 : ℕ}

theorem coherent (h : r.Held) : r.Coherent where
  hash := h.fresh
  isolated hisolated := by
    obtain ⟨hprivate, hprotected⟩ := h.founded.isolated hisolated
    exact ⟨hprivate, hprotected, h.founded.paged hprivate⟩

theorem new (pid : ProcessId) (app_path : Bytes) : (ProcessRecord.new pid app_path).Held where
  verified hne := absurd rfl hne
  fresh hne := absurd rfl hne
  founded := founded_unassigned

/-- The hash of the application is set once: a verified record is no longer a created one. -/
theorem mark_verified (h : r.Held) (app_hash : Digest) : (r.mark_verified app_hash).1.Held := by
  unfold ProcessRecord.mark_verified
  split_ifs with hstate
  · exact h
  · have hnone : r.app_hash = none := by
      by_contra hne
      exact h.verified hne (not_not.mp hstate)
    refine ⟨fun _ hcreated => ?_, fun hassigned => ?_, h.founded⟩
    · cases hcreated
    · obtain ⟨app_hash, hsome, -⟩ := h.fresh hassigned
      rw [hnone] at hsome
      cases hsome

theorem assign_execution_memory (h : r.Held) (memory : ProcessExecutionMemory) :
    (r.assign_execution_memory memory).1.Held := by
  unfold ProcessRecord.assign_execution_memory
  split_ifs
  · exact ⟨h.verified, h.fresh, h.founded⟩
  · exact h

theorem assign_scaffolded_address_space (h : r.Held) :
    r.assign_scaffolded_address_space.1.Held := by
  unfold ProcessRecord.assign_scaffolded_address_space
  split_ifs
  · exact h
  · split
    · next app_hash happ =>
      have hspace := @scaffolded_ok r.execution_memory app_hash r.pid
      exact ⟨h.verified, fun _ => ⟨app_hash, happ, hspace.1⟩, hspace.2⟩
    · exact h

/-- A transition of the address space that keeps it, or refreshes its hash. -/
theorem mark_address_space (h : r.Held) (mark : AddressSpaceMetadata → Digest → AddressSpaceMetadata)
    (hmark : ∀ app_hash, Keeps r.address_space (mark r.address_space app_hash) app_hash) :
    (r.mark_address_space mark).Held := by
  unfold ProcessRecord.mark_address_space
  split
  · next app_hash happ =>
    rcases hmark app_hash with heq | ⟨hfresh, hfounded⟩
    · rw [heq]
      exact h
    · exact ⟨h.verified, fun _ => ⟨app_hash, happ, hfresh⟩, hfounded⟩
  · exact h

/-- The hash does not cover the status and the count of the faults. -/
theorem record_page_fault (h : r.Held) (hassigned : r.address_space.verification_status ≠ .Unassigned) :
    r.record_page_fault.Held := by
  obtain ⟨app_hash, happ, hfresh⟩ := h.fresh hassigned
  exact ⟨h.verified, fun _ => ⟨app_hash, happ, hfresh⟩, ⟨h.founded.paged, h.founded.isolated⟩⟩

theorem step (h : r.Held) {op : AddressSpaceOp} (hadmitted : op.Admitted r) : (op.run r).Held := by
  cases op with
  | mark_verified app_hash => exact h.mark_verified app_hash
  | assign_execution_memory memory => exact h.assign_execution_memory memory
  | assign_scaffolded_address_space => exact h.assign_scaffolded_address_space
  | mark_global_paging cr3 =>
    exact h.mark_address_space (·.mark_global_paging cr3 ·) fun _ => global_paging_keeps h.founded
  | mark_per_process_identity cr3 =>
    exact h.mark_address_space (·.mark_per_process_identity cr3 ·) fun _ => per_process_identity_keeps
  | mark_kernel_protected_identity cr3 =>
    exact h.mark_address_space (·.mark_kernel_protected_identity cr3 ·) fun _ =>
      kernel_protected_identity_keeps
  | mark_private_user_mappings cr3 =>
    exact h.mark_address_space (·.mark_private_user_mappings cr3 ·) fun _ => private_user_mappings_keeps
  | mark_process_isolation_proven =>
    exact h.mark_address_space (·.mark_process_isolation_proven ·) fun _ =>
      process_isolation_proven_keeps h.founded
  | record_page_fault => exact h.record_page_fault hadmitted

end ProcessRecord.Held

theorem recorded_held {r : ProcessRecord} (h : Recorded r) : r.Held := by
  induction h with
  | new pid app_path => exact .new pid app_path
  | step op _ hadmitted ih => exact ih.step hadmitted

/-- After every sequence of transitions the hash of an assigned address space is fresh, and an
isolated one has private mappings, a protected kernel and a page directory. -/
theorem recorded_coherent {r : ProcessRecord} (h : Recorded r) : r.Coherent :=
  (recorded_held h).coherent

/-- The memory of a first slot. -/
def first_memory : ProcessExecutionMemory := ⟨0x400000, 4096, 0x800000, 0x801000, 0, true⟩

/-- A record whose address space faults before its isolation is proven. -/
def launched : ProcessRecord :=
  [AddressSpaceOp.mark_verified .zero, .assign_execution_memory first_memory,
    .assign_scaffolded_address_space, .mark_global_paging 4096, .mark_per_process_identity 8192,
    .mark_kernel_protected_identity 8192, .mark_private_user_mappings 8192, .record_page_fault,
    .mark_process_isolation_proven].foldl AddressSpaceOp.run (.new 1 (ascii "/apps/a"))

theorem recorded_launched : Recorded launched := by
  have hverified := (Recorded.new 1 (ascii "/apps/a")).step (.mark_verified .zero) trivial
  have hmemory := hverified.step (.assign_execution_memory first_memory) trivial
  have hscaffolded := hmemory.step .assign_scaffolded_address_space trivial
  have hpaged := hscaffolded.step (.mark_global_paging 4096) trivial
  have hidentity := hpaged.step (.mark_per_process_identity 8192) trivial
  have hprotected := hidentity.step (.mark_kernel_protected_identity 8192) trivial
  have hprivate := hprotected.step (.mark_private_user_mappings 8192) trivial
  have hfault := hprivate.step .record_page_fault (by
    unfold AddressSpaceOp.Admitted
    decide)
  exact hfault.step .mark_process_isolation_proven trivial

theorem recorded_coherent_launched : launched.Coherent ∧
    launched.address_space.verification_status = .Faulted ∧
    launched.address_space.process_isolation_enforced = true :=
  ⟨recorded_coherent recorded_launched, by decide, by decide⟩

end Bogbin.Core
