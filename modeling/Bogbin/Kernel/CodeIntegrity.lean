import Bogbin.Kernel.MemoryLaw

/-!
# Isolation and the code of the processes over whole runs

What a slice can reach lies in the slot of its process, whatever was launched before or after it, and
what it or its calls can write of a code slot is its own runtime data.  So the verified code of every
process stays as it was hashed, in every run that launches no application in the shell's own address
space and reads no file through an unchecked pointer.
-/

namespace Bogbin.Kernel

open Buffer Bogbin.Core Bogbin.Core.ProcessTable

/-- A frame of the directories and the tables of the processes. -/
def TableFrame (L : Layout) (frame : ℕ) : Prop :=
  ∃ slot < MAX_PROCESSES, frame = L.page_directory slot / PAGE_SIZE ∨
    frame = L.low_page_table slot / PAGE_SIZE ∨ frame = L.private_page_table slot / PAGE_SIZE

section Frames

variable {L : Layout} {slot slot' : ℕ}

/-- Two slots have different frames in each of the arrays. -/
theorem arrays_apart (hne : slot ≠ slot') :
    (L.code_base slot / 4096 + 16 ≤ L.code_base slot' / 4096 ∨
        L.code_base slot' / 4096 + 16 ≤ L.code_base slot / 4096) ∧
      L.stack_base slot / 4096 ≠ L.stack_base slot' / 4096 ∧
      L.private_test_page slot / 4096 ≠ L.private_test_page slot' / 4096 := by
  have haligned := L.aligned
  unfold Layout.code_base Layout.stack_base Layout.private_test_page PROCESS_CODE_SLOT_SIZE
    PROCESS_STACK_SLOT_SIZE
  refine ⟨by omega, by omega, by omega⟩

theorem ownFrame_apart (hslot : slot < MAX_PROCESSES) (hslot' : slot' < MAX_PROCESSES)
    (hne : slot ≠ slot') {frame : ℕ} (h : OwnFrame L slot frame) : ¬ OwnFrame L slot' frame := by
  obtain ⟨hstack, hprivate, hboth⟩ := @code_apart L slot hslot slot' hslot'
  obtain ⟨hstack', hprivate', hboth'⟩ := @code_apart L slot' hslot' slot hslot
  obtain ⟨hcodes, hstacks, hprivates⟩ := @arrays_apart L slot slot' hne
  intro h'
  rcases h with hcode | rfl | rfl
  · rcases h' with hcode' | rfl | rfl
    · omega
    · exact hstack hcode
    · exact hprivate hcode
  · rcases h' with hcode' | heq | heq
    · exact hstack' hcode'
    · exact hstacks heq
    · exact hboth heq
  · rcases h' with hcode' | heq | heq
    · exact hprivate' hcode'
    · exact hboth' heq.symm
    · exact hprivates heq

theorem ownFrame_not_table (hslot : slot < MAX_PROCESSES) {frame : ℕ} (h : OwnFrame L slot frame) :
    ¬ TableFrame L frame := by
  rintro ⟨other, hother, htable⟩
  have hmax : MAX_PROCESSES = 38 := rfl
  have haligned := L.aligned
  have hapart := L.apart
  simp only [List.pairwise_cons, List.mem_cons, List.not_mem_nil, or_false, forall_eq_or_imp,
    forall_eq] at hapart
  obtain ⟨⟨-, -, hdcode, hdstack, hdprivate⟩, ⟨-, hlcode, hlstack, hlprivate⟩,
    ⟨hpcode, hpstack, hpprivate⟩, -⟩ := hapart
  unfold Layout.page_directory Layout.low_page_table Layout.private_page_table PAGE_SIZE at htable
  rcases h with hcode | rfl | rfl
  · unfold Layout.code_base PROCESS_CODE_SLOT_SIZE at hcode
    clear hdstack hdprivate hlstack hlprivate hpstack hpprivate
    rcases htable with rfl | rfl | rfl
    · omega
    · omega
    · omega
  · unfold Layout.stack_base PROCESS_STACK_SLOT_SIZE at htable
    clear hdcode hdprivate hlcode hlprivate hpcode hpprivate
    rcases htable with heq | heq | heq
    · omega
    · omega
    · omega
  · unfold Layout.private_test_page PROCESS_STACK_SLOT_SIZE at htable
    clear hdcode hdstack hlcode hlstack hpcode hpstack
    rcases htable with heq | heq | heq
    · omega
    · omega
    · omega

/-- A byte of a code slot that a slot's directory lets user code write is runtime data of that slot. -/
theorem writable_is_data {P : Paging} {code_length page offset : ℕ} (hslot : slot < MAX_PROCESSES)
    (hslot' : slot' < MAX_PROCESSES) (hb : Built L P slot code_length)
    (hoffset : offset < PROCESS_CODE_SLOT_SIZE)
    (hpage : P.user_page L (L.page_directory slot) page =
      some (Machine.slot_address L slot' offset / PAGE_SIZE, true)) :
    slot' = slot ∧ 0x7000 ≤ offset ∧ offset < 0x9000 := by
  obtain ⟨hstack, hprivate, -⟩ := @code_apart L slot' hslot' slot hslot
  have hbase : L.code_base slot' % 4096 = 0 := (L.aligned_bases slot').1
  have hsize : offset / 4096 < 16 := by
    unfold PROCESS_CODE_SLOT_SIZE at hoffset
    omega
  have hframe : Machine.slot_address L slot' offset / PAGE_SIZE =
      L.code_base slot' / 4096 + offset / 4096 := by
    unfold Machine.slot_address PAGE_SIZE
    omega
  rw [hframe] at hpage
  rcases (user_page_eq_some hslot hb).mp hpage with ⟨-, -, hat, hwritable⟩ | ⟨-, -, hat, -⟩
  · rcases hwritable.mp rfl with hopens | hdata
    · have hstackpage := (opens_iff.1.mp hopens).2
      exact absurd ⟨by omega, by omega⟩ hstack
    · have hrange := (opens_iff.2.mp hdata).2
      by_cases hne : slot' = slot
      · subst hne
        exact ⟨rfl, by omega, by omega⟩
      · have hcodes := (@arrays_apart L slot' slot hne).1
        omega
  · exact absurd ⟨by omega, by omega⟩ hprivate

end Frames

/-- An address that the kernel accepts for writing is one that the directory lets user code write. -/
theorem page_of_userWritable {L : Layout} {k : KernelState} {code_length : ℕ} {a : UInt32}
    (hb : Built L k.paging (k.active_scheduled_pid - 1) code_length) (h : k.UserWritable a) :
    ∃ frame, k.paging.user_page L (L.page_directory (k.active_scheduled_pid - 1))
        (a.toNat / PAGE_SIZE) = some (frame, true) ∧
      (a.toNat / PAGE_SIZE < PAGE_DIRECTORY_ENTRIES → frame = a.toNat / PAGE_SIZE) := by
  obtain ⟨⟨-, hslot, -⟩, hpresent, huser, hwritable⟩ := h
  have hentries : PAGE_DIRECTORY_ENTRIES = 1024 := rfl
  generalize a.toNat / PAGE_SIZE = page at *
  unfold KernelState.user_table_entry at hpresent huser hwritable
  by_cases hlow : page < PAGE_DIRECTORY_ENTRIES
  · rw [if_pos hlow, hb.low] at huser hwritable
    obtain ⟨-, -, hopen, hwrite⟩ := low_entry_flags L (k.active_scheduled_pid - 1) code_length page
    have hopened := hopen.mp huser
    exact ⟨page, (user_page_eq_some hslot hb).mpr
      (.inl ⟨hlow, hopened, rfl, iff_of_true rfl ((hwrite hopened).mp hwritable)⟩), fun _ => rfl⟩
  · rw [if_neg hlow] at huser
    have hshift : PRIVATE_USER_TEST_BASE >>> 22 = 2 := by decide
    rw [hshift] at huser
    by_cases hdirectory : page >>> 10 = 2
    · rw [if_pos hdirectory, hb.private_page] at huser
      rw [Nat.shiftRight_eq_div_pow] at hdirectory
      have hmod : page &&& 0x3ff = page % 1024 := Nat.and_two_pow_sub_one_eq_mod page 10
      by_cases hindex : page &&& 0x3ff = Paging.private_index (k.active_scheduled_pid - 1)
      · exact ⟨_, (user_page_eq_some hslot hb).mpr (.inr ⟨hdirectory, hmod ▸ hindex, rfl, rfl⟩),
          fun h => absurd h hlow⟩
      · rw [if_neg hindex] at huser
        cases huser
    · rw [if_neg hdirectory] at huser
      cases huser

namespace Machine

variable {m m' : Machine} {pid : ℕ} {L : Layout} {event : Event} {events : List Event}
  {overflow_checks : Bool}

/-- What a slice may change of the code slots is the runtime data of its own. -/
theorem mayWrite_is_data {slot offset : ℕ} (hc : m.Consistent) (hm : Mapped L m)
    (happ : ∀ q, m.phase ≠ .app q) (hchecked : ¬ event.Unchecked) (hslot : slot < MAX_PROCESSES)
    (hoffset : offset < PROCESS_CODE_SLOT_SIZE) (h : MayWrite L m event slot offset) :
    0x7000 ≤ offset ∧ offset < 0x9000 := by
  have hfacts {q : ℕ} (hphase : m.phase = .slice q) : q - 1 < MAX_PROCESSES ∧
      m.kernel.active_scheduled_pid = q ∧ m.kernel.active_cr3 = L.page_directory (q - 1) ∧
      ∃ len, Built L m.paging (q - 1) len := by
    obtain ⟨identity, len, hidentity, hin, hcr3⟩ := hm.slice q hphase
    have hbounds := pos_of_identity hc hidentity
    have hactive := hc.aligned.active
    rw [hphase] at hactive
    exact ⟨by omega, hactive, hcr3, len, hin.built⟩
  rcases h with ⟨q, hq⟩ | hunchecked | ⟨q, page, hq, hpage⟩ | ⟨q, a, hq, hwritable, hpage⟩
  · exact absurd hq (happ q)
  · exact absurd hunchecked hchecked
  · obtain ⟨hq', -, hcr3, len, hb⟩ := hfacts hq
    rw [hcr3] at hpage
    exact (writable_is_data hq' hslot hb hoffset hpage).2
  · obtain ⟨hq', hactive, hcr3, len, hb⟩ := hfacts hq
    rw [← hactive] at hb hq' hcr3
    obtain ⟨frame, huser, hlow⟩ := page_of_userWritable hb hwritable
    have hphysical : m.physical_page L (a.toNat / PAGE_SIZE) = some frame := by
      unfold physical_page
      split_ifs with hpage
      · exact congrArg some (hlow hpage).symm
      · rw [hcr3, huser]
        rfl
    rcases hpage with hnone | hsome
    · rw [hphysical] at hnone
      cases hnone
    · rw [hphysical] at hsome
      obtain rfl := Option.some.inj hsome
      exact (writable_is_data hq' hslot hb hoffset huser).2

/-! ## Isolation -/

/-- In every run from the boot the mappings of a process are marked as private, and its isolation is
enforced, only when its page tables pass the check of the loaders; they do so as long as it is in the
table, whatever is launched later. -/
theorem private_is_verified {entries : Option (List BogFsEntry)} {kernel_cr3 : ℕ}
    {paging_enabled : Bool} {d : Option Disk} {record : ProcessRecord}
    (run : Runs overflow_checks L (boot entries kernel_cr3 paging_enabled d) events m)
    (hget : m.process_table.get pid = some record)
    (hmarked : record.address_space.private_user_mappings = true ∨
      record.address_space.process_isolation_enforced = true) :
    record.execution_memory.code_base = L.code_base (pid - 1) ∧
      m.paging.verify_process_mapping_invariants L (pid - 1) (L.code_base (pid - 1))
        record.execution_memory.code_length (L.stack_base (pid - 1)) (L.page_directory (pid - 1)) =
          true := by
  have hboot := consistent_boot entries kernel_cr3 paging_enabled d
  have hm := mapped_of_runs hboot (mapped_boot (L := L) entries kernel_cr3 paging_enabled d) run
  have hprivate : record.address_space.private_user_mappings = true :=
    hmarked.elim id (hm.sound pid record hget)
  have hidentity : m.process_table.identity_of pid = some record.identity := by
    rw [identity_of, hget]
    rfl
  rcases hm.memory pid record.identity hidentity with ⟨len, hslot⟩ | hnone
  · have hmemory : record.execution_memory = slot_memory L (pid - 1) len := hslot.memory
    rw [hmemory]
    exact ⟨rfl, hslot.verified hprivate⟩
  · have hfalse : record.address_space.private_user_mappings = false := hnone.mappings
    rw [hfalse] at hprivate
    cases hprivate

theorem private_is_verified_spawned : ∃ record, demo_spawned.process_table.get 1 = some record ∧
    demo_spawned.paging.verify_process_mapping_invariants demo_layout 0 (demo_layout.code_base 0)
      record.execution_memory.code_length (demo_layout.stack_base 0) (demo_layout.page_directory 0) =
        true := by
  have hprivate : (demo_spawned.process_table.get 1).map (·.address_space.private_user_mappings) =
      some true := by
    decide +kernel
  obtain ⟨record, hget, hmarked⟩ := Option.map_eq_some_iff.mp hprivate
  exact ⟨record, hget, (private_is_verified demo_spawned_run hget (.inl hmarked)).2⟩

/-! ## The code -/

/-- Nothing that writes to the code slots without a check: no application in the shell's own address
space, and no unchecked call. -/
def Event.Guarded (event : Event) : Prop := event ≠ .run_app ∧ ¬ event.Unchecked

/-- The code in the slot of a process, up to its runtime data, is what its loader has hashed. -/
structure Intact (L : Layout) (m : Machine) : Prop where
  shell : ∀ pid, m.phase ≠ .app pid
  code : ∀ (pid : ℕ) identity, m.process_table.identity_of pid = some identity →
    identity.execution_memory.assigned = true → ∃ image : Image,
      identity.app_hash = some image.app_hash ∧ HashedCode image.app_hash image.code ∧
        identity.execution_memory.code_length = image.code.length ∧
        ∀ offset < image.code.length, offset < 0x7000 ∨ 0x9000 ≤ offset →
          m.process_code_slots (pid - 1) offset = image.code.getD offset 0

theorem Intact.same (h : Intact L m) (hphase : ∀ pid, m'.phase ≠ .app pid)
    (identities : ∀ q, m'.process_table.identity_of q = m.process_table.identity_of q)
    (hslots : ∀ (q : ℕ) identity, m.process_table.identity_of q = some identity →
      ∀ offset < PROCESS_CODE_SLOT_SIZE, offset < 0x7000 ∨ 0x9000 ≤ offset →
        m'.process_code_slots (q - 1) offset = m.process_code_slots (q - 1) offset) : Intact L m' where
  shell := hphase
  code q identity hq hassigned := by
    rw [identities] at hq
    obtain ⟨image, hash, hashed, hlength, hcode⟩ := h.code q identity hq hassigned
    refine ⟨image, hash, hashed, hlength, fun offset hoffset hdata => ?_⟩
    rw [hslots q identity hq offset (hoffset.trans_le image.fits) hdata]
    exact hcode offset hoffset hdata

theorem Intact.adds {record : ProcessRecord} (h : Intact L m) (hc : m.Consistent)
    (adds : Adds m.process_table m'.process_table pid record)
    (memory : (∃ image, Loaded L m m' pid record image) ∨ Unloaded m m' record)
    (hphase : ∀ pid, m'.phase ≠ .app pid) : Intact L m' := by
  refine ⟨hphase, fun q identity hq hassigned => ?_⟩
  rw [identity_of, adds.map] at hq
  split_ifs at hq with hpid
  · obtain rfl := Option.some.inj hq
    subst hpid
    rcases memory with ⟨image, hloaded⟩ | hunloaded
    · refine ⟨image, hloaded.app_hash, hloaded.hashed,
        congrArg ProcessExecutionMemory.code_length hloaded.memory, fun offset hoffset _ => ?_⟩
      rw [hloaded.slots, copy_code, if_pos rfl, List.getD_eq_getElem _ _ hoffset,
        List.getD_eq_getElem _ _ hoffset]
    · have hmemory : record.identity.execution_memory = .unassigned := hunloaded.memory
      rw [hmemory] at hassigned
      cases hassigned
  · have hq' : m.process_table.identity_of q = some identity := hq
    have hne : q - 1 ≠ pid - 1 := by
      have hbounds := pos_of_identity hc hq'
      have hpid' := adds.bounds
      omega
    obtain ⟨image, hash, hashed, hlength, hcode⟩ := h.code q identity hq' hassigned
    refine ⟨image, hash, hashed, hlength, fun offset hoffset hdata => ?_⟩
    rw [← hcode offset hoffset hdata]
    rcases memory with ⟨image', hloaded⟩ | hunloaded
    · rw [hloaded.slots, copy_code, if_neg hne]
    · rw [hunloaded.same.slots]

theorem intact_of_effect (hc : m.Consistent) (hm : Mapped L m) (h : Intact L m)
    (hguarded : event.Guarded) (effect : Effect L m event m') : Intact L m' := by
  have hshell (hphase : m'.phase = .shell) (q : ℕ) : m'.phase ≠ .app q := by
    rw [hphase]
    exact Phase.noConfusion
  cases effect with
  | queued idle adds state loaded after =>
    exact h.adds hc adds (.inl ⟨_, loaded⟩) (hshell after.phase)
  | refused idle adds state memory after event_eq => exact h.adds hc adds memory (hshell after.phase)
  | entered idle adds state memory after => exact absurd rfl hguarded.1
  | declined idle stays after memory event_eq =>
    exact h.same (hshell after.phase) stays.identities fun q i hq offset _ _ => by rw [memory.slots]
  | selected idle queue moves found saved cr3_ne cr3 after memory =>
    refine h.same (fun q => ?_) moves.identities fun q i hq offset _ _ => by rw [memory.slots]
    rw [after.phase]
    exact Phase.noConfusion
  | stuck idle queue moves found unmapped after memory =>
    exact h.same (hshell after.phase) moves.identities fun q i hq offset _ _ => by rw [memory.slots]
  | empty idle queue stays after memory =>
    exact h.same (hshell after.phase) stays.identities fun q i hq offset _ _ => by rw [memory.slots]
  | user stays after paging cr3 writes event_eq =>
    refine h.same (fun q => after.phase ▸ h.shell q) stays.identities fun q i hq offset hoffset hdata => ?_
    have hbounds := pos_of_identity hc hq
    by_contra hne
    have hrange := mayWrite_is_data hc hm h.shell hguarded.2 (by omega) hoffset
      (writes (q - 1) offset hne)
    omega
  | requeued busy moves valid after memory =>
    exact h.same (hshell after.phase) moves.identities fun q i hq offset _ _ => by rw [memory.slots]
  | ended busy moves settled after memory =>
    exact h.same (hshell after.phase) moves.identities fun q i hq offset _ _ => by rw [memory.slots]

theorem intact_of_runs {entries : Option (List BogFsEntry)} {kernel_cr3 : ℕ} {paging_enabled : Bool}
    {d : Option Disk} (run : Runs overflow_checks L (boot entries kernel_cr3 paging_enabled d) events m)
    (hguarded : ∀ event ∈ events, event.Guarded) : Intact L m := by
  have hboot := consistent_boot entries kernel_cr3 paging_enabled d
  induction run with
  | nil =>
    have hbase (m : Machine) (htable : m.process_table = .new) (hphase : m.phase = .shell) :
        Intact L m := by
      refine ⟨fun q => ?_, fun q identity hq _ => ?_⟩
      · rw [hphase]
        exact Phase.noConfusion
      · rw [identity_of, htable] at hq
        cases hq
    rcases boot_cases entries kernel_cr3 paging_enabled d with heq | ⟨staging, -, heq⟩
    · exact heq ▸ hbase _ rfl rfl
    · exact heq ▸ hbase _ rfl rfl
  | step run step ih =>
    have hc := consistent_of_runs hboot run
    have hm := mapped_of_runs hboot (mapped_boot (L := L) entries kernel_cr3 paging_enabled d) run
    exact intact_of_effect hc hm (ih fun event hevent => hguarded event (List.mem_append_left _ hevent))
      (hguarded _ (List.mem_append_right _ (List.mem_singleton_self _))) (effect_of_step hc step)

/-- The bytes of a code slot that a process was launched with. -/
def code_bytes (m : Machine) (pid code_length : ℕ) : Bytes :=
  (List.range code_length).map (m.process_code_slots (pid - 1))

/-- In every run from the boot without an application in the shell's address space and without unchecked
calls, the code of each launched process whose code ends before its runtime data is still the code that
its loader has hashed, whatever the processes have run. -/
theorem code_stays_verified {entries : Option (List BogFsEntry)} {kernel_cr3 : ℕ}
    {paging_enabled : Bool} {d : Option Disk} {record : ProcessRecord}
    (run : Runs overflow_checks L (boot entries kernel_cr3 paging_enabled d) events m)
    (hguarded : ∀ event ∈ events, event.Guarded)
    (hget : m.process_table.get pid = some record) (hassigned : record.execution_memory.assigned = true)
    (hlength : record.execution_memory.code_length ≤ PROCESS_RUNTIME_DATA_OFFSET) :
    record.app_hash = some (sha256 (m.code_bytes pid record.execution_memory.code_length)) ∨
      record.app_hash =
        some (sha256_standard (m.code_bytes pid record.execution_memory.code_length)) := by
  have hintact := intact_of_runs run hguarded
  have hidentity : m.process_table.identity_of pid = some record.identity := by
    rw [identity_of, hget]
    rfl
  obtain ⟨image, hash, hashed, hcode_length, hcode⟩ := hintact.code pid record.identity hidentity hassigned
  have hlen : record.execution_memory.code_length = image.code.length := hcode_length
  have hoffset : PROCESS_RUNTIME_DATA_OFFSET = 0x7000 := rfl
  have hbytes : m.code_bytes pid record.execution_memory.code_length = image.code := by
    unfold code_bytes
    rw [hlen]
    refine List.ext_getElem (by simp) fun i hi hi' => ?_
    rw [List.getElem_map, List.getElem_range, hcode i hi' (.inl (by omega)), List.getD_eq_getElem _ _ hi']
  rw [hbytes, show record.app_hash = some image.app_hash from hash]
  have hsmall : image.code.length < PROCESS_CODE_SLOT_SIZE := by
    unfold PROCESS_CODE_SLOT_SIZE
    omega
  rcases hashed hsmall with heq | heq
  · exact .inl (congrArg some heq)
  · exact .inr (congrArg some heq)

theorem code_stays_verified_spawned : ∃ record, demo_slice.process_table.get 1 = some record ∧
    (record.app_hash = some (sha256 (demo_slice.code_bytes 1 record.execution_memory.code_length)) ∨
      record.app_hash =
        some (sha256_standard (demo_slice.code_bytes 1 record.execution_memory.code_length))) := by
  obtain ⟨entry, hrun⟩ := demo_slice_run
  have hguarded : ∀ event ∈ [Event.command (some 1), .scheduled (some 1) (some entry)],
      event.Guarded := by
    intro event hevent
    simp only [List.mem_cons, List.not_mem_nil, or_false] at hevent
    rcases hevent with rfl | rfl
    · exact ⟨Event.noConfusion, Event.noConfusion⟩
    · exact ⟨Event.noConfusion, Event.noConfusion⟩
  have hmemory : (demo_slice.process_table.get 1).map (·.execution_memory) =
      some (slot_memory demo_layout 0 1) := by
    decide +kernel
  obtain ⟨record, hget, hrecord⟩ := Option.map_eq_some_iff.mp hmemory
  exact ⟨record, hget, code_stays_verified hrun hguarded hget (by rw [hrecord]; rfl)
    (by rw [hrecord]; decide)⟩

end Machine

end Bogbin.Kernel
