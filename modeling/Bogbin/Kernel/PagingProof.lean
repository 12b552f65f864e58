import Bogbin.Kernel.Paging

/-!
# What the page tables of a process map

`Built` says what the loaders leave in the tables of a slot: which low pages are open to user code
and writable, and where the private page is.  User code reaches only these pages (`user_page_eq`),
all of them in the slot's own arrays.
-/

namespace Bogbin.Kernel

open Buffer Bogbin.Core

/-! ## Entries -/

theorem or_and_low (b c : ℕ) {g : ℕ} (hg : g < 4096) : (b * 4096 ||| c) &&& g = c &&& g := by
  apply Nat.eq_of_testBit_eq
  intro i
  rw [Nat.testBit_and, Nat.testBit_or, Nat.testBit_and]
  by_cases hi : i < 12
  · have hzero : (b * 4096).testBit i = false := by
      rw [show b * 4096 = b <<< 12 from (Nat.shiftLeft_eq b 12).symm, Nat.testBit_shiftLeft]
      simp [show ¬ 12 ≤ i by omega]
    rw [hzero, Bool.false_or]
  · have hlt : g < 2 ^ i := lt_of_lt_of_le hg (Nat.pow_le_pow_right (by norm_num : 0 < 2)
      (by omega : 12 ≤ i))
    rw [Nat.testBit_lt_two_pow hlt, Bool.and_false, Bool.and_false]

/-- The flags of an entry for a page-aligned address. -/
theorem has_flag_or (b c : ℕ) {g : ℕ} (hg : g < 4096) :
    has_flag (b * 4096 ||| c) g = has_flag c g := by
  unfold has_flag
  rw [or_and_low b c hg]

theorem or_shiftRight (b : ℕ) {c : ℕ} (hc : c < 4096) : (b * 4096 ||| c) >>> 12 = b := by
  rw [Nat.shiftRight_or_distrib, Nat.shiftRight_eq_div_pow, Nat.shiftRight_eq_div_pow,
    Nat.mul_div_cancel b (by norm_num), Nat.div_eq_of_lt hc, Nat.or_zero]

theorem has_flag_clear_user (entry : ℕ) : has_flag (Paging.clear_user entry) PAGE_USER = false := by
  unfold has_flag Paging.clear_user
  rw [Nat.and_assoc, show (2 ^ 32 - 1 - PAGE_USER) &&& PAGE_USER = 0 by decide, Nat.and_zero]
  rfl

/-- An entry for a page-aligned address that is open to user code. -/
theorem user_table_entry {address : ℕ} (h : address % 4096 = 0) :
    address ||| PAGE_PRESENT ||| PAGE_WRITABLE ||| PAGE_USER = address / 4096 * 4096 ||| 7 := by
  rw [Nat.div_mul_cancel (Nat.dvd_of_mod_eq_zero h), Nat.or_assoc, Nat.or_assoc]
  rfl

theorem low_user_entry_eq (page : ℕ) (writable : Bool) :
    Paging.low_user_entry page writable = page * 4096 ||| if writable then 7 else 5 := by
  unfold Paging.low_user_entry
  rw [Nat.shiftLeft_eq, Nat.or_assoc, Nat.or_assoc]
  cases writable <;> rfl

theorem low_kernel_entry_eq (page : ℕ) :
    page <<< 12 ||| PAGE_PRESENT ||| PAGE_WRITABLE = page * 4096 ||| 3 := by
  rw [Nat.shiftLeft_eq, Nat.or_assoc]
  rfl

/-! ## Ranges -/

theorem page_in_range_iff {page base byte_length : ℕ} :
    page_in_range page base byte_length = true ↔
      byte_length ≠ 0 ∧ base / 4096 ≤ page ∧ page ≤ (base + (byte_length - 1)) / 4096 := by
  unfold page_in_range PAGE_SIZE
  split_ifs with h
  · simp [h]
  · rw [decide_eq_true_iff, Nat.add_sub_assoc (Nat.one_le_iff_ne_zero.mpr h)]
    exact (and_iff_right h).symm

/-- The range ends in the low 4 MiB. -/
def LowRange (base byte_length : ℕ) : Prop := (base + (byte_length - 1)) / 4096 < 1024

instance (base byte_length : ℕ) : Decidable (LowRange base byte_length) :=
  inferInstanceAs (Decidable (_ < _))

/-- The pages that a call of `map_low_user_range` opens. -/
def Opens (page base byte_length : ℕ) : Prop :=
  LowRange base byte_length ∧ page_in_range page base byte_length = true

instance (page base byte_length : ℕ) : Decidable (Opens page base byte_length) :=
  inferInstanceAs (Decidable (_ ∧ _))

namespace Paging

variable {L : Layout} {P : Paging}

theorem map_low_user_range_eq {slot base byte_length : ℕ} (writable : Bool)
    (hslot : slot < MAX_PROCESSES) :
    (P.map_low_user_range slot base byte_length writable).1 = { P with
      low_page_tables := Function.update P.low_page_tables slot fun page =>
        if Opens page base byte_length then low_user_entry page writable
        else P.low_page_tables slot page } := by
  unfold map_low_user_range
  by_cases hzero : byte_length = 0
  · have hnot (page : ℕ) : ¬ Opens page base byte_length := fun h =>
      (page_in_range_iff.mp h.2).1 hzero
    rw [if_pos (.inr hzero)]
    simp only [hnot, if_false, Function.update_eq_self]
  · rw [if_neg (by omega)]
    simp only [show PAGE_SIZE = 4096 from rfl, show PAGE_DIRECTORY_ENTRIES = 1024 from rfl]
    by_cases hlow : LowRange base byte_length
    · rw [if_neg (by unfold LowRange at hlow; omega)]
      have hiff (page : ℕ) : (base / 4096 ≤ page ∧ page ≤ (base + (byte_length - 1)) / 4096) ↔
          Opens page base byte_length := by
        rw [Opens, page_in_range_iff]
        exact ⟨fun h => ⟨hlow, hzero, h⟩, fun h => h.2.2⟩
      simp only [hiff]
    · have hnot (page : ℕ) : ¬ Opens page base byte_length := fun h => hlow h.1
      rw [if_pos (by unfold LowRange at hlow; omega)]
      simp only [hnot, if_false, Function.update_eq_self]

theorem map_low_user_range_snd {slot base byte_length : ℕ} (writable : Bool)
    (hslot : slot < MAX_PROCESSES) :
    (P.map_low_user_range slot base byte_length writable).2 = true ↔
      byte_length ≠ 0 ∧ LowRange base byte_length := by
  unfold map_low_user_range LowRange
  simp only [show PAGE_SIZE = 4096 from rfl, show PAGE_DIRECTORY_ENTRIES = 1024 from rfl]
  split_ifs with h hlow
  · exact iff_of_false (by simp) (by omega)
  · exact iff_of_false (by simp) (by omega)
  · exact iff_of_true rfl (by omega)

end Paging

/-! ## The tables of a process -/

/-- The low table that the loaders leave in a slot. -/
def low_entry (L : Layout) (slot code_length page : ℕ) : ℕ :=
  if Opens page (L.stack_base slot) PROCESS_STACK_SLOT_SIZE ∨
      Opens page (L.code_base slot + PROCESS_RUNTIME_DATA_OFFSET) PROCESS_RUNTIME_DATA_SIZE then
    Paging.low_user_entry page true
  else if Opens page (L.code_base slot) code_length then Paging.low_user_entry page false
  else page <<< 12 ||| PAGE_PRESENT ||| PAGE_WRITABLE

/-- The tables of a slot are as the loaders build them for a code of the given length. -/
structure Built (L : Layout) (P : Paging) (slot code_length : ℕ) : Prop where
  low_directory : P.page_directories slot 0 =
    L.low_page_table slot ||| PAGE_PRESENT ||| PAGE_WRITABLE ||| PAGE_USER
  private_directory : P.page_directories slot 2 =
    L.private_page_table slot ||| PAGE_PRESENT ||| PAGE_WRITABLE ||| PAGE_USER
  other_directory : ∀ index, index ≠ 0 → index ≠ 2 →
    has_flag (P.page_directories slot index) PAGE_USER = false
  low : ∀ page, P.low_page_tables slot page = low_entry L slot code_length page
  private_page : ∀ index, P.private_page_tables slot index =
    if index = Paging.private_index slot then
      L.private_test_page slot ||| PAGE_PRESENT ||| PAGE_WRITABLE ||| PAGE_USER
    else 0

/-- Two pagings with the same tables in a slot. -/
def SameSlot (P P' : Paging) (slot : ℕ) : Prop :=
  P'.page_directories slot = P.page_directories slot ∧
    P'.low_page_tables slot = P.low_page_tables slot ∧
    P'.private_page_tables slot = P.private_page_tables slot

theorem Built.congr {L : Layout} {P P' : Paging} {slot code_length : ℕ}
    (h : Built L P slot code_length) (hsame : SameSlot P P' slot) : Built L P' slot code_length := by
  obtain ⟨hdir, hlow, hpriv⟩ := hsame
  exact ⟨hdir ▸ h.low_directory, hdir ▸ h.private_directory, hdir ▸ h.other_directory,
    hlow ▸ h.low, hpriv ▸ h.private_page⟩

theorem map_process_other (L : Layout) (P : Paging) {slot other : ℕ} (code_length : ℕ)
    (hslot : slot < MAX_PROCESSES) (hne : other ≠ slot) :
    SameSlot P (P.map_process L slot code_length).1 other := by
  unfold Paging.map_process Paging.create_process_page_directory Paging.map_private_test_page
  simp only [if_neg (Nat.not_le.mpr hslot)]
  simp only [Paging.map_low_user_range_eq _ hslot]
  refine ⟨?_, ?_, ?_⟩
  · exact Function.update_of_ne hne ..
  · simp only [Function.update_of_ne hne]
  · simp only [Function.update_of_ne hne]

theorem map_process_built (L : Layout) (P : Paging) {slot : ℕ} (code_length : ℕ)
    (hslot : slot < MAX_PROCESSES) : Built L (P.map_process L slot code_length).1 slot code_length := by
  unfold Paging.map_process Paging.create_process_page_directory Paging.map_private_test_page
  simp only [if_neg (Nat.not_le.mpr hslot)]
  simp only [Paging.map_low_user_range_eq _ hslot]
  have hshift : PRIVATE_USER_TEST_BASE >>> 22 = 2 := by decide
  refine ⟨?_, ?_, ?_, ?_, ?_⟩
  · simp only [Function.update_self, if_true]
  · simp [Function.update_self, hshift]
  · intro index h0 h2
    simp only [Function.update_self, hshift, if_neg h0, if_neg h2]
    exact has_flag_clear_user _
  · intro page
    simp only [Function.update_self, low_entry]
    by_cases hstack : Opens page (L.stack_base slot) PROCESS_STACK_SLOT_SIZE
    · simp [hstack]
    · simp [hstack]
  · intro index
    simp only [Function.update_self]

/-! ## The walk -/

theorem find_range {n slot : ℕ} {f : ℕ → ℕ} (hinj : Function.Injective f) (h : slot < n) :
    ((List.range n).find? fun i => f i = f slot) = some slot := by
  cases hfind : (List.range n).find? fun i => f i = f slot with
  | none =>
    have hnone := List.find?_eq_none.mp hfind slot (List.mem_range.mpr h)
    exact absurd (decide_eq_true rfl) hnone
  | some i =>
    have hi : f i = f slot := by simpa using List.find?_some hfind
    rw [hinj hi]

section Walk

variable {L : Layout} {P : Paging} {slot code_length : ℕ} (hslot : slot < MAX_PROCESSES)

include hslot

theorem directory_at_eq : P.directory_at L (L.page_directory slot) = some (P.page_directories slot) := by
  have hinj : Function.Injective L.page_directory := fun i j h => by
    unfold Layout.page_directory at h
    omega
  rw [Paging.directory_at, find_range hinj hslot]
  rfl

theorem table_at_low : P.table_at L (L.low_page_table slot) = some (P.low_page_tables slot) := by
  have hinj : Function.Injective L.low_page_table := fun i j h => by
    unfold Layout.low_page_table at h
    omega
  rw [Paging.table_at, find_range hinj hslot]
  rfl

theorem table_at_private :
    P.table_at L (L.private_page_table slot) = some (P.private_page_tables slot) := by
  have hinj : Function.Injective L.private_page_table := fun i j h => by
    unfold Layout.private_page_table at h
    omega
  have hapart := L.apart
  have hmax : MAX_PROCESSES = 38 := rfl
  simp only [List.pairwise_cons, List.mem_cons, List.not_mem_nil, or_false, forall_eq_or_imp,
    forall_eq] at hapart
  have hlow : ((List.range MAX_PROCESSES).find? fun i =>
      L.low_page_table i = L.private_page_table slot) = none := by
    refine List.find?_eq_none.mpr fun i hi => ?_
    have hi := List.mem_range.mp hi
    rw [decide_eq_true_iff]
    unfold Layout.low_page_table Layout.private_page_table
    omega
  rw [Paging.table_at, hlow, find_range hinj hslot]
  rfl

end Walk

/-- The pages that user code may write in the low 4 MiB. -/
def WritablePage (L : Layout) (slot page : ℕ) : Prop :=
  Opens page (L.stack_base slot) PROCESS_STACK_SLOT_SIZE ∨
    Opens page (L.code_base slot + PROCESS_RUNTIME_DATA_OFFSET) PROCESS_RUNTIME_DATA_SIZE

instance (L : Layout) (slot page : ℕ) : Decidable (WritablePage L slot page) :=
  inferInstanceAs (Decidable (_ ∨ _))

/-- A page of the low table: its frame and its flags. -/
theorem low_entry_flags (L : Layout) (slot code_length page : ℕ) :
    low_entry L slot code_length page >>> 12 = page ∧
      has_flag (low_entry L slot code_length page) PAGE_PRESENT = true ∧
      (has_flag (low_entry L slot code_length page) PAGE_USER = true ↔
        WritablePage L slot page ∨ Opens page (L.code_base slot) code_length) ∧
      (WritablePage L slot page ∨ Opens page (L.code_base slot) code_length →
        (has_flag (low_entry L slot code_length page) PAGE_WRITABLE = true ↔
          WritablePage L slot page)) := by
  unfold low_entry
  by_cases hwritable : WritablePage L slot page
  · have hw := hwritable
    unfold WritablePage at hw
    rw [if_pos hw, low_user_entry_eq]
    refine ⟨or_shiftRight page (by decide), ?_, ?_, fun _ => ?_⟩
    · rw [has_flag_or page _ (by decide)]
      rfl
    · rw [has_flag_or page _ (by decide)]
      exact iff_of_true rfl (.inl hwritable)
    · rw [has_flag_or page _ (by decide)]
      exact iff_of_true rfl hwritable
  · have hw := hwritable
    unfold WritablePage at hw
    rw [if_neg hw]
    split_ifs with hcode
    · rw [low_user_entry_eq]
      refine ⟨or_shiftRight page (by decide), ?_, ?_, fun _ => ?_⟩
      · rw [has_flag_or page _ (by decide)]
        rfl
      · rw [has_flag_or page _ (by decide)]
        exact iff_of_true rfl (.inr hcode)
      · rw [has_flag_or page _ (by decide)]
        exact iff_of_false (by decide) hwritable
    · rw [low_kernel_entry_eq]
      refine ⟨or_shiftRight page (by decide), ?_, ?_, fun h => absurd h (by tauto)⟩
      · rw [has_flag_or page _ (by decide)]
        rfl
      · rw [has_flag_or page _ (by decide)]
        exact iff_of_false (by decide) (by tauto)

/-- The pages that user code reaches: open low pages, where they are, and the private page. -/
theorem user_page_eq_some {L : Layout} {P : Paging} {slot code_length : ℕ}
    (hslot : slot < MAX_PROCESSES) (hb : Built L P slot code_length) {page frame : ℕ}
    {writable : Bool} :
    P.user_page L (L.page_directory slot) page = some (frame, writable) ↔
      (page < 1024 ∧ (WritablePage L slot page ∨ Opens page (L.code_base slot) code_length) ∧
        frame = page ∧ (writable = true ↔ WritablePage L slot page)) ∨
      (page / 1024 = 2 ∧ page % 1024 = Paging.private_index slot ∧
        frame = L.private_test_page slot / 4096 ∧ writable = true) := by
  have haligned := L.aligned
  have hlowaligned : L.low_page_table slot % 4096 = 0 := by
    unfold Layout.low_page_table
    omega
  have hprivaligned : L.private_page_table slot % 4096 = 0 := by
    unfold Layout.private_page_table
    omega
  have hpagealigned : L.private_test_page slot % 4096 = 0 := by
    unfold Layout.private_test_page PROCESS_STACK_SLOT_SIZE
    omega
  have hflag7 (a g : ℕ) (hg : g < 4096) (hset : has_flag 7 g = true) :
      has_flag (a * 4096 ||| 7) g = true := by
    rw [has_flag_or a 7 hg, hset]
  have hnot4m (a : ℕ) : has_flag (a * 4096 ||| 7) PAGE_SIZE_4M = false := by
    rw [has_flag_or a 7 (by decide)]
    rfl
  have huser (a : ℕ) : Paging.user_entry (a * 4096 ||| 7) = true := by
    unfold Paging.user_entry
    rw [hflag7 a _ (by decide) (by decide), hflag7 a _ (by decide) (by decide)]
    rfl
  have hframe {a : ℕ} (ha : a % 4096 = 0) : (a / 4096 * 4096 ||| 7) >>> 12 <<< 12 = a := by
    rw [or_shiftRight _ (by decide), Nat.shiftLeft_eq]
    omega
  unfold Paging.user_page
  rw [directory_at_eq hslot]
  dsimp only [Option.bind_eq_bind, Option.bind_some]
  by_cases hlow : page / 1024 = 0
  · have hmod : page % 1024 = page := by omega
    obtain ⟨hshift, hpresent, huserflag, hwritableflag⟩ := low_entry_flags L slot code_length page
    rw [hlow, hb.low_directory, user_table_entry hlowaligned, huser, hnot4m, hframe hlowaligned,
      table_at_low hslot]
    simp only [Option.bind_some, hmod, hb.low, Paging.user_entry, hpresent, hshift, Bool.true_and,
      hflag7 _ PAGE_WRITABLE (by decide) (by decide), Bool.not_true, Bool.false_eq_true, if_false]
    cases hu : has_flag (low_entry L slot code_length page) PAGE_USER with
    | false =>
      have hclosed : ¬ (WritablePage L slot page ∨ Opens page (L.code_base slot) code_length) :=
        fun h => by simp [huserflag.mpr h] at hu
      simp only [Bool.not_false, if_true]
      refine iff_of_false (by simp) ?_
      rintro (⟨-, hopen, -⟩ | ⟨h2, -⟩)
      · exact hclosed hopen
      · omega
    | true =>
      have hopen := huserflag.mp hu
      simp only [Bool.not_true, Bool.false_eq_true, if_false, Option.some.injEq, Prod.mk.injEq]
      constructor
      · rintro ⟨rfl, rfl⟩
        exact .inl ⟨by omega, hopen, rfl, hwritableflag hopen⟩
      · rintro (⟨-, -, rfl, hw⟩ | ⟨h2, -⟩)
        · exact ⟨rfl, Bool.eq_iff_iff.mpr ((hwritableflag hopen).trans hw.symm)⟩
        · omega
  · by_cases hpriv : page / 1024 = 2
    · rw [hpriv, hb.private_directory, user_table_entry hprivaligned, huser, hnot4m,
        hframe hprivaligned, table_at_private hslot]
      simp only [Option.bind_some, hb.private_page, Bool.not_true, Bool.false_eq_true, if_false,
        hflag7 _ PAGE_WRITABLE (by decide) (by decide), Bool.true_and]
      by_cases hindex : page % 1024 = Paging.private_index slot
      · simp only [hindex, if_true, user_table_entry hpagealigned, huser, or_shiftRight _ (show
          7 < 4096 by decide), hflag7 _ PAGE_WRITABLE (by decide) (by decide), Bool.not_true,
          Bool.false_eq_true, if_false, Option.some.injEq, Prod.mk.injEq]
        constructor
        · rintro ⟨rfl, rfl⟩
          exact .inr ⟨trivial, trivial, rfl, rfl⟩
        · rintro (⟨h, -⟩ | ⟨-, -, rfl, rfl⟩)
          · omega
          · exact ⟨rfl, rfl⟩
      · have hzero : Paging.user_entry 0 = false := by decide
        simp only [if_neg hindex, hzero, Bool.not_false, if_true]
        refine iff_of_false (by simp) ?_
        rintro (⟨h, -⟩ | ⟨-, h, -⟩)
        · omega
        · exact hindex h
    · have hclosed : Paging.user_entry (P.page_directories slot (page / 1024)) = false := by
        unfold Paging.user_entry
        rw [hb.other_directory _ hlow hpriv, Bool.and_false]
      simp only [hclosed, Bool.not_false, if_true]
      refine iff_of_false (by simp) ?_
      rintro (⟨h, -⟩ | ⟨h, -⟩)
      · omega
      · exact hpriv h

/-! ## Own pages -/

/-- The frame holds one of the first `code_length` bytes of the code slot. -/
def HoldsCode (L : Layout) (slot code_length frame : ℕ) : Prop :=
  ∃ i < code_length, (L.code_base slot + i) / 4096 = frame

/-- The frame lies in the code slot, the stack slot or the private page of the slot. -/
def OwnFrame (L : Layout) (slot frame : ℕ) : Prop :=
  (L.code_base slot / 4096 ≤ frame ∧ frame < L.code_base slot / 4096 + 16) ∨
    frame = L.stack_base slot / 4096 ∨ frame = L.private_test_page slot / 4096

/-- The frames that the loaders open: the code, the runtime data, the stack and the private page. -/
def OpenedFrame (L : Layout) (slot code_length frame : ℕ) : Prop :=
  HoldsCode L slot code_length frame ∨
    (L.code_base slot / 4096 + 7 ≤ frame ∧ frame ≤ L.code_base slot / 4096 + 8) ∨
    frame = L.stack_base slot / 4096 ∨ frame = L.private_test_page slot / 4096

/-- The arrays of the processes lie in the low 4 MiB. -/
def Layout.Low (L : Layout) : Prop :=
  L.page_directories + 38 * 4096 ≤ 0x400000 ∧ L.low_page_tables + 38 * 4096 ≤ 0x400000 ∧
    L.private_page_tables + 38 * 4096 ≤ 0x400000 ∧ L.code_slots + 38 * 65536 ≤ 0x400000 ∧
    L.stack_slots + 38 * 4096 ≤ 0x400000 ∧ L.private_test_pages + 38 * 4096 ≤ 0x400000

theorem Layout.aligned_bases (L : Layout) (slot : ℕ) :
    L.code_base slot % 4096 = 0 ∧ L.stack_base slot % 4096 = 0 ∧
      L.private_test_page slot % 4096 = 0 := by
  have haligned := L.aligned
  unfold Layout.code_base Layout.stack_base Layout.private_test_page PROCESS_CODE_SLOT_SIZE
    PROCESS_STACK_SLOT_SIZE
  omega

/-- The open ranges of a slot as ranges of frames. -/
theorem opens_iff {L : Layout} {slot page : ℕ} :
    (Opens page (L.stack_base slot) PROCESS_STACK_SLOT_SIZE ↔
      page < 1024 ∧ page = L.stack_base slot / 4096) ∧
    (Opens page (L.code_base slot + PROCESS_RUNTIME_DATA_OFFSET) PROCESS_RUNTIME_DATA_SIZE ↔
      L.code_base slot / 4096 + 8 < 1024 ∧ L.code_base slot / 4096 + 7 ≤ page ∧
        page ≤ L.code_base slot / 4096 + 8) := by
  obtain ⟨hcode, hstack, -⟩ := L.aligned_bases slot
  unfold Opens LowRange
  rw [page_in_range_iff, page_in_range_iff]
  unfold PROCESS_STACK_SLOT_SIZE PROCESS_RUNTIME_DATA_OFFSET PROCESS_RUNTIME_DATA_SIZE
  omega

theorem opens_code_iff {L : Layout} {slot page code_length : ℕ} :
    Opens page (L.code_base slot) code_length ↔
      LowRange (L.code_base slot) code_length ∧ HoldsCode L slot code_length page := by
  obtain ⟨hcode, -⟩ := L.aligned_bases slot
  unfold Opens HoldsCode
  rw [page_in_range_iff]
  refine and_congr_right fun _ => ?_
  constructor
  · rintro ⟨hne, hlo, hhi⟩
    exact ⟨page * 4096 - L.code_base slot, by omega, by omega⟩
  · rintro ⟨i, hi, rfl⟩
    omega

theorem holdsCode_bounds {L : Layout} {slot code_length frame : ℕ} (hlen : code_length ≤ 65536)
    (h : HoldsCode L slot code_length frame) :
    L.code_base slot / 4096 ≤ frame ∧ frame < L.code_base slot / 4096 + 16 := by
  obtain ⟨hcode, -⟩ := L.aligned_bases slot
  obtain ⟨i, hi, rfl⟩ := h
  omega

section OwnPages

variable {L : Layout} {P : Paging} {slot code_length : ℕ} (hslot : slot < MAX_PROCESSES)
  (hlen : code_length ≤ 65536) (hb : Built L P slot code_length)

include hslot

/-- The stack slot and the private page are not in the code slot. -/
theorem code_apart {slot' : ℕ} (hslot' : slot' < MAX_PROCESSES) :
    ¬ (L.code_base slot / 4096 ≤ L.stack_base slot' / 4096 ∧
        L.stack_base slot' / 4096 < L.code_base slot / 4096 + 16) ∧
      ¬ (L.code_base slot / 4096 ≤ L.private_test_page slot' / 4096 ∧
        L.private_test_page slot' / 4096 < L.code_base slot / 4096 + 16) ∧
      L.stack_base slot / 4096 ≠ L.private_test_page slot' / 4096 := by
  have hmax : MAX_PROCESSES = 38 := rfl
  have haligned := L.aligned
  have hapart := L.apart
  simp only [List.pairwise_cons, List.mem_cons, List.not_mem_nil, or_false, forall_eq_or_imp,
    forall_eq] at hapart
  unfold Layout.code_base Layout.stack_base Layout.private_test_page PROCESS_CODE_SLOT_SIZE
    PROCESS_STACK_SLOT_SIZE
  omega

include hlen hb

/-- User code reaches frames of its own slot only. -/
theorem ownFrame_of_user_page {page frame : ℕ} {writable : Bool}
    (h : P.user_page L (L.page_directory slot) page = some (frame, writable)) :
    OwnFrame L slot frame := by
  rcases (user_page_eq_some hslot hb).mp h with ⟨-, hopen, rfl, -⟩ | ⟨-, -, rfl, -⟩
  · rcases hopen with (hstack | hdata) | hcode
    · exact .inr (.inl (opens_iff.1.mp hstack).2)
    · have := opens_iff.2.mp hdata
      exact .inl (by omega)
    · exact .inl (holdsCode_bounds hlen (opens_code_iff.mp hcode).2)
  · exact .inr (.inr rfl)

/-- With all arrays in the low 4 MiB user code reaches exactly the opened frames. -/
theorem openedFrame_iff (hlow : L.Low) (frame : ℕ) :
    (∃ page writable, P.user_page L (L.page_directory slot) page = some (frame, writable)) ↔
      OpenedFrame L slot code_length frame := by
  have hmax : MAX_PROCESSES = 38 := rfl
  have haligned := L.aligned_bases slot
  unfold Layout.Low at hlow
  have hcodelow : L.code_base slot + 65536 ≤ 0x400000 := by
    unfold Layout.code_base PROCESS_CODE_SLOT_SIZE
    omega
  have hstacklow : L.stack_base slot + 4096 ≤ 0x400000 := by
    unfold Layout.stack_base PROCESS_STACK_SLOT_SIZE
    omega
  constructor
  · rintro ⟨page, writable, h⟩
    rcases (user_page_eq_some hslot hb).mp h with ⟨-, hopen, rfl, -⟩ | ⟨-, -, rfl, -⟩
    · rcases hopen with (hstack | hdata) | hcode
      · exact .inr (.inr (.inl (opens_iff.1.mp hstack).2))
      · exact .inr (.inl (opens_iff.2.mp hdata).2)
      · exact .inl (opens_code_iff.mp hcode).2
    · exact .inr (.inr (.inr rfl))
  · have hopened (hlt : frame < 1024) (hopen : WritablePage L slot frame ∨
        Opens frame (L.code_base slot) code_length) :
        ∃ page writable, P.user_page L (L.page_directory slot) page = some (frame, writable) :=
      ⟨frame, decide (WritablePage L slot frame), (user_page_eq_some hslot hb).mpr
        (.inl ⟨hlt, hopen, rfl, decide_eq_true_iff⟩)⟩
    rintro (hcode | hdata | rfl | rfl)
    · have hbounds := holdsCode_bounds hlen hcode
      refine hopened (by omega) (.inr (opens_code_iff.mpr ⟨?_, hcode⟩))
      unfold LowRange
      omega
    · exact hopened (by omega) (.inl (.inr (opens_iff.2.mpr ⟨by omega, hdata⟩)))
    · exact hopened (by omega) (.inl (.inl (opens_iff.1.mpr ⟨by omega, rfl⟩)))
    · have hindex : Paging.private_index slot < 1024 :=
        lt_of_le_of_lt Nat.and_le_right (by norm_num)
      exact ⟨2048 + Paging.private_index slot, true, (user_page_eq_some hslot hb).mpr
        (.inr ⟨by omega, by omega, rfl, rfl⟩)⟩

/-- Verified mappings leave the code closed to user writes exactly when the code ends before the
runtime data of its slot, or the data lies above the low table. -/
theorem verified_code_writable_iff {stack_base cr3 : ℕ} (hstack : stack_base = L.stack_base slot)
    (hverify : P.verify_process_mapping_invariants L slot (L.code_base slot) code_length stack_base
      cr3 = true) :
    (∀ page frame, P.user_page L cr3 page = some (frame, true) →
      ¬ HoldsCode L slot code_length frame) ↔
      code_length ≤ 0x7000 ∨ 0x400000 ≤ L.code_base slot + 0x7000 := by
  subst hstack
  have haligned := L.aligned_bases slot
  have hapart := @code_apart L slot hslot slot hslot
  unfold Paging.verify_process_mapping_invariants at hverify
  split_ifs at hverify with hcr3 hdir
  obtain rfl : L.page_directory slot = cr3 := not_not.mp fun hne => hdir (.inl hne)
  rw [Bool.and_eq_true, List.all_eq_true] at hverify
  constructor
  · intro hclosed
    by_contra hcond
    rw [not_or, Nat.not_le, Nat.not_le] at hcond
    -- the first page of the runtime data holds code and is verified as writable
    have hentry := hverify.1 (L.code_base slot / 4096 + 7)
      (List.mem_range.mpr (by unfold PAGE_DIRECTORY_ENTRIES; omega))
    have hdata : page_in_range (L.code_base slot / 4096 + 7)
        (L.code_base slot + PROCESS_RUNTIME_DATA_OFFSET) PROCESS_RUNTIME_DATA_SIZE = true := by
      rw [page_in_range_iff]
      unfold PROCESS_RUNTIME_DATA_OFFSET PROCESS_RUNTIME_DATA_SIZE
      omega
    obtain ⟨-, -, huser, hwritable⟩ :=
      low_entry_flags L slot code_length (L.code_base slot / 4096 + 7)
    rw [hb.low] at hentry
    unfold Paging.verify_low_entry at hentry
    simp only [hdata, Bool.or_true, Bool.true_or, Bool.and_eq_true, decide_eq_true_eq,
      Bool.or_eq_true, Bool.not_eq_true'] at hentry
    obtain ⟨huserflag, hw⟩ := hentry
    have hopen := huser.mp huserflag
    have hwritableflag := hw.resolve_left (by rw [huserflag]; decide)
    have hmapped := (user_page_eq_some hslot hb).mpr (.inl ⟨by omega, hopen, rfl,
      iff_of_true rfl ((hwritable hopen).mp hwritableflag)⟩)
    exact hclosed _ _ hmapped ⟨0x7000, hcond.1, by omega⟩
  · rintro hcond page frame hpage hcode
    have hbounds := holdsCode_bounds hlen hcode
    rcases (user_page_eq_some hslot hb).mp hpage with ⟨hlt, -, rfl, hw⟩ | ⟨-, -, rfl, -⟩
    · rcases hw.mp rfl with hstack | hdata
      · rw [(opens_iff.1.mp hstack).2] at hbounds
        exact hapart.1 hbounds
      · have hrange := opens_iff.2.mp hdata
        obtain ⟨i, hi, heq⟩ := hcode
        omega
    · exact hapart.2.1 hbounds

end OwnPages

end Bogbin.Kernel
