import Bogbin.Core.Process
import Bogbin.Library.Buffer

/-!
# Page tables of the processes

Every process has a page directory, a table for the low 4 MiB and a private table, each in a slot of
a static array.  Entries are `u32` values as natural numbers.  `user_page` is the hardware's walk: the
physical page that user code reaches at a virtual page, and whether it may write there.
-/

namespace Bogbin.Kernel

open Buffer Bogbin.Core

def PAGE_PRESENT : ℕ := 1 <<< 0
def PAGE_WRITABLE : ℕ := 1 <<< 1
def PAGE_USER : ℕ := 1 <<< 2
def PAGE_SIZE_4M : ℕ := 1 <<< 7
def PAGE_DIRECTORY_ENTRIES : ℕ := 1024
def PROCESS_CODE_SLOT_SIZE : ℕ := 65536
def PROCESS_STACK_SLOT_SIZE : ℕ := 4096
def PROCESS_RUNTIME_DATA_OFFSET : ℕ := 0x7000
def PROCESS_RUNTIME_DATA_SIZE : ℕ := 0x2000
def PRIVATE_USER_TEST_BASE : ℕ := 0x00800000

/-- Where the linker puts the static arrays of the processes: aligned, apart and not at address 0. -/
structure Layout where
  page_directories : ℕ
  low_page_tables : ℕ
  private_page_tables : ℕ
  code_slots : ℕ
  stack_slots : ℕ
  private_test_pages : ℕ
  positive : 0 < page_directories
  aligned : page_directories % 4096 = 0 ∧ low_page_tables % 4096 = 0 ∧
    private_page_tables % 4096 = 0 ∧ code_slots % 4096 = 0 ∧ stack_slots % 4096 = 0 ∧
    private_test_pages % 4096 = 0
  fits : page_directories + 38 * 4096 < 2 ^ 32 ∧ low_page_tables + 38 * 4096 < 2 ^ 32 ∧
    private_page_tables + 38 * 4096 < 2 ^ 32 ∧ code_slots + 38 * 65536 < 2 ^ 32 ∧
    stack_slots + 38 * 4096 < 2 ^ 32 ∧ private_test_pages + 38 * 4096 < 2 ^ 32
  apart : [(page_directories, 38 * 4096), (low_page_tables, 38 * 4096),
    (private_page_tables, 38 * 4096), (code_slots, 38 * 65536), (stack_slots, 38 * 4096),
    (private_test_pages, 38 * 4096)].Pairwise fun a b => a.1 + a.2 ≤ b.1 ∨ b.1 + b.2 ≤ a.1

namespace Layout

variable (L : Layout)

/-- The address of an element of each array. -/
def page_directory (slot : ℕ) : ℕ := L.page_directories + slot * 4096
def low_page_table (slot : ℕ) : ℕ := L.low_page_tables + slot * 4096
def private_page_table (slot : ℕ) : ℕ := L.private_page_tables + slot * 4096
def code_base (slot : ℕ) : ℕ := L.code_slots + slot * PROCESS_CODE_SLOT_SIZE
def stack_base (slot : ℕ) : ℕ := L.stack_slots + slot * PROCESS_STACK_SLOT_SIZE
def private_test_page (slot : ℕ) : ℕ := L.private_test_pages + slot * PROCESS_STACK_SLOT_SIZE

end Layout

/-- The entries of the kernel's directory and of the tables in each slot. -/
structure Paging where
  kernel_directory : ℕ → ℕ
  page_directories : ℕ → ℕ → ℕ
  low_page_tables : ℕ → ℕ → ℕ
  private_page_tables : ℕ → ℕ → ℕ

namespace Paging

variable (L : Layout) (P : Paging)

/-- Zeroed statics. -/
def initial : Paging := ⟨fun _ => 0, fun _ _ => 0, fun _ _ => 0, fun _ _ => 0⟩

/-- The entries that `init_global_paging` writes: 4 MiB pages, identity mapped. -/
def init_global_paging : Paging :=
  { P with kernel_directory := fun index =>
      if index < PAGE_DIRECTORY_ENTRIES then
        index <<< 22 ||| PAGE_PRESENT ||| PAGE_WRITABLE ||| PAGE_USER ||| PAGE_SIZE_4M
      else P.kernel_directory index }

/-- `entry & !PAGE_USER` -/
def clear_user (entry : ℕ) : ℕ := entry &&& (2 ^ 32 - 1 - PAGE_USER)

def create_process_page_directory (slot_index : ℕ) : Paging × Option ℕ :=
  if MAX_PROCESSES ≤ slot_index then (P, none)
  else
    let directory (index : ℕ) : ℕ :=
      if index = 0 then
        L.low_page_table slot_index ||| PAGE_PRESENT ||| PAGE_WRITABLE ||| PAGE_USER
      else if index = PRIVATE_USER_TEST_BASE >>> 22 then
        L.private_page_table slot_index ||| PAGE_PRESENT ||| PAGE_WRITABLE ||| PAGE_USER
      else clear_user (P.kernel_directory index)
    ({ P with
        page_directories := Function.update P.page_directories slot_index directory
        low_page_tables := Function.update P.low_page_tables slot_index fun index =>
          index <<< 12 ||| PAGE_PRESENT ||| PAGE_WRITABLE
        private_page_tables := Function.update P.private_page_tables slot_index fun _ => 0 },
      some (L.page_directory slot_index))

/-- The entry of a user page in the low table. -/
def low_user_entry (page : ℕ) (writable : Bool) : ℕ :=
  page <<< 12 ||| PAGE_PRESENT ||| PAGE_USER ||| if writable then PAGE_WRITABLE else 0

def map_low_user_range (slot_index base byte_length : ℕ) (writable : Bool) : Paging × Bool :=
  if MAX_PROCESSES ≤ slot_index ∨ byte_length = 0 then (P, false)
  else
    let start_page := base / PAGE_SIZE
    let end_page := (base + (byte_length - 1)) / PAGE_SIZE
    if PAGE_DIRECTORY_ENTRIES ≤ end_page then (P, false)
    else
      let table (page : ℕ) : ℕ :=
        if start_page ≤ page ∧ page ≤ end_page then low_user_entry page writable
        else P.low_page_tables slot_index page
      ({ P with low_page_tables := Function.update P.low_page_tables slot_index table }, true)

/-- The index of the private page of a slot in its table. -/
def private_index (slot_index : ℕ) : ℕ :=
  ((PRIVATE_USER_TEST_BASE + slot_index * PAGE_SIZE) >>> 12) &&& 0x3ff

def map_private_test_page (slot_index : ℕ) : Paging × Bool :=
  if MAX_PROCESSES ≤ slot_index then (P, false)
  else
    let table (index : ℕ) : ℕ :=
      if index = private_index slot_index then
        L.private_test_page slot_index ||| PAGE_PRESENT ||| PAGE_WRITABLE ||| PAGE_USER
      else P.private_page_tables slot_index index
    ({ P with private_page_tables := Function.update P.private_page_tables slot_index table }, true)

end Paging

def page_in_range (page base byte_length : ℕ) : Bool :=
  if byte_length = 0 then false
  else base / PAGE_SIZE ≤ page ∧ page ≤ (base + byte_length - 1) / PAGE_SIZE

/-- The flag test `entry & flag != 0`. -/
def has_flag (entry flag : ℕ) : Bool := entry &&& flag ≠ 0

namespace Paging

variable (L : Layout) (P : Paging)

/-- The check of an entry of the low table. -/
def verify_low_entry (entry page code_base code_length stack_base : ℕ) : Bool :=
  let user := has_flag entry PAGE_USER
  let writable := has_flag entry PAGE_WRITABLE
  let code := page_in_range page code_base code_length
  let data := page_in_range page (code_base + PROCESS_RUNTIME_DATA_OFFSET) PROCESS_RUNTIME_DATA_SIZE
  let stack := page_in_range page stack_base PROCESS_STACK_SLOT_SIZE
  user = (code || data || stack) && (!user || writable = (data || stack))

def verify_process_mapping_invariants (slot_index code_base code_length stack_base cr3 : ℕ) : Bool :=
  if MAX_PROCESSES ≤ slot_index ∨ cr3 = 0 ∨ cr3 % PAGE_SIZE ≠ 0 then false
  else if L.page_directory slot_index ≠ cr3 ∨ L.low_page_table slot_index % PAGE_SIZE ≠ 0 ∨
      L.private_page_table slot_index % PAGE_SIZE ≠ 0 then false
  else
    ((List.range PAGE_DIRECTORY_ENTRIES).all fun page =>
      verify_low_entry (P.low_page_tables slot_index page) page code_base code_length stack_base) &&
    (List.range PAGE_DIRECTORY_ENTRIES).all fun index =>
      has_flag (P.private_page_tables slot_index index) PAGE_USER = (index = private_index slot_index)

/-- What the loaders do with the tables of a slot: the tables, `process_cr3` and whether the code,
the data and the stack, and the private page were mapped. -/
def map_process (slot_index code_length : ℕ) : Paging × ℕ × Bool × Bool :=
  let (P, cr3) := P.create_process_page_directory L slot_index
  let (P, code_user_mapped) := P.map_low_user_range slot_index (L.code_base slot_index) code_length
    false
  let (P, data_user_mapped) := P.map_low_user_range slot_index
    (L.code_base slot_index + PROCESS_RUNTIME_DATA_OFFSET) PROCESS_RUNTIME_DATA_SIZE true
  let (P, stack_user_mapped) := P.map_low_user_range slot_index (L.stack_base slot_index)
    PROCESS_STACK_SLOT_SIZE true
  let (P, private_test_page_mapped) := P.map_private_test_page L slot_index
  (P, cr3.getD 0, code_user_mapped && data_user_mapped && stack_user_mapped,
    private_test_page_mapped)

/-! ## The hardware's walk -/

/-- The directory or table that starts at a physical address. -/
def directory_at (cr3 : ℕ) : Option (ℕ → ℕ) :=
  ((List.range MAX_PROCESSES).find? fun slot => L.page_directory slot = cr3).map P.page_directories

def table_at (address : ℕ) : Option (ℕ → ℕ) :=
  (((List.range MAX_PROCESSES).find? fun slot => L.low_page_table slot = address).map
      P.low_page_tables).or
    (((List.range MAX_PROCESSES).find? fun slot => L.private_page_table slot = address).map
      P.private_page_tables)

/-- The entry is present and open to user code. -/
def user_entry (entry : ℕ) : Bool := has_flag entry PAGE_PRESENT && has_flag entry PAGE_USER

/-- The physical page that user code reaches at a virtual page, and whether it may write there. -/
def user_page (cr3 page : ℕ) : Option (ℕ × Bool) := do
  let directory ← P.directory_at L cr3
  let pde := directory (page / 1024)
  if !user_entry pde then none
  else if has_flag pde PAGE_SIZE_4M then
    some ((pde >>> 22) * 1024 + page % 1024, has_flag pde PAGE_WRITABLE)
  else do
    let table ← P.table_at L (pde >>> 12 <<< 12)
    let pte := table (page % 1024)
    if !user_entry pte then none
    else some (pte >>> 12, has_flag pde PAGE_WRITABLE && has_flag pte PAGE_WRITABLE)

end Paging

end Bogbin.Kernel
