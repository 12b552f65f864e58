import Bogbin.Bogvm.ArchiveTree
import Bogbin.Kernel.BogfsMount
import Bogbin.Tools.AppPacker

/-!
# The builder of boot file systems

`make_bogfs` writes a magic, the number of files, a table with one entry for every file of a
directory, and the contents.
-/

namespace Bogbin.Tools

open Buffer Bogbin.Core Bogbin.Bogvm

/-- An entry of the table before it is written. -/
structure TableEntry where
  path : Bytes
  offset : ℕ
  length : ℕ
  hash : Bytes

/-- `"/" + str(f.relative_to(src_dir))`, encoded -/
def rel_path (path : Path) : Bytes := utf8 ("/" ++ as_posix path)

/-- The path, padded or cut to 64 bytes. -/
def path_padded (path : Path) : Bytes :=
  let path_bytes := (rel_path path).take 63
  path_bytes ++ zeros (64 - path_bytes.length)

/-- The loop over the sorted files. -/
def table_entries : ℕ → List (Path × Bytes) → List TableEntry
  | _, [] => []
  | current_offset, (path, content) :: files =>
    ⟨path_padded path, current_offset, content.length, (sha256_standard content).val⟩ ::
      table_entries (current_offset + content.length) files

def write_entry (entry : TableEntry) : Except String Bytes := do
  let offset ← to_bytes_4 beBytes entry.offset
  let length ← to_bytes_4 beBytes entry.length
  .ok (entry.path ++ offset ++ length ++ entry.hash)

/-- The written image. -/
def make_bogfs (src_dir : Bogvm.Tree Bytes) : Except String Bytes := do
  let files := src_dir.files.mergeSort path_le
  let header_magic := ascii "BOGFS" ++ [0]
  let entry_size := 64 + 4 + 4 + 32
  let header_size := header_magic.length + 4
  let entries := table_entries (header_size + files.length * entry_size) files
  let file_count ← to_bytes_4 beBytes files.length
  let table ← entries.mapM write_entry
  .ok (header_magic ++ file_count ++ table.flatten ++ (files.map Prod.snd).flatten)

/-- A directory as the operating system has it: the paths differ, and their names hold no slash and
no NUL. -/
structure SourceDir (src_dir : Bogvm.Tree Bytes) : Prop where
  distinct : (src_dir.files.map Prod.fst).Nodup
  nonempty : ∀ f ∈ src_dir.files, f.1 ≠ []
  plain : ∀ f ∈ src_dir.files, ∀ name ∈ f.1, PlainPart name ∧ Char.ofNat 0 ∉ name

end Bogbin.Tools
