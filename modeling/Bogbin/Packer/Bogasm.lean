import Bogbin.Container.Optimizer
import Bogbin.Vm.Assembler

/-!
# Packed programs

The texts of programs that hold data: `pack_bytes_to_bogasm`, `pack_chunked_bytes_to_bogasm` and
`compile_bog_container_to_bogasm`.  Every block of data has the same lines.
-/

namespace Bogbin.Packer

open Bogvm Vm ZeroPadding

/-- The words of a line, with one blank between two. -/
def line (words : List Text) : Text := List.intercalate [' '] words

/-- `"\n".join(lines) + "\n"` -/
def join_lines (lines : List Text) : Text := List.intercalate ['\n'] lines ++ ['\n']

/-- The texts in the lines of a block. -/
structure BlockText where
  name : Text
  basis : Text
  start_byte : Text
  length : Text
  delta : Text
  residuals : List (Text × Text)
  sha256 : Text

def BlockText.lines (block : BlockText) : List Text :=
  [line ["DATA_BLOCK".toList, block.name],
    line [Op.DECLARE_BASIS.name.toList, block.basis],
    line [Op.LOAD_COEFFICIENTS.name.toList, block.name, block.start_byte, block.length, block.delta],
    line [Op.SYNTHESIZE.name.toList, block.name]] ++
  block.residuals.map (fun patch =>
    line [Op.STORE_RESIDUAL.name.toList, block.name, patch.1, patch.2]) ++
  [line [Op.APPLY_RESIDUAL.name.toList, block.name],
    line [Op.VERIFY_HASH.name.toList, block.name, block.sha256],
    line [Op.ACCEPT_DATA.name.toList, block.name]]

/-- The text of a program with these comments and blocks. -/
def program_text (comments : List Text) (blocks : List BlockText) : Text :=
  join_lines (comments ++ blocks.flatMap BlockText.lines ++
    [line [Op.EMIT_RECEIPT.name.toList], line [Op.HALT.name.toList]])

/-! ## The packer -/

/-- `_validate_data_name` -/
def validate_data_name (data_name : Text) : Except PyError Unit :=
  if data_name = [] ∨ data_name.any is_space = true then .error .PackerError else .ok ()

def residual_texts (residuals : List Container.Patch) : List (Text × Text) :=
  residuals.map fun patch => (digits patch.offset, digits patch.byte.toNat)

/-- The block of a plan. -/
def plan_block (data_name : Text) (plan : Container.ResidualPlan) : BlockText :=
  ⟨data_name, plan.basis.name.toList, digits plan.start_byte.toNat, digits plan.length,
    digits plan.delta.toNat, residual_texts plan.residuals, plan.sha256.toList⟩

def pack_bytes_to_bogasm (data : Bytes) (data_name : Text) : Except PyError Text := do
  validate_data_name data_name
  if 65535 < data.length then .error .PackerError
  else do
    let plan ← Container.optimize_residual_plan data
    .ok (program_text [] [plan_block data_name plan])

/-- `f"{data_name}_chunk_{index:04d}"` -/
def chunk_name (data_name : Text) (index : ℕ) : Text :=
  data_name ++ "_chunk_".toList ++ zero_padded 4 index

/-- The block of a chunk. -/
def chunk_block (data_name : Text) (chunk : Container.Chunk) : BlockText :=
  ⟨chunk_name data_name chunk.index, chunk.basis.name.toList, digits chunk.start_byte.toNat,
    digits chunk.length, digits chunk.delta.toNat, residual_texts chunk.residuals,
    chunk.chunk_sha256.toList⟩

def chunked_comments (plan : Container.ChunkedPlan) : List Text :=
  ["# BOGBIN v1.2 chunked pack receipt whole_sha256 ".toList ++ plan.whole_sha256.toList,
    "# chunk_size ".toList ++ digits plan.chunk_size,
    "# chunk_count ".toList ++ digits plan.chunks.length,
    "# total_residual_count ".toList ++ digits plan.total_residual_count]

def pack_chunked_bytes_to_bogasm (data : Bytes) (data_name : Text) (chunk_size : ℕ) :
    Except PyError Text := do
  validate_data_name data_name
  let plan ← Container.optimize_chunked_plan data chunk_size false
  .ok (program_text (chunked_comments plan) (plan.chunks.map (chunk_block data_name)))

/-! ## The compiler of containers -/

/-- `f"{value}"`, for the values of a container that has been checked: texts, truth values and numbers,
of at most 4300 digits as every number in a file. -/
def format_value : Json → Text
  | .str s => s.toList
  | .int n => (toString n).toList
  | .bool b => if b then "True".toList else "False".toList
  | _ => []

/-- The fields of an object, and the items of a list, that have been checked to be there. -/
def fields : Json → Dict
  | .obj fields => fields
  | _ => []

def items : Json → List Json
  | .arr items => items
  | _ => []

/-- The block of a chunk in a container; a delta may be missing. -/
def container_block (chunk : Json) : BlockText :=
  let chunk := fields chunk
  ⟨format_value (Container.field chunk "name"), format_value (Container.field chunk "basis"),
    format_value (Container.field chunk "start_byte"), format_value (Container.field chunk "length"),
    format_value ((Dict.get chunk "delta").getD (.int 0)),
    (items (Container.field chunk "residuals")).map fun patch =>
      (format_value (Container.field (fields patch) "offset"),
        format_value (Container.field (fields patch) "byte")),
    format_value (Container.field chunk "chunk_sha256")⟩

def container_comments (container : Dict) : List Text :=
  let value (key : String) : Text := format_value (Container.field container key)
  ["# BOG container ".toList ++ value "format",
    "# vm_format ".toList ++ value "vm_format",
    "# whole_sha256 ".toList ++ value "whole_sha256",
    "# chunk_size ".toList ++ value "chunk_size",
    "# chunk_count ".toList ++ value "chunk_count",
    "# total_residual_count ".toList ++ value "total_residual_count"]

def compile_bog_container_to_bogasm (floats : Container.FloatOps) (container : Json) :
    Except PyError Text := do
  let _ ← Container.validate_bog_container floats container
  .ok (program_text (container_comments (fields container))
    ((items (Container.field (fields container) "chunks")).map container_block))

end Bogbin.Packer
