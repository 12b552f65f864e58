import Bogbin.Core.Process
import Bogbin.Kernel.V38

/-!
# Applications and their containers

The boot file system, the path of an application, and the two container formats: `BOGAPP32` of the
dynamic loader and `BOGAPP39` of the persistent file system.
-/

namespace Bogbin.Kernel

open Buffer BlockDevice Bogbin.Core

structure BogFsEntry where
  path : Bytes
  data : Bytes
  hash_match : Bool
  deriving DecidableEq

def bogfs_read (entries : Option (List BogFsEntry)) (path : Bytes) : Option Bytes :=
  ((entries.getD []).find? fun entry => entry.path = path ∧ entry.hash_match).map (·.data)

/-- The path of an application, written into a buffer of 128 bytes. -/
def format_app_path (app : Bytes) : Bytes :=
  let written :=
    if app.head? = some 0x2f then app
    else if 0x2e ∈ app then ascii "/apps/" ++ app
    else ascii "/apps/" ++ app ++ ascii ".bogapp"
  (from_utf8 (written.take 128)).getD []

/-- `Option::ok_or` -/
def ok_or {α : Type} (x : Option α) (reason : String) : Except String α :=
  match x with
  | some a => .ok a
  | none => .error reason

/-! ## The dynamic loader's container -/

def V32_BOGAPP_MAGIC : Bytes := ascii "BOGAPP32"
def V32_BOGAPP_HEADER_SIZE : ℕ := 136

structure DynamicApp where
  name : Bytes
  version : Bytes
  entrypoint_offset : ℕ
  code : Bytes
  manifest_hash : Bytes
  expected_code_hash : Bytes
  actual_code_hash : Digest

def read_be_u32 (data : Bytes) (offset : ℕ) : ℕ := beValue (slice data offset 4)

/-- The text in front of the first zero, when there is one and only zeros follow. -/
def fixed_ascii_field (data : Bytes) : Option Bytes :=
  match data.findIdx? (· = 0) with
  | none => none
  | some length =>
    if length = 0 then none
    else if any_nonzero (data.drop length) then none
    else from_utf8 (data.take length)

def parse_dynamic_app (content : Bytes) : Except String DynamicApp := do
  reject_if (content.length < V32_BOGAPP_HEADER_SIZE) "malformed"
  reject_if (slice content 0 8 ≠ V32_BOGAPP_MAGIC) "bad_magic"
  reject_if (read_be_u32 content 8 ≠ 1) "bad_version"
  reject_if (read_be_u32 content 12 ≠ V32_BOGAPP_HEADER_SIZE) "malformed"
  let entrypoint_offset := read_be_u32 content 16
  let code_offset := read_be_u32 content 20
  let code_length := read_be_u32 content 24
  let required_capabilities := read_be_u32 content 28
  let name ← ok_or (fixed_ascii_field (slice content 32 24)) "malformed"
  let version ← ok_or (fixed_ascii_field (slice content 56 16)) "malformed"
  reject_if (code_length = 0) "zero_code_length"
  reject_if (code_offset ≠ V32_BOGAPP_HEADER_SIZE ∨ code_offset % 8 ≠ 0) "bad_offset"
  reject_if (65536 < code_length) "bad_length"
  let code_end := code_offset + code_length
  reject_if (content.length < code_end) "bad_length"
  reject_if (code_end < content.length) "trailing_bytes"
  reject_if (code_length ≤ entrypoint_offset ∨ entrypoint_offset ≠ 0) "invalid_entrypoint"
  reject_if (required_capabilities ≠ 0) "unsupported_capability"
  let expected_code_hash := slice content 72 32
  let manifest_hash := slice content 104 32
  reject_if ((sha256 (slice content 0 104)).val ≠ manifest_hash) "manifest_hash_mismatch"
  let code := slice content code_offset code_length
  let actual_code_hash := sha256 code
  reject_if (actual_code_hash.val ≠ expected_code_hash) "hash_mismatch"
  .ok ⟨name, version, entrypoint_offset, code, manifest_hash, expected_code_hash, actual_code_hash⟩

/-! ## The persistent file system's container -/

def V39_HEADER_SIZE : ℕ := 160
def V39_SUPPORTED_ABI : ℕ := 2

structure V39App where
  name : Bytes
  version : Bytes
  code : Bytes
  entrypoint : ℕ
  capabilities : ℕ
  abi_version : ℕ
  manifest_hash : Bytes
  code_hash : Digest

def v39_fixed_ascii (data : Bytes) : Except String Bytes :=
  ok_or (fixed_ascii_field data) "noncanonical_text"

def v39_parse_app (content : Bytes) : Except String V39App := do
  reject_if (content.length < V39_HEADER_SIZE) "truncated_manifest"
  reject_if (slice content 0 8 ≠ ascii "BOGAPP39") "bad_magic"
  reject_if (v37_read_u32 content 8 ≠ 2) "unsupported_app_version"
  reject_if (v37_read_u32 content 12 ≠ V39_HEADER_SIZE) "malformed_manifest"
  reject_if (v37_read_u32 content 16 ≠ content.length) "trailing_or_truncated_container"
  let entrypoint := v37_read_u32 content 20
  let code_offset := v37_read_u32 content 24
  let code_length := v37_read_u32 content 28
  let capabilities := v37_read_u32 content 32
  let abi_version := v37_read_u32 content 36
  reject_if (code_offset ≠ V39_HEADER_SIZE) "invalid_code_offset"
  reject_if (code_length = 0) "zero_code_length"
  reject_if (V36_SECTOR_SIZE - V39_HEADER_SIZE < code_length) "oversized_code"
  reject_if (code_length ≤ entrypoint) "entrypoint_out_of_range"
  reject_if (abi_version ≠ V39_SUPPORTED_ABI) "unsupported_abi_version"
  reject_if (capabilities ≠ 0) "unsupported_capabilities"
  reject_if (4 < v37_read_u32 content 40 ∨ 128 < v37_read_u32 content 44) "invalid_launch_limits"
  let name ← v39_fixed_ascii (slice content 48 32)
  let version ← v39_fixed_ascii (slice content 80 16)
  let manifest_hash := v37_copy_hash content 128
  reject_if ((sha256_standard (slice content 0 128)).val ≠ manifest_hash) "manifest_hash_mismatch"
  reject_if (content.length < code_offset + code_length) "truncated_code"
  let code := slice content code_offset code_length
  let code_hash := sha256_standard code
  reject_if (code_hash.val ≠ v37_copy_hash content 96) "code_hash_mismatch"
  .ok ⟨name, version, code, entrypoint, capabilities, abi_version, manifest_hash, code_hash⟩

end Bogbin.Kernel
