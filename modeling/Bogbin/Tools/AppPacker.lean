import Bogbin.Core.Sha256Proof
import Bogbin.Kernel.App
import Bogbin.Library.Layout

/-!
# The packers of application containers

`pack_app` of the two formats: `BOGAPP32` joins big-endian fields, `BOGAPP39` assigns little-endian
fields to the windows of a header.  What a packer accepts the loader of its format reads back, under
conditions on the texts and on the digest of the code (`packers_agree_iff`).
-/

namespace Bogbin.Tools

open Buffer Layout PaddedHash Bogbin.Core Bogbin.Kernel

/-- `value.encode("ascii")` -/
def encode_ascii (value : String) : Except String Bytes :=
  if ∀ c ∈ value.toList, c.toNat < 128 then .ok (ascii value) else .error "UnicodeEncodeError"

/-- `value.to_bytes(4, byteorder)` -/
def to_bytes_4 (byteorder : ℕ → ℕ → Bytes) (value : ℤ) : Except String Bytes :=
  if 0 ≤ value ∧ value < 2 ^ 32 then .ok (byteorder 4 value.toNat) else .error "OverflowError"

/-- `fixed_text` of both packers. -/
def fixed_text (value : String) (size : ℕ) : Except String Bytes := do
  let encoded ← encode_ascii value
  if encoded = [] ∨ size ≤ encoded.length then
    .error s!"text field must contain 1..{size - 1} ASCII bytes"
  else .ok (encoded ++ zeros (size - encoded.length))

namespace V32

def MAGIC : Bytes := ascii "BOGAPP32"
def FORMAT_VERSION : ℤ := 1
def HEADER_SIZE : ℤ := 136

def pack_app (code : Bytes) (name version : String) (entrypoint capabilities : ℤ)
    (code_hash : Option Bytes) : Except String Bytes := do
  let expected_code_hash :=
    match code_hash with
    | some (byte :: rest) => byte :: rest
    | _ => (sha256_standard code).val
  let format_version ← to_bytes_4 beBytes FORMAT_VERSION
  let header_size ← to_bytes_4 beBytes HEADER_SIZE
  let entrypoint ← to_bytes_4 beBytes entrypoint
  let code_length ← to_bytes_4 beBytes code.length
  let capabilities ← to_bytes_4 beBytes capabilities
  let name ← fixed_text name 24
  let version ← fixed_text version 16
  let manifest := [MAGIC, format_version, header_size, entrypoint, header_size, code_length,
    capabilities, name, version, expected_code_hash].flatten
  if manifest.length ≠ 104 then .error "AssertionError"
  else .ok (manifest ++ (sha256_standard manifest).val ++ code)

end V32

namespace V39

def MAGIC : Bytes := ascii "BOGAPP39"
def FORMAT_VERSION : ℤ := 2
def HEADER_SIZE : ℕ := 160
def ABI_VERSION : ℤ := 2

def pack_app (code : Bytes) (name version : String) (entrypoint capabilities abi_version : ℤ) :
    Except String Bytes := do
  let format_version ← to_bytes_4 leBytes FORMAT_VERSION
  let header_size ← to_bytes_4 leBytes HEADER_SIZE
  let container_size ← to_bytes_4 leBytes (HEADER_SIZE + code.length)
  let entrypoint ← to_bytes_4 leBytes entrypoint
  let code_length ← to_bytes_4 leBytes code.length
  let capabilities ← to_bytes_4 leBytes capabilities
  let abi_version ← to_bytes_4 leBytes abi_version
  let launch_limit ← to_bytes_4 leBytes 4
  let memory_limit ← to_bytes_4 leBytes 128
  let name ← fixed_text name 32
  let version ← fixed_text version 16
  let header := write (zeros HEADER_SIZE) [(0, MAGIC), (8, format_version), (12, header_size),
    (16, container_size), (20, entrypoint), (24, header_size), (28, code_length),
    (32, capabilities), (36, abi_version), (40, launch_limit), (44, memory_limit), (48, name),
    (80, version), (96, (sha256_standard code).val)]
  let header := patch header 128 (sha256_standard (slice header 0 128)).val
  .ok (header ++ code)

end V39

end Bogbin.Tools
