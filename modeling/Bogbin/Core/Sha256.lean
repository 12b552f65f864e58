import Bogbin.Base
import Bogbin.Library.PaddedHash

/-!
# The two SHA-256 functions of the kernel core

`process_block` is the SHA-256 compression function.  `sha256_standard` absorbs the complete blocks
of its input and then one or two final blocks; `sha256` fills a block buffer byte by byte.  Both are
compared with the padded iteration `PaddedHash.digestState` of `process_block`: `sha256_standard`
computes it for every input, `sha256` for the empty input and for every input that does not end at a
block boundary; at a block boundary `sha256` stops without the padding block.
-/

namespace Bogbin.Core

open Buffer PaddedHash

/-- The chaining value `h0..h7`. -/
structure ShaState where
  h0 : UInt32
  h1 : UInt32
  h2 : UInt32
  h3 : UInt32
  h4 : UInt32
  h5 : UInt32
  h6 : UInt32
  h7 : UInt32
  deriving DecidableEq, Repr

/-- The initial chaining value. -/
def ShaState.init : ShaState :=
  ⟨0x6a09e667, 0xbb67ae85, 0x3c6ef372, 0xa54ff53a, 0x510e527f, 0x9b05688c, 0x1f83d9ab, 0x5be0cd19⟩

/-- The round constants. -/
def K : List UInt32 := [
  0x428a2f98, 0x71374491, 0xb5c0fbcf, 0xe9b5dba5, 0x3956c25b, 0x59f111f1, 0x923f82a4, 0xab1c5ed5,
  0xd807aa98, 0x12835b01, 0x243185be, 0x550c7dc3, 0x72be5d74, 0x80deb1fe, 0x9bdc06a7, 0xc19bf174,
  0xe49b69c1, 0xefbe4786, 0x0fc19dc6, 0x240ca1cc, 0x2de92c6f, 0x4a7484aa, 0x5cb0a9dc, 0x76f988da,
  0x983e5152, 0xa831c66d, 0xb00327c8, 0xbf597fc7, 0xc6e00bf3, 0xd5a79147, 0x06ca6351, 0x14292967,
  0x27b70a85, 0x2e1b2138, 0x4d2c6dfc, 0x53380d13, 0x650a7354, 0x766a0abb, 0x81c2c92e, 0x92722c85,
  0xa2bfe8a1, 0xa81a664b, 0xc24b8b70, 0xc76c51a3, 0xd192e819, 0xd6990624, 0xf40e3585, 0x106aa070,
  0x19a4c116, 0x1e376c08, 0x2748774c, 0x34b0bcb5, 0x391c0cb3, 0x4ed8aa4a, 0x5b9cca4f, 0x682e6ff3,
  0x748f82ee, 0x78a5636f, 0x84c87814, 0x8cc70208, 0x90befffa, 0xa4506ceb, 0xbef9a3f7, 0xc67178f2]

/-- `u32::rotate_right`, for `0 < n < 32`. -/
def rotateRight (x n : UInt32) : UInt32 := (x >>> n) ||| (x <<< (32 - n))

/-- The message schedule `w[0..64]` of a block. -/
def schedule (block : Bytes) : List UInt32 :=
  (List.range' 16 48).foldl
    (fun w j =>
      let w15 := w.getD (j - 15) 0
      let w2 := w.getD (j - 2) 0
      let s0 := rotateRight w15 7 ^^^ rotateRight w15 18 ^^^ (w15 >>> 3)
      let s1 := rotateRight w2 17 ^^^ rotateRight w2 19 ^^^ (w2 >>> 10)
      w ++ [w.getD (j - 16) 0 + s0 + w.getD (j - 7) 0 + s1])
    ((List.range 16).map fun j => UInt32.ofNat (beValue (slice block (4 * j) 4)))

/-- One round on the working variables `a..h`, with the constant `k` and the schedule word `w`. -/
def round (s : ShaState) (k w : UInt32) : ShaState :=
  let s1 := rotateRight s.h4 6 ^^^ rotateRight s.h4 11 ^^^ rotateRight s.h4 25
  let ch := (s.h4 &&& s.h5) ^^^ (~~~s.h4 &&& s.h6)
  let temp1 := s.h7 + s1 + ch + k + w
  let s0 := rotateRight s.h0 2 ^^^ rotateRight s.h0 13 ^^^ rotateRight s.h0 22
  let maj := (s.h0 &&& s.h1) ^^^ (s.h0 &&& s.h2) ^^^ (s.h1 &&& s.h2)
  let temp2 := s0 + maj
  { h0 := temp1 + temp2, h1 := s.h0, h2 := s.h1, h3 := s.h2
    h4 := s.h3 + temp1, h5 := s.h4, h6 := s.h5, h7 := s.h6 }

def process_block (s : ShaState) (block : Bytes) : ShaState :=
  let t := (K.zip (schedule block)).foldl (fun t kw => round t kw.1 kw.2) s
  { h0 := s.h0 + t.h0, h1 := s.h1 + t.h1, h2 := s.h2 + t.h2, h3 := s.h3 + t.h3
    h4 := s.h4 + t.h4, h5 := s.h5 + t.h5, h6 := s.h6 + t.h6, h7 := s.h7 + t.h7 }

/-- The eight words of the chaining value in big-endian byte order. -/
def ShaState.out (s : ShaState) : Digest :=
  ⟨[s.h0, s.h1, s.h2, s.h3, s.h4, s.h5, s.h6, s.h7].flatMap fun h => beBytes 4 h.toNat, by
    simp⟩

/-! ## `sha256_standard` -/

def sha256_standard (data : Bytes) : Digest :=
  let h := (blocks data).foldl process_block ShaState.init
  let rest := remainder data
  let final_block := patch (patch (zeros 64) 0 rest) rest.length [0x80]
  let (final_block, h) :=
    if rest.length ≥ 56 then (zeros 64, process_block h final_block) else (final_block, h)
  let final_block := patch final_block 56 (beBytes 8 (8 * data.length))
  (process_block h final_block).out

/-! ## `sha256` -/

/-- `while block_len < n { block[block_len] = 0; block_len += 1; }` -/
def zeroFill (block : Bytes) (block_len n : ℕ) : Bytes :=
  patch block block_len (zeros (n - block_len))

/-- The padding branch of the loop: the chaining value and the buffer after it. -/
def padBlock (len_bytes : Bytes) (block_len : ℕ) (block : Bytes) (h : ShaState) :
    Bytes × ShaState :=
  let block := block.set block_len 0x80
  let block_len := block_len + 1
  let (block, block_len, h) :=
    if block_len > 56 then
      let block := zeroFill block block_len 64
      (block, 0, process_block h block)
    else (block, block_len, h)
  let block := patch (zeroFill block block_len 56) 56 len_bytes
  (block, process_block h block)

/-- The loop `while i < data.len() || block_len > 0`.  The buffer keeps the bytes of the block
before. -/
def sha256Loop (data : Bytes) (i block_len : ℕ) (block : Bytes) (h : ShaState) :
    Bytes × ShaState :=
  if hcond : i < data.length ∨ 0 < block_len then
    if hfill : block_len < 64 ∧ i < data.length then
      sha256Loop data (i + 1) (block_len + 1) (block.set block_len data[i]) h
    else if block_len = 64 then
      sha256Loop data i 0 block (process_block h block)
    else
      let (block, h) := padBlock (beBytes 8 (8 * data.length)) block_len block h
      sha256Loop data i 0 block h
  else (block, h)
termination_by 2 * (data.length - i) + min block_len 1
decreasing_by all_goals omega

def sha256 (data : Bytes) : Digest :=
  let (block, h) := sha256Loop data 0 0 (zeros 64) ShaState.init
  let h :=
    if data.isEmpty then
      let block := patch (block.set 0 0x80) 1 (zeros 55)
      process_block h (patch block 56 (beBytes 8 0))
    else h
  h.out

end Bogbin.Core
