import Bogbin.Tools.AppPacker
import Bogbin.Kernel.DiskProof

/-!
# Packed applications load

A packed container is read back field by field: the texts are the ones that were packed when they
hold no zero byte, and the digest of the dynamic loader is the packer's one off the block boundary
of the code.
-/

namespace Bogbin.Core

open Buffer

/-- ASCII bytes are a text. -/
theorem from_utf8_ascii {s : String} (h : ∀ c ∈ s.toList, c.toNat < 128) :
    from_utf8 (ascii s) = some (ascii s) := by
  have hchars : s.toList.flatMap String.utf8EncodeChar = ascii s := by
    unfold ascii
    rw [← List.flatMap_singleton' (s.toList.map _), List.flatMap_map]
    refine List.flatMap_congr fun c hc => ?_
    have hsize : c.utf8Size = 1 := by
      have hlt := h c hc
      unfold Char.utf8Size
      rw [if_pos]
      show c.val.toNat ≤ 127
      exact Nat.lt_succ_iff.mp hlt
    rw [String.utf8EncodeChar_eq_singleton hsize]
    rfl
  have hbytes : (⟨(ascii s).toArray⟩ : ByteArray) = s.toList.utf8Encode := by
    rw [List.utf8Encode, hchars]
    ext1
    simp
  unfold from_utf8
  rw [if_pos]
  rw [hbytes]
  exact ByteArray.validateUTF8_eq_true_iff.mpr ByteArray.isValidUTF8_utf8Encode

end Bogbin.Core

namespace Bogbin.Kernel

theorem ok_or_eq_ok {α : Type} {x : Option α} {reason : String} {a : α} :
    ok_or x reason = .ok a ↔ x = some a := by
  cases x <;> simp [ok_or]

/-- A padded text is read back exactly when it holds no zero byte. -/
theorem fixed_ascii_field_padded {s : String} (hascii : ∀ c ∈ s.toList, c.toNat < 128)
    (hne : ascii s ≠ []) {n : ℕ} (hn : 0 < n) :
    fixed_ascii_field (ascii s ++ zeros n) = some (ascii s) ↔ 0 ∉ ascii s := by
  unfold fixed_ascii_field
  constructor
  · intro h hzero
    obtain ⟨k, hk⟩ : ∃ k, (ascii s).findIdx? (· = 0) = some k := by
      cases hfind : (ascii s).findIdx? (· = 0) with
      | none =>
        have hfalse := List.findIdx?_eq_none_iff.mp hfind 0 hzero
        exact absurd hfalse (by decide)
      | some k => exact ⟨k, rfl⟩
    have hlt : k < (ascii s).length := (List.findIdx?_eq_some_iff_findIdx_eq.mp hk).1
    rw [List.findIdx?_append, hk] at h
    simp only [Option.some_or] at h
    split_ifs at h with h0 hrest
    unfold Core.from_utf8 at h
    split_ifs at h
    have hlen := congrArg List.length (Option.some.inj h)
    rw [List.length_take, List.length_append, length_zeros] at hlen
    omega
  · intro hzero
    have hfind : (ascii s ++ zeros n).findIdx? (· = 0) = some (ascii s).length := by
      have hnone : (ascii s).findIdx? (· = 0) = none :=
        List.findIdx?_eq_none_iff.mpr fun b hb => by
          simpa using fun heq : b = 0 => hzero (heq ▸ hb)
      obtain ⟨n, rfl⟩ : ∃ m, n = m + 1 := ⟨n - 1, by omega⟩
      rw [List.findIdx?_append, hnone]
      simp [zeros, List.replicate_succ, List.findIdx?_cons]
    rw [hfind]
    dsimp only
    rw [if_neg (by simpa using hne), List.drop_left, any_nonzero_zeros, List.take_left]
    simpa using Core.from_utf8_ascii hascii

end Bogbin.Kernel

namespace Bogbin.Tools

open Buffer Layout PaddedHash Bogbin.Core Bogbin.Kernel

theorem to_bytes_4_eq_ok {byteorder : ℕ → ℕ → Bytes} {value : ℤ} {b : Bytes} :
    to_bytes_4 byteorder value = .ok b ↔
      (0 ≤ value ∧ value < 2 ^ 32) ∧ byteorder 4 value.toNat = b := by
  unfold to_bytes_4
  split_ifs with h
  · rw [and_iff_right h, Except.ok.injEq]
  · exact iff_of_false (by simp) fun hb => h hb.1

/-- A text that fits a field. -/
def Text (value : String) (size : ℕ) : Prop :=
  (∀ c ∈ value.toList, c.toNat < 128) ∧ ascii value ≠ [] ∧ (ascii value).length < size

theorem fixed_text_eq_ok {value : String} {size : ℕ} {b : Bytes} :
    fixed_text value size = .ok b ↔
      Text value size ∧ ascii value ++ zeros (size - (ascii value).length) = b := by
  unfold fixed_text encode_ascii Text
  split_ifs with hascii
  · simp only [bind_eq_ok, Except.ok.injEq, exists_eq_left']
    split_ifs with hbad
    · simp only [false_iff]
      rintro ⟨⟨-, hne, hlt⟩, -⟩
      rcases hbad with hnil | hle
      · exact hne hnil
      · omega
    · push Not at hbad
      simp only [Except.ok.injEq]
      exact ⟨fun h => ⟨⟨hascii, hbad⟩, h⟩, fun h => h.2⟩
  · simp only [bind_eq_ok, reduceCtorEq, false_and, exists_false, false_iff]
    exact fun h => hascii h.1.1

/-- The field of a text is as long as the field, and it is read back when it holds no zero byte. -/
theorem Text.field {value : String} {size : ℕ} (h : Text value size) :
    (ascii value ++ zeros (size - (ascii value).length)).length = size ∧
      (fixed_ascii_field (ascii value ++ zeros (size - (ascii value).length)) =
        some (ascii value) ↔ 0 ∉ ascii value) := by
  obtain ⟨hascii, hne, hlt⟩ := h
  refine ⟨?_, fixed_ascii_field_padded hascii hne (by omega)⟩
  rw [List.length_append, length_zeros]
  omega

/-- Each part is the window at its offset. -/
theorem slice_part {parts : List Bytes} {off len : ℕ} {part : Bytes}
    (h : (off, part) ∈ placed 0 parts) (hlen : part.length = len) :
    slice parts.flatten off len = part := by
  have hslice := slice_flatten h hlen []
  rwa [List.append_nil] at hslice

/-! ## The container of the dynamic loader -/

namespace V32

/-- The parts of a container without an entry point and without capabilities. -/
def parts (code name version : Bytes) : List Bytes :=
  [MAGIC, beBytes 4 1, beBytes 4 136, beBytes 4 0, beBytes 4 136, beBytes 4 code.length,
    beBytes 4 0, name, version, digest code]

def container (code name version : Bytes) : List Bytes :=
  parts code name version ++ [digest (parts code name version).flatten, code]

theorem pack_app_eq_ok {code packed : Bytes} {name version : String}
    (h : pack_app code name version 0 0 none = .ok packed) :
    Text name 24 ∧ Text version 16 ∧ packed = (container code
      (ascii name ++ zeros (24 - (ascii name).length))
      (ascii version ++ zeros (16 - (ascii version).length))).flatten := by
  unfold pack_app at h
  simp only [bind_eq_ok] at h
  obtain ⟨format_version, h₁, header_size, h₂, entrypoint, h₃, code_length, h₄, capabilities, h₅,
    name_field, h₆, version_field, h₇, h⟩ := h
  obtain ⟨hname, rfl⟩ := fixed_text_eq_ok.mp h₆
  obtain ⟨hversion, rfl⟩ := fixed_text_eq_ok.mp h₇
  obtain rfl := (to_bytes_4_eq_ok.mp h₁).2
  obtain rfl := (to_bytes_4_eq_ok.mp h₂).2
  obtain rfl := (to_bytes_4_eq_ok.mp h₃).2
  obtain rfl := (to_bytes_4_eq_ok.mp h₄).2
  obtain rfl := (to_bytes_4_eq_ok.mp h₅).2
  split_ifs at h
  refine ⟨hname, hversion, (Except.ok.inj h).symm.trans ?_⟩
  have hone : FORMAT_VERSION.toNat = 1 := rfl
  have hsize : HEADER_SIZE.toNat = 136 := rfl
  have hzero : Int.toNat 0 = 0 := rfl
  rw [container, List.flatten_append, parts]
  simp only [hone, hsize, hzero, Int.toNat_natCast, digest, List.flatten_cons, List.flatten_nil,
    List.append_nil, List.append_assoc]

theorem container_number {code name version : Bytes} {off value : ℕ}
    (h : (off, beBytes 4 value) ∈ placed 0 (container code name version))
    (hvalue : value < 2 ^ 32) : read_be_u32 (container code name version).flatten off = value := by
  rw [read_be_u32, slice_part h (length_beBytes 4 value), beValue_beBytes,
    Nat.mod_eq_of_lt (by norm_num; exact hvalue)]

section Container

variable {code name version : Bytes} (hname : name.length = 24) (hversion : version.length = 16)

include hname hversion

theorem length_parts : (parts code name version).flatten.length = 104 := by
  have hmagic : MAGIC.length = 8 := by decide
  simp [parts, hmagic, hname, hversion]

theorem placed_container : placed 0 (container code name version) =
    [(0, MAGIC), (8, beBytes 4 1), (12, beBytes 4 136), (16, beBytes 4 0), (20, beBytes 4 136),
      (24, beBytes 4 code.length), (28, beBytes 4 0), (32, name), (56, version),
      (72, digest code), (104, digest (parts code name version).flatten), (136, code)] := by
  have hmagic : MAGIC.length = 8 := by decide
  simp [container, parts, placed, hmagic, hname, hversion]

theorem length_container :
    (container code name version).flatten.length = 136 + code.length := by
  rw [container, List.flatten_append, List.length_append, length_parts hname hversion]
  simp
  omega

theorem slice_manifest : slice (container code name version).flatten 0 104 =
    (parts code name version).flatten := by
  have hlen := @length_parts code _ _ hname hversion
  rw [container, List.flatten_append, slice_append_left _ _ (by omega),
    slice_eq_self _ (by omega)]

/-- The loader reads back the texts and the code, when the texts are canonical and its digest of the
code is the packer's one. -/
theorem parse_container (hcode : 0 < code.length) (hmax : code.length ≤ 65536)
    {app : DynamicApp} :
    parse_dynamic_app (container code name version).flatten = .ok app ↔
      ∃ n v, fixed_ascii_field name = some n ∧ fixed_ascii_field version = some v ∧
        sha256 code = sha256_standard code ∧
        app = ⟨n, v, 0, code, digest (parts code name version).flatten, digest code,
          sha256 code⟩ := by
  have hplaced := @placed_container code _ _ hname hversion
  have hlen := @length_container code _ _ hname hversion
  have hnumber {off value : ℕ} (h : (off, beBytes 4 value) ∈ placed 0 (container code name version))
      (hvalue : value < 2 ^ 32) := container_number h hvalue
  have h8 := @hnumber 8 1 (by simp [hplaced]) (by norm_num)
  have h12 := @hnumber 12 136 (by simp [hplaced]) (by norm_num)
  have h16 := @hnumber 16 0 (by simp [hplaced]) (by norm_num)
  have h20 := @hnumber 20 136 (by simp [hplaced]) (by norm_num)
  have h24 := @hnumber 24 code.length (by simp [hplaced]) (by omega)
  have h28 := @hnumber 28 0 (by simp [hplaced]) (by norm_num)
  have hmagic : slice (container code name version).flatten 0 8 = V32_BOGAPP_MAGIC :=
    @slice_part _ _ _ MAGIC (by simp [hplaced]) (by decide)
  have htext₁ : slice (container code name version).flatten 32 24 = name :=
    slice_part (by simp [hplaced]) hname
  have htext₂ : slice (container code name version).flatten 56 16 = version :=
    slice_part (by simp [hplaced]) hversion
  have hhash : slice (container code name version).flatten 72 32 = digest code :=
    slice_part (by simp [hplaced]) (length_digest _)
  have hmanifest : slice (container code name version).flatten 104 32 =
      digest (parts code name version).flatten :=
    slice_part (by simp [hplaced]) (length_digest _)
  have hbody : slice (container code name version).flatten 136 code.length = code :=
    slice_part (by simp [hplaced]) rfl
  have hsha : (sha256 (parts code name version).flatten).val =
      digest (parts code name version).flatten := by
    rw [(sha256_eq_standard_or_unpadded _).1 (.inr ?_)]
    · rfl
    · rw [length_parts hname hversion]
      decide
  have hheader : V32_BOGAPP_HEADER_SIZE = 136 := rfl
  simp only [parse_dynamic_app, bind_eq_ok, reject_if_eq_ok, ok_or_eq_ok, hlen, hmagic, h8, h12,
    h16, h20, h24, h28, htext₁, htext₂, hhash, hmanifest, hbody, hsha, hheader,
    slice_manifest hname hversion, Except.ok.injEq]
  constructor
  · rintro ⟨-, -, -, -, -, -, -, -, n, hn, v, hv, -, -, -, -, -, -, -, -, -, -, -, -, -, -, -, -,
      -, hdigest, rfl⟩
    exact ⟨n, v, hn, hv, Subtype.ext (not_not.mp hdigest), rfl⟩
  · rintro ⟨n, v, hn, hv, hdigest, rfl⟩
    refine ⟨(), by omega, (), by simp, (), by simp, (), by simp, n, hn, v, hv, (), by omega, (),
      by simp, (), by omega, (), by omega, (), by omega, (), by omega, (), by simp, (), by simp, (),
      ?_, rfl⟩
    rw [hdigest]
    exact not_not.mpr rfl

end Container

/-- Texts that fit are packed. -/
theorem pack_app_of_text {code : Bytes} {name version : String} (hname : Text name 24)
    (hversion : Text version 16) (hcode : code.length < 2 ^ 32) :
    ∃ packed, pack_app code name version 0 0 none = .ok packed := by
  have hsmall (value : ℤ) (h : 0 ≤ value ∧ value < 2 ^ 32) :
      to_bytes_4 beBytes value = .ok (beBytes 4 value.toNat) := to_bytes_4_eq_ok.mpr ⟨h, rfl⟩
  have hlen := @length_parts code _ _ hname.field.1 hversion.field.1
  unfold pack_app
  rw [hsmall FORMAT_VERSION (by decide), hsmall HEADER_SIZE (by decide),
    hsmall 0 (by decide), hsmall (code.length : ℤ) (by omega),
    fixed_text_eq_ok.mpr ⟨hname, rfl⟩, fixed_text_eq_ok.mpr ⟨hversion, rfl⟩]
  refine ⟨_, if_neg ?_⟩
  exact not_not.mpr hlen

end V32

/-! ## The container of the persistent file system -/

namespace V39

/-- The fields of a header without capabilities. -/
def fields (code name version : Bytes) (entrypoint : ℕ) : List (ℕ × Bytes) :=
  [(0, MAGIC), (8, leBytes 4 2), (12, leBytes 4 160), (16, leBytes 4 (160 + code.length)),
    (20, leBytes 4 entrypoint), (24, leBytes 4 160), (28, leBytes 4 code.length),
    (32, leBytes 4 0), (36, leBytes 4 2), (40, leBytes 4 4), (44, leBytes 4 128), (48, name),
    (80, version), (96, digest code)]

def header (code name version : Bytes) (entrypoint : ℕ) : Bytes :=
  write (zeros 160) (fields code name version entrypoint ++
    [(128, digest (slice (write (zeros 160) (fields code name version entrypoint)) 0 128))])

theorem pack_app_eq_ok {code packed : Bytes} {name version : String} {entrypoint : ℕ}
    (h : pack_app code name version entrypoint 0 ABI_VERSION = .ok packed) :
    Text name 32 ∧ Text version 16 ∧ packed = header code
      (ascii name ++ zeros (32 - (ascii name).length))
      (ascii version ++ zeros (16 - (ascii version).length)) entrypoint ++ code := by
  unfold pack_app at h
  simp only [bind_eq_ok] at h
  obtain ⟨format_version, h₁, header_size, h₂, container_size, h₃, entry, h₄, code_length, h₅,
    capabilities, h₆, abi_version, h₇, launch_limit, h₈, memory_limit, h₉, name_field, hn,
    version_field, hv, h⟩ := h
  obtain ⟨hname, rfl⟩ := fixed_text_eq_ok.mp hn
  obtain ⟨hversion, rfl⟩ := fixed_text_eq_ok.mp hv
  obtain rfl := (to_bytes_4_eq_ok.mp h₁).2
  obtain rfl := (to_bytes_4_eq_ok.mp h₂).2
  obtain rfl := (to_bytes_4_eq_ok.mp h₃).2
  obtain rfl := (to_bytes_4_eq_ok.mp h₄).2
  obtain rfl := (to_bytes_4_eq_ok.mp h₅).2
  obtain rfl := (to_bytes_4_eq_ok.mp h₆).2
  obtain rfl := (to_bytes_4_eq_ok.mp h₇).2
  obtain rfl := (to_bytes_4_eq_ok.mp h₈).2
  obtain rfl := (to_bytes_4_eq_ok.mp h₉).2
  refine ⟨hname, hversion, (Except.ok.inj h).symm.trans ?_⟩
  have hsize : ((HEADER_SIZE : ℤ) + (code.length : ℤ)).toNat = 160 + code.length := by
    show ((160 : ℕ) + (code.length : ℤ) : ℤ).toNat = _
    omega
  rw [hsize, header, write_append]
  rfl

/-- Texts that fit are packed. -/
theorem pack_app_of_text {code : Bytes} {name version : String} {entrypoint : ℕ}
    (hname : Text name 32) (hversion : Text version 16) (hcode : code.length < 2 ^ 31)
    (hentry : entrypoint < code.length) :
    ∃ packed, pack_app code name version entrypoint 0 ABI_VERSION = .ok packed := by
  have hsmall (value : ℤ) (h : 0 ≤ value ∧ value < 2 ^ 32) :
      to_bytes_4 leBytes value = .ok (leBytes 4 value.toNat) := to_bytes_4_eq_ok.mpr ⟨h, rfl⟩
  have hsize : (HEADER_SIZE : ℤ) = 160 := rfl
  unfold pack_app
  rw [hsmall FORMAT_VERSION (by decide), hsmall (HEADER_SIZE : ℤ) (by decide),
    hsmall ((HEADER_SIZE : ℤ) + code.length) (by omega),
    hsmall (entrypoint : ℤ) (by omega), hsmall (code.length : ℤ) (by omega),
    hsmall 0 (by decide), hsmall ABI_VERSION (by decide),
    hsmall 4 (by decide), hsmall 128 (by decide),
    fixed_text_eq_ok.mpr ⟨hname, rfl⟩, fixed_text_eq_ok.mpr ⟨hversion, rfl⟩]
  exact ⟨_, rfl⟩

/-- The hash in a header, and the fields in front of it. -/
def all_fields (code name version : Bytes) (entrypoint : ℕ) : List (ℕ × Bytes) :=
  fields code name version entrypoint ++
    [(128, digest (slice (write (zeros 160) (fields code name version entrypoint)) 0 128))]

section Header

variable {code name version : Bytes} {entrypoint : ℕ} (hname : name.length = 32)
  (hversion : version.length = 16)

include hname hversion

theorem fields_within : Within 128 (fields code name version entrypoint) := by
  have hmagic : MAGIC.length = 8 := by decide
  simp [Within, fields, hmagic, hname, hversion]

theorem all_fields_within :
    Within (zeros 160).length (all_fields code name version entrypoint) := by
  intro f hf
  rw [length_zeros]
  rcases List.mem_append.mp hf with hf | hf
  · have := fields_within hname hversion f hf
    omega
  · rw [List.mem_singleton.mp hf, length_digest]

theorem all_fields_apart : (all_fields code name version entrypoint).Pairwise Apart := by
  have hmagic : MAGIC.length = 8 := by decide
  simp [Apart, all_fields, fields, hmagic, hname, hversion]

theorem length_header : (header code name version entrypoint).length = 160 :=
  (length_write (all_fields_within hname hversion)).trans (length_zeros 160)

theorem slice_header {off len : ℕ} (h : off + len ≤ 160) (back : Bytes) :
    slice (header code name version entrypoint ++ back) off len =
      slice (header code name version entrypoint) off len :=
  slice_append_left _ _ (by rw [length_header hname hversion]; exact h)

theorem header_field {off len : ℕ} {field : Bytes}
    (h : (off, field) ∈ all_fields code name version entrypoint) (hlen : field.length = len)
    (back : Bytes) : slice (header code name version entrypoint ++ back) off len = field := by
  have hin : off + field.length ≤ (zeros 160).length := all_fields_within hname hversion _ h
  rw [length_zeros] at hin
  rw [slice_header hname hversion (by omega)]
  exact slice_write_field (all_fields_within hname hversion) (all_fields_apart hname hversion) h hlen

theorem header_number {off value : ℕ}
    (h : (off, leBytes 4 value) ∈ all_fields code name version entrypoint) (hvalue : value < 2 ^ 32)
    (back : Bytes) :
    v37_read_u32 (header code name version entrypoint ++ back) off = value := by
  rw [v37_read_u32, header_field hname hversion h (length_leBytes 4 value), leValue_u32 hvalue]

/-- The bytes that the hash of a header covers. -/
theorem slice_covered (back : Bytes) : slice (header code name version entrypoint ++ back) 0 128 =
    slice (write (zeros 160) (fields code name version entrypoint)) 0 128 := by
  have hin : Within (zeros 160).length (fields code name version entrypoint) := fun f hf =>
    all_fields_within hname hversion f (List.mem_append_left _ hf)
  have hhash : Within (write (zeros 160) (fields code name version entrypoint)).length
      [(128, digest (slice (write (zeros 160) (fields code name version entrypoint)) 0 128))] := by
    intro f hf
    rw [List.mem_singleton.mp hf, length_write hin, length_zeros, length_digest]
  rw [slice_header hname hversion (by omega), header, write_append]
  refine slice_write_gap hhash fun f hf => ?_
  rw [List.mem_singleton.mp hf]
  exact .inl le_rfl

/-- The loader reads back the texts, the code and the entry point, when the texts are canonical. -/
theorem parse_header (hcode : 0 < code.length) (hmax : code.length ≤ 352)
    (hentry : entrypoint < code.length) {app : V39App} :
    v39_parse_app (header code name version entrypoint ++ code) = .ok app ↔
      ∃ n v, fixed_ascii_field name = some n ∧ fixed_ascii_field version = some v ∧
        app = ⟨n, v, code, entrypoint, 0, 2,
          digest (slice (write (zeros 160) (fields code name version entrypoint)) 0 128),
          sha256_standard code⟩ := by
  have hlen : (header code name version entrypoint ++ code).length = 160 + code.length := by
    rw [List.length_append, length_header hname hversion]
  have hnumber {off value : ℕ}
      (h : (off, leBytes 4 value) ∈ all_fields code name version entrypoint)
      (hvalue : value < 2 ^ 32) := header_number hname hversion h hvalue code
  have hfield {off len : ℕ} {field : Bytes}
      (h : (off, field) ∈ all_fields code name version entrypoint) (hlen : field.length = len) :=
    header_field hname hversion h hlen code
  have h8 := @hnumber 8 2 (by simp [all_fields, fields]) (by norm_num)
  have h12 := @hnumber 12 160 (by simp [all_fields, fields]) (by norm_num)
  have h16 := @hnumber 16 (160 + code.length) (by simp [all_fields, fields]) (by omega)
  have h20 := @hnumber 20 entrypoint (by simp [all_fields, fields]) (by omega)
  have h24 := @hnumber 24 160 (by simp [all_fields, fields]) (by norm_num)
  have h28 := @hnumber 28 code.length (by simp [all_fields, fields]) (by omega)
  have h32 := @hnumber 32 0 (by simp [all_fields, fields]) (by norm_num)
  have h36 := @hnumber 36 2 (by simp [all_fields, fields]) (by norm_num)
  have h40 := @hnumber 40 4 (by simp [all_fields, fields]) (by norm_num)
  have h44 := @hnumber 44 128 (by simp [all_fields, fields]) (by norm_num)
  have hmagic := @hfield 0 8 (ascii "BOGAPP39") (by simp [all_fields, fields, MAGIC]) (by decide)
  have htext₁ := @hfield 48 32 name (by simp [all_fields, fields]) hname
  have htext₂ := @hfield 80 16 version (by simp [all_fields, fields]) hversion
  have hhash : v37_copy_hash (header code name version entrypoint ++ code) 96 = digest code :=
    @hfield 96 32 (digest code) (by simp [all_fields, fields]) (length_digest _)
  have hmanifest : v37_copy_hash (header code name version entrypoint ++ code) 128 =
      digest (slice (write (zeros 160) (fields code name version entrypoint)) 0 128) :=
    hfield (by simp [all_fields]) (length_digest _)
  have hbody : slice (header code name version entrypoint ++ code) 160 code.length = code := by
    rw [slice_append_right _ _ (length_header hname hversion).le, length_header hname hversion,
      Nat.sub_self, slice_eq_self _ le_rfl]
  have hsize : V39_HEADER_SIZE = 160 := rfl
  have hsector : V36_SECTOR_SIZE = 512 := rfl
  have habi : V39_SUPPORTED_ABI = 2 := rfl
  simp only [v39_parse_app, v39_fixed_ascii, bind_eq_ok, reject_if_eq_ok, ok_or_eq_ok, hlen, hmagic,
    h8, h12, h16, h20, h24, h28, h32, h36, h40, h44, htext₁, htext₂, hhash, hmanifest, hbody, hsize,
    hsector, habi, slice_covered hname hversion, Except.ok.injEq]
  constructor
  · rintro ⟨-, -, -, -, -, -, -, -, -, -, -, -, -, -, -, -, -, -, -, -, -, -, -, -, n, hn, v, hv, -,
      -, -, -, -, -, rfl⟩
    exact ⟨n, v, hn, hv, rfl⟩
  · rintro ⟨n, v, hn, hv, rfl⟩
    refine ⟨(), by omega, (), by simp, (), by simp, (), by simp, (), by simp, (), by simp, (),
      by omega, (), by omega, (), by omega, (), by simp, (), by simp, (), by omega, n, hn, v, hv, (),
      not_not.mpr rfl, (), by omega, (), not_not.mpr rfl, rfl⟩

end Header

end V39

/-! ## Agreement -/

/-- The dynamic loader reads back what was packed. -/
def V32Agrees (code : Bytes) (name version : String) (packed : Bytes) : Prop :=
  ∃ app, parse_dynamic_app packed = .ok app ∧ app.name = ascii name ∧ app.version = ascii version ∧
    app.code = code

/-- The loader of the persistent file system reads back what was packed. -/
def V39Agrees (code : Bytes) (name version : String) (entrypoint : ℕ) (packed : Bytes) : Prop :=
  ∃ app, v39_parse_app packed = .ok app ∧ app.name = ascii name ∧ app.version = ascii version ∧
    app.code = code ∧ app.entrypoint = entrypoint

/-- No character of a text is NUL. -/
def NoNul (text : String) : Prop := 0 ∉ ascii text

/-- A loader reads back what its packer accepted exactly when neither text holds a NUL and, for the
dynamic loader, the code does not end at a block boundary of the hash where its padding matters. -/
theorem packers_agree_iff {code packed : Bytes} {name version : String} (hcode : 0 < code.length) :
    (code.length ≤ 65536 → V32.pack_app code name version 0 0 none = .ok packed →
      (V32Agrees code name version packed ↔
        NoNul name ∧ NoNul version ∧ (code.length % 64 ≠ 0 ∨ PaddingFixed code))) ∧
    ∀ {entrypoint : ℕ}, code.length ≤ 352 → entrypoint < code.length →
      V39.pack_app code name version entrypoint 0 V39.ABI_VERSION = .ok packed →
      (V39Agrees code name version entrypoint packed ↔ NoNul name ∧ NoNul version) := by
  constructor
  · intro hmax hpack
    obtain ⟨hname, hversion, rfl⟩ := V32.pack_app_eq_ok hpack
    obtain ⟨hlen₁, hread₁⟩ := hname.field
    obtain ⟨hlen₂, hread₂⟩ := hversion.field
    have hne : code ≠ [] := List.ne_nil_of_length_pos hcode
    have hdigest : sha256 code = sha256_standard code ↔ code.length % 64 ≠ 0 ∨ PaddingFixed code := by
      rw [sha256_eq_standard_iff, or_iff_right hne]
    unfold V32Agrees
    simp only [V32.parse_container hlen₁ hlen₂ hcode hmax]
    rw [← hdigest]
    constructor
    · rintro ⟨app, ⟨n, v, hn, hv, hsame, rfl⟩, rfl, rfl, -⟩
      exact ⟨hread₁.mp hn, hread₂.mp hv, hsame⟩
    · rintro ⟨hn, hv, hsame⟩
      exact ⟨_, ⟨_, _, hread₁.mpr hn, hread₂.mpr hv, hsame, rfl⟩, rfl, rfl, rfl⟩
  · intro entrypoint hmax hentry hpack
    obtain ⟨hname, hversion, hpacked⟩ := V39.pack_app_eq_ok hpack
    obtain ⟨hlen₁, hread₁⟩ := hname.field
    obtain ⟨hlen₂, hread₂⟩ := hversion.field
    unfold V39Agrees
    rw [hpacked]
    simp only [V39.parse_header hlen₁ hlen₂ hcode hmax hentry]
    constructor
    · rintro ⟨app, ⟨n, v, hn, hv, rfl⟩, rfl, rfl, -, -⟩
      exact ⟨hread₁.mp hn, hread₂.mp hv⟩
    · rintro ⟨hn, hv⟩
      exact ⟨_, ⟨_, _, hread₁.mpr hn, hread₂.mpr hv, rfl⟩, rfl, rfl, rfl, rfl⟩

/-- The two packers on one byte of code. -/
theorem packers_agree_one_byte :
    (∃ packed, V32.pack_app [0x90] "a" "1" 0 0 none = .ok packed ∧
      (V32Agrees [0x90] "a" "1" packed ↔
        NoNul "a" ∧ NoNul "1" ∧ ([0x90].length % 64 ≠ 0 ∨ PaddingFixed [0x90]))) ∧
    ∃ packed, V39.pack_app [0x90] "a" "1" (0 : ℕ) 0 V39.ABI_VERSION = .ok packed ∧
      (V39Agrees [0x90] "a" "1" 0 packed ↔ NoNul "a" ∧ NoNul "1") := by
  have hname (size : ℕ) (h : 1 < size) : Text "a" size :=
    ⟨by simp, by decide, h⟩
  have hversion : Text "1" 16 := ⟨by simp, by decide, by decide⟩
  constructor
  · obtain ⟨packed, hpack⟩ := @V32.pack_app_of_text [0x90] _ _ (hname 24 (by decide)) hversion
      (by norm_num)
    exact ⟨packed, hpack, (packers_agree_iff (by decide)).1 (by decide) hpack⟩
  · obtain ⟨packed, hpack⟩ := @V39.pack_app_of_text [0x90] _ _ 0 (hname 32 (by decide)) hversion
      (by norm_num) (by decide)
    exact ⟨packed, hpack, (packers_agree_iff (by decide)).2 (by decide) (by decide) hpack⟩

/-- Sixty-four zero bytes of code are packed, and the dynamic loader rejects the container. -/
theorem block_of_code_not_loaded : ∃ packed,
    V32.pack_app (zeros 64) "a" "1" 0 0 none = .ok packed ∧
      ¬ V32Agrees (zeros 64) "a" "1" packed := by
  have hname : Text "a" 24 := ⟨by simp, by decide, by decide⟩
  have hversion : Text "1" 16 := ⟨by simp, by decide, by decide⟩
  have hlen : (zeros 64).length = 64 := length_zeros 64
  obtain ⟨packed, hpack⟩ := @V32.pack_app_of_text (zeros 64) _ _ hname hversion (by omega)
  refine ⟨packed, hpack, ?_⟩
  rintro ⟨app, happ, -⟩
  obtain ⟨-, -, rfl⟩ := V32.pack_app_eq_ok hpack
  rw [V32.parse_container hname.field.1 hversion.field.1 (by omega) (by omega)] at happ
  obtain ⟨n, v, -, -, hsame, -⟩ := happ
  revert hsame
  decide +kernel

end Bogbin.Tools
