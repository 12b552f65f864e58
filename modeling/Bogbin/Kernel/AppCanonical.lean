import Bogbin.Kernel.App

/-!
# Canonical containers

Whether the length, the header and the code of an accepted container determine it.  They do for the
dynamic loader, which compares the end of the code with the length of the container.  The persistent
file system compares the length with the declared container size only, so its containers are
canonical exactly when that size ends with the code (`containers_canonical_iff`).
-/

namespace Bogbin.Kernel

open Buffer Bogbin.Core

/-- The length of an accepted container is where its code ends, no other accepted container has its
header and its code, and no accepted container continues it. -/
def Canonical {α : Type} (parse : Bytes → Except String α) (code : α → Bytes)
    (header_size code_offset code_length : ℕ) (content : Bytes) (app : α) : Prop :=
  content.length = code_offset + code_length ∧
    (∀ content' app', parse content' = .ok app' →
      content'.take header_size = content.take header_size → code app' = code app →
      content' = content) ∧
    ∀ extra app', extra ≠ [] → parse (content ++ extra) ≠ .ok app'

theorem eq_of_header_code {content content' : Bytes} {n : ℕ}
    (hheader : content'.take n = content.take n)
    (hcode : slice content' n (content'.length - n) = slice content n (content.length - n)) :
    content' = content := by
  unfold slice at hcode
  rw [← List.length_drop, ← List.length_drop, List.take_length, List.take_length] at hcode
  rw [← List.take_append_drop n content', hheader, hcode, List.take_append_drop]

/-- A window inside the header. -/
theorem slice_of_header {content content' : Bytes} {n off len : ℕ} (h : off + len ≤ n)
    (hheader : content'.take n = content.take n) : slice content' off len = slice content off len := by
  refine slice_congr fun i hi => ?_
  have htake := congrArg (·[off + i]?) hheader
  rwa [List.getElem?_take_of_lt (by omega), List.getElem?_take_of_lt (by omega)] at htake

theorem take_append_of_le {content extra : Bytes} {n : ℕ} (h : n ≤ content.length) :
    (content ++ extra).take n = content.take n := by
  rw [List.take_append_of_le_length h]

section Dynamic

variable {content content' : Bytes} {app app' : DynamicApp}

/-- What the dynamic loader has compared with the length of a container. -/
theorem parse_dynamic_app_window (h : parse_dynamic_app content = .ok app) :
    read_be_u32 content 20 = 136 ∧ content.length = 136 + read_be_u32 content 24 ∧
      app.code = slice content 136 (content.length - 136) := by
  have hsize : V32_BOGAPP_HEADER_SIZE = 136 := rfl
  unfold parse_dynamic_app at h
  simp only [bind_eq_ok, reject_if_eq_ok, hsize] at h
  obtain ⟨-, -, -, -, -, -, -, -, name, -, version, -, -, -, -, hoffset, -, -, -, hle, -, hge, -, -, -,
    -, -, -, -, -, h⟩ := h
  obtain ⟨hoffset, -⟩ := not_or.mp hoffset
  have hoffset := not_not.mp hoffset
  rw [hoffset] at hle hge h
  have hlength : content.length = 136 + read_be_u32 content 24 := by omega
  refine ⟨hoffset, hlength, ?_⟩
  rw [← Except.ok.inj h, hlength, Nat.add_sub_cancel_left]

theorem dynamic_length_of_header (h : parse_dynamic_app content = .ok app)
    (h' : parse_dynamic_app content' = .ok app')
    (hheader : content'.take 136 = content.take 136) : content'.length = content.length := by
  have hread : read_be_u32 content' 24 = read_be_u32 content 24 :=
    congrArg beValue (slice_of_header (by norm_num) hheader)
  rw [(parse_dynamic_app_window h).2.1, (parse_dynamic_app_window h').2.1, hread]

/-- Every container of the dynamic loader is canonical. -/
theorem dynamic_canonical (h : parse_dynamic_app content = .ok app) :
    Canonical parse_dynamic_app (·.code) V32_BOGAPP_HEADER_SIZE (read_be_u32 content 20)
      (read_be_u32 content 24) content app := by
  obtain ⟨hoffset, hlength, hcode⟩ := parse_dynamic_app_window h
  have hsize : V32_BOGAPP_HEADER_SIZE = 136 := rfl
  have hle : 136 ≤ content.length := by omega
  rw [Canonical, hsize]
  refine ⟨by rw [hoffset, hlength], fun content' app' h' hheader hsame => ?_, ?_⟩
  · obtain ⟨-, -, hcode'⟩ := parse_dynamic_app_window h'
    exact eq_of_header_code hheader (hcode'.symm.trans (hsame.trans hcode))
  · intro extra app' hextra h'
    have hlen := dynamic_length_of_header h h' (take_append_of_le hle)
    rw [List.length_append] at hlen
    exact hextra (List.eq_nil_of_length_eq_zero (by omega))

end Dynamic

section Persistent

variable {content content' : Bytes} {app app' : V39App}

/-- What the persistent file system has compared with the length of a container. -/
theorem v39_parse_app_window (h : v39_parse_app content = .ok app) :
    v37_read_u32 content 16 = content.length ∧ v37_read_u32 content 24 = 160 ∧
      160 + v37_read_u32 content 28 ≤ content.length ∧
      app.code = slice content 160 (v37_read_u32 content 28) := by
  have hsize : V39_HEADER_SIZE = 160 := rfl
  unfold v39_parse_app at h
  simp only [bind_eq_ok, reject_if_eq_ok, hsize] at h
  obtain ⟨-, -, -, -, -, -, -, -, -, hcontainer, -, hoffset, -, -, -, -, -, -, -, -, -, -, -, -,
    name, -, version, -, -, -, -, hend, -, -, h⟩ := h
  have hoffset := not_not.mp hoffset
  rw [hoffset] at hend h
  refine ⟨not_not.mp hcontainer, hoffset, by omega, ?_⟩
  rw [← Except.ok.inj h]

theorem v39_length_of_header (h : v39_parse_app content = .ok app)
    (h' : v39_parse_app content' = .ok app')
    (hheader : content'.take 160 = content.take 160) : content'.length = content.length := by
  rw [← (v39_parse_app_window h).1, ← (v39_parse_app_window h').1]
  exact congrArg leValue (slice_of_header (by norm_num) hheader)

/-- A container of the persistent file system is canonical when its declared size ends with the code,
and only then. -/
theorem v39_canonical_iff (h : v39_parse_app content = .ok app) :
    Canonical v39_parse_app (·.code) V39_HEADER_SIZE (v37_read_u32 content 24)
        (v37_read_u32 content 28) content app ↔
      v37_read_u32 content 16 = v37_read_u32 content 24 + v37_read_u32 content 28 := by
  obtain ⟨hcontainer, hoffset, hend, hcode⟩ := v39_parse_app_window h
  have hsize : V39_HEADER_SIZE = 160 := rfl
  have hle : 160 ≤ content.length := by omega
  rw [Canonical, hsize]
  constructor
  · rintro ⟨hlength, -⟩
    rw [hcontainer, hlength]
  · intro hexact
    rw [hcontainer, hoffset] at hexact
    have hwhole : v37_read_u32 content 28 = content.length - 160 := by omega
    refine ⟨by rw [hexact, hoffset], fun content' app' h' hheader hsame => ?_, ?_⟩
    · obtain ⟨-, -, -, hcode'⟩ := v39_parse_app_window h'
      have hlen := v39_length_of_header h h' hheader
      have hread : v37_read_u32 content' 28 = v37_read_u32 content 28 :=
        congrArg leValue (slice_of_header (by norm_num) hheader)
      rw [hwhole] at hcode
      rw [hread, hwhole, ← hlen] at hcode'
      exact eq_of_header_code hheader (hcode'.symm.trans (hsame.trans hcode))
    · intro extra app' hextra h'
      have hlen := v39_length_of_header h h' (take_append_of_le hle)
      rw [List.length_append] at hlen
      exact hextra (List.eq_nil_of_length_eq_zero (by omega))

end Persistent

/-- What a parser accepts is canonical: always for the dynamic loader, and for the persistent file
system exactly when the declared container size ends with the code. -/
theorem containers_canonical_iff (content : Bytes) :
    (∀ app, parse_dynamic_app content = .ok app →
      Canonical parse_dynamic_app (·.code) V32_BOGAPP_HEADER_SIZE (read_be_u32 content 20)
        (read_be_u32 content 24) content app) ∧
    ∀ app, v39_parse_app content = .ok app →
      (Canonical v39_parse_app (·.code) V39_HEADER_SIZE (v37_read_u32 content 24)
          (v37_read_u32 content 28) content app ↔
        v37_read_u32 content 16 = v37_read_u32 content 24 + v37_read_u32 content 28) :=
  ⟨fun _ h => dynamic_canonical h, fun _ h => v39_canonical_iff h⟩

/-! ## A container with a byte behind its code -/

/-- The container of one byte of code that declares a size of its own, followed by `rest`. -/
def one_byte_container (size : ℕ) (rest : Bytes) : Bytes :=
  let manifest := ascii "BOGAPP39" ++ [2, 160, size, 0, 160, 1, 0, 2, 4, 128].flatMap (leBytes 4) ++
    (ascii "a" ++ zeros 31) ++ (ascii "1" ++ zeros 15) ++ (sha256_standard [0x90]).val
  manifest ++ (sha256_standard manifest).val ++ 0x90 :: rest

theorem one_byte_container_append (size : ℕ) (rest : Bytes) :
    one_byte_container size rest = one_byte_container size [] ++ rest :=
  (List.append_assoc _ [0x90] rest).symm

theorem length_one_byte_container (size : ℕ) : (one_byte_container size []).length = 161 := by
  unfold one_byte_container
  rw [List.length_append, List.length_append, (sha256_standard _).property, List.length_append,
    (sha256_standard _).property]
  rfl

/-- A container that ends with its code is canonical. -/
theorem exact_container_canonical : ∃ app, v39_parse_app (one_byte_container 161 []) = .ok app ∧
    Canonical v39_parse_app (·.code) V39_HEADER_SIZE 160 1 (one_byte_container 161 []) app := by
  have hok : (v39_parse_app (one_byte_container 161 [])).isOk = true := by decide +kernel
  cases h : v39_parse_app (one_byte_container 161 []) with
  | error e =>
    rw [h] at hok
    exact absurd hok Bool.false_ne_true
  | ok app =>
    have h24 : v37_read_u32 (one_byte_container 161 []) 24 = 160 := by decide +kernel
    have h28 : v37_read_u32 (one_byte_container 161 []) 28 = 1 := by decide +kernel
    have hcanonical := ((containers_canonical_iff (one_byte_container 161 [])).2 app h).mpr
      (by decide +kernel)
    rw [h24, h28] at hcanonical
    exact ⟨app, rfl, hcanonical⟩

/-- Two containers with the same header and the same code, and a byte behind it that no hash covers. -/
theorem byte_behind_code_accepted :
    (∃ app, v39_parse_app (one_byte_container 162 [0]) = .ok app ∧
      ¬ Canonical v39_parse_app (·.code) V39_HEADER_SIZE 160 1 (one_byte_container 162 [0]) app) ∧
    ∃ app, v39_parse_app (one_byte_container 162 [1]) = .ok app ∧
      (one_byte_container 162 [1]).take 161 = (one_byte_container 162 [0]).take 161 ∧
      one_byte_container 162 [1] ≠ one_byte_container 162 [0] := by
  have hlen : (one_byte_container 162 [0]).length = 162 := by
    rw [one_byte_container_append, List.length_append, length_one_byte_container]
    rfl
  have hok : (v39_parse_app (one_byte_container 162 [0])).isOk = true := by decide +kernel
  have hok' : (v39_parse_app (one_byte_container 162 [1])).isOk = true := by decide +kernel
  constructor
  · cases h : v39_parse_app (one_byte_container 162 [0]) with
    | error e =>
      rw [h] at hok
      exact absurd hok Bool.false_ne_true
    | ok app =>
      refine ⟨app, rfl, fun hcanonical => ?_⟩
      have hexact := hcanonical.1
      rw [hlen] at hexact
      norm_num at hexact
  · cases h : v39_parse_app (one_byte_container 162 [1]) with
    | error e =>
      rw [h] at hok'
      exact absurd hok' Bool.false_ne_true
    | ok app =>
      refine ⟨app, rfl, ?_, ?_⟩
      · rw [one_byte_container_append 162 [1], one_byte_container_append 162 [0],
          List.take_left' (length_one_byte_container 162), List.take_left' (length_one_byte_container 162)]
      · rw [one_byte_container_append 162 [1], one_byte_container_append 162 [0]]
        exact fun heq => absurd (List.append_cancel_left heq) (by decide)

end Bogbin.Kernel
