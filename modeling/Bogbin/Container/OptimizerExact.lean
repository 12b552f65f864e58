import Bogbin.Container.Builder
import Mathlib.Data.Nat.Count
import Mathlib.Data.Prod.Lex

/-!
# The residual optimizer is exact

`optimize_residual_plan` tries one start byte for each slope of a line and for two of the constant
bases.  Of a line it is the start at which most offsets would begin, and the constant bases have the
bytes of an earlier basis, so that every candidate it leaves out is dominated by one that it tries
(`dominated`).  Its plan is the least of all candidates, with the first of equals
(`optimize_residual_plan_exact`).
-/

namespace Bogbin.Container

open Bogvm Vm StateExcept

/-- The number of positions at which two strings of bytes differ. -/
def mismatches (data generated : Bytes) : ℕ :=
  Nat.count (fun i => data[i]? ≠ generated[i]?) data.length

/-- The candidates of the whole search: the coefficients are bytes, and only a line has a slope. -/
def Candidate.Allowed (candidate : Candidate) : Prop :=
  candidate.basis ≠ .delta_u8 → candidate.delta = 0

/-- The order of candidates with equally many residuals: the basis, the start byte, the slope. -/
def Candidate.rank (candidate : Candidate) : ℕ ×ₗ ℕ ×ₗ ℕ :=
  toLex (BASIS_ORDER.idxOf candidate.basis,
    toLex (candidate.start_byte.toNat, candidate.delta.toNat))

/-- The candidate of a plan. -/
def ResidualPlan.candidate (plan : ResidualPlan) : Candidate :=
  ⟨plan.basis, plan.start_byte, plan.delta⟩

/-! ## Scans -/

section Scans

variable {α : Type} {key : α → List ℕ} {items : List α} {best item : α} {value n : ℕ}

/-- The scan for the least key finds no key above that of an item. -/
theorem least_scan (key : α → List ℕ) (rest : List α) : ∀ first, ∀ item ∈ first :: rest,
    key (rest.foldl (fun best candidate => if key candidate < key best then candidate else best)
      first) ≤ key item := by
  induction rest with
  | nil => exact fun first item hitem => (congrArg key (List.mem_singleton.mp hitem)).ge
  | cons next rest ih =>
    intro first item hitem
    rw [List.foldl_cons]
    split_ifs with hlt
    · have hnext := ih next next List.mem_cons_self
      rcases List.mem_cons.mp hitem with rfl | hrest
      · exact hnext.trans hlt.le
      · exact ih next item hrest
    · have hfirst := ih first first List.mem_cons_self
      rcases List.mem_cons.mp hitem with rfl | hrest
      · exact hfirst
      rcases List.mem_cons.mp hrest with rfl | hrest
      · exact hfirst.trans (not_lt.mp hlt)
      · exact ih first item (List.mem_cons_of_mem _ hrest)

theorem least_le (h : least key items = .ok best) (hitem : item ∈ items) : key best ≤ key item := by
  cases items with
  | nil => cases hitem
  | cons first rest =>
    obtain rfl := Except.ok.inj h
    exact least_scan key rest first item hitem

/-- The scan for the largest count keeps the first of equals. -/
theorem most_counted_scan (counts : ℕ → ℕ) (hvalue : value ≤ n) :
    let best := (List.range (n + 1)).foldl
      (fun best value => if counts best < counts value then value else best) 0
    best ≤ n ∧ counts value ≤ counts best ∧ (counts value = counts best → best ≤ value) := by
  induction n generalizing value with
  | zero =>
    obtain rfl : value = 0 := by omega
    simp
  | succ n ih =>
    rw [List.range_succ, List.foldl_append, List.foldl_cons, List.foldl_nil]
    have hbefore := @ih n le_rfl
    dsimp only at hbefore ⊢
    rcases Nat.lt_or_ge n value with hnew | hold
    · obtain rfl : value = n + 1 := by omega
      split_ifs with hlt
      · exact ⟨le_rfl, le_rfl, fun _ => le_rfl⟩
      · exact ⟨by omega, not_lt.mp hlt, fun _ => by omega⟩
    · have hvalue := ih hold
      dsimp only at hvalue
      split_ifs with hlt
      · exact ⟨le_rfl, by omega, fun _ => by omega⟩
      · exact ⟨by omega, hvalue.2.1, hvalue.2.2⟩

theorem most_counted_spec (counts : ℕ → ℕ) (hvalue : value < 256) :
    counts value ≤ counts (most_counted counts).toNat ∧
      (counts value = counts (most_counted counts).toNat → (most_counted counts).toNat ≤ value) := by
  have hscan := most_counted_scan counts (Nat.le_of_lt_succ hvalue)
  dsimp only at hscan
  have hbyte : (most_counted counts).toNat = (List.range (255 + 1)).foldl
      (fun best value => if counts best < counts value then value else best) 0 :=
    UInt8.toNat_ofNat_of_lt' (Nat.lt_succ_of_le hscan.1)
  rw [hbyte]
  exact hscan.2

end Scans

/-! ## Residual counts -/

section Counts

variable {data generated : Bytes} {start_byte delta : UInt8}

theorem residual_count_eq (hlength : data.length = generated.length) :
    residual_count_of data generated = mismatches data generated := by
  unfold residual_count_of mismatches
  induction data generalizing generated with
  | nil => rfl
  | cons actual data ih =>
    cases generated with
    | nil => cases hlength
    | cons expected generated =>
      rw [List.zip_cons_cons, List.countP_cons, List.length_cons, Nat.count_succ',
        ih (Nat.succ.inj hlength)]
      simp

/-- The bytes of a candidate beside the data. -/
theorem zip_generated (data : Bytes) (candidate : Candidate) :
    data.zip (candidate.generated data.length) = data.zipIdx.map fun item =>
      (item.1, candidate.basis.byte_at candidate.start_byte.toNat candidate.delta.toNat item.2) := by
  rw [Candidate.generated, Basis.bytes, List.zip_map_right, List.zipIdx_eq_zip_range',
    ← List.range_eq_range']
  rfl

/-- A byte is the wrapped value of the line if and only if the line through it starts there. -/
theorem eq_wrap_iff {b : UInt8} {offset : ℤ} :
    b = wrap (start_byte.toNat + offset) ↔ ((b.toNat : ℤ) - offset) % 256 = start_byte.toNat := by
  have hb := b.toNat_lt
  have hstart := start_byte.toNat_lt
  have hwrap : (wrap (start_byte.toNat + offset)).toNat =
      (((start_byte.toNat : ℤ) + offset) % 256).toNat :=
    UInt8.toNat_ofNat_of_lt' (by change _ < 256; omega)
  rw [← UInt8.toNat_inj, hwrap]
  omega

/-- The bytes of a line that agree are those at which a line with its slope starts as it does. -/
theorem line_count (data : Bytes) (start_byte delta : UInt8) :
    residual_count_of data (Candidate.generated ⟨.delta_u8, start_byte, delta⟩ data.length) +
      start_count data delta.toNat start_byte.toNat = data.length := by
  have hstart : start_count data delta.toNat start_byte.toNat = data.zipIdx.countP fun item =>
      item.1 = Basis.delta_u8.byte_at start_byte.toNat delta.toNat item.2 := by
    unfold start_count
    refine List.countP_congr fun item _ => ?_
    rw [decide_eq_true_eq, decide_eq_true_eq]
    exact eq_wrap_iff.symm
  have hsplit := List.length_eq_countP_add_countP (l := data.zipIdx) fun item =>
    decide (item.1 = Basis.delta_u8.byte_at start_byte.toNat delta.toNat item.2)
  rw [List.length_zipIdx] at hsplit
  rw [residual_count_of, zip_generated, List.countP_map, hstart, hsplit, Nat.add_comm,
    Nat.add_left_cancel_iff]
  exact List.countP_congr fun item _ => by simp

end Counts

/-! ## The search -/

section Search

variable {data : Bytes} {candidate tried best : Candidate} {start_byte delta : UInt8}

/-- The keys of two candidates, compared from the left. -/
theorem candidate_key_le_iff : candidate_key data tried ≤ candidate_key data candidate ↔
    residual_count_of data (tried.generated data.length) <
        residual_count_of data (candidate.generated data.length) ∨
      residual_count_of data (tried.generated data.length) =
          residual_count_of data (candidate.generated data.length) ∧
        tried.rank ≤ candidate.rank := by
  have hkey (a b c e a' b' c' e' : ℕ) : [a, b, c, e] ≤ [a', b', c', e'] ↔
      a < a' ∨ a = a' ∧ toLex (b, toLex (c, e)) ≤ toLex (b', toLex (c', e')) := by
    simp only [le_iff_lt_or_eq, List.cons_lt_cons_iff, List.not_lt_nil, List.cons.injEq,
      Prod.Lex.toLex_lt_toLex, EmbeddingLike.apply_eq_iff_eq, Prod.mk.injEq]
    tauto
  exact hkey ..

theorem mem_candidates : ⟨candidate.basis, start_byte, delta⟩ ∈ candidates data ↔
    (start_byte, delta) ∈ coefficient_tuples_for_basis candidate.basis data := by
  unfold candidates
  constructor
  · intro h
    obtain ⟨basis, -, hmem⟩ := List.mem_flatMap.mp h
    obtain ⟨pair, hpair, heq⟩ := List.mem_map.mp hmem
    injection heq with hbasis hstart hdelta
    rw [← hbasis, ← hstart, ← hdelta]
    exact hpair
  · intro h
    exact List.mem_flatMap.mpr ⟨candidate.basis, Basis.mem_BASIS_ORDER _, List.mem_map.mpr ⟨_, h, rfl⟩⟩

/-- A basis whose bytes are those of an earlier one is never better. -/
theorem key_le_of_generated (hsame : ∀ length, tried.generated length = candidate.generated length)
    (hrank : tried.rank ≤ candidate.rank) : candidate_key data tried ≤ candidate_key data candidate := by
  rw [candidate_key_le_iff, hsame]
  exact .inr ⟨rfl, hrank⟩

theorem rank_le_iff : tried.rank ≤ candidate.rank ↔
    BASIS_ORDER.idxOf tried.basis < BASIS_ORDER.idxOf candidate.basis ∨
      BASIS_ORDER.idxOf tried.basis = BASIS_ORDER.idxOf candidate.basis ∧
        (tried.start_byte.toNat < candidate.start_byte.toNat ∨
          tried.start_byte.toNat = candidate.start_byte.toNat ∧
            tried.delta.toNat ≤ candidate.delta.toNat) := by
  unfold Candidate.rank
  simp only [Prod.Lex.toLex_le_toLex]

/-- Every candidate is dominated by one that is tried. -/
theorem dominated (data : Bytes) (h : candidate.Allowed) :
    ∃ tried ∈ candidates data, candidate_key data tried ≤ candidate_key data candidate := by
  obtain ⟨basis, start_byte, delta⟩ := candidate
  have hmem {basis : Basis} {start_byte delta : UInt8}
      (hpair : (start_byte, delta) ∈ coefficient_tuples_for_basis basis data) :
      (⟨basis, start_byte, delta⟩ : Candidate) ∈ candidates data :=
    (@mem_candidates data ⟨basis, 0, 0⟩ start_byte delta).mpr hpair
  have hevery {basis : Basis} (hpair : coefficient_tuples_for_basis basis data =
      all_bytes.map fun start_byte => (start_byte, 0)) :
      (⟨basis, start_byte, 0⟩ : Candidate) ∈ candidates data := by
    refine hmem ?_
    rw [hpair]
    exact List.mem_map.mpr ⟨start_byte, mem_all_bytes start_byte, rfl⟩
  cases basis with
  | zero_block =>
    refine ⟨⟨.zero_block, 0, 0⟩, hmem List.mem_cons_self, key_le_of_generated (fun _ => rfl) ?_⟩
    rw [rank_le_iff]
    simp
    omega
  | delta_u8 =>
    have hpair : (most_counted (start_count data delta.toNat), delta) ∈
        coefficient_tuples_for_basis .delta_u8 data :=
      List.mem_map.mpr ⟨delta.toNat, List.mem_range.mpr delta.toNat_lt, by rw [UInt8.ofNat_toNat]⟩
    refine ⟨_, hmem hpair, ?_⟩
    have hcount := line_count data start_byte delta
    have hbest := line_count data (most_counted (start_count data delta.toNat)) delta
    obtain ⟨hmost, hfirst⟩ := most_counted_spec (start_count data delta.toNat) start_byte.toNat_lt
    rw [candidate_key_le_iff, rank_le_iff]
    dsimp only
    omega
  | dictionary_u8 | rle_u8 =>
    refine ⟨⟨.repeat_byte, start_byte, 0⟩, hevery rfl, key_le_of_generated (fun _ => rfl) ?_⟩
    exact rank_le_iff.mpr (.inl (by dsimp only; decide))
  | repeat_byte | ramp_u8 | triangle_u8 | sine8_u8 | fourier8_u8 =>
    obtain rfl : delta = 0 := h (by simp)
    exact ⟨_, hevery rfl, le_rfl⟩

theorem mem_candidates_allowed (h : candidate ∈ candidates data) : candidate.Allowed := by
  intro hbasis
  have hpair := (@mem_candidates data candidate candidate.start_byte candidate.delta).mp h
  unfold coefficient_tuples_for_basis at hpair
  cases hcase : candidate.basis with
  | delta_u8 => exact absurd hcase hbasis
  | zero_block | dictionary_u8 | rle_u8 =>
    rw [hcase] at hpair
    exact congrArg Prod.snd (List.mem_singleton.mp hpair)
  | repeat_byte | ramp_u8 | triangle_u8 | sine8_u8 | fourier8_u8 =>
    rw [hcase] at hpair
    obtain ⟨start_byte, -, heq⟩ := List.mem_map.mp hpair
    exact (congrArg Prod.snd heq).symm

/-- What the optimizer returns leaves the fewest residuals of all candidates, and is the first of
those that leave as few; its residuals restore the data. -/
theorem optimize_residual_plan_exact (data : Bytes) : ∃ plan generated,
    optimize_residual_plan data = .ok plan ∧
    synthesize_basis plan.basis plan.start_byte.toNat data.length plan.delta.toNat = .ok generated ∧
    plan.candidate.Allowed ∧
    plan.residual_count = mismatches data generated ∧
    apply_residuals (-1) generated plan.residuals = .ok data ∧
    ∀ candidate : Candidate, candidate.Allowed → ∃ other,
      synthesize_basis candidate.basis candidate.start_byte.toNat data.length candidate.delta.toNat =
        .ok other ∧
      plan.residual_count ≤ mismatches data other ∧
      (plan.residual_count = mismatches data other → plan.candidate.rank ≤ candidate.rank) := by
  obtain ⟨best, hmem, hbest⟩ := @least_ok _ (candidate_key data) _ (@candidates_ne_nil data)
  have hsynthesize (candidate : Candidate) :
      synthesize_basis candidate.basis candidate.start_byte.toNat data.length candidate.delta.toNat =
        .ok (candidate.generated data.length) :=
    synthesize_basis_ok (Nat.le_of_lt_succ candidate.start_byte.toNat_lt)
      (Nat.le_of_lt_succ candidate.delta.toNat_lt)
  have hcount (candidate : Candidate) : residual_count_of data (candidate.generated data.length) =
      mismatches data (candidate.generated data.length) :=
    residual_count_eq (Basis.length_bytes ..).symm
  refine ⟨candidate_plan data best, best.generated data.length,
    optimize_residual_plan_of_least hbest, hsynthesize best, mem_candidates_allowed hmem, hcount best,
    apply_candidate_plan data best, fun candidate hallowed => ?_⟩
  obtain ⟨tried, htried, hle⟩ := dominated data hallowed
  have hkey := (least_le hbest htried).trans hle
  rw [candidate_key_le_iff, hcount, hcount] at hkey
  refine ⟨_, hsynthesize candidate, ?_, fun heq => ?_⟩
  · exact (hcount best).trans_le (hkey.elim le_of_lt fun h => h.1.le)
  · exact (hkey.resolve_left fun hlt => hlt.ne ((hcount best).symm.trans heq)).2

end Search

end Bogbin.Container
