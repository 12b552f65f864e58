import Bogbin.Container.Builder
import Bogbin.Container.Reading

/-!
# Scores and encoded sizes

`score_reconstruction_plan` counts the bytes that a chunk takes in a container, from sizes of its own;
the encoder writes the bytes.  Of a chunk that is not merged into a run both have the same size, in the
same encoding of the residuals (`scored_size_exact`).
-/

namespace Bogbin.Container

open Bogvm Vm

/-- The number of bytes in the two streams. -/
def Streams.size (streams : Streams) : ℕ := streams.descriptors.length + streams.residuals.length

/-- The chunk has the values of this plan. -/
structure Chunk.Carries (chunk : Chunk) (plan : TransformedPlan) : Prop where
  length : chunk.length = plan.plan.length
  basis : chunk.basis = plan.plan.basis
  start_byte : chunk.start_byte = plan.plan.start_byte
  delta : chunk.delta = plan.plan.delta
  transform : chunk.transform = plan.transform
  transform_param : chunk.transform_param = plan.transform_param
  residuals : chunk.residuals = plan.plan.residuals

/-- The size of the residuals that a score has for an encoding. -/
def residual_size_of (plan : ResidualPlan) (bitmask : Bool) : ℕ :=
  if bitmask then (plan.length + 7) / 8 + plan.residual_count
  else estimate_delta_residual_size none plan.residuals

/-! ## Sizes -/

section Sizes

variable {n fuel : ℕ} {data bytes : Bytes} {plan : ResidualPlan} {candidate : TransformedPlan}
  {transform : Transform} {chunk : Chunk} {rest : List Chunk}

theorem varuint_size_eq (n : ℕ) : varuint_size n = (encode_varuint n).length := by
  have hloop (fuel : ℕ) : ∀ n, n / 128 ≤ fuel →
      1 + varuint_size_loop fuel (n / 128) = (Leb128.encode n).length := by
    induction fuel with
    | zero =>
      intro n hn
      rw [Leb128.encode_of_lt (by omega), varuint_size_loop, List.length_singleton]
    | succ fuel ih =>
      intro n hn
      rw [varuint_size_loop]
      split_ifs with hzero
      · rw [Leb128.encode_of_lt (by omega), List.length_singleton]
      · rw [Leb128.encode_of_le (by omega), List.length_cons, ih (n / 128) (by omega), Nat.add_comm]
  exact hloop n n (Nat.div_le_self n 128)

theorem estimate_eq_length (previous : Option ℕ) (residuals : List Patch) :
    estimate_delta_residual_size previous residuals = (delta_residuals previous residuals).length := by
  induction residuals generalizing previous with
  | nil => rfl
  | cons patch rest ih =>
    unfold estimate_delta_residual_size delta_residuals
    rw [varuint_size_eq, ih, List.length_append, List.length_cons]
    cases previous with
    | none =>
      dsimp only
      omega
    | some offset =>
      dsimp only
      omega

theorem ExactPlan.residual_count_eq (h : ExactPlan data plan) :
    plan.residual_count = plan.residuals.length := by
  obtain ⟨generated, -, hexact⟩ := bind_eq_ok.mp h.exact
  obtain ⟨reconstructed, -, hexact⟩ := bind_eq_ok.mp hexact
  obtain ⟨_, -, hexact⟩ := bind_eq_ok.mp hexact
  obtain ⟨_, -, hexact⟩ := bind_eq_ok.mp hexact
  obtain ⟨_, hcount, -⟩ := bind_eq_ok.mp hexact
  exact ensure_eq_ok.mp hcount

theorem length_transform_param_bytes (h : transform.is_bwt = true → n < 128) :
    (transform_param_bytes transform n).length = if transform.is_bwt then 1 else 0 := by
  unfold transform_param_bytes
  split_ifs with hbwt
  · rw [encode_varuint, Leb128.encode_of_lt (h hbwt), List.length_singleton]
  · rfl

/-- The parameter of a chunk of at most 128 bytes fits into one digit. -/
theorem ExactTransformedPlan.param_lt (h : ExactTransformedPlan bytes candidate)
    (hpos : 0 < bytes.length) (hmax : bytes.length ≤ 128) (hbwt : candidate.transform.is_bwt = true) :
    candidate.transform_param < 128 := by
  have hlength : (apply_transform candidate.transform bytes).length = bytes.length :=
    length_apply_transform candidate.transform bytes
  have hparam := invert_transform_param h.invert hbwt (List.ne_nil_of_length_pos (by omega))
  omega

/-- One pass of the encoder over a chunk that is not merged. -/
theorem size_encode_loop (h : zero_residual_run_length (chunk :: rest) < 2) :
    (encode_loop (fuel + 1) (chunk :: rest)).size =
      3 + (transform_param_bytes chunk.transform chunk.transform_param).length +
        (encode_varuint chunk.residual_count).length +
        (residual_bytes chunk.length chunk.residuals (best_residual_encoding chunk)).length +
        (encode_loop fuel rest).size := by
  rw [encode_loop]
  dsimp only
  rw [if_neg (Nat.not_le.mpr h)]
  simp only [Streams.size, descriptor_bytes, List.length_append, List.length_cons]
  omega

/-- Without residuals the encoder writes none, else those of the encoding it chooses. -/
theorem length_residual_bytes (hcount : plan.residual_count = plan.residuals.length) (bitmask : Bool) :
    (residual_bytes plan.length plan.residuals bitmask).length = residual_size_of plan bitmask := by
  unfold residual_bytes residual_size_of
  split_ifs
  · rw [length_bitmask_residuals, hcount]
  · exact (estimate_eq_length none plan.residuals).symm

/-- The encoder chooses the bitmask if it is smaller. -/
theorem best_residual_encoding_iff (h : chunk.Carries candidate)
    (hcount : candidate.plan.residual_count = candidate.plan.residuals.length) :
    best_residual_encoding chunk = true ↔ candidate.plan.residual_count ≠ 0 ∧
      residual_size_of candidate.plan true < residual_size_of candidate.plan false := by
  have hchunk : chunk.residual_count = candidate.plan.residual_count := by
    rw [Chunk.residual_count, h.residuals, hcount]
  unfold best_residual_encoding residual_size_of
  rw [decide_eq_true_eq, hchunk, h.length, h.residuals, ← estimate_eq_length]
  simp

/-- A score counts the residuals in the encoding that the encoder chooses. -/
theorem container_size_eq (h : chunk.Carries candidate)
    (hcount : candidate.plan.residual_count = candidate.plan.residuals.length) :
    (score_reconstruction_plan candidate).container_size =
      3 + (if candidate.transform.is_bwt then 1 else 0) +
        (encode_varuint candidate.plan.residual_count).length +
        residual_size_of candidate.plan (best_residual_encoding chunk) := by
  have hbest := best_residual_encoding_iff h hcount
  have hdelta : residual_size_of candidate.plan false =
      estimate_delta_residual_size none candidate.plan.residuals := rfl
  have hbitmask : residual_size_of candidate.plan true =
      (candidate.plan.length + 7) / 8 + candidate.plan.residual_count := rfl
  have hsize : (if candidate.plan.residual_count = 0 then residual_size_of candidate.plan false
      else min (residual_size_of candidate.plan false) (residual_size_of candidate.plan true)) =
      residual_size_of candidate.plan (best_residual_encoding chunk) := by
    cases hencoding : best_residual_encoding chunk with
    | true =>
      obtain ⟨hne, hlt⟩ := hbest.mp hencoding
      rw [if_neg hne, Nat.min_eq_right hlt.le]
    | false =>
      have hnot := mt hbest.mpr (Bool.eq_false_iff.mp hencoding)
      split_ifs with hzero
      · rfl
      · exact Nat.min_eq_left (not_lt.mp fun hlt => hnot ⟨hzero, hlt⟩)
  rw [← hsize, hdelta, hbitmask, ← varuint_size_eq]
  rfl

end Sizes

/-! ## The score of a chunk -/

/-- The size in the score of a plan is that of the bytes that the encoder writes for its chunk, when the
chunk is not merged into a run; the residuals are counted in the encoding in which they are written. -/
theorem scored_size_exact {bytes : Bytes} {transform : Transform} {plan : TransformedPlan}
    {chunk : Chunk} {rest : List Chunk} {fuel : ℕ} (hpos : 0 < bytes.length)
    (hmax : bytes.length ≤ 128) (hplan : transformed_plan bytes transform = .ok plan)
    (hchunk : chunk.Carries plan) (hrun : zero_residual_run_length (chunk :: rest) < 2) :
    (encode_loop (fuel + 1) (chunk :: rest)).size =
        (score_reconstruction_plan plan).container_size + (encode_loop fuel rest).size ∧
      (score_reconstruction_plan plan).container_size =
        (descriptor_bytes chunk (best_residual_encoding chunk)).length +
          (encode_varuint chunk.residual_count).length +
          residual_size_of plan.plan (best_residual_encoding chunk) ∧
      (residual_bytes chunk.length chunk.residuals (best_residual_encoding chunk)).length =
        residual_size_of plan.plan (best_residual_encoding chunk) := by
  obtain ⟨plan', hplan', hexact⟩ := transformed_plan_ok bytes transform
  obtain rfl := Except.ok.inj (hplan'.symm.trans hplan)
  have hcount := hexact.exact.residual_count_eq
  have hscore := container_size_eq hchunk hcount
  have hparam := length_transform_param_bytes (hexact.param_lt hpos hmax)
  have hresiduals := length_residual_bytes hcount (best_residual_encoding chunk)
  have hchunk_count : chunk.residual_count = plan'.plan.residual_count := by
    rw [Chunk.residual_count, hchunk.residuals, hcount]
  rw [← hchunk.transform, ← hchunk.transform_param] at hparam
  rw [← hchunk.length, ← hchunk.residuals] at hresiduals
  rw [← hchunk.transform, ← hchunk_count] at hscore
  refine ⟨?_, ?_, hresiduals⟩
  · rw [size_encode_loop hrun, hscore, hparam, hresiduals]
  · rw [hscore, descriptor_bytes, List.length_cons, List.length_cons, List.length_cons, hparam]
    omega

/-- The score of a single chunk of two bytes. -/
theorem scored_size_exact_pair : ∃ plan chunk, transformed_plan [7, 9] .bwt = .ok plan ∧
    chunk.Carries plan ∧
    (encode_loop 1 [chunk]).size = (score_reconstruction_plan plan).container_size := by
  obtain ⟨plan, hplan, -⟩ := transformed_plan_ok [7, 9] .bwt
  obtain ⟨chunk, hchunk⟩ : ∃ chunk : Chunk, chunk.Carries plan :=
    ⟨⟨0, 0, plan.plan.length, plan.plan.basis, plan.plan.start_byte, plan.plan.delta, plan.transform,
      plan.transform_param, plan.plan.residuals, "", "", ""⟩, rfl, rfl, rfl, rfl, rfl, rfl, rfl⟩
  have hrun : zero_residual_run_length [chunk] < 2 := by
    rw [zero_residual_run_length]
    split_ifs <;> simp
  exact ⟨plan, chunk, hplan, hchunk,
    (@scored_size_exact [7, 9] .bwt plan chunk [] 0 (by decide) (by decide) hplan hchunk hrun).1⟩

/-- The chunk of the tournament has the values of the plan that it picks. -/
theorem transformed_chunk_carries {chunk_size index : ℕ} {bytes : Bytes} {chunk : Chunk}
    (h : transformed_chunk chunk_size index bytes = .ok chunk) :
    ∃ plan, optimize_transformed_residual_plan bytes = .ok plan ∧ chunk.Carries plan := by
  obtain ⟨plan, hplan, h⟩ := bind_eq_ok.mp h
  obtain rfl := Except.ok.inj h
  exact ⟨plan, hplan, rfl, rfl, rfl, rfl, rfl, rfl, rfl⟩

end Bogbin.Container
