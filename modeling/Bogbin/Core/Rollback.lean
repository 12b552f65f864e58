import Bogbin.Core.WorkspaceRun

/-!
# Rollbacks

What an accepted rollback does after any run of accepted operations.  It keeps the tables of the
state it is applied to, whatever root it names as its target, so they are the tables of an earlier
state exactly when nothing but rollbacks was accepted since (`rollback_keeps_tables`).
-/

namespace Bogbin.Core

/-- A run of accepted operations, with their kinds. -/
inductive Run (s : WorkspaceState) : List WorkspaceOpKind → WorkspaceState → Prop
  | start : Run s [] s
  | step {kinds : List WorkspaceOpKind} {t u : WorkspaceState} {op : WorkspaceOperation}
      {target_path : Bytes} : Run s kinds t →
      apply_workspace_operation t op target_path = some (.ok u) → Run s (kinds ++ [op.op_kind]) u

/-- The operations of a run that are not rollbacks. -/
def mutations (kinds : List WorkspaceOpKind) : ℕ := kinds.countP (· ≠ .Rollback)

theorem mutations_concat (kinds : List WorkspaceOpKind) (k : WorkspaceOpKind) :
    mutations (kinds ++ [k]) = mutations kinds + if k = .Rollback then 0 else 1 := by
  unfold mutations
  rw [List.countP_append, List.countP_singleton]
  by_cases hk : k = .Rollback <;> simp [hk]

theorem mutations_eq_zero {kinds : List WorkspaceOpKind} :
    mutations kinds = 0 ↔ ∀ k ∈ kinds, k = .Rollback := by
  simp [mutations, List.countP_eq_zero]

section Steps

variable {s t : WorkspaceState} {op : WorkspaceOperation} {target_path : Bytes}
  {kinds : List WorkspaceOpKind}

theorem Mutates.object_count {hlen : target_path.length ≤ 256} (h : Mutates s op target_path hlen t) :
    t.objects.length = s.objects.length + 1 := by
  cases h with
  | create k hroot hnew hobjects hpaths => rw [hobjects, List.length_append, List.length_singleton]
  | edit pidx entry hroot hfind hentry hobjects hpaths =>
    rw [hobjects, List.length_append, List.length_singleton]

/-- A rollback keeps both tables; every other operation adds an object. -/
theorem Accepts.tables (h : Accepts s op target_path t) :
    if op.op_kind = .Rollback then t.objects = s.objects ∧ t.paths = s.paths
    else t.objects.length = s.objects.length + 1 := by
  cases h with
  | rollback hkind old_rh hold ht =>
    subst ht
    rw [if_pos hkind]
    exact ⟨rfl, rfl⟩
  | mutation hadm u hu ht =>
    rw [if_neg hadm.no_rollback, ht.objects, hu.object_count]

theorem Run.object_count (h : Run s kinds t) :
    t.objects.length = s.objects.length + mutations kinds := by
  induction h with
  | start => rfl
  | step hrun happly ih =>
    have htables := (accepts_of_apply happly).tables
    rw [mutations_concat]
    split_ifs at htables ⊢ with hkind
    · rw [htables.1, ih, Nat.add_zero]
    · rw [htables, ih, Nat.add_assoc]

theorem Run.tables_of_rollbacks (h : Run s kinds t) (hkinds : mutations kinds = 0) :
    t.objects = s.objects ∧ t.paths = s.paths := by
  induction h with
  | start => exact ⟨rfl, rfl⟩
  | step hrun happly ih =>
    rw [mutations_concat, Nat.add_eq_zero_iff] at hkinds
    obtain ⟨hrest, hlast⟩ := hkinds
    have htables := (accepts_of_apply happly).tables
    split_ifs at htables hlast with hkind
    obtain ⟨ho, hp⟩ := ih hrest
    exact ⟨htables.1.trans ho, htables.2.trans hp⟩

/-- A run leads back to the tables it started with when it is made of rollbacks, and only then. -/
theorem Run.same_tables_iff (h : Run s kinds t) :
    t.objects = s.objects ∧ t.paths = s.paths ↔ ∀ k ∈ kinds, k = .Rollback := by
  rw [← mutations_eq_zero]
  constructor
  · rintro ⟨ho, -⟩
    have hcount := h.object_count
    rw [ho] at hcount
    omega
  · exact h.tables_of_rollbacks

theorem Run.reachable (hs : Reachable s) (h : Run s kinds t) : Reachable t := by
  induction h with
  | start => exact hs
  | step hrun happly ih => exact .step ih happly

/-- What the code says of a rollback: its target is not looked at. -/
theorem apply_rollback_eq (hkind : op.op_kind = .Rollback) :
    apply_workspace_operation s op target_path =
      if s.root.compute_hash ≠ some op.old_workspace_root then some (.error .InvalidOldRoot)
      else if op.capability_hash ≠ v40_write_cap_sentinel then some (.error .InvalidCapability)
      else some (.ok (apply_rollback s op op.old_workspace_root)) := by
  unfold apply_workspace_operation
  simp only [compute_hash_eq, Option.bind_eq_bind, Option.bind_some, ne_eq, Option.some.injEq,
    if_pos hkind]
  by_cases hroot : sha256 s.root.fields.flatten = op.old_workspace_root
  · rw [hroot]
  · rw [if_pos hroot, if_pos hroot]

end Steps

/-- A rollback in the state `s` to the root `target`. -/
def rollback_operation (s : WorkspaceState) (target : Hash32) : WorkspaceOperation :=
  { write_operation s .Rollback with input_content_hash := target }

theorem rollback_accepted (s : WorkspaceState) (target : Hash32) :
    s.root.compute_hash = some (rollback_operation s target).old_workspace_root ∧
      (rollback_operation s target).capability_hash = v40_write_cap_sentinel :=
  ⟨compute_hash_eq s.root, rfl⟩

end Bogbin.Core
