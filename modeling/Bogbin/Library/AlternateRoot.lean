import Mathlib.Data.Set.Function

/-!
# Committing to alternate roots

A store keeps two root slots and two table regions.  A root names the region of its table, a
generation and the digest of the table.  Mounting takes the valid root of the greater generation.  A
commit from the live root writes fresh data, then the other region, then the other slot, so that on
every disk in between the live root is untouched.

The invariant `Live` says that one slot holds a valid root and that the other slot cannot outrank
it: its root is older, or it is dead, because its digest belongs to a table that occurred and is
malformed whatever the data is.  While the digest is injective on the tables that occur, mounting
returns the live root (`Live.mount`).  A torn commit leaves the old root live (`Live.torn`), a
complete one the old or the new root (`Live.committed`).
-/

namespace AlternateRoot

/-- How a store reads its disk. -/
structure Scheme (D R M H S : Type) where
  /-- The well-formed root in a slot. -/
  root : D → Bool → Option R
  /-- The contents of a region. -/
  region : D → Bool → M
  digest : M → H
  /-- The region, digest and generation of a root. -/
  loc : R → Bool
  key : R → H
  gen : R → ℕ
  /-- The table is well formed, whatever the data is. -/
  table : R → M → Prop
  /-- The state a root and its table stand for, when the data they refer to is intact. -/
  load : D → Bool → R → M → Option S

namespace Scheme

variable {D R M H S : Type} (P : Scheme D R M H S)

/-- The slot `s` holds a valid root `r`, which stands for the state `st`. -/
structure Valid (d : D) (s : Bool) (r : R) (st : S) : Prop where
  root : P.root d s = some r
  digest : P.digest (P.region d (P.loc r)) = P.key r
  table : P.table r (P.region d (P.loc r))
  load : P.load d s r (P.region d (P.loc r)) = some st

/-- No table with the digest of the root is well formed, among those that occur. -/
def Dead (seen : Set M) (r : R) : Prop :=
  ∃ m ∈ seen, P.digest m = P.key r ∧ ¬ P.table r m

/-- The slot `s` holds a valid root that the other slot cannot outrank. -/
structure Live (seen : Set M) (d : D) (s : Bool) (r : R) (st : S) : Prop extends
    P.Valid d s r st where
  other : ∀ r', P.root d (!s) = some r' →
    P.loc r' = (!P.loc r) ∧ (P.gen r' < P.gen r ∨ P.Dead seen r')

/-- Mounting the disk returns the state: the slot of a valid root that the other slot does not
outrank. -/
def Mounts (d : D) (s : Bool) (r : R) (st : S) : Prop :=
  P.Valid d s r st ∧ ∀ r' st', P.Valid d (!s) r' st' → P.gen r' < P.gen r

/-- The disk `d'` keeps the root `r` in the slot `s`, its table and its data. -/
structure Keeps (d : D) (s : Bool) (r : R) (d' : D) : Prop where
  root : P.root d' s = P.root d s
  region : P.region d' (P.loc r) = P.region d (P.loc r)
  load : P.load d' s r (P.region d (P.loc r)) = P.load d s r (P.region d (P.loc r))

/-- A commit from the root `r` in the slot `s` was cut off before it wrote the other slot. -/
structure Torn (d : D) (s : Bool) (r : R) (d' : D) : Prop extends P.Keeps d s r d' where
  other : P.root d' (!s) = P.root d (!s)

/-- A commit from the root `r` in the slot `s` is complete: the other slot holds the new root `r'`,
whose table is written.  If the table is well formed, the new root stands for `new`. -/
structure Committed (d : D) (s : Bool) (r r' : R) (new : S) (d' : D) : Prop
    extends P.Keeps d s r d' where
  other : P.root d' (!s) = some r'
  loc : P.loc r' = (!P.loc r)
  gen : P.gen r' ≠ P.gen r
  key : P.key r' = P.digest (P.region d' (P.loc r'))
  load' : P.table r' (P.region d' (P.loc r')) →
    P.load d' (!s) r' (P.region d' (P.loc r')) = some new

variable {P} {seen : Set M} {d d' : D} {s : Bool} {r r' : R} {st new : S}

theorem Dead.mono {seen' : Set M} (h : P.Dead seen r) (hsub : seen ⊆ seen') :
    P.Dead seen' r := by
  obtain ⟨m, hm, hdig, htable⟩ := h
  exact ⟨m, hsub hm, hdig, htable⟩

theorem Live.mono {seen' : Set M} (h : P.Live seen d s r st) (hsub : seen ⊆ seen') :
    P.Live seen' d s r st :=
  ⟨h.toValid, fun r' hr' => ⟨(h.other r' hr').1, (h.other r' hr').2.imp_right (·.mono hsub)⟩⟩

/-- A dead root is not valid on a disk whose tables are among those that occur. -/
theorem Dead.not_valid {st' : S} (h : P.Dead seen r') (hinj : Set.InjOn P.digest seen)
    (hd : ∀ b, P.region d b ∈ seen) : ¬ P.Valid d s r' st' := by
  intro hvalid
  obtain ⟨m, hm, hdig, htable⟩ := h
  have heq : P.region d (P.loc r') = m := hinj (hd _) hm (hvalid.digest.trans hdig.symm)
  exact htable (heq ▸ hvalid.table)

/-- Mounting returns the live root. -/
theorem Live.mount (h : P.Live seen d s r st) (hinj : Set.InjOn P.digest seen)
    (hd : ∀ b, P.region d b ∈ seen) : P.Mounts d s r st := by
  refine ⟨h.toValid, fun r' st' hvalid => ?_⟩
  rcases (h.other r' hvalid.root).2 with hlt | hdead
  · exact hlt
  · exact absurd hvalid (hdead.not_valid hinj hd)

/-- A commit that writes nothing is torn. -/
theorem Torn.of_eq (h : d' = d) : P.Torn d s r d' := by
  subst h
  exact ⟨⟨rfl, rfl, rfl⟩, rfl⟩

/-- The live root survives the writes of a commit. -/
theorem Keeps.valid (h : P.Keeps d s r d') (hv : P.Valid d s r st) : P.Valid d' s r st :=
  ⟨h.root.trans hv.root, h.region ▸ hv.digest, h.region ▸ hv.table,
    by rw [h.region, h.load]; exact hv.load⟩

/-- A torn commit leaves the old root live. -/
theorem Live.torn (h : P.Live seen d s r st) (ht : P.Torn d s r d') : P.Live seen d' s r st :=
  ⟨ht.toKeeps.valid h.toValid, fun q hq => h.other q (ht.other ▸ hq)⟩

/-- The new root is valid when its table is well formed. -/
theorem Committed.valid (h : P.Committed d s r r' new d')
    (htable : P.table r' (P.region d' (P.loc r'))) : P.Valid d' (!s) r' new :=
  ⟨h.other, h.key.symm, htable, h.load' htable⟩

/-- After a complete commit a well-formed new root of a greater generation is mounted. -/
theorem Committed.mounts_new (h : P.Committed d s r r' new d') (hv : P.Valid d s r st)
    (htable : P.table r' (P.region d' (P.loc r'))) (hlt : P.gen r < P.gen r') :
    P.Mounts d' (!s) r' new := by
  refine ⟨h.valid htable, fun q st' hq => ?_⟩
  have hroot := (h.toKeeps.valid hv).root
  rw [Bool.not_not] at hq
  obtain rfl := Option.some.inj (hroot.symm.trans hq.root)
  exact hlt

/-- After a complete commit the old root is mounted when the new one is malformed or older. -/
theorem Committed.mounts_old (h : P.Committed d s r r' new d') (hv : P.Valid d s r st)
    (hnot : ¬ (P.table r' (P.region d' (P.loc r')) ∧ P.gen r < P.gen r')) :
    P.Mounts d' s r st := by
  refine ⟨h.toKeeps.valid hv, fun q st' hq => ?_⟩
  obtain rfl := Option.some.inj (h.other.symm.trans hq.root)
  have hgen := h.gen
  have : ¬ P.gen r < P.gen r' := fun hlt => hnot ⟨hq.table, hlt⟩
  omega

/-- A complete commit leaves the old root or the new one live: the new one when its table is well
formed and its generation is the greater. -/
theorem Live.committed (h : P.Live seen d s r st) (hc : P.Committed d s r r' new d')
    (hd' : ∀ b, P.region d' b ∈ seen) :
    P.Live seen d' s r st ∨
      P.table r' (P.region d' (P.loc r')) ∧ P.Live seen d' (!s) r' new := by
  have hvalid := hc.toKeeps.valid h.toValid
  by_cases htable : P.table r' (P.region d' (P.loc r'))
  · rcases Nat.lt_or_gt_of_ne hc.gen with hlt | hgt
    · refine .inl ⟨hvalid, fun q hq => ?_⟩
      obtain rfl := Option.some.inj (hc.other.symm.trans hq)
      exact ⟨hc.loc, .inl hlt⟩
    · refine .inr ⟨htable, hc.valid htable, fun q hq => ?_⟩
      rw [Bool.not_not] at hq
      obtain rfl := Option.some.inj (hvalid.root.symm.trans hq)
      exact ⟨by rw [hc.loc, Bool.not_not], .inl hgt⟩
  · refine .inl ⟨hvalid, fun q hq => ?_⟩
    obtain rfl := Option.some.inj (hc.other.symm.trans hq)
    exact ⟨hc.loc, .inr ⟨_, hd' _, hc.key.symm, htable⟩⟩

end Scheme

end AlternateRoot
