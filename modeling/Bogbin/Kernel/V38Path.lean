import Bogbin.Kernel.V38

/-!
# Canonical paths

`v38_path_valid` scans a path once and looks at the component behind it at every slash and at the end.
What is left of the scan accepts exactly what completes the component that is open, followed by
components of their own (`scan_isSome_iff`).  So the paths it accepts are the canonical ones of the
path contract, except for the root `/` (`path_valid_exact`), whose empty component it refuses.
-/

namespace Bogbin.Kernel

open Buffer

def SLASH : UInt8 := 0x2f

/-! ## Components -/

/-- A component of a path: not empty, without a slash, and neither `.` nor `..`. -/
def Component (c : Bytes) : Prop := c ≠ [] ∧ SLASH ∉ c ∧ c ≠ ascii "." ∧ c ≠ ascii ".."

instance : DecidablePred Component := fun _ => inferInstanceAs (Decidable (_ ∧ _))

/-- Components, each with a slash in front of it. -/
def absolute (components : List Bytes) : Bytes := components.flatMap (SLASH :: ·)

/-- A canonical absolute path. -/
structure CanonicalPath (p : Bytes) : Prop where
  length_le : p.length ≤ 63
  is_ascii : ∀ b ∈ p, b < 128
  no_nul : 0 ∉ p
  form : p = [SLASH] ∨ ∃ components, components ≠ [] ∧ (∀ c ∈ components, Component c) ∧
    p = absolute components

section Components

variable {front cur rest path c d : Bytes} {components : List Bytes} {b : UInt8} {n : ℕ}

@[simp] theorem absolute_nil : absolute [] = [] := rfl

@[simp] theorem absolute_cons : absolute (c :: components) = SLASH :: c ++ absolute components := rfl

/-- What is in front of the first slash is determined. -/
theorem append_slash_inj {x y : Bytes} (hc : SLASH ∉ c) (hd : SLASH ∉ d) :
    c ++ SLASH :: x = d ++ SLASH :: y ↔ c = d ∧ x = y := by
  induction c generalizing d with
  | nil =>
    cases d with
    | nil => simp
    | cons b d =>
      have hb : SLASH ≠ b := fun heq => hd (heq ▸ List.mem_cons_self)
      simp [hb]
  | cons a c ih =>
    cases d with
    | nil =>
      have ha : a ≠ SLASH := fun heq => hc (heq ▸ List.mem_cons_self)
      simp [ha]
    | cons b d =>
      have hrest := ih (fun h => hc (List.mem_cons_of_mem _ h)) (fun h => hd (List.mem_cons_of_mem _ h))
      simp [hrest, and_assoc]

/-- Components do not end in a slash. -/
theorem getLast?_absolute (h : ∀ c ∈ components, Component c) :
    (absolute components).getLast? ≠ some SLASH := by
  induction components with
  | nil => simp
  | cons c components ih =>
    obtain ⟨hc, hcomponents⟩ := List.forall_mem_cons.mp h
    by_cases hnil : components = []
    · intro hlast
      rw [hnil, absolute_cons, absolute_nil, List.append_nil, List.getLast?_cons_of_ne_nil hc.1] at hlast
      exact hc.2.1 (List.mem_of_getLast? hlast)
    · obtain ⟨d, components, rfl⟩ := List.exists_cons_of_ne_nil hnil
      rw [absolute_cons, List.getLast?_append_of_ne_nil _ (by simp)]
      exact ih hcomponents

/-! ## The scan -/

/-- The step of the loop at an index. -/
def component_step (path : Bytes) (component_start index : ℕ) : Option ℕ :=
  if index = path.length ∨ path[index]? = some 0x2f then
    if index = component_start then none
    else
      let component := slice path component_start (index - component_start)
      if component = ascii "." ∨ component = ascii ".." then none
      else some (index + 1)
  else some component_start

theorem v38_components_eq (path : Bytes) :
    v38_components path = (List.range' 1 path.length).foldlM (component_step path) 1 := rfl

/-- At a slash or at the end the component behind is checked. -/
theorem component_step_end (hcur : SLASH ∉ cur) (hpath : path = front ++ cur ++ rest)
    (hend : rest = [] ∨ rest.head? = some SLASH) :
    component_step path front.length (front.length + cur.length) =
      if Component cur then some (front.length + cur.length + 1) else none := by
  have hindex : front.length + cur.length = path.length ∨
      path[front.length + cur.length]? = some 0x2f := by
    rcases hend with rfl | hslash
    · exact .inl (by simp [hpath])
    · refine .inr ?_
      rw [hpath, ← List.length_append, List.getElem?_append_right le_rfl, Nat.sub_self,
        ← List.head?_eq_getElem?]
      exact hslash
  have hslice : slice path front.length (front.length + cur.length - front.length) = cur := by
    rw [hpath, Nat.add_sub_cancel_left, List.append_assoc, slice_append_right _ _ le_rfl,
      Nat.sub_self, slice_zero, List.take_left]
  rw [component_step, if_pos hindex, hslice]
  by_cases hnil : cur = []
  · simp [hnil, Component]
  · have hne : front.length + cur.length ≠ front.length := by
      have hpos := List.length_pos_of_ne_nil hnil
      omega
    simp only [if_neg hne, Component, hcur]
    by_cases hdots : cur = ascii "." ∨ cur = ascii ".."
    · rw [if_pos hdots, if_neg (by tauto)]
    · rw [if_neg hdots, if_pos (by tauto)]

theorem component_step_inside (hb : b ≠ SLASH) (hpath : path = front ++ cur ++ b :: rest) :
    component_step path front.length (front.length + cur.length) = some front.length := by
  refine if_neg (not_or.mpr ⟨?_, ?_⟩)
  · simp [hpath]
  · rw [hpath, ← List.length_append, List.getElem?_append_right le_rfl, Nat.sub_self]
    exact fun heq => hb (Option.some.inj heq)

/-- The scan, with a component open that began behind `front`: the rest closes it and consists of
components. -/
theorem scan_isSome_iff (hcur : SLASH ∉ cur) (hpath : path = front ++ cur ++ rest) :
    ((List.range' (front.length + cur.length) (rest.length + 1)).foldlM (component_step path)
        front.length).isSome ↔
      ∃ c components, cur ++ rest = c ++ absolute components ∧ ∀ d ∈ c :: components, Component d := by
  induction rest generalizing front cur with
  | nil =>
    rw [List.length_nil, List.range'_succ, List.range'_zero, List.foldlM_cons,
      component_step_end hcur hpath (.inl rfl), List.append_nil]
    constructor
    · intro h
      by_cases hc : Component cur
      · exact ⟨cur, [], by simp, by simpa using hc⟩
      · rw [if_neg hc] at h
        cases h
    · rintro ⟨c, components, heq, hall⟩
      cases components with
      | nil =>
        rw [absolute_nil, List.append_nil] at heq
        rw [heq, if_pos (hall c List.mem_cons_self)]
        rfl
      | cons d components =>
        refine absurd ?_ hcur
        rw [heq]
        simp
  | cons b rest ih =>
    rw [List.length_cons, List.range'_succ, List.foldlM_cons]
    by_cases hb : b = SLASH
    · subst hb
      have hfront : path = (front ++ cur ++ [SLASH]) ++ [] ++ rest := by simp [hpath]
      have hrest := ih List.not_mem_nil hfront
      simp only [List.length_append, List.length_singleton, List.length_nil, Nat.add_zero,
        List.nil_append] at hrest
      rw [component_step_end hcur hpath (.inr rfl)]
      constructor
      · intro h
        by_cases hc : Component cur
        · rw [if_pos hc] at h
          obtain ⟨d, components, heq, hall⟩ := hrest.mp h
          exact ⟨cur, d :: components, by simp [heq], List.forall_mem_cons.mpr ⟨hc, hall⟩⟩
        · rw [if_neg hc] at h
          cases h
      · rintro ⟨c, components, heq, hall⟩
        obtain ⟨hc, hcomponents⟩ := List.forall_mem_cons.mp hall
        cases components with
        | nil =>
          rw [absolute_nil, List.append_nil] at heq
          refine absurd ?_ hc.2.1
          rw [← heq]
          simp
        | cons d components =>
          obtain ⟨rfl, htail⟩ := (append_slash_inj hcur hc.2.1).mp heq
          rw [if_pos hc]
          exact hrest.mpr ⟨d, components, htail, hcomponents⟩
    · have hopen : path = front ++ (cur ++ [b]) ++ rest := by simp [hpath]
      have hcur' : SLASH ∉ cur ++ [b] := by
        rw [List.mem_append, List.mem_singleton, not_or]
        exact ⟨hcur, Ne.symm hb⟩
      have hrest := ih hcur' hopen
      rw [List.length_append, List.length_singleton, ← Nat.add_assoc, List.append_assoc,
        List.singleton_append] at hrest
      rw [component_step_inside hb hpath]
      exact hrest

theorem components_isSome_iff (h : path = SLASH :: rest) : (v38_components path).isSome ↔
    ∃ components, components ≠ [] ∧ (∀ c ∈ components, Component c) ∧ path = absolute components := by
  have hscan := @scan_isSome_iff [SLASH] [] rest path List.not_mem_nil (by simp [h])
  have hlength : path.length = rest.length + 1 := by rw [h, List.length_cons]
  rw [v38_components_eq, hlength]
  refine hscan.trans ⟨?_, ?_⟩
  · rintro ⟨c, components, heq, hall⟩
    refine ⟨c :: components, List.cons_ne_nil _ _, hall, ?_⟩
    rw [h, absolute_cons, List.cons_append, ← heq, List.nil_append]
  · rintro ⟨components, hne, hall, heq⟩
    obtain ⟨c, components, rfl⟩ := List.exists_cons_of_ne_nil hne
    rw [h, absolute_cons, List.cons_append] at heq
    exact ⟨c, components, (List.cons.inj heq).2, hall⟩

end Components

/-! ## The recogniser -/

section Recogniser

variable {p : Bytes} {components : List Bytes}

theorem absolute_eq_cons (h : components ≠ []) : ∃ rest, absolute components = SLASH :: rest := by
  obtain ⟨c, components, rfl⟩ := List.exists_cons_of_ne_nil h
  exact ⟨_, rfl⟩

/-- What is checked in front of the scan. -/
theorem path_valid_eq_true : v38_path_valid p = true ↔
    (p.length ≤ 63 ∧ p.head? = some SLASH ∧ ¬ (1 < p.length ∧ p.getLast? = some SLASH)) ∧
      (∀ b ∈ p, b < 128 ∧ b ≠ 0) ∧ (v38_components p).isSome = true := by
  have hslash : SLASH = 0x2f := rfl
  have hempty : p.head? = some SLASH → p ≠ [] := by
    rintro hhead rfl
    cases hhead
  unfold v38_path_valid
  rw [← hslash]
  split_ifs with hshape hbytes
  · refine ⟨fun h => absurd h (by decide), ?_⟩
    rintro ⟨⟨hlength, hhead, hlast⟩, -⟩
    rcases hshape with hnil | hlong | hother | hend
    · exact absurd hnil (hempty hhead)
    · exact absurd hlength (not_le.mpr hlong)
    · exact absurd hhead hother
    · exact absurd hend hlast
  · refine ⟨fun h => absurd h (by decide), ?_⟩
    rintro ⟨-, hall, -⟩
    obtain ⟨b, hb, hbad⟩ := List.any_eq_true.mp hbytes
    rcases of_decide_eq_true hbad with hlarge | hzero
    · exact absurd (hall b hb).1 (UInt8.not_lt.mpr hlarge)
    · exact absurd hzero (hall b hb).2
  · have hall : ∀ b ∈ p, b < 128 ∧ b ≠ 0 := by
      intro b hb
      have hgood := List.any_eq_false.mp (Bool.eq_false_iff.mpr hbytes) b hb
      rw [decide_eq_true_eq, not_or, UInt8.not_le] at hgood
      exact hgood
    have hpre : p.length ≤ 63 ∧ p.head? = some SLASH ∧
        ¬ (1 < p.length ∧ p.getLast? = some SLASH) := by
      simp only [not_or, not_not, not_lt] at hshape
      exact ⟨hshape.2.1, hshape.2.2⟩
    exact ⟨fun h => ⟨hpre, hall, h⟩, fun h => h.2.2⟩

theorem canonical_root : CanonicalPath [SLASH] where
  length_le := by simp
  is_ascii := by simp [SLASH]
  no_nul := by simp [SLASH]
  form := .inl rfl

/-- The recogniser accepts the canonical paths other than the root. -/
theorem path_valid_iff : v38_path_valid p = true ↔ CanonicalPath p ∧ p ≠ [SLASH] := by
  rw [path_valid_eq_true]
  constructor
  · rintro ⟨⟨hlength, hhead, -⟩, hbytes, hscan⟩
    obtain ⟨rest, rfl⟩ := List.head?_eq_some_iff.mp hhead
    obtain ⟨components, hne, hall, heq⟩ := (components_isSome_iff rfl).mp hscan
    refine ⟨⟨hlength, fun b hb => (hbytes b hb).1, fun hzero => (hbytes 0 hzero).2 rfl,
      .inr ⟨components, hne, hall, heq⟩⟩, fun hroot => ?_⟩
    obtain ⟨c, components, rfl⟩ := List.exists_cons_of_ne_nil hne
    rw [hroot, absolute_cons, List.cons_append] at heq
    exact (hall c List.mem_cons_self).1 (List.append_eq_nil_iff.mp (List.cons.inj heq).2.symm).1
  · rintro ⟨hp, hroot⟩
    obtain ⟨components, hne, hall, heq⟩ := hp.form.resolve_left hroot
    obtain ⟨rest, hrest⟩ := absolute_eq_cons hne
    have hlast := getLast?_absolute hall
    rw [← heq] at hlast
    have hcons := heq.trans hrest
    refine ⟨⟨hp.length_le, by rw [hcons]; rfl, fun h => hlast h.2⟩, fun b hb => ⟨hp.is_ascii b hb, ?_⟩,
      (components_isSome_iff hcons).mpr ⟨components, hne, hall, heq⟩⟩
    rintro rfl
    exact hp.no_nul hb

/-- The recogniser and the path contract agree on every path but the root. -/
theorem path_valid_exact (p : Bytes) :
    (v38_path_valid p = true ↔ CanonicalPath p) ↔ p ≠ [SLASH] := by
  rw [path_valid_iff]
  constructor
  · rintro h rfl
    exact (h.mpr canonical_root).2 rfl
  · exact fun hroot => and_iff_left hroot

/-- The canonical root is refused: the scan takes its end for an empty component. -/
theorem root_path_refused :
    ¬ ∀ p, v38_path_valid p = true ↔ CanonicalPath p := by
  intro h
  have hroot : v38_path_valid [SLASH] = false := by decide
  rw [(h [SLASH]).mpr canonical_root] at hroot
  cases hroot

end Recogniser

end Bogbin.Kernel
