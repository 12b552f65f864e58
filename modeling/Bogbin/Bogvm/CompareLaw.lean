import Bogbin.Bogvm.Compare

/-!
# The order of values

What a comparison sees of a value is its rank: numbers of every kind by their value, lists and
dictionaries by the ranks in them.  Two values are the same if and only if their ranks are equal
(`same_value_iff`), and a value is less than another one if and only if its rank is below
(`less_value_iff`), which is a strict order.  Without NaN, values that differ and have an order at all
have it in one of the two directions (`less_value_swap`).
-/

namespace Bogbin.Bogvm

/-- What a comparison sees of a value. -/
inductive Rank
  | null
  | number (x : Option Number)
  | text (s : List Char)
  | list (items : List Rank)
  | dict (fields : List (String × Rank))

mutual

/-- The rank is less, in the order of Python. -/
inductive Rank.Below : Rank → Rank → Prop
  | number {x y : Number} (h : x < y) : Below (.number (some x)) (.number (some y))
  | text {s t : List Char} (h : s < t) : Below (.text s) (.text t)
  | list {a b : List Rank} (h : BelowItems a b) : Below (.list a) (.list b)

/-- The first items that differ decide. -/
inductive Rank.BelowItems : List Rank → List Rank → Prop
  | nil {y : Rank} {b : List Rank} : BelowItems [] (y :: b)
  | head {x y : Rank} {a b : List Rank} (h : Below x y) : BelowItems (x :: a) (y :: b)
  | tail {x : Rank} {a b : List Rank} (h : BelowItems a b) : BelowItems (x :: a) (x :: b)

end

namespace Rank

variable {x y z : Rank} {a b c : List Rank}

theorem not_belowItems_nil : ¬ BelowItems a [] := by
  intro h
  cases h

theorem below_number_iff {x y : Option Number} :
    Below (.number x) (.number y) ↔ exceeds y x = true := by
  constructor
  · intro h
    cases h with
    | number h => exact decide_eq_true h
  · intro h
    cases x with
    | none => cases y <;> cases h
    | some x =>
      cases y with
      | none => cases h
      | some y => exact .number (of_decide_eq_true h)

theorem Below.number_eq {x : Option Number} (h : Below (.number x) z) : ∃ y, z = .number y := by
  cases h with
  | number h => exact ⟨_, rfl⟩

theorem below_text_iff {s t : List Char} : Below (.text s) (.text t) ↔ s < t :=
  ⟨fun h => by cases h with | text h => exact h, .text⟩

theorem below_list_iff : Below (.list a) (.list b) ↔ BelowItems a b :=
  ⟨fun h => by cases h with | list h => exact h, .list⟩

theorem belowItems_cons_iff :
    BelowItems (x :: a) (y :: b) ↔ Below x y ∨ x = y ∧ BelowItems a b := by
  constructor
  · intro h
    cases h with
    | head h => exact .inl h
    | tail h => exact .inr ⟨rfl, h⟩
  · rintro (h | ⟨rfl, h⟩)
    · exact .head h
    · exact .tail h

/-- The order is irreflexive. -/
theorem Below.ne (h : Below x y) : x ≠ y := by
  refine @Below.rec (fun x y _ => x ≠ y) (fun a b _ => a ≠ b) ?_ ?_ ?_ ?_ ?_ ?_ x y h
  · intro x y hlt heq
    injection heq with heq
    exact hlt.ne (Option.some.inj heq)
  · intro s t hlt heq
    injection heq with heq
    exact hlt.ne heq
  · intro a b _ ih heq
    injection heq with heq
    exact ih heq
  · intro y b heq
    cases heq
  · intro x y a b _ ih heq
    exact ih (List.cons.inj heq).1
  · intro x a b _ ih heq
    exact ih (List.cons.inj heq).2

theorem Below.trans (hxy : Below x y) (hyz : Below y z) : Below x z := by
  refine @Below.rec (fun x y _ => ∀ z, Below y z → Below x z)
    (fun a b _ => ∀ c, BelowItems b c → BelowItems a c) ?_ ?_ ?_ ?_ ?_ ?_ x y hxy z hyz
  · intro x y hlt z hz
    cases hz with
    | number hlt' => exact .number (hlt.trans hlt')
  · intro s t hlt z hz
    cases hz with
    | text hlt' => exact .text (hlt.trans hlt')
  · intro a b _ ih z hz
    cases hz with
    | list h => exact .list (ih _ h)
  · intro y b c hc
    cases hc with
    | head h => exact .nil
    | tail h => exact .nil
  · intro x y a b hxy ih c hc
    cases hc with
    | head h => exact .head (ih _ h)
    | tail h => exact .head hxy
  · intro x a b _ ih c hc
    cases hc with
    | head h => exact .head h
    | tail h => exact .tail (ih _ h)

end Rank

/-- An induction over the values in a value. -/
theorem Json.members_induction {P : Json → Prop}
    (leaf : ∀ v, (∀ items, v ≠ .arr items) → (∀ fields, v ≠ .obj fields) → P v)
    (arr : ∀ items, (∀ v ∈ items, P v) → P (.arr items))
    (obj : ∀ fields, (∀ field ∈ fields, P field.2) → P (.obj fields)) (v : Json) : P v := by
  refine @Json.rec P (fun items => ∀ v ∈ items, P v) (fun fields => ∀ field ∈ fields, P field.2)
    (fun field => P field.2) ?_ ?_ ?_ ?_ ?_ arr obj ?_ ?_ ?_ ?_ ?_ v
  · exact leaf _ (by simp) (by simp)
  · exact fun b => leaf _ (by simp) (by simp)
  · exact fun n => leaf _ (by simp) (by simp)
  · exact fun r => leaf _ (by simp) (by simp)
  · exact fun s => leaf _ (by simp) (by simp)
  · simp
  · exact fun v items hv hitems => List.forall_mem_cons.mpr ⟨hv, hitems⟩
  · simp
  · exact fun field fields hfield hfields => List.forall_mem_cons.mpr ⟨hfield, hfields⟩
  · exact fun key v hv => hv

variable (floats : Floats)

mutual

def rank_of : Json → Rank
  | .null => .null
  | .bool b => .number (some (Number.of_int (if b then 1 else 0)))
  | .int n => .number (some (Number.of_int n))
  | .float r => .number (floats r)
  | .str s => .text s.toList
  | .arr items => .list (rank_of_items items)
  | .obj fields => .dict (rank_of_fields fields)

def rank_of_items : List Json → List Rank
  | [] => []
  | v :: rest => rank_of v :: rank_of_items rest

def rank_of_fields : List (String × Json) → List (String × Rank)
  | [] => []
  | (key, v) :: rest => (key, rank_of v) :: rank_of_fields rest

end

mutual

/-- The floats that a comparison with `<` can reach: dictionaries have no order. -/
def float_texts : Json → List String
  | .float r => [r]
  | .arr items => float_texts_items items
  | _ => []

def float_texts_items : List Json → List String
  | [] => []
  | v :: rest => float_texts v ++ float_texts_items rest

end

/-- No float that a comparison can reach is NaN. -/
def WithoutNan (v : Json) : Prop := ∀ r ∈ float_texts v, floats r ≠ none

/-- The values are the same, or `<` does not raise for them. -/
def Comparable (v w : Json) : Prop :=
  same_value floats v w = true ∨
    (∃ r, less_value floats v w = .ok r) ∧ ∃ r, less_value floats w v = .ok r

/-- The value is the same or less. -/
def AtMost (v w : Json) : Prop := rank_of floats v = rank_of floats w ∨ (rank_of floats v).Below (rank_of floats w)

section Ranks

variable {floats} {v w : Json} {a b : List Json} {r : Bool}

theorem same_items_iff (h : ∀ v ∈ a, ∀ w, same_value floats v w = true ↔ rank_of floats v = rank_of floats w) :
    same_items floats a b = true ↔ rank_of_items floats a = rank_of_items floats b := by
  induction a generalizing b with
  | nil => cases b <;> simp [same_items, rank_of_items]
  | cons v a ih =>
    obtain ⟨hv, ha⟩ := List.forall_mem_cons.mp h
    cases b with
    | nil => simp [same_items, rank_of_items]
    | cons w b => simp [same_items, rank_of_items, hv w, ih ha]

theorem same_fields_iff {a b : List (String × Json)}
    (h : ∀ field ∈ a, ∀ w, same_value floats field.2 w = true ↔ rank_of floats field.2 = rank_of floats w) :
    same_fields floats a b = true ↔ rank_of_fields floats a = rank_of_fields floats b := by
  induction a generalizing b with
  | nil => cases b <;> simp [same_fields, rank_of_fields]
  | cons field a ih =>
    obtain ⟨hv, ha⟩ := List.forall_mem_cons.mp h
    cases b with
    | nil => simp [same_fields, rank_of_fields]
    | cons other b => simp [same_fields, rank_of_fields, hv other.2, ih ha, and_assoc]

/-- Two values are the same if and only if their ranks are equal. -/
theorem same_value_iff (v w : Json) :
    same_value floats v w = true ↔ rank_of floats v = rank_of floats w := by
  induction v using Json.members_induction generalizing w with
  | arr a ih =>
    cases w with
    | arr b => simp [same_value, rank_of, same_items_iff ih]
    | _ => simp [same_value, rank_of, number]
  | obj a ih =>
    cases w with
    | obj b => simp [same_value, rank_of, same_fields_iff ih]
    | _ => simp [same_value, rank_of, number]
  | leaf v harr hobj =>
    cases v with
    | arr a => exact absurd rfl (harr a)
    | obj a => exact absurd rfl (hobj a)
    | str s => cases w <;> simp [same_value, rank_of, number, String.toList_inj]
    | _ => cases w <;> simp [same_value, rank_of, number]

/-! ## Less -/

theorem less_items_iff
    (h : ∀ v ∈ a, ∀ w, less_value floats v w = .ok true ↔ (rank_of floats v).Below (rank_of floats w)) :
    less_items floats a b = .ok true ↔ Rank.BelowItems (rank_of_items floats a) (rank_of_items floats b) := by
  induction a generalizing b with
  | nil =>
    cases b with
    | nil => simp [less_items, rank_of_items, Rank.not_belowItems_nil]
    | cons w b => exact iff_of_true (by simp [less_items]) .nil
  | cons v a ih =>
    obtain ⟨hv, ha⟩ := List.forall_mem_cons.mp h
    cases b with
    | nil => simp [less_items, rank_of_items, Rank.not_belowItems_nil]
    | cons w b =>
      rw [less_items, rank_of_items, rank_of_items, Rank.belowItems_cons_iff, ← same_value_iff, ← hv w, ← ih ha]
      by_cases hsame : same_value floats v w = true
      · have hless : less_value floats v w ≠ .ok true := fun hless =>
          ((hv w).mp hless).ne ((same_value_iff v w).mp hsame)
        simp [hsame, hless]
      · simp [hsame]

/-- A value is less if and only if its rank is below. -/
theorem less_value_iff (v w : Json) :
    less_value floats v w = .ok true ↔ (rank_of floats v).Below (rank_of floats w) := by
  induction v using Json.members_induction generalizing w with
  | arr a ih =>
    cases w with
    | arr b => rw [less_value, less_items_iff ih, rank_of, rank_of, Rank.below_list_iff]
    | _ => exact iff_of_false (by simp [less_value, number]) fun h => by cases h
  | obj a ih => cases w <;> exact iff_of_false (by simp [less_value, number]) fun h => by cases h
  | leaf v harr hobj =>
    cases v with
    | arr a => exact absurd rfl (harr a)
    | obj a => exact absurd rfl (hobj a)
    | null => cases w <;> exact iff_of_false (by simp [less_value, number]) fun h => by cases h
    | str s =>
      cases w with
      | str t => simp [less_value, rank_of, Rank.below_text_iff]
      | _ => exact iff_of_false (by simp [less_value, number]) fun h => by cases h
    | bool _ | int _ | float _ =>
      cases w with
      | bool _ | int _ | float _ => simp [less_value, number, rank_of, Rank.below_number_iff]
      | _ => exact iff_of_false (by simp [less_value, number]) fun h => by cases h.number_eq.choose_spec

theorem number_eq_ok {x : Option Number} : number floats v = .ok x ↔ rank_of floats v = .number x := by
  cases v <;> simp [number, rank_of]

/-- The values that have an order: two texts, two lists or two numbers. -/
theorem less_value_cases (h : less_value floats v w = .ok r) :
    (∃ s t, v = .str s ∧ w = .str t ∧ r = decide (s.toList < t.toList)) ∨
      (∃ a b, v = .arr a ∧ w = .arr b ∧ less_items floats a b = .ok r) ∨
        ∃ x y, number floats v = .ok x ∧ number floats w = .ok y ∧ r = exceeds y x := by
  cases v with
  | str s =>
    cases w with
    | str t =>
      rw [less_value] at h
      exact .inl ⟨s, t, rfl, rfl, (Except.ok.inj h).symm⟩
    | _ => simp [less_value, number] at h
  | arr a =>
    cases w with
    | arr b =>
      rw [less_value] at h
      exact .inr (.inl ⟨a, b, rfl, rfl, h⟩)
    | _ => simp [less_value, number] at h
  | null => cases w <;> simp [less_value, number] at h
  | obj fields => cases w <;> simp [less_value, number] at h
  | bool _ | int _ | float _ =>
    cases w with
    | bool _ | int _ | float _ => exact .inr (.inr ⟨_, _, rfl, rfl, (Except.ok.inj h).symm⟩)
    | _ => simp [less_value, number] at h

theorem less_of_numbers {x y : Option Number} (hv : number floats v = .ok x)
    (hw : number floats w = .ok y) : less_value floats v w = .ok (exceeds y x) := by
  cases v with
  | bool _ | int _ | float _ =>
    cases hv
    cases w with
    | bool _ | int _ | float _ =>
      cases hw
      rfl
    | _ => cases hw
  | _ => cases hv

theorem WithoutNan.number_ne (h : WithoutNan floats v) {x : Option Number}
    (hx : number floats v = .ok x) : x ≠ none := by
  cases v with
  | float r =>
    cases hx
    exact h r List.mem_cons_self
  | bool _ | int _ =>
    cases hx
    simp
  | _ => cases hx

theorem withoutNan_items : WithoutNan floats (.arr a) ↔ ∀ v ∈ a, WithoutNan floats v := by
  unfold WithoutNan
  rw [float_texts]
  induction a with
  | nil => simp [float_texts_items]
  | cons v a ih =>
    rw [List.forall_mem_cons, ← ih, float_texts_items, List.forall_mem_append]

/-- Lists that differ and have an order have the opposite order the other way round. -/
theorem less_items_swap
    (h : ∀ v ∈ a, ∀ w r, WithoutNan floats w → rank_of floats v ≠ rank_of floats w →
      less_value floats v w = .ok r → less_value floats w v = .ok (!r))
    (hb : ∀ w ∈ b, WithoutNan floats w) (hne : rank_of_items floats a ≠ rank_of_items floats b)
    (hless : less_items floats a b = .ok r) : less_items floats b a = .ok (!r) := by
  induction a generalizing b with
  | nil =>
    cases b with
    | nil => exact absurd rfl hne
    | cons w b =>
      cases hless
      rfl
  | cons v a ih =>
    obtain ⟨hv, ha⟩ := List.forall_mem_cons.mp h
    cases b with
    | nil =>
      cases hless
      rfl
    | cons w b =>
      obtain ⟨hw, hb⟩ := List.forall_mem_cons.mp hb
      rw [less_items] at hless ⊢
      rw [rank_of_items, rank_of_items] at hne
      by_cases hsame : same_value floats v w = true
      · have hrank := (same_value_iff v w).mp hsame
        rw [if_pos hsame] at hless
        rw [if_pos ((same_value_iff w v).mpr hrank.symm)]
        exact ih ha hb (fun heq => hne (by rw [hrank, heq])) hless
      · have hrank := mt (same_value_iff v w).mpr hsame
        rw [if_neg hsame] at hless
        rw [if_neg fun hsame => hrank ((same_value_iff w v).mp hsame).symm]
        exact hv w r hw hrank hless

/-- Without NaN, values that differ and have an order have the opposite order the other way round. -/
theorem less_value_swap (hv : WithoutNan floats v) (hw : WithoutNan floats w)
    (hne : rank_of floats v ≠ rank_of floats w) (h : less_value floats v w = .ok r) :
    less_value floats w v = .ok (!r) := by
  induction v using Json.members_induction generalizing w r with
  | arr a ih =>
    rcases less_value_cases h with ⟨s, t, heq, -⟩ | ⟨a, b, heq, rfl, hitems⟩ | ⟨x, y, hx, -⟩
    · cases heq
    · cases heq
      have ha := withoutNan_items.mp hv
      rw [less_value]
      refine less_items_swap (fun v hmem w r hw => ih v hmem (ha v hmem) hw) (withoutNan_items.mp hw)
        (fun heq => hne ?_) hitems
      rw [rank_of, rank_of, heq]
    · cases hx
  | obj fields ih =>
    rcases less_value_cases h with ⟨s, t, heq, -⟩ | ⟨a, b, heq, -⟩ | ⟨x, y, hx, -⟩
    · cases heq
    · cases heq
    · cases hx
  | leaf v harr hobj =>
    rcases less_value_cases h with ⟨s, t, rfl, rfl, rfl⟩ | ⟨a, b, heq, -⟩ | ⟨x, y, hx, hy, rfl⟩
    · have hne : s.toList ≠ t.toList := fun heq => hne (by rw [rank_of, rank_of, heq])
      rw [less_value]
      rcases lt_or_gt_of_ne hne with hlt | hgt
      · simp [hlt, hlt.le]
      · simp [hgt, hgt.le]
    · exact absurd heq (harr a)
    · obtain ⟨x, rfl⟩ := Option.ne_none_iff_exists'.mp (hv.number_ne hx)
      obtain ⟨y, rfl⟩ := Option.ne_none_iff_exists'.mp (hw.number_ne hy)
      have hne : x ≠ y := by
        rintro rfl
        exact hne ((number_eq_ok.mp hx).trans (number_eq_ok.mp hy).symm)
      rw [less_of_numbers hy hx]
      rcases lt_or_gt_of_ne hne with hlt | hgt
      · simp [exceeds, hlt, hlt.le]
      · simp [exceeds, hgt, hgt.le]

/-! ## At most -/

theorem AtMost.trans {u : Json} (h : AtMost floats v w) (h' : AtMost floats w u) : AtMost floats v u := by
  rcases h with heq | hbelow
  · rcases h' with heq' | hbelow'
    · exact .inl (heq.trans heq')
    · exact .inr (heq ▸ hbelow')
  · rcases h' with heq' | hbelow'
    · exact .inr (heq' ▸ hbelow)
    · exact .inr (hbelow.trans hbelow')

theorem atMost_of_less (h : less_value floats v w = .ok true) : AtMost floats v w :=
  .inr ((less_value_iff v w).mp h)

theorem atMost_of_not_less (hv : WithoutNan floats v) (hw : WithoutNan floats w)
    (h : less_value floats v w = .ok false) : AtMost floats w v := by
  by_cases heq : rank_of floats v = rank_of floats w
  · exact .inl heq.symm
  · exact atMost_of_less (less_value_swap hv hw heq h)

theorem AtMost.comparable (hv : WithoutNan floats v) (hw : WithoutNan floats w)
    (h : AtMost floats v w) : Comparable floats v w := by
  rcases h with heq | hbelow
  · exact .inl ((same_value_iff v w).mpr heq)
  · have hless := (less_value_iff v w).mpr hbelow
    exact .inr ⟨⟨_, hless⟩, _, less_value_swap hv hw hbelow.ne hless⟩

theorem Comparable.symm (h : Comparable floats v w) : Comparable floats w v := by
  rcases h with hsame | ⟨hless, hless'⟩
  · exact .inl ((same_value_iff w v).mpr ((same_value_iff v w).mp hsame).symm)
  · exact .inr ⟨hless', hless⟩

end Ranks

end Bogbin.Bogvm
