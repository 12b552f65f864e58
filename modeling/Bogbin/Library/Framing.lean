import Mathlib.Tactic

/-!
# Records with a terminated key and an open payload

A record is a key, a separator, a payload and an end mark; a stream is one record after the other.
Keys do not contain the separator, but payloads can contain everything.  Two lists of records have
the same stream exactly when they are equal or one is the other with a record boundary shifted into
a payload (`stream_eq_iff`).
-/

namespace Framing

variable {β : Type} {sep fin : β} {l l' common rest : List (List β × List β)}

def record (sep fin : β) (r : List β × List β) : List β := r.1 ++ sep :: (r.2 ++ [fin])

def stream (sep fin : β) (l : List (List β × List β)) : List β := l.flatMap (record sep fin)

/-- In the first record that differs, `l` has the payload of `l'`, the end mark and the beginning of
the records that come next in `l'`. -/
def Shifted (sep fin : β) (l l' : List (List β × List β)) : Prop :=
  ∃ common key a x rest rest', l = common ++ (key, a ++ fin :: x) :: rest ∧
    l' = common ++ (key, a) :: rest' ∧ x ++ fin :: stream sep fin rest = stream sep fin rest'

theorem stream_cons {r : List β × List β} :
    stream sep fin (r :: l) = r.1 ++ sep :: (r.2 ++ fin :: stream sep fin l) := by
  simp [stream, record]

theorem stream_append : stream sep fin (l ++ l') = stream sep fin l ++ stream sep fin l' := by
  simp [stream]

theorem append_sep_inj {a a' b b' : List β} (ha : sep ∉ a) (ha' : sep ∉ a')
    (h : a ++ sep :: b = a' ++ sep :: b') : a = a' ∧ b = b' := by
  induction a generalizing a' with
  | nil =>
    cases a' with
    | nil => exact ⟨rfl, List.tail_eq_of_cons_eq h⟩
    | cons x a' => exact absurd (List.head_eq_of_cons_eq h) (List.ne_of_not_mem_cons ha')
  | cons x a ih =>
    cases a' with
    | nil => exact absurd (List.head_eq_of_cons_eq h).symm (List.ne_of_not_mem_cons ha)
    | cons x' a' =>
      obtain rfl := List.head_eq_of_cons_eq h
      obtain ⟨rfl, rfl⟩ := ih (List.not_mem_of_not_mem_cons ha) (List.not_mem_of_not_mem_cons ha')
        (List.tail_eq_of_cons_eq h)
      exact ⟨rfl, rfl⟩

theorem Shifted.cons {r : List β × List β} (h : Shifted sep fin l l') :
    Shifted sep fin (r :: l) (r :: l') := by
  obtain ⟨common, key, a, x, rest, rest', rfl, rfl, hrest⟩ := h
  exact ⟨r :: common, key, a, x, rest, rest', rfl, rfl, hrest⟩

theorem Shifted.stream_eq (h : Shifted sep fin l l') : stream sep fin l = stream sep fin l' := by
  obtain ⟨common, key, a, x, rest, rest', rfl, rfl, hrest⟩ := h
  simp [stream_append, stream_cons, hrest]

theorem Shifted.ne (h : Shifted sep fin l l') : l ≠ l' := by
  obtain ⟨common, key, a, x, rest, rest', rfl, rfl, -⟩ := h
  intro heq
  have hrecord := List.head_eq_of_cons_eq (List.append_cancel_left heq)
  have hlength := congrArg (fun r => r.2.length) hrecord
  simp at hlength

/-- Equal streams come from equal records, or from shifted ones. -/
theorem eq_or_shifted (hl : ∀ r ∈ l, sep ∉ r.1) (hl' : ∀ r ∈ l', sep ∉ r.1)
    (h : stream sep fin l = stream sep fin l') :
    l = l' ∨ Shifted sep fin l l' ∨ Shifted sep fin l' l := by
  induction l generalizing l' with
  | nil =>
    cases l' with
    | nil => exact .inl rfl
    | cons r' l' => simp [stream, record] at h
  | cons r l ih =>
    cases l' with
    | nil => simp [stream, record] at h
    | cons r' l' =>
      rw [List.forall_mem_cons] at hl hl'
      rw [stream_cons, stream_cons] at h
      obtain ⟨hkey, hpayload⟩ := append_sep_inj hl.1 hl'.1 h
      obtain ⟨key, a⟩ := r
      obtain ⟨key', a'⟩ := r'
      obtain rfl : key = key' := hkey
      -- one payload begins with the other
      rcases List.append_eq_append_iff.mp hpayload with ⟨x, hx, hrest⟩ | ⟨x, hx, hrest⟩
      · cases x with
        | nil =>
          obtain rfl : a' = a := by simpa using hx
          rcases ih hl.2 hl'.2 (List.tail_eq_of_cons_eq hrest) with rfl | hshift | hshift
          · exact .inl rfl
          · exact .inr (.inl hshift.cons)
          · exact .inr (.inr hshift.cons)
        | cons y x =>
          obtain rfl := List.head_eq_of_cons_eq hrest
          obtain rfl : a' = _ := hx
          exact .inr (.inr ⟨[], key, a, x, l', l, rfl, rfl, (List.tail_eq_of_cons_eq hrest).symm⟩)
      · cases x with
        | nil =>
          obtain rfl : a = a' := by simpa using hx
          rcases ih hl.2 hl'.2 (List.tail_eq_of_cons_eq hrest).symm with rfl | hshift | hshift
          · exact .inl rfl
          · exact .inr (.inl hshift.cons)
          · exact .inr (.inr hshift.cons)
        | cons y x =>
          obtain rfl := List.head_eq_of_cons_eq hrest
          obtain rfl : a = _ := hx
          exact .inr (.inl ⟨[], key, a', x, l, l', rfl, rfl, (List.tail_eq_of_cons_eq hrest).symm⟩)

theorem stream_eq_iff (hl : ∀ r ∈ l, sep ∉ r.1) (hl' : ∀ r ∈ l', sep ∉ r.1) :
    stream sep fin l = stream sep fin l' ↔
      l = l' ∨ Shifted sep fin l l' ∨ Shifted sep fin l' l := by
  refine ⟨eq_or_shifted hl hl', ?_⟩
  rintro (rfl | h | h)
  · rfl
  · exact h.stream_eq
  · exact h.stream_eq.symm

/-- A record can take the next one into its payload. -/
theorem stream_merge {key key' a b : List β} :
    stream sep fin (common ++ (key, a) :: (key', b) :: rest) =
      stream sep fin (common ++ (key, a ++ fin :: (key' ++ sep :: b)) :: rest) := by
  simp [stream_append, stream_cons]

end Framing
