import Mathlib.Tactic

/-!
# Forged occurrences in a text of two origins

A text whose symbols are a writer's own or foreign, and the occurrences of the writer's patterns in
it that a foreign symbol is part of.  A symbol that no pattern contains cuts the text: an occurrence
is on one side of it (`forged_append_sep`).
-/

namespace Occurrence

inductive Origin
  | own
  | foreign
  deriving DecidableEq

variable {α : Type}

def own (text : List α) : List (Origin × α) := text.map (Prod.mk .own)

def foreign (text : List α) : List (Origin × α) := text.map (Prod.mk .foreign)

/-- A pattern occurs with a foreign symbol in it. -/
def Forged (patterns : List (List α)) (text : List (Origin × α)) : Prop :=
  ∃ occurrence, occurrence <:+: text ∧ occurrence.map Prod.snd ∈ patterns ∧
    ∃ m ∈ occurrence, m.1 = .foreign

/-- The text ends with the separator. -/
def EndsWith (sep : α) (text : List (Origin × α)) : Prop := ∃ body o, text = body ++ [(o, sep)]

theorem infix_append_cons {w a b : List α} {c : α} (hc : c ∉ w) (h : w <:+: a ++ c :: b) :
    w <:+: a ∨ w <:+: b := by
  obtain ⟨s, t, h⟩ := h
  rcases List.append_eq_append_iff.mp h with ⟨a', ha, -⟩ | ⟨mid, hmid, hb⟩
  · exact .inl ⟨s, a', ha.symm⟩
  · cases mid with
    | nil => exact .inl ⟨s, [], by rw [hmid, List.append_nil, List.append_nil]⟩
    | cons d mid =>
      obtain ⟨rfl, rfl⟩ := List.cons.inj hb
      rcases List.append_eq_append_iff.mp hmid with ⟨a', -, hw⟩ | ⟨skipped, -, hw⟩
      · exact absurd (hw ▸ List.mem_append_right a' (List.mem_cons_self ..)) hc
      · cases skipped with
        | nil =>
          rw [List.nil_append] at hw
          exact absurd (hw ▸ List.mem_cons_self) hc
        | cons d skipped =>
          obtain ⟨rfl, rfl⟩ := List.cons.inj hw
          exact .inr ⟨skipped, t, rfl⟩

variable {patterns : List (List α)} {text a b : List (Origin × α)} {sep : α} {o : Origin}

theorem Forged.mono (h : Forged patterns a) (hab : a <:+: b) : Forged patterns b := by
  obtain ⟨w, hw, hpattern, hforeign⟩ := h
  exact ⟨w, hw.trans hab, hpattern, hforeign⟩

theorem not_forged_of_own (h : ∀ m ∈ text, m.1 = .own) : ¬ Forged patterns text := by
  rintro ⟨w, hw, -, m, hm, hforeign⟩
  have hown := h m (hw.subset hm)
  rw [hforeign] at hown
  cases hown

theorem not_forged_own (s : List α) : ¬ Forged patterns (own s) := by
  apply not_forged_of_own
  intro m hm
  obtain ⟨x, -, rfl⟩ := List.mem_map.mp hm
  rfl

theorem not_forged_nil : ¬ Forged patterns [] := not_forged_own []

/-- A separator cuts the text. -/
theorem forged_append_sep (hsep : ∀ p ∈ patterns, sep ∉ p) :
    Forged patterns (a ++ (o, sep) :: b) ↔ Forged patterns a ∨ Forged patterns b := by
  constructor
  · rintro ⟨w, hw, hpattern, hforeign⟩
    have hnot : (o, sep) ∉ w := fun hmem => hsep _ hpattern (List.mem_map_of_mem hmem)
    rcases infix_append_cons hnot hw with hw | hw
    · exact .inl ⟨w, hw, hpattern, hforeign⟩
    · exact .inr ⟨w, hw, hpattern, hforeign⟩
  · rintro (h | h)
    · exact h.mono (List.prefix_append ..).isInfix
    · exact h.mono ((List.suffix_cons ..).trans (List.suffix_append ..)).isInfix

theorem forged_append (hsep : ∀ p ∈ patterns, sep ∉ p) (ha : EndsWith sep a) :
    Forged patterns (a ++ b) ↔ Forged patterns a ∨ Forged patterns b := by
  obtain ⟨body, o, rfl⟩ := ha
  rw [List.append_assoc, List.singleton_append, forged_append_sep hsep, forged_append_sep hsep]
  simp only [not_forged_nil, or_false]

theorem EndsWith.append (hb : EndsWith sep b) : EndsWith sep (a ++ b) := by
  obtain ⟨body, o, rfl⟩ := hb
  exact ⟨a ++ body, o, (List.append_assoc ..).symm⟩

/-- A foreign text is forged when a pattern occurs in it. -/
theorem forged_foreign (hne : ∀ p ∈ patterns, p ≠ []) {s : List α} :
    Forged patterns (foreign s) ↔ ∃ p ∈ patterns, p <:+: s := by
  constructor
  · rintro ⟨w, hw, hpattern, -⟩
    have hmap := hw.map Prod.snd
    rw [foreign, List.map_map] at hmap
    exact ⟨_, hpattern, by simpa using hmap⟩
  · rintro ⟨p, hp, hinside⟩
    refine ⟨foreign p, hinside.map _, ?_, ?_⟩
    · simpa [foreign] using hp
    · obtain ⟨x, hx⟩ := List.exists_mem_of_ne_nil p (hne p hp)
      exact ⟨(.foreign, x), List.mem_map_of_mem hx, rfl⟩

/-- Pieces that each end with the separator, and a rest. -/
theorem forged_flatMap_append {β : Type} (hsep : ∀ p ∈ patterns, sep ∉ p)
    {piece : β → List (Origin × α)} {l : List β} (h : ∀ x ∈ l, EndsWith sep (piece x)) :
    Forged patterns (l.flatMap piece ++ b) ↔
      (∃ x ∈ l, Forged patterns (piece x)) ∨ Forged patterns b := by
  induction l with
  | nil => simp
  | cons x l ih =>
    rw [List.flatMap_cons, List.append_assoc, forged_append hsep (h x (List.mem_cons_self ..)),
      ih fun y hy => h y (List.mem_cons_of_mem x hy), ← or_assoc]
    simp only [List.mem_cons, exists_eq_or_imp]

theorem forged_flatMap {β : Type} (hsep : ∀ p ∈ patterns, sep ∉ p)
    {piece : β → List (Origin × α)} {l : List β} (h : ∀ x ∈ l, EndsWith sep (piece x)) :
    Forged patterns (l.flatMap piece) ↔ ∃ x ∈ l, Forged patterns (piece x) := by
  have happend := @forged_flatMap_append _ _ [] _ _ hsep piece l h
  rw [List.append_nil] at happend
  rw [happend, or_iff_left not_forged_nil]

end Occurrence
