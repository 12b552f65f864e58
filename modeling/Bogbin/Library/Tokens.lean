import Mathlib.Data.List.TakeWhile

/-!
# Words

The words of a text between separators, and a text without the separators at its ends.  A text of
words with one separator between any two has these words (`words_intercalate`).
-/

namespace Tokens

variable {α : Type*} (sep : α → Bool)

/-- A word, unless it is empty. -/
def flush (word : List α) : List (List α) := if word.isEmpty then [] else [word]

/-- The words of a text whose first word starts with `word`. -/
def scan (word : List α) : List α → List (List α)
  | [] => flush word
  | c :: rest => if sep c then flush word ++ scan [] rest else scan (word ++ [c]) rest

/-- The maximal parts without separators. -/
def words (text : List α) : List (List α) := scan sep [] text

/-- The text without the separators at its ends. -/
def strip (text : List α) : List α := ((text.dropWhile sep).reverse.dropWhile sep).reverse

/-- A word in the sense of `words`. -/
def IsWord (word : List α) : Prop := word ≠ [] ∧ ∀ c ∈ word, sep c = false

section Lemmas

variable {sep} {word text rest : List α} {c : α}

theorem flush_of_ne_nil (h : word ≠ []) : flush word = [word] :=
  if_neg fun hempty => h (List.isEmpty_iff.mp hempty)

@[simp] theorem flush_nil : flush ([] : List α) = [] := rfl

theorem mem_flush {w : List α} : w ∈ flush word ↔ w = word ∧ word ≠ [] := by
  unfold flush
  split_ifs with hempty
  · simp [List.isEmpty_iff.mp hempty]
  · have hne : word ≠ [] := fun hnil => hempty (List.isEmpty_iff.mpr hnil)
    rw [List.mem_singleton]
    exact ⟨fun heq => ⟨heq, hne⟩, And.left⟩

theorem scan_append (h : ∀ c ∈ text, sep c = false) :
    scan sep word (text ++ rest) = scan sep (word ++ text) rest := by
  induction text generalizing word with
  | nil => rw [List.nil_append, List.append_nil]
  | cons c text ih =>
    have hc : sep c = false := h c List.mem_cons_self
    rw [List.cons_append, scan, if_neg (by simp [hc]), ih fun d hd => h d (List.mem_cons_of_mem c hd),
      List.append_assoc, List.singleton_append]

theorem scan_sep (h : sep c = true) : scan sep word (c :: rest) = flush word ++ words sep rest := by
  rw [scan, if_pos h, words]

theorem words_sep (h : sep c = true) : words sep (c :: rest) = words sep rest := scan_sep h

/-- The first word, up to a separator. -/
theorem words_append (hword : IsWord sep word) (h : sep c = true) :
    words sep (word ++ c :: rest) = word :: words sep rest := by
  rw [words, scan_append hword.2, List.nil_append, scan_sep h, flush_of_ne_nil hword.1,
    List.singleton_append]

theorem words_of_isWord (hword : IsWord sep word) : words sep word = [word] := by
  have hscan := @scan_append _ sep [] word [] hword.2
  rw [List.append_nil, List.nil_append] at hscan
  rw [words, hscan, scan, flush_of_ne_nil hword.1]

theorem words_intercalate {tokens : List (List α)} (h : ∀ token ∈ tokens, IsWord sep token)
    (hc : sep c = true) : words sep (List.intercalate [c] tokens) = tokens := by
  induction tokens with
  | nil => rfl
  | cons token tokens ih =>
    have htoken := h token List.mem_cons_self
    cases tokens with
    | nil => rw [List.intercalate_singleton, words_of_isWord htoken]
    | cons next tokens =>
      rw [List.intercalate_cons_cons, List.append_assoc, List.singleton_append,
        words_append htoken hc, ih fun w hw => h w (List.mem_cons_of_mem token hw)]

theorem scan_append_sep (h : ∀ d ∈ rest, sep d = true) : scan sep word (text ++ rest) = scan sep word text := by
  induction text generalizing word with
  | nil =>
    rw [List.nil_append]
    induction rest generalizing word with
    | nil => rfl
    | cons d rest ih =>
      have hrest : words sep rest = [] := ih (fun e he => h e (List.mem_cons_of_mem d he))
      rw [scan_sep (h d List.mem_cons_self), hrest, List.append_nil, scan]
  | cons c text ih =>
    rw [List.cons_append, scan, scan]
    split_ifs
    · rw [ih]
    · rw [ih]

theorem words_dropWhile : words sep (text.dropWhile sep) = words sep text := by
  induction text with
  | nil => rfl
  | cons c text ih =>
    rw [List.dropWhile_cons]
    split_ifs with hc
    · rw [ih, words_sep hc]
    · rfl

/-- Stripping leaves the words. -/
theorem words_strip : words sep (strip sep text) = words sep text := by
  have hsplit : (text.dropWhile sep).reverse.takeWhile sep ++
      (text.dropWhile sep).reverse.dropWhile sep = (text.dropWhile sep).reverse :=
    List.takeWhile_append_dropWhile
  have hback : strip sep text ++ ((text.dropWhile sep).reverse.takeWhile sep).reverse =
      text.dropWhile sep := by
    rw [strip, ← List.reverse_append, hsplit, List.reverse_reverse]
  have hwords : words sep (strip sep text) = words sep (text.dropWhile sep) := by
    rw [← hback]
    refine (scan_append_sep fun d hd => ?_).symm
    exact List.mem_takeWhile_imp (List.mem_reverse.mp hd)
  rw [hwords, words_dropWhile]

theorem isWord_of_mem_scan {w : List α} (hword : ∀ c ∈ word, sep c = false)
    (h : w ∈ scan sep word text) : IsWord sep w := by
  induction text generalizing word with
  | nil =>
    obtain ⟨rfl, hne⟩ := mem_flush.mp h
    exact ⟨hne, hword⟩
  | cons c text ih =>
    unfold scan at h
    split_ifs at h with hc
    · rcases List.mem_append.mp h with hflush | hrest
      · obtain ⟨rfl, hne⟩ := mem_flush.mp hflush
        exact ⟨hne, hword⟩
      · exact ih (fun _ hd => (List.not_mem_nil hd).elim) hrest
    · refine ih (fun d hd => ?_) h
      rcases List.mem_append.mp hd with hd | hd
      · exact hword d hd
      · rw [List.mem_singleton.mp hd]
        exact Bool.eq_false_iff.mpr hc

theorem isWord_of_mem_words {w : List α} (h : w ∈ words sep text) : IsWord sep w :=
  isWord_of_mem_scan (fun _ hd => (List.not_mem_nil hd).elim) h

theorem dropWhile_of_head {l : List α} (h : ∀ c ∈ l.head?, sep c = false) : l.dropWhile sep = l := by
  cases l with
  | nil => rfl
  | cons c l => rw [List.dropWhile_cons, h c rfl, if_neg Bool.false_ne_true]

/-- A text with no separator at its ends. -/
theorem strip_of_ends (hhead : ∀ c ∈ text.head?, sep c = false)
    (hlast : ∀ c ∈ text.getLast?, sep c = false) : strip sep text = text := by
  rw [strip, dropWhile_of_head hhead, dropWhile_of_head (by rwa [List.head?_reverse]),
    List.reverse_reverse]

theorem strip_of_isWord (h : IsWord sep text) : strip sep text = text :=
  strip_of_ends (fun c hc => h.2 c (List.mem_of_mem_head? hc))
    fun c hc => h.2 c (List.mem_of_mem_getLast? hc)

theorem mem_of_mem_strip (h : c ∈ strip sep text) : c ∈ text := by
  rw [strip, List.mem_reverse] at h
  have h := (List.dropWhile_sublist _).subset h
  exact (List.dropWhile_sublist _).subset (List.mem_reverse.mp h)

/-- The last character of a stripped text is no separator. -/
theorem getLast_strip (h : c ∈ (strip sep text).getLast?) : sep c = false := by
  rw [strip, List.getLast?_reverse] at h
  have hnot := List.head?_dropWhile_not sep (text.dropWhile sep).reverse
  rw [Option.mem_def.mp h] at hnot
  simpa using hnot

/-- The first character of a stripped text is no separator. -/
theorem head_strip (h : c ∈ (strip sep text).head?) : sep c = false := by
  rw [strip, List.head?_reverse] at h
  obtain ⟨front, hfront⟩ := List.dropWhile_suffix (l := (text.dropWhile sep).reverse) sep
  have hlast : (text.dropWhile sep).reverse.getLast? = some c := by
    rw [← hfront, List.getLast?_append, Option.mem_def.mp h]
    rfl
  rw [List.getLast?_reverse] at hlast
  have hnot := List.head?_dropWhile_not sep text
  rw [hlast] at hnot
  simpa using hnot

theorem strip_strip : strip sep (strip sep text) = strip sep text :=
  strip_of_ends (fun _ => head_strip) fun _ => getLast_strip

end Lemmas

end Tokens
