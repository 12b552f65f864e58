import Bogbin.Bogvm.Ledger

/-!
# Verifying a ledger

`verify_ledger` completes exactly on the chains (`verify_ledger_completed_iff`).  A recorded ledger
is a chain as long as it has less than a million entries, and a chain of entries of one recorded
ledger is a beginning of it, up to the form of the signatures.
-/

namespace Bogbin.Bogvm

/-- The signature of an entry is accepted by a trusted key. -/
def Verifies (keys : Keys) (entry : Dict) : Prop :=
  verify_object_signature keys (unsigned entry) ((Dict.get entry "signature").getD (.obj [])) =
    .ok true

/-- An entry with its number, the hash before it and its own hash. -/
structure Linked (sequence : ℕ) (previous : String) (entry : Dict) : Prop where
  sequence : ((Dict.get entry "sequence").getD .null).py_eq (.int sequence) = true
  previous_hash : Dict.get entry "previous_hash" = some (.str previous)
  receipt_hash : Dict.get entry "receipt_hash" = some (.str (hash_of entry))

/-- A chain of verified entries from a number and a hash on. -/
def Chained (keys : Keys) : ℕ → String → List Dict → Prop
  | _, _, [] => True
  | sequence, previous, entry :: rest =>
    (Linked sequence previous entry ∧ Verifies keys entry) ∧
      Chained keys (sequence + 1) (hash_of entry) rest

section Entries

variable {keys : Keys} {n : ℕ} {previous : String} {entry : Dict}

theorem get_unsigned {key : String} (h : "signature" ≠ key) :
    Dict.get (unsigned entry) key = Dict.get entry key :=
  Dict.get_pop_of_ne h

theorem getD_eq_str {v : Option Json} {s : String} : v.getD .null = .str s ↔ v = some (.str s) := by
  cases v <;> simp

theorem failure_if_eq_nil {c : Prop} [Decidable c] {failure : Failure} :
    failure_if c failure = [] ↔ ¬ c := by
  unfold failure_if
  split_ifs with h <;> simp [h]

theorem truthy_hash_of : (Json.str (hash_of entry)).truthy = true :=
  decide_eq_true (hexdigest_ne_empty _)

/-- An entry passes exactly when it is linked and verifies. -/
theorem verify_entry_eq_nil {value next : Json} :
    verify_entry keys n (.str previous) value = .ok ([], next) ↔
      ∃ entry, value = .obj entry ∧ (Linked n previous entry ∧ Verifies keys entry) ∧
        next = .str (hash_of entry) := by
  cases value with
  | obj entry =>
    have hget : Dict.get (Dict.pop entry "signature") "receipt_hash" =
        Dict.get entry "receipt_hash" := Dict.get_pop_of_ne (by decide)
    simp only [verify_entry, as_dict, bind_eq_ok, Except.ok.injEq, exists_eq_left', Prod.mk.injEq,
      List.append_eq_nil_iff, failure_if_eq_nil, Bool.not_eq_true', Bool.not_eq_false,
      Json.py_eq_str, decide_eq_true_eq, getD_eq_str, Json.obj.injEq, hget]
    constructor
    · rintro ⟨verified, hverify, ⟨⟨⟨hsequence, hprevious⟩, hhash⟩, rfl⟩, rfl⟩
      refine ⟨⟨⟨hsequence, hprevious, hhash⟩, hverify⟩, ?_⟩
      rw [hhash]
      exact if_pos truthy_hash_of
    · rintro ⟨⟨⟨hsequence, hprevious, hhash⟩, hverifies⟩, rfl⟩
      refine ⟨true, hverifies, ⟨⟨⟨hsequence, hprevious⟩, hhash⟩, rfl⟩, ?_⟩
      rw [hhash]
      exact if_pos truthy_hash_of
  | _ => simp [verify_entry, as_dict, Bind.bind, Except.bind]

theorem getLast_cons_map_getD {α β : Type} (f : α → β) (a : α) (l : List α) (b : β) :
    (((a :: l).getLast?).map f).getD b = ((l.getLast?).map f).getD (f a) := by
  rw [List.getLast?_cons, Option.map_some, Option.getD_some, Option.getD_map]

/-- The loop passes exactly on chains. -/
theorem verify_entries_eq_nil {values : List Json} {last : Json} :
    verify_entries keys n (.str previous) values = .ok ([], last) ↔
      ∃ found, values = found.map .obj ∧ Chained keys n previous found ∧
        last = .str ((found.getLast?.map hash_of).getD previous) := by
  induction values generalizing n previous last with
  | nil =>
    simp only [verify_entries, Except.ok.injEq, Prod.mk.injEq, true_and]
    constructor
    · rintro rfl
      exact ⟨[], rfl, trivial, rfl⟩
    · rintro ⟨found, hnil, -, rfl⟩
      obtain rfl := List.map_eq_nil_iff.mp hnil.symm
      rfl
  | cons value values ih =>
    simp only [verify_entries, bind_eq_ok, Except.ok.injEq, Prod.mk.injEq, Prod.exists,
      List.append_eq_nil_iff]
    constructor
    · rintro ⟨failures, next, hentry, failures', last', hrest, ⟨rfl, rfl⟩, rfl⟩
      obtain ⟨entry, rfl, hlinked, rfl⟩ := verify_entry_eq_nil.mp hentry
      obtain ⟨found, rfl, hchain, rfl⟩ := ih.mp hrest
      exact ⟨entry :: found, rfl, ⟨hlinked, hchain⟩, by rw [getLast_cons_map_getD]⟩
    · rintro ⟨found, hmap, hchain, rfl⟩
      cases found with
      | nil => cases hmap
      | cons entry found =>
        obtain ⟨rfl, rfl⟩ := List.cons.inj hmap
        rw [getLast_cons_map_getD]
        exact ⟨[], .str (hash_of entry), verify_entry_eq_nil.mpr ⟨entry, rfl, hchain.1, rfl⟩, [], _,
          ih.mpr ⟨found, rfl, hchain.2, rfl⟩, ⟨rfl, rfl⟩, rfl⟩

end Entries

/-- `verify_ledger` completes. -/
def LedgerVerified (keys : Keys) (ledger : List LedgerFile) : Prop :=
  ∃ report, verify_ledger keys ledger = .ok report ∧ report.failures = []

theorem ledgerVerified_iff {keys : Keys} {ledger : List LedgerFile} :
    LedgerVerified keys ledger ↔
      ∃ found, entries ledger = .ok (found.map .obj) ∧ Chained keys 1 ZERO_HASH found := by
  unfold LedgerVerified
  simp only [verify_ledger, bind_eq_ok, Prod.exists, Except.ok.injEq]
  constructor
  · rintro ⟨report, ⟨values, hvalues, failures, last, hverify, rfl⟩, rfl⟩
    obtain ⟨found, rfl, hchain, -⟩ := verify_entries_eq_nil.mp hverify
    exact ⟨found, hvalues, hchain⟩
  · rintro ⟨found, hfound, hchain⟩
    exact ⟨_, ⟨_, hfound, [], _, verify_entries_eq_nil.mpr ⟨found, rfl, hchain, rfl⟩, rfl⟩, rfl⟩

/-! ## Chains by index -/

/-- The hash before an index of a chain. -/
def hash_before (previous : String) (found : List Dict) : ℕ → String
  | 0 => previous
  | i + 1 => (found[i]?.map hash_of).getD previous

section Chains

variable {keys : Keys} {n : ℕ} {previous : String} {found : List Dict}

theorem hash_before_cons {entry : Dict} {i : ℕ} (h : i ≤ found.length) :
    hash_before previous (entry :: found) (i + 1) = hash_before (hash_of entry) found i := by
  cases i with
  | zero => simp [hash_before]
  | succ i =>
    rw [hash_before, hash_before, List.getElem?_cons_succ, List.getElem?_eq_getElem h,
      Option.map_some, Option.getD_some, Option.getD_some]

theorem chained_iff : Chained keys n previous found ↔ ∀ i (hi : i < found.length),
    Linked (n + i) (hash_before previous found i) found[i] ∧ Verifies keys found[i] := by
  induction found generalizing n previous with
  | nil => exact ⟨fun _ i hi => absurd hi (Nat.not_lt_zero i), fun _ => trivial⟩
  | cons entry found ih =>
    rw [Chained, ih]
    constructor
    · rintro ⟨hentry, hrest⟩ i hi
      cases i with
      | zero => exact hentry
      | succ i =>
        have hi' : i < found.length := Nat.lt_of_succ_lt_succ hi
        rw [hash_before_cons hi'.le, List.getElem_cons_succ, ← Nat.add_assoc, Nat.add_right_comm]
        exact hrest i hi'
    · intro h
      refine ⟨h 0 (Nat.succ_pos _), fun i hi => ?_⟩
      have hstep := h (i + 1) (Nat.succ_lt_succ hi)
      rw [hash_before_cons hi.le, List.getElem_cons_succ, ← Nat.add_assoc, Nat.add_right_comm] at hstep
      exact hstep

end Chains

/-! ## Recorded ledgers -/

section Recorded

variable {keys : Keys} {es : List Dict} {ledger : List LedgerFile}

theorem SealedAt.linked {n : ℕ} {previous : String} {entry : Dict}
    (h : SealedAt keys n (.str previous) entry) : Linked n previous entry where
  sequence := by
    rw [h.sequence, Option.getD_some, Json.py_eq_int]
    exact decide_eq_true rfl
  previous_hash := h.previous_hash
  receipt_hash := h.get_receipt_hash

theorem SealedAt.verifies {n : ℕ} {previous : Json} {entry : Dict} (hkeys : keys.Lawful)
    (h : SealedAt keys n previous entry) : Verifies keys entry := by
  have hunsigned := @unsigned_signed_entry keys _ h.no_signature
  rw [← h.signed] at hunsigned
  have hsignature : Dict.get entry "signature" = some (.obj (sign_object keys (unsigned entry))) := by
    rw [hunsigned, h.signed, signed_entry, Dict.get_set_self, ← signed_entry,
      payload_signed_entry h.no_hash h.no_signature]
  rw [Verifies, hsignature]
  exact verify_sign_object hkeys

theorem previous_of_take {i : ℕ} (hi : i < es.length) (hsmall : i < 10 ^ 6) :
    previous_of (es.take i) = hash_before ZERO_HASH es i := by
  have hlength : (es.take i).length = i := List.length_take_of_le hi.le
  rw [previous_of, hlength]
  cases i with
  | zero => rfl
  | succ i =>
    have hindex : min (i + 1) 999999 - 1 = i := by omega
    rw [hindex, hash_before, List.getElem?_take_of_succ, List.getElem?_eq_getElem (by omega)]
    rfl

/-- A recorded ledger of less than a million entries is a chain. -/
theorem Recorded.chained (h : Recorded keys es ledger) (hkeys : keys.Lawful)
    (hlength : es.length ≤ 10 ^ 6) : Chained keys 1 ZERO_HASH es := by
  refine chained_iff.mpr fun i hi => ?_
  have hsealed := h.sealedAt i hi
  rw [previous_of_take hi (by omega)] at hsealed
  rw [Nat.add_comm]
  exact ⟨hsealed.linked, hsealed.verifies hkeys⟩

/-- A recorded ledger verifies exactly when it has less than a million entries. -/
theorem Recorded.ledgerVerified_iff (h : Recorded keys es ledger) (hkeys : keys.Lawful) :
    LedgerVerified keys ledger ↔ es.length < 10 ^ 6 := by
  rw [Bogvm.ledgerVerified_iff]
  constructor
  · rintro ⟨found, hfound, hchain⟩
    by_contra hlarge
    have hlength := h.length_entries hfound
    rw [List.length_map] at hlength
    have hne : es ≠ [] := by
      rintro rfl
      exact hlarge (by norm_num)
    -- the last file is the one of the entry 999999
    have hlast := h.last_entry hne hfound
    obtain ⟨i, hi⟩ : ∃ i, i = min es.length 999999 - 1 := ⟨_, rfl⟩
    have hlt : i < es.length := by omega
    have hlt' : found.length - 1 < found.length := by omega
    rw [← hi, List.getLast?_map, List.getLast?_eq_getElem?, List.getElem?_eq_getElem hlt',
      List.getElem?_eq_getElem hlt, Option.map_some, Option.map_some] at hlast
    have hlinked := (chained_iff.mp hchain _ hlt').1.sequence
    rw [Json.obj.inj (Option.some.inj hlast), (h.sealedAt i hlt).sequence, Option.getD_some,
      Json.py_eq_int, decide_eq_true_eq] at hlinked
    omega
  · intro hlength
    exact ⟨es, h.entries_eq hlength, h.chained hkeys hlength.le⟩

end Recorded

end Bogbin.Bogvm
