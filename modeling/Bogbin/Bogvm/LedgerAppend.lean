import Bogbin.Bogvm.LedgerVerify
import Bogbin.Bogvm.StorePackage

/-!
# Recording in a sound ledger

`record` returns when every entry of the ledger names its hash (`Ledgered`) and the receipt has a
format and a status of the schema, and the ledger is such a one again (`record_returns`).
-/

namespace Bogbin.Bogvm

/-- Every entry is an object that names its hash. -/
def Ledgered (ledger : List LedgerFile) : Prop :=
  ∀ file ∈ ledger, is_entry file = true → ∃ fields hash, file.content = .value (.obj fields) ∧
    Dict.get fields "receipt_hash" = some (.str hash) ∧ hex_pattern 64 hash = true

/-- The receipt has a format and a status that the schema admits. -/
structure Recordable (receipt : Dict) : Prop where
  format : str_field receipt "format"
    (fun s => receipt_formats.any fun (start, stop) => framed start stop s) = true
  status : str_field receipt "execution_status" (fun s => s = "completed" ∨ s = "blocked") = true

section Append

variable {keys : Keys} {g : Genesis} {ledger : List LedgerFile} {event : String} {receipt : Dict}

theorem ledgered_nil : Ledgered [] := nofun

theorem Ledgered.entries (h : Ledgered ledger) :
    entries ledger = .ok ((entry_files ledger).map entry_value) := by
  apply entries_eq_map
  intro file hfile hcontent
  obtain ⟨hmem, hentry⟩ := mem_entry_files.mp hfile
  obtain ⟨fields, hash, hvalue, -⟩ := h file hmem hentry
  rw [hvalue] at hcontent
  cases hcontent

theorem Ledgered.last_hash (h : Ledgered ledger) :
    ∃ hash, last_hash ledger = .ok (.str hash) ∧ hex_pattern 64 hash = true := by
  unfold Bogvm.last_hash
  rw [h.entries, StateExcept.ok_bind]
  cases hlast : ((entry_files ledger).map entry_value).getLast? with
  | none => exact ⟨ZERO_HASH, rfl, by decide⟩
  | some entry =>
    obtain ⟨file, hfile, rfl⟩ := List.mem_map.mp (List.mem_of_getLast? hlast)
    obtain ⟨hmem, hentry⟩ := mem_entry_files.mp hfile
    obtain ⟨fields, hash, hvalue, hhash, hhex⟩ := h file hmem hentry
    refine ⟨hash, ?_, hhex⟩
    rw [entry_value, hvalue]
    show as_dict (.obj fields) >>= _ = _
    rw [show as_dict (.obj fields) = .ok fields from rfl, StateExcept.ok_bind, hhash]
    rfl

theorem str_field_of_get {d : Dict} {key s : String} {pattern : String → Bool}
    (h : Dict.get d key = some (.str s)) : str_field d key pattern = pattern s := by
  rw [str_field, h]

theorem str_field_congr {d d' : Dict} {key : String} {pattern : String → Bool}
    (h : Dict.get d key = Dict.get d' key) : str_field d key pattern = str_field d' key pattern := by
  rw [str_field, str_field, h]

theorem valid_receipt_signed_entry (hkeys : keys.Lawful) (hreceipt : Recordable receipt)
    (hevent : event ≠ "") {sequence : ℕ} (hsequence : 1 ≤ sequence) {hash : String}
    (hhash : hex_pattern 64 hash = true) :
    valid_receipt (signed_entry keys (ledger_payload receipt sequence event (.str hash))) = true := by
  have hget {key : String} (h₁ : "receipt_hash" ≠ key) (h₂ : "signature" ≠ key) :
      Dict.get (signed_entry keys (ledger_payload receipt sequence event (.str hash))) key =
        Dict.get (ledger_payload receipt sequence event (.str hash)) key := get_signed_entry h₁ h₂
  have hsame {key : String} (h₁ : "receipt_hash" ≠ key) (h₂ : "signature" ≠ key)
      (h₃ : "previous_hash" ≠ key) (h₄ : "event" ≠ key) (h₅ : "sequence" ≠ key)
      (h₆ : "ledger_format" ≠ key) :
      Dict.get (signed_entry keys (ledger_payload receipt sequence event (.str hash))) key =
        Dict.get receipt key := by
    rw [hget h₁ h₂, get_ledger_payload, if_neg h₃, if_neg h₄, if_neg h₅, if_neg h₆]
  have hreceipt_hash : Dict.get (signed_entry keys (ledger_payload receipt sequence event
      (.str hash))) "receipt_hash" =
        some (.str (stable_hash (.obj (ledger_payload receipt sequence event (.str hash))))) := by
    rw [signed_entry, Dict.get_set_of_ne (by decide), Dict.get_set_self]
  have hvalid : valid_sequence (signed_entry keys (ledger_payload receipt sequence event
      (.str hash))) = true := by
    rw [valid_sequence, hget (by decide) (by decide), get_ledger_payload]
    simpa using hsequence
  unfold valid_receipt
  rw [hvalid, str_field_of_get hreceipt_hash,
    str_field_congr (hsame (by decide) (by decide) (by decide) (by decide) (by decide) (by decide)),
    hreceipt.format,
    @str_field_congr _ _ "execution_status" _ (hsame (by decide) (by decide) (by decide) (by decide)
      (by decide) (by decide)), hreceipt.status,
    @str_field_of_get _ "ledger_format" LEDGER_FORMAT _
      (by rw [hget (by decide) (by decide), get_ledger_payload]; rfl),
    @str_field_of_get _ "event" event _
      (by rw [hget (by decide) (by decide), get_ledger_payload]; rfl),
    @str_field_of_get _ "previous_hash" hash _
      (by rw [hget (by decide) (by decide), get_ledger_payload]; rfl), hhash,
    show valid_signature (signed_entry keys _) = true from valid_signature_sign_receipt hkeys,
    show hex_pattern 64 (stable_hash _) = true from hex_pattern_hexdigest _]
  simp [hevent]

/-- A receipt of the schema is recorded, and the ledger stays sound. -/
theorem record_returns (hkeys : keys.Lawful) (hledger : Ledgered g.ledger)
    (hreceipt : Recordable receipt) (hevent : event ≠ "") :
    ∃ entry ledger', record keys g event receipt = .ok (entry, { g with ledger := ledger' }) ∧
      Ledgered ledger' := by
  obtain ⟨hash, hlast, hhex⟩ := hledger.last_hash
  have hentries := hledger.entries
  let sequence := ((entry_files g.ledger).map entry_value).length + 1
  let entry := signed_entry keys (ledger_payload receipt sequence event (.str hash))
  refine ⟨entry, write_file g.ledger (entry_name sequence event) (.value (.obj entry)), ?_, ?_⟩
  · exact record_eq_ok.mpr ⟨_, _, hentries, hlast, rfl,
      valid_receipt_signed_entry hkeys hreceipt hevent (Nat.le_add_left 1 _) hhex, rfl⟩
  · intro file hfile hentry
    rcases List.mem_append.mp hfile with hold | hnew
    · exact hledger file (List.mem_filter.mp hold).1 hentry
    · obtain rfl := List.mem_singleton.mp hnew
      refine ⟨entry, stable_hash (.obj (ledger_payload receipt sequence event (.str hash))), rfl, ?_,
        hex_pattern_hexdigest _⟩
      show Dict.get (signed_entry keys _) "receipt_hash" = _
      rw [signed_entry, Dict.get_set_of_ne (by decide), Dict.get_set_self]

/-- An entry has the fields of its receipt. -/
theorem get_recorded {entry : Dict} {g' : Genesis} {key : String}
    (h : record keys g event receipt = .ok (entry, g'))
    (hkey : key ∉ ["receipt_hash", "signature", "previous_hash", "event", "sequence",
      "ledger_format"]) : Dict.get entry key = Dict.get receipt key := by
  obtain ⟨found, previous, -, -, rfl, -⟩ := record_eq_ok.mp h
  simp only [List.mem_cons, List.not_mem_nil, or_false, not_or] at hkey
  obtain ⟨h₁, h₂, h₃, h₄, h₅, h₆⟩ := hkey
  rw [get_signed_entry (Ne.symm h₁) (Ne.symm h₂), get_ledger_payload, if_neg (Ne.symm h₃),
    if_neg (Ne.symm h₄), if_neg (Ne.symm h₅), if_neg (Ne.symm h₆)]

/-- What a call of `record` returns keeps a sound ledger. -/
theorem Ledgered.record (hledger : Ledgered g.ledger) {g' : Genesis} {entry : Dict}
    (h : record keys g event receipt = .ok (entry, g')) : Ledgered g'.ledger := by
  obtain ⟨found, previous, -, -, rfl, -, rfl⟩ := record_eq_ok.mp h
  intro file hfile hentry
  rcases List.mem_append.mp hfile with hold | hnew
  · exact hledger file (List.mem_filter.mp hold).1 hentry
  · obtain rfl := List.mem_singleton.mp hnew
    refine ⟨_, stable_hash (.obj (ledger_payload receipt (found.length + 1) event previous)), rfl, ?_,
      hex_pattern_hexdigest _⟩
    rw [signed_entry, Dict.get_set_of_ne (by decide), Dict.get_set_self]

end Append

end Bogbin.Bogvm
