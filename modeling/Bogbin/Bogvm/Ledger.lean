import Bogbin.Bogvm.Replay

/-!
# Recorded ledgers

`Recorded` is a ledger that calls of `record` have written.  Its files are the recorded entries by
their numbers (`Recorded.ledger_eq`), and below a million entries the order of the file names is the
order of the numbers (`Recorded.entries_eq`).  From the millionth entry on, the last file name stays
the one of the entry 999999 (`Recorded.last_entry`).
-/

namespace Bogbin.Bogvm

open ZeroPadding

/-! ## Hashes as texts -/

theorem hex_digit_mem {n : ℕ} (h : n < 16) : hex_digit n ∈ "0123456789abcdef".toList := by
  interval_cases n <;> decide

theorem toList_hexdigest (data : Bytes) :
    (hexdigest data).toList.length = 64 ∧ is_hex (hexdigest data).toList = true := by
  have hlength := (Core.sha256_standard data).2
  rw [hexdigest, String.toList_ofList]
  refine ⟨by simp [hlength], List.all_eq_true.mpr fun c hc => ?_⟩
  obtain ⟨b, -, hb⟩ := List.mem_flatMap.mp hc
  have hlt := b.toNat_lt
  simp only [List.mem_cons, List.not_mem_nil, or_false] at hb
  rcases hb with rfl | rfl
  · simpa using hex_digit_mem (Nat.div_lt_of_lt_mul hlt)
  · simpa using hex_digit_mem (Nat.mod_lt _ (by decide))

theorem hexdigest_ne_empty (data : Bytes) : hexdigest data ≠ "" := by
  intro h
  have hlength := (toList_hexdigest data).1
  rw [h] at hlength
  cases hlength

theorem hex_pattern_of_hex {n : ℕ} {s : String} (hlength : s.toList.length = n)
    (hhex : is_hex s.toList = true) : hex_pattern n s = true := by
  simp [hex_pattern, anchored, hlength, hhex]

theorem hex_pattern_hexdigest (data : Bytes) : hex_pattern 64 (hexdigest data) = true :=
  hex_pattern_of_hex (toList_hexdigest data).1 (toList_hexdigest data).2

theorem hex_pattern_key_id (public_bytes : Bytes) : hex_pattern 16 (key_id public_bytes) = true := by
  obtain ⟨hlength, hhex⟩ := toList_hexdigest public_bytes
  refine hex_pattern_of_hex ?_ ?_
  · rw [key_id, String.toList_ofList, List.length_take, hlength]
    rfl
  · rw [key_id, String.toList_ofList]
    exact List.all_eq_true.mpr fun c hc => List.all_eq_true.mp hhex c (List.mem_of_mem_take hc)

/-! ## File names -/

section Names

variable {n k : ℕ} {event event' : String}

theorem entry_name_lt (h : n < k) (hk : k < 10 ^ 6) :
    entry_name n event < entry_name k event' := by
  refine append_lt_append ?_ (zero_padded_lt (by decide) h hk) _ _
  rw [length_zero_padded (by decide) (Nat.lt_trans h hk), length_zero_padded (by decide) hk]

/-- From the number 1000000 on, a name comes before the one of 999999. -/
theorem entry_name_lt_nines (h : 10 ^ 6 ≤ n) :
    entry_name n event < entry_name 999999 event' := by
  have hnines : zero_padded 6 999999 = List.replicate 6 '9' := by decide
  unfold entry_name
  rw [hnines]
  exact digits_lt_nines (fun _ => isDigit_of_mem_zero_padded)
    (lt_length_zero_padded (by decide) h) (by decide) _ _

theorem takeWhile_entry_name : (entry_name n event).takeWhile Char.isDigit = zero_padded 6 n := by
  rw [entry_name, List.takeWhile_append_of_pos fun _ => isDigit_of_mem_zero_padded,
    List.takeWhile_cons_of_neg (by decide), List.append_nil]

theorem entry_name_injective (h : entry_name n event = entry_name k event') : n = k := by
  have hdigits := congrArg (List.takeWhile Char.isDigit) h
  rw [takeWhile_entry_name, takeWhile_entry_name] at hdigits
  exact zero_padded_injective hdigits

theorem is_entry_of_plain {content : Content} (h : '/' ∉ event.toList) :
    is_entry ⟨entry_name n event, content⟩ = true := by
  have hslash : '/' ∉ entry_name n event := by
    unfold entry_name
    rw [List.mem_append, List.mem_cons, List.mem_append]
    rintro (hmem | heq | hmem | hmem)
    · exact not_isDigit_not_mem (by decide) hmem
    · exact absurd heq (by decide)
    · exact h hmem
    · exact absurd hmem (by decide)
  have hsuffix : ".json".toList.isSuffixOf (entry_name n event) = true := by
    rw [List.isSuffixOf_iff_suffix]
    exact ⟨zero_padded 6 n ++ '_' :: event.toList, by simp [entry_name]⟩
  simp only [is_entry, hslash, hsuffix, not_false_eq_true, and_self, decide_true]

end Names

/-! ## The order of the files -/

theorem name_le_trans (a b c : LedgerFile) (hab : name_le a b) (hbc : name_le b c) :
    name_le a c := by
  simp only [name_le, decide_eq_true_eq] at hab hbc ⊢
  exact le_trans hab hbc

theorem name_le_total (a b : LedgerFile) : name_le a b || name_le b a := by
  simpa [name_le] using le_total a.name b.name

theorem pairwise_entry_files (ledger : List LedgerFile) :
    (entry_files ledger).Pairwise fun a b => name_le a b :=
  List.pairwise_mergeSort name_le_trans name_le_total _

theorem mem_entry_files {ledger : List LedgerFile} {file : LedgerFile} :
    file ∈ entry_files ledger ↔ file ∈ ledger ∧ is_entry file := by
  rw [entry_files, List.mem_mergeSort, List.mem_filter]

/-- The file with the greatest name is the last one. -/
theorem getLast_entry_files {ledger : List LedgerFile} {top : LedgerFile}
    (hmem : top ∈ entry_files ledger)
    (htop : ∀ file ∈ entry_files ledger, file = top ∨ file.name < top.name) :
    (entry_files ledger).getLast? = some top := by
  have hpair := pairwise_entry_files ledger
  rcases List.eq_nil_or_concat (entry_files ledger) with hnil | ⟨init, last, heq⟩
  · rw [hnil] at hmem
    exact absurd hmem List.not_mem_nil
  rw [List.concat_eq_append] at heq
  have hlast : last ∈ entry_files ledger := by simp [heq]
  rw [heq, List.pairwise_append] at hpair
  rw [heq, List.getLast?_concat]
  rcases htop last hlast with rfl | hlt
  · rfl
  rw [heq, List.mem_append, List.mem_singleton] at hmem
  rcases hmem with hinit | rfl
  · have hle := hpair.2.2 top hinit last List.mem_cons_self
    simp only [name_le, decide_eq_true_eq] at hle
    exact absurd hlt (not_lt.mpr hle)
  · rfl

/-! ## Recorded ledgers -/

/-- The entry without its signature. -/
def unsigned (entry : Dict) : Dict := Dict.pop entry "signature"

/-- The entry without its signature and its hash. -/
def payload (entry : Dict) : Dict := Dict.pop (unsigned entry) "receipt_hash"

def event_of (entry : Dict) : String :=
  match Dict.get entry "event" with
  | some (.str event) => event
  | _ => ""

/-- The file of a recorded entry, by its index. -/
def entry_file (i : ℕ) (entry : Dict) : LedgerFile :=
  ⟨entry_name (i + 1) (event_of entry), .value (.obj entry)⟩

/-- A receipt without the fields that `record` adds last, under an event without a slash, as every
caller of `record` passes them. -/
structure Plain (event : String) (receipt : Dict) : Prop where
  no_slash : '/' ∉ event.toList
  no_hash : Dict.get receipt "receipt_hash" = none
  no_signature : Dict.get receipt "signature" = none

/-- The entries that calls of `record` have written from an empty ledger on, and the ledger. -/
inductive Recorded (keys : Keys) : List Dict → List LedgerFile → Prop
  | start : Recorded keys [] []
  | record {es : List Dict} {g g' : Genesis} {event : String} {receipt entry : Dict}
      (recorded : Recorded keys es g.ledger) (plain : Plain event receipt)
      (call : record keys g event receipt = .ok (entry, g')) :
      Recorded keys (es ++ [entry]) g'.ledger

/-- An entry with a sequence number that names the hash before it. -/
structure SealedAt (keys : Keys) (sequence : ℕ) (previous : Json) (entry : Dict) : Prop where
  signed : entry = signed_entry keys (payload entry)
  no_hash : Dict.get (payload entry) "receipt_hash" = none
  no_signature : Dict.get (payload entry) "signature" = none
  sequence : Dict.get entry "sequence" = some (.int sequence)
  previous_hash : Dict.get entry "previous_hash" = some previous

section Record

variable {keys : Keys} {g g' : Genesis} {event : String} {receipt entry : Dict}

/-- What a call of `record` does. -/
theorem record_eq_ok : record keys g event receipt = .ok (entry, g') ↔
    ∃ found previous, entries g.ledger = .ok found ∧ last_hash g.ledger = .ok previous ∧
      entry = signed_entry keys (ledger_payload receipt (found.length + 1) event previous) ∧
      valid_receipt entry = true ∧
      g' = { g with
        ledger := write_file g.ledger (entry_name (found.length + 1) event) (.value (.obj entry)) } := by
  unfold record
  simp only [bind_eq_ok]
  constructor
  · rintro ⟨found, hfound, previous, hprevious, h⟩
    split_ifs at h with hvalid
    obtain ⟨rfl, rfl⟩ := Prod.mk.inj (Except.ok.inj h)
    exact ⟨found, previous, hfound, hprevious, rfl, hvalid, rfl⟩
  · rintro ⟨found, previous, hfound, hprevious, rfl, hvalid, rfl⟩
    exact ⟨found, hfound, previous, hprevious, if_pos hvalid⟩

theorem unsigned_signed_entry {p : Dict} (h : Dict.get p "signature" = none) :
    unsigned (signed_entry keys p) = Dict.set p "receipt_hash" (.str (stable_hash (.obj p))) := by
  have hnone : Dict.get (Dict.set p "receipt_hash" (.str (stable_hash (.obj p)))) "signature" =
      none := by
    rw [Dict.get_set_of_ne (by decide), h]
  rw [unsigned, signed_entry, Dict.pop_set, Dict.pop_of_get_none hnone]

theorem payload_signed_entry {p : Dict} (hhash : Dict.get p "receipt_hash" = none)
    (hsignature : Dict.get p "signature" = none) : payload (signed_entry keys p) = p := by
  rw [payload, unsigned_signed_entry hsignature, Dict.pop_set, Dict.pop_of_get_none hhash]

/-- A field of a signed entry. -/
theorem get_signed_entry {p : Dict} {key : String} (hhash : "receipt_hash" ≠ key)
    (hsignature : "signature" ≠ key) : Dict.get (signed_entry keys p) key = Dict.get p key := by
  rw [signed_entry, Dict.get_set_of_ne hsignature, Dict.get_set_of_ne hhash]

theorem get_ledger_payload {sequence : ℕ} {previous : Json} {key : String} :
    Dict.get (ledger_payload receipt sequence event previous) key =
      if "previous_hash" = key then some previous
      else if "event" = key then some (.str event)
      else if "sequence" = key then some (.int sequence)
      else if "ledger_format" = key then some (.str LEDGER_FORMAT)
      else Dict.get receipt key := by
  simp only [ledger_payload, Dict.get_set]

theorem sealedAt_signed_entry {sequence : ℕ} {previous : Json} (h : Plain event receipt) :
    SealedAt keys sequence previous
      (signed_entry keys (ledger_payload receipt sequence event previous)) := by
  have hhash : Dict.get (ledger_payload receipt sequence event previous) "receipt_hash" = none := by
    simp [get_ledger_payload, h.no_hash]
  have hsignature : Dict.get (ledger_payload receipt sequence event previous) "signature" =
      none := by
    simp [get_ledger_payload, h.no_signature]
  have hpayload := @payload_signed_entry keys _ hhash hsignature
  constructor
  case signed => rw [hpayload]
  case no_hash => rw [hpayload, hhash]
  case no_signature => rw [hpayload, hsignature]
  case sequence => simp [get_signed_entry, get_ledger_payload]
  case previous_hash => simp [get_signed_entry, get_ledger_payload]

theorem event_of_signed_entry {sequence : ℕ} {previous : Json} :
    event_of (signed_entry keys (ledger_payload receipt sequence event previous)) = event := by
  rw [event_of, get_signed_entry (by decide) (by decide), get_ledger_payload]
  rfl

end Record

/-! ## Reading a recorded ledger -/

/-- What a file that can be decoded gives. -/
def entry_value (file : LedgerFile) : Json :=
  match file.content with
  | .undecodable => .null
  | .unparsable => .obj unparsable_entry
  | .value v => v

theorem entries_eq_map {ledger : List LedgerFile}
    (h : ∀ file ∈ entry_files ledger, file.content ≠ .undecodable) :
    entries ledger = .ok ((entry_files ledger).map entry_value) := by
  have hload : ∀ files : List LedgerFile, (∀ file ∈ files, file.content ≠ .undecodable) →
      files.mapM load_entry = .ok (files.map entry_value) := by
    intro files hfiles
    induction files with
    | nil => rfl
    | cons file files ih =>
      have hfile : load_entry file = .ok (entry_value file) := by
        have hne := hfiles file List.mem_cons_self
        unfold load_entry entry_value
        cases hcontent : file.content with
        | undecodable => exact absurd hcontent hne
        | unparsable => rfl
        | value v => rfl
      rw [List.mapM_cons, hfile, ih fun f hf => hfiles f (List.mem_cons_of_mem _ hf)]
      rfl
  exact hload _ h

/-- The hash of the payload of an entry. -/
def hash_of (entry : Dict) : String := stable_hash (.obj (payload entry))

theorem SealedAt.get_receipt_hash {keys : Keys} {sequence : ℕ} {previous : Json} {entry : Dict}
    (h : SealedAt keys sequence previous entry) :
    Dict.get entry "receipt_hash" = some (.str (hash_of entry)) := by
  rw [hash_of, h.signed, signed_entry, Dict.get_set_of_ne (by decide), Dict.get_set_self,
    ← signed_entry, payload_signed_entry h.no_hash h.no_signature]

/-- The hash that the next entry names: the one of the last file. -/
def previous_of (es : List Dict) : String :=
  match es[min es.length 999999 - 1]? with
  | none => ZERO_HASH
  | some entry => hash_of entry

theorem entries_files (es : List Dict) :
    entries (es.mapIdx entry_file) = .ok ((entry_files (es.mapIdx entry_file)).map entry_value) := by
  refine entries_eq_map fun file hfile => ?_
  obtain ⟨i, hi, rfl⟩ := List.mem_mapIdx.mp (mem_entry_files.mp hfile).1
  exact nofun

section Files

variable {es : List Dict} (hplain : ∀ e ∈ es, '/' ∉ (event_of e).toList)

include hplain

theorem filter_is_entry : (es.mapIdx entry_file).filter is_entry = es.mapIdx entry_file := by
  rw [List.filter_eq_self]
  intro file hfile
  obtain ⟨i, hi, rfl⟩ := List.mem_mapIdx.mp hfile
  exact is_entry_of_plain (hplain _ (List.getElem_mem hi))

theorem length_entry_files : (entry_files (es.mapIdx entry_file)).length = es.length := by
  rw [entry_files, List.length_mergeSort, filter_is_entry hplain, List.length_mapIdx]

/-- Below a million entries the files are in the order of their numbers. -/
theorem entry_files_eq (h : es.length < 10 ^ 6) :
    entry_files (es.mapIdx entry_file) = es.mapIdx entry_file := by
  rw [entry_files, filter_is_entry hplain]
  refine List.mergeSort_of_pairwise (List.pairwise_iff_getElem.mpr fun i j hi hj hij => ?_)
  rw [List.length_mapIdx] at hj
  simp only [List.getElem_mapIdx, entry_file, name_le, decide_eq_true_eq]
  exact le_of_lt (entry_name_lt (by omega) (by omega))

theorem entries_eq (h : es.length < 10 ^ 6) :
    entries (es.mapIdx entry_file) = .ok (es.map .obj) := by
  rw [entries_files, entry_files_eq hplain h]
  congr 1
  exact List.ext_getElem (by simp) fun i hi hi' => by simp [entry_file, entry_value]

/-- The last file is the one of the last entry, or of the entry 999999 if there are more. -/
theorem getLast_entry_files_eq (hne : es ≠ []) :
    (entry_files (es.mapIdx entry_file)).getLast? =
      (es.mapIdx entry_file)[min es.length 999999 - 1]? := by
  have hpos := List.length_pos_iff.mpr hne
  have htop : min es.length 999999 - 1 < (es.mapIdx entry_file).length := by
    rw [List.length_mapIdx]
    omega
  rw [List.getElem?_eq_getElem htop]
  refine getLast_entry_files ?_ fun file hfile => ?_
  · rw [entry_files, List.mem_mergeSort, filter_is_entry hplain]
    exact List.getElem_mem htop
  · obtain ⟨i, hi, rfl⟩ := List.mem_mapIdx.mp (mem_entry_files.mp hfile).1
    simp only [List.getElem_mapIdx, entry_file]
    rcases Nat.lt_trichotomy i (min es.length 999999 - 1) with hlt | heq | hgt
    · exact .inr (entry_name_lt (by omega) (by omega))
    · subst heq
      exact .inl rfl
    · -- more than 999999 entries
      have hnines : min es.length 999999 - 1 + 1 = 999999 := by omega
      refine .inr ?_
      rw [hnines]
      exact entry_name_lt_nines (by omega)

end Files

namespace Recorded

variable {keys : Keys} {es : List Dict} {ledger : List LedgerFile}

theorem plain_and_ledger_eq (h : Recorded keys es ledger) :
    (∀ e ∈ es, '/' ∉ (event_of e).toList) ∧ ledger = es.mapIdx entry_file := by
  induction h with
  | start => exact ⟨fun _ he => absurd he List.not_mem_nil, rfl⟩
  | @record es g g' event receipt entry recorded plain call ih =>
    obtain ⟨hplain, hledger⟩ := ih
    obtain ⟨found, previous, hfound, -, rfl, -, rfl⟩ := record_eq_ok.mp call
    rw [hledger, entries_files] at hfound
    have hlength : found.length = es.length := by
      rw [← Except.ok.inj hfound, List.length_map, length_entry_files hplain]
    refine ⟨fun e he => ?_, ?_⟩
    · rcases List.mem_append.mp he with hold | hnew
      · exact hplain e hold
      · rw [List.mem_singleton.mp hnew, event_of_signed_entry]
        exact plain.no_slash
    · -- the name of the new file is the name of no older one
      have hnew : ∀ file ∈ es.mapIdx entry_file,
          decide (file.name ≠ entry_name (found.length + 1) event) = true := by
        intro file hfile
        obtain ⟨i, hi, rfl⟩ := List.mem_mapIdx.mp hfile
        rw [decide_eq_true_eq]
        intro hname
        have hi' := entry_name_injective hname
        omega
      rw [List.mapIdx_concat, write_file, hledger, List.filter_eq_self.mpr hnew, entry_file,
        event_of_signed_entry, hlength]

theorem plain (h : Recorded keys es ledger) : ∀ e ∈ es, '/' ∉ (event_of e).toList :=
  h.plain_and_ledger_eq.1

theorem ledger_eq (h : Recorded keys es ledger) : ledger = es.mapIdx entry_file :=
  h.plain_and_ledger_eq.2

theorem length_entries (h : Recorded keys es ledger) {found : List Json}
    (hfound : entries ledger = .ok found) : found.length = es.length := by
  rw [h.ledger_eq, entries_files] at hfound
  rw [← Except.ok.inj hfound, List.length_map, length_entry_files h.plain]

/-- Below a million entries the ledger is read in the order in which it was recorded. -/
theorem entries_eq (h : Recorded keys es ledger) (hlength : es.length < 10 ^ 6) :
    entries ledger = .ok (es.map .obj) := by
  rw [h.ledger_eq]
  exact Bogvm.entries_eq h.plain hlength

/-- The last entry that is read. -/
theorem last_entry (h : Recorded keys es ledger) (hne : es ≠ []) {found : List Json}
    (hfound : entries ledger = .ok found) :
    found.getLast? = es[min es.length 999999 - 1]?.map .obj := by
  rw [h.ledger_eq, entries_files] at hfound
  rw [← Except.ok.inj hfound, List.getLast?_map, getLast_entry_files_eq h.plain hne,
    List.getElem?_mapIdx]
  cases es[min es.length 999999 - 1]? with
  | none => rfl
  | some entry => rfl

/-- What `last_hash` gives after a recorded ledger of sealed entries. -/
theorem last_hash_eq (h : Recorded keys es ledger) {found : List Json} {previous : Json}
    (hsealed : ∀ e ∈ es, Dict.get e "receipt_hash" = some (.str (hash_of e)))
    (hfound : entries ledger = .ok found) (hprevious : last_hash ledger = .ok previous) :
    previous = .str (previous_of es) := by
  simp only [last_hash, hfound, bind_eq_ok, Except.ok.injEq, exists_eq_left'] at hprevious
  by_cases hne : es = []
  · subst hne
    have hnil : found = [] := List.eq_nil_of_length_eq_zero (h.length_entries hfound)
    subst hnil
    exact (Except.ok.inj hprevious).symm
  · have hpos := List.length_pos_iff.mpr hne
    have hlt : min es.length 999999 - 1 < es.length := by omega
    rw [h.last_entry hne hfound, List.getElem?_eq_getElem hlt] at hprevious
    simp only [Option.map_some, as_dict, bind_eq_ok, Except.ok.injEq, exists_eq_left',
      hsealed _ (List.getElem_mem hlt), Option.getD_some] at hprevious
    rw [← hprevious, previous_of, List.getElem?_eq_getElem hlt]

/-- Every entry is sealed with its number and names the hash of the last file before it. -/
theorem sealedAt (h : Recorded keys es ledger) : ∀ i (hi : i < es.length),
    SealedAt keys (i + 1) (.str (previous_of (es.take i))) es[i] := by
  induction h with
  | start => exact fun i hi => absurd hi (Nat.not_lt_zero i)
  | @record es g g' event receipt entry recorded plain call ih =>
    obtain ⟨found, previous, hfound, hprevious, rfl, -, -⟩ := record_eq_ok.mp call
    have hsealed : ∀ e ∈ es, Dict.get e "receipt_hash" = some (.str (hash_of e)) := by
      intro e he
      obtain ⟨i, hi, rfl⟩ := List.mem_iff_getElem.mp he
      exact (ih i hi).get_receipt_hash
    intro i hi
    rw [List.length_append, List.length_singleton] at hi
    rcases Nat.lt_succ_iff_lt_or_eq.mp hi with hlt | rfl
    · rw [List.getElem_append_left hlt, List.take_append_of_le_length hlt.le]
      exact ih i hlt
    · rw [List.getElem_concat_length rfl, List.take_append_of_le_length le_rfl, List.take_length,
        recorded.length_entries hfound, recorded.last_hash_eq hsealed hfound hprevious]
      exact sealedAt_signed_entry plain

end Recorded

end Bogbin.Bogvm
