import Bogbin.Bogvm.BogBoot
import Bogbin.Bogvm.LedgerAppend

/-!
# Runs of the hardware ledger

The calls after a completed boot keep the state, the manifest and the claim files in step
(`Standing`), so that `verify` has no failures.  A completed boot sets the sequence of the claims
back to 0 and leaves the files of the old claims, so it keeps them in step only where there are none
(`Orderly`).
-/

namespace Bogbin.Bogvm.BogBoot

open StateExcept

/-! ## The judgement of a claim -/

/-- The device is declared in the manifest. -/
def Declared (manifest : Dict) (source : String) : Prop :=
  ∃ devices device, Dict.get manifest "devices" = some (.obj devices) ∧
    Dict.get devices source = some device

/-- The capability that the device requires is presented. -/
def Presented (manifest : Dict) (claim : ClaimCall) : Prop :=
  ∃ devices fields, Dict.get manifest "devices" = some (.obj devices) ∧
    Dict.get devices claim.source = some (.obj fields) ∧
    ∃ capability ∈ claim.capabilities, Dict.get fields "capability" = some (.str capability)

/-- The tick is an integer above the current one. -/
def Later (state : HardwareState) (tick : Json) (t : ℤ) : Prop :=
  int_value tick = some t ∧ state.tick.int < t

structure Admissible (state : HardwareState) (manifest : Dict) (claim : ClaimCall) : Prop where
  declared : Declared manifest claim.source
  presented : Presented manifest claim
  tick : ∃ t, Later state (claimed_tick state claim.timestamp_tick) t

/-- The state counts the events of every declared device. -/
def Known (state : HardwareState) (manifest : Dict) : Prop :=
  ∀ devices, Dict.get manifest "devices" = some (.obj devices) → ∀ source device,
    Dict.get devices source = some device → source ∈ state.devices.map Prod.fst

/-- What a judgement says. -/
structure Judged (state : HardwareState) (manifest : Dict) (claim : ClaimCall)
    (state' : HardwareState) (judged : IrqClaim) : Prop where
  claim_id : judged.claim_id = stable_hash (.obj judged.core.fields)
  sequence : state'.claim_sequence = state.claim_sequence + 1
  root : state'.state_root_sha256 = state'.state_root
  manifest_sha256 : state'.manifest_sha256 = state.manifest_sha256
  names : state'.devices.map Prod.fst = state.devices.map Prod.fst
  accepted_iff : judged.failures = [] ↔ Admissible state manifest claim
  accepted : judged.failures = [] → Later state judged.core.timestamp_tick state'.tick.int
  rejected : judged.failures ≠ [] → state'.tick = state.tick ∧ state'.devices = state.devices

section Judgement

variable {state state' : HardwareState} {manifest : Dict} {claim : ClaimCall} {judged : IrqClaim}
  {tick device required : Json} {t : PyInt}

theorem as_int_eq_some : as_int tick = some t ↔ t.value = tick := by
  unfold as_int
  constructor
  · intro h
    split at h
    · obtain rfl := Option.some.inj h
      rfl
    · cases h
  · rintro rfl
    obtain ⟨value, n, hn⟩ := t
    dsimp only
    split
    · case _ m hm =>
      obtain rfl := Option.some.inj (hn.symm.trans hm)
      rfl
    · case _ hnone => exact nomatch hn.symm.trans hnone

theorem next_tick_eq_some :
    next_tick state tick = some t ↔ t.value = tick ∧ state.tick.int < t.int := by
  rw [next_tick, Option.filter_eq_some_iff, as_int_eq_some, decide_eq_true_eq]

theorem next_tick_isSome : next_tick state tick ≠ none ↔ ∃ t, Later state tick t := by
  rw [Option.ne_none_iff_exists']
  constructor
  · rintro ⟨t, ht⟩
    obtain ⟨rfl, hlt⟩ := next_tick_eq_some.mp ht
    exact ⟨t.int, t.is_int, hlt⟩
  · rintro ⟨n, hn, hlt⟩
    exact ⟨⟨tick, n, hn⟩, next_tick_eq_some.mpr ⟨rfl, hlt⟩⟩

theorem presented_eq_true {capabilities : List String} :
    presented required capabilities = true ↔ ∃ c ∈ capabilities, required = .str c := by
  unfold presented
  cases required with
  | str s => simp
  | _ => simp

theorem claim_failures_eq_nil : claim_failures state claim device required tick = [] ↔
    device ≠ .null ∧ (∃ c ∈ claim.capabilities, required = .str c) ∧ ∃ t, Later state tick t := by
  unfold claim_failures
  rw [List.append_eq_nil_iff, List.append_eq_nil_iff, failure_if_eq_nil, failure_if_eq_nil,
    failure_if_eq_nil, Bool.not_eq_false, presented_eq_true, ← ne_eq (next_tick _ _),
    next_tick_isSome, and_assoc]

theorem device_of_eq_ok : device_of manifest claim.source = .ok device ↔
    ∃ devices, Dict.get manifest "devices" = some (.obj devices) ∧
      device = (Dict.get devices claim.source).getD .null := by
  unfold device_of
  simp only [bind_eq_ok, Dict.item_eq_ok, Except.ok.injEq]
  constructor
  · rintro ⟨value, hvalue, devices, hdevices, rfl⟩
    cases value with
    | obj fields =>
      obtain rfl := Except.ok.inj hdevices
      exact ⟨fields, hvalue, rfl⟩
    | _ => cases hdevices
  · rintro ⟨devices, hget, rfl⟩
    exact ⟨.obj devices, hget, devices, rfl, rfl⟩

/-- A capability that is required is that of a device with fields. -/
theorem required_capability_str {c : String} : required_capability device = .ok (.str c) ↔
    ∃ fields, device = .obj fields ∧ Dict.get fields "capability" = some (.str c) := by
  unfold required_capability
  constructor
  · intro h
    split at h
    · obtain ⟨fields, hfields, h⟩ := bind_eq_ok.mp h
      cases device with
      | obj fields' =>
        obtain rfl := Except.ok.inj hfields
        refine ⟨_, rfl, ?_⟩
        have heq := Except.ok.inj h
        cases hget : Dict.get fields' "capability" with
        | none =>
          rw [hget] at heq
          cases heq
        | some value =>
          rw [hget] at heq
          exact congrArg some heq
      | _ => cases hfields
    · cases Except.ok.inj h
  · rintro ⟨fields, rfl, hget⟩
    have hne : fields ≠ [] := by
      rintro rfl
      cases hget
    rw [if_pos (show (Json.obj fields).truthy = true from decide_eq_true hne)]
    show Except.ok ((Dict.get fields "capability").getD .null) = _
    rw [hget]
    rfl

theorem counted_eq_ok {source sha : String} {devices devices' : List (String × DeviceState)}
    (h : counted source sha devices = .ok devices') :
    devices'.map Prod.fst = devices.map Prod.fst := by
  unfold counted at h
  split_ifs at h
  obtain rfl := Except.ok.inj h
  rw [List.map_map]
  refine List.map_congr_left fun d _ => ?_
  show (if d.1 = source then (d.1, _) else d).1 = d.1
  split_ifs
  · rfl
  · rfl

/-- The judgement goes through the device and its capability to the failures. -/
theorem judge_eq_ok : judge state manifest claim = .ok (state', judged) ↔
    ∃ device required, device_of manifest claim.source = .ok device ∧
      required_capability device = .ok required ∧
      judged.core = claim_core state claim required (claimed_tick state claim.timestamp_tick) ∧
      judged.claim_id = stable_hash (.obj judged.core.fields) ∧
      judged.state_root_after = state'.state_root_sha256 ∧
      judged.failures = claim_failures state claim device required
        (claimed_tick state claim.timestamp_tick) ∧
      claimed_state state judged.core judged.claim_id judged.failures = .ok state' := by
  unfold judge
  simp only [bind_eq_ok, Except.ok.injEq, Prod.mk.injEq]
  constructor
  · rintro ⟨device, hdevice, required, hrequired, _, hstate, rfl, rfl⟩
    exact ⟨device, required, hdevice, hrequired, rfl, rfl, rfl, rfl, hstate⟩
  · rintro ⟨device, required, hdevice, hrequired, hcore, hid, hroot, hfailures, hstate⟩
    obtain ⟨core, claim_id, root, failures⟩ := judged
    dsimp only at hcore hid hroot hfailures hstate
    subst hcore hid hroot hfailures
    exact ⟨device, hdevice, required, hrequired, state', hstate, rfl, rfl⟩

/-- A claim without failures is that of a declared device, and so on. -/
theorem admissible_iff (hdevice : device_of manifest claim.source = .ok device)
    (hrequired : required_capability device = .ok required) :
    claim_failures state claim device required (claimed_tick state claim.timestamp_tick) = [] ↔
      Admissible state manifest claim := by
  obtain ⟨devices, hdevices, rfl⟩ := device_of_eq_ok.mp hdevice
  rw [claim_failures_eq_nil]
  constructor
  · rintro ⟨-, ⟨c, hc, rfl⟩, htick⟩
    obtain ⟨fields, hfields, hcapability⟩ := required_capability_str.mp hrequired
    have hget : Dict.get devices claim.source = some (.obj fields) := by
      cases hget : Dict.get devices claim.source with
      | none =>
        rw [hget] at hfields
        cases hfields
      | some value =>
        rw [hget] at hfields
        exact congrArg some hfields
    exact ⟨⟨devices, _, hdevices, hget⟩, ⟨devices, fields, hdevices, hget, c, hc, hcapability⟩, htick⟩
  · rintro ⟨-, ⟨devices', fields, hdevices', hget, c, hc, hcapability⟩, htick⟩
    obtain rfl := Json.obj.inj (Option.some.inj (hdevices.symm.trans hdevices'))
    rw [hget, Option.getD_some] at hrequired ⊢
    have hstr := required_capability_str.mpr ⟨fields, rfl, hcapability⟩
    exact ⟨fun h => (by cases h), ⟨c, hc, Except.ok.inj (hrequired.symm.trans hstr)⟩, htick⟩

theorem judge_spec (h : judge state manifest claim = .ok (state', judged)) :
    Judged state manifest claim state' judged := by
  obtain ⟨device, required, hdevice, hrequired, hcore, hid, -, hfailures, hstate⟩ := judge_eq_ok.mp h
  have hiff := @admissible_iff state _ _ _ _ hdevice hrequired
  rw [← hfailures] at hiff
  have htick : judged.failures = [] → next_tick state judged.core.timestamp_tick ≠ none := by
    intro hnil
    rw [hfailures, claim_failures_eq_nil] at hnil
    rw [hcore]
    exact next_tick_isSome.mpr hnil.2.2
  unfold claimed_state at hstate
  split at hstate
  · case _ tick hnil hnext =>
    obtain ⟨devices, hdevices, hstate⟩ := bind_eq_ok.mp hstate
    obtain rfl := Except.ok.inj hstate
    obtain ⟨hvalue, hlt⟩ := next_tick_eq_some.mp hnext
    refine ⟨hid, rfl, HardwareState.rooted_root _, rfl, counted_eq_ok hdevices, hiff, fun _ => ?_, fun hne => absurd hnil hne⟩
    rw [← hvalue]
    exact ⟨tick.is_int, hlt⟩
  · case _ hrest =>
    obtain rfl := Except.ok.inj hstate
    refine ⟨hid, rfl, HardwareState.rooted_root _, rfl, rfl, hiff, fun hnil => ?_, fun _ => ⟨rfl, rfl⟩⟩
    obtain ⟨t, ht⟩ := Option.ne_none_iff_exists'.mp (htick hnil)
    exact absurd ht (hrest t hnil)

/-- An admissible claim is judged. -/
theorem judge_returns (hknown : Known state manifest) (h : Admissible state manifest claim) :
    ∃ state' judged, judge state manifest claim = .ok (state', judged) := by
  obtain ⟨devices, fields, hdevices, hget, c, hc, hcapability⟩ := h.presented
  have hdevice : device_of manifest claim.source = .ok (.obj fields) :=
    device_of_eq_ok.mpr ⟨devices, hdevices, by rw [hget]; rfl⟩
  have hrequired := required_capability_str.mpr ⟨fields, rfl, hcapability⟩
  have hnil := (admissible_iff hdevice hrequired).mpr h
  obtain ⟨t, ht⟩ := Option.ne_none_iff_exists'.mp (next_tick_isSome.mpr h.tick)
  let core := claim_core state claim (.str c) (claimed_tick state claim.timestamp_tick)
  have hcounted : core.source ∈ state.devices.map Prod.fst :=
    hknown devices hdevices claim.source _ hget
  have hstate : ∃ state', claimed_state state core (stable_hash (.obj core.fields)) [] = .ok state' := by
    unfold claimed_state counted
    rw [show core.timestamp_tick = claimed_tick state claim.timestamp_tick from rfl, ht]
    dsimp only
    rw [if_pos hcounted, ok_bind]
    exact ⟨_, rfl⟩
  obtain ⟨state', hstate⟩ := hstate
  refine ⟨state', ⟨core, stable_hash (.obj core.fields), state'.state_root_sha256, []⟩, ?_⟩
  exact judge_eq_ok.mpr ⟨_, _, hdevice, hrequired, rfl, rfl, rfl, hnil.symm, hstate⟩

end Judgement

/-! ## One call -/

section Call

variable {floats : Floats} {keys : Keys} {b b' : BogBoot} {state state' : HardwareState}
  {manifest : Dict} {claim : ClaimCall} {judged : IrqClaim}

theorem load_eq_ok : b.load = .ok (state, manifest) ↔
    b.hardware_state = some state ∧ b.device_manifest = some manifest := by
  unfold load
  cases b.hardware_state with
  | none => simp
  | some s =>
    cases b.device_manifest with
    | none => simp
    | some m => simp

theorem recordable_irq_receipt (judged : IrqClaim) : Recordable judged.receipt := by
  constructor
  case format =>
    rw [@str_field_of_get _ "format" IRQ_FORMAT _
      (by simp [IrqClaim.receipt, ClaimCore.items, Dict.of, Dict.get_set])]
    decide
  case status =>
    rw [@str_field_of_get _ "execution_status" (execution_status judged.failures) _
      (by simp [IrqClaim.receipt, ClaimCore.items, Dict.of])]
    unfold execution_status
    split_ifs
    · rfl
    · rfl

theorem recordable_boot_receipt {devices : List Json} {failures : List Failure} :
    Recordable (boot_receipt manifest devices state failures) := by
  constructor
  case format =>
    rw [@str_field_of_get _ "format" BOOT_FORMAT _ (by simp [boot_receipt, Dict.of, Dict.get_set])]
    decide
  case status =>
    rw [@str_field_of_get _ "execution_status" (execution_status failures) _
      (by simp [boot_receipt, Dict.of])]
    unfold execution_status
    split_ifs
    · rfl
    · rfl

/-- In a sound ledger, a receipt of the schema is recorded; the files stay. -/
theorem recorded_returns (hkeys : keys.Lawful) (hledger : Ledgered b.genesis.ledger) {event : String}
    {receipt : Dict} (hreceipt : Recordable receipt) (hevent : event ≠ "") :
    ∃ entry genesis, recorded keys event receipt b = .ok entry { b with genesis := genesis } ∧
      Ledgered genesis.ledger ∧ record keys b.genesis event receipt = .ok (entry, genesis) := by
  obtain ⟨entry, ledger, hrecord, hledger'⟩ := record_returns hkeys hledger hreceipt hevent
  refine ⟨entry, { b.genesis with ledger := ledger }, ?_, hledger', hrecord⟩
  unfold recorded
  rw [bind_of_ok get_apply]
  refine ofExcept_bind_eq_ok.mpr ⟨_, hrecord, ?_⟩
  dsimp only
  rw [bind_of_ok (modify_apply _)]
  rfl

/-- A judged claim is filed and recorded. -/
theorem irq_claim_returns (hkeys : keys.Lawful) (hledger : Ledgered b.genesis.ledger)
    (hload : b.load = .ok (state, manifest)) (hjudge : judge state manifest claim = .ok (state', judged)) :
    ∃ entry genesis, irq_claim keys claim b = .ok entry { filed state' judged b with genesis := genesis } ∧
      Ledgered genesis.ledger ∧
      record keys b.genesis "bogirq" judged.receipt = .ok (entry, genesis) := by
  have hsame : (filed state' judged b).genesis = b.genesis := by
    unfold filed
    split_ifs
    · rfl
    · rfl
  obtain ⟨entry, genesis, hrecorded, hledger', hrecord⟩ := @recorded_returns keys (filed state' judged b)
    hkeys (by rwa [hsame]) "bogirq" _ (recordable_irq_receipt judged) (by decide)
  refine ⟨entry, genesis, ?_, hledger', hsame ▸ hrecord⟩
  unfold irq_claim
  rw [bind_of_ok get_apply, hload, bind_of_ok ofExcept_ok]
  dsimp only
  rw [hjudge, bind_of_ok ofExcept_ok]
  dsimp only
  rw [bind_of_ok (modify_apply _)]
  exact hrecorded

theorem irq_claim_raises (hload : b.load = .ok (state, manifest)) {e : PyError}
    (hjudge : judge state manifest claim = .error e) : irq_claim keys claim b = .error e b := by
  unfold irq_claim
  rw [bind_of_ok get_apply, hload, bind_of_ok ofExcept_ok]
  dsimp only
  rw [hjudge, bind_of_error ofExcept_error]

theorem irq_claim_unbooted (hload : b.load = .error .BogBootError) :
    irq_claim keys claim b = .error .BogBootError b := by
  unfold irq_claim
  rw [bind_of_ok get_apply, hload, bind_of_error ofExcept_error]

/-- The manifest passes a boot. -/
def Completes (floats : Floats) (manifest : Option Dict) : Prop :=
  validate_manifest floats (given_manifest manifest) = .ok [] ∧
    ∃ devices, initialized_devices floats (given_manifest manifest) = .ok devices

/-- A boot that completes writes the manifest and a new state. -/
theorem boot_returns (hkeys : keys.Lawful) (hledger : Ledgered b.genesis.ledger) {m : Option Dict}
    {devices : List Json} (hvalid : validate_manifest floats (given_manifest m) = .ok [])
    (hdevices : initialized_devices floats (given_manifest m) = .ok devices) :
    ∃ entry genesis, boot floats keys m b = .ok entry
        { b with
          device_manifest := some (given_manifest m)
          hardware_state := some (first_state (given_manifest m) devices)
          genesis := genesis } ∧ Ledgered genesis.ledger := by
  let state := first_state (given_manifest m) devices
  obtain ⟨entry, genesis, hrecorded, hledger', -⟩ := @recorded_returns keys
    (booted (given_manifest m) state [] b) hkeys hledger "bogboot" _
    (@recordable_boot_receipt state (given_manifest m) devices []) (by decide)
  refine ⟨entry, genesis, ?_, hledger'⟩
  unfold boot
  dsimp only
  rw [hvalid, bind_of_ok ofExcept_ok, hdevices, bind_of_ok ofExcept_ok, bind_of_ok (modify_apply _)]
  exact hrecorded

/-- A boot that does not complete leaves all but the ledger. -/
theorem boot_blocked (hledger : Ledgered b.genesis.ledger) {m : Option Dict}
    (hblocked : ¬ Completes floats m) :
    ∃ genesis, after (boot floats keys m b) = { b with genesis := genesis } ∧ Ledgered genesis.ledger := by
  let P : BogBoot → Prop := fun b₁ => ∃ genesis, b₁ = { b with genesis := genesis } ∧
    Ledgered genesis.ledger
  have hb : P b := ⟨b.genesis, rfl, hledger⟩
  show P (after (boot floats keys m b))
  unfold boot
  dsimp only
  refine after_ofExcept_bind hb fun failures hfailures => ?_
  refine after_ofExcept_bind hb fun devices hdevices => ?_
  have hne : failures ≠ [] := by
    rintro rfl
    exact hblocked ⟨hfailures, devices, hdevices⟩
  rw [bind_of_ok (modify_apply _), booted, if_neg hne]
  unfold recorded
  rw [bind_of_ok get_apply]
  refine after_ofExcept_bind hb fun signed hsigned => ?_
  exact ⟨signed.2, rfl, hledger.record hsigned⟩

end Call

/-! ## What the calls keep -/

/-- The state and the manifest of a completed boot. -/
structure Standing (floats : Floats) (b : BogBoot) (state : HardwareState) (manifest : Dict) : Prop where
  load : b.load = .ok (state, manifest)
  valid : validate_manifest floats manifest = .ok []
  manifest_sha256 : state.manifest_sha256 = stable_hash (.obj manifest)
  root : state.state_root_sha256 = state.state_root
  known : Known state manifest

/-- The files of the claims are those that the state counts. -/
structure Counted (b : BogBoot) (state : HardwareState) : Prop where
  length : b.irq_claims.length + b.quarantine.length = state.claim_sequence
  numbered : ∀ file ∈ b.irq_claims ++ b.quarantine,
    ∃ n id, n ≤ state.claim_sequence ∧ file.name = entry_name n id
  hashed : ∀ file ∈ b.irq_claims ++ b.quarantine,
    file.claim.claim_id = stable_hash (.obj file.claim.core.fields)

/-- No boot has been completed, or the files are in step with the state. -/
structure Sound (floats : Floats) (b : BogBoot) : Prop where
  ledger : Ledgered b.genesis.ledger
  files : (b.hardware_state = none ∧ b.irq_claims = [] ∧ b.quarantine = []) ∨
    ∃ state manifest, Standing floats b state manifest ∧ Counted b state

section Keeps

variable {floats : Floats} {keys : Keys} {dir : String} {b : BogBoot} {state state' : HardwareState}
  {manifest : Dict} {claim : ClaimCall} {judged : IrqClaim} {genesis : Genesis}

theorem Standing.recorded (h : Standing floats b state manifest) :
    Standing floats { b with genesis := genesis } state manifest := by
  obtain ⟨hload, hvalid, hsha, hroot, hknown⟩ := h
  exact ⟨hload, hvalid, hsha, hroot, hknown⟩

theorem Counted.recorded (h : Counted b state) : Counted { b with genesis := genesis } state := by
  obtain ⟨hlength, hnumbered, hhashed⟩ := h
  exact ⟨hlength, hnumbered, hhashed⟩

/-- A sound boot verifies. -/
theorem verify_of_sound (h : Standing floats b state manifest) (hcounted : Counted b state) :
    verify floats dir b = .ok [] := by
  have hclaims (files : List ClaimFile) (name : String)
      (hfiles : ∀ file ∈ files, file.claim.claim_id = stable_hash (.obj file.claim.core.fields)) :
      (sorted_files files).flatMap (verify_claim name) = [] := by
    refine List.flatMap_eq_nil_iff.mpr fun file hfile => ?_
    exact failure_if_eq_nil.mpr (not_not.mpr (hfiles file (List.mem_mergeSort.mp hfile)))
  unfold verify
  rw [h.load]
  dsimp only
  rw [h.valid, ok_bind, failure_if_eq_nil.mpr (not_not.mpr h.manifest_sha256),
    failure_if_eq_nil.mpr (not_not.mpr h.root), failure_if_eq_nil.mpr (not_not.mpr hcounted.length),
    hclaims _ _ fun file hfile => hcounted.hashed file (List.mem_append_left _ hfile),
    hclaims _ _ fun file hfile => hcounted.hashed file (List.mem_append_right _ hfile)]
  rfl

/-- A boot whose claims are counted wrong does not. -/
theorem verify_of_miscounted (h : Standing floats b state manifest)
    (hcount : b.irq_claims.length + b.quarantine.length ≠ state.claim_sequence) :
    verify floats dir b ≠ .ok [] := by
  unfold verify
  rw [h.load]
  dsimp only
  rw [h.valid, ok_bind]
  intro hnil
  simp only [Except.ok.injEq, List.append_eq_nil_iff, failure_if_eq_nil] at hnil
  exact hnil.1.1.2 hcount

theorem write_claim_fresh {files : List ClaimFile} {sequence : ℕ}
    (hfiles : ∀ file ∈ files, ∃ n id, n ≤ sequence ∧ file.name = entry_name n id) :
    write_claim files (sequence + 1) judged =
      files ++ [⟨entry_name (sequence + 1) judged.claim_id, judged⟩] := by
  have hkeep : files.filter (fun file => file.name ≠ entry_name (sequence + 1) judged.claim_id) =
      files := by
    refine List.filter_eq_self.mpr fun file hfile => decide_eq_true fun hname => ?_
    obtain ⟨n, id, hn, hname'⟩ := hfiles file hfile
    have heq := entry_name_injective (hname'.symm.trans hname)
    omega
  rw [write_claim, hkeep]

/-- A filed claim is one more file. -/
theorem Counted.filed (h : Counted b state) (hjudged : Judged state manifest claim state' judged) :
    Counted { BogBoot.filed state' judged b with genesis := genesis } state' := by
  have hsequence := hjudged.sequence
  let file : ClaimFile := ⟨entry_name (state.claim_sequence + 1) judged.claim_id, judged⟩
  have hfile : ∀ f ∈ b.irq_claims ++ b.quarantine ++ [file],
      (∃ n id, n ≤ state'.claim_sequence ∧ f.name = entry_name n id) ∧
        f.claim.claim_id = stable_hash (.obj f.claim.core.fields) := by
    intro f hf
    rcases List.mem_append.mp hf with hf | hf
    · obtain ⟨n, id, hn, hname⟩ := h.numbered f hf
      exact ⟨⟨n, id, by omega, hname⟩, h.hashed f hf⟩
    · obtain rfl := List.mem_singleton.mp hf
      exact ⟨⟨_, _, hsequence.ge, rfl⟩, hjudged.claim_id⟩
  have hclaims : ∀ f ∈ b.irq_claims, ∃ n id, n ≤ state.claim_sequence ∧ f.name = entry_name n id :=
    fun f hf => h.numbered f (List.mem_append_left _ hf)
  have hquarantine : ∀ f ∈ b.quarantine, ∃ n id, n ≤ state.claim_sequence ∧ f.name = entry_name n id :=
    fun f hf => h.numbered f (List.mem_append_right _ hf)
  have hlength := h.length
  unfold BogBoot.filed
  rw [hsequence, write_claim_fresh hclaims, write_claim_fresh hquarantine]
  split_ifs
  · have hmem : ∀ f ∈ (b.irq_claims ++ [file]) ++ b.quarantine,
        f ∈ b.irq_claims ++ b.quarantine ++ [file] := by
      intro f hf
      simp only [List.mem_append] at hf ⊢
      tauto
    refine ⟨?_, fun f hf => (hfile f (hmem f hf)).1, fun f hf => (hfile f (hmem f hf)).2⟩
    show (b.irq_claims ++ [file]).length + b.quarantine.length = _
    rw [List.length_append, List.length_singleton, hsequence]
    omega
  · have hmem : ∀ f ∈ b.irq_claims ++ (b.quarantine ++ [file]),
        f ∈ b.irq_claims ++ b.quarantine ++ [file] := by
      intro f hf
      rwa [List.append_assoc]
    refine ⟨?_, fun f hf => (hfile f (hmem f hf)).1, fun f hf => (hfile f (hmem f hf)).2⟩
    show b.irq_claims.length + (b.quarantine ++ [file]).length = _
    rw [List.length_append, List.length_singleton, hsequence]
    omega

theorem filed_hardware_state : (BogBoot.filed state' judged b).hardware_state = some state' := by
  unfold BogBoot.filed
  split_ifs
  · rfl
  · rfl

theorem filed_device_manifest :
    (BogBoot.filed state' judged b).device_manifest = b.device_manifest := by
  unfold BogBoot.filed
  split_ifs
  · rfl
  · rfl

theorem Standing.filed (h : Standing floats b state manifest)
    (hjudged : Judged state manifest claim state' judged) :
    Standing floats { BogBoot.filed state' judged b with genesis := genesis } state' manifest := by
  obtain ⟨-, hmanifest⟩ := load_eq_ok.mp h.load
  refine ⟨load_eq_ok.mpr ⟨filed_hardware_state, filed_device_manifest.trans hmanifest⟩, h.valid, ?_,
    hjudged.root, ?_⟩
  · rw [hjudged.manifest_sha256, h.manifest_sha256]
  · rw [Known, hjudged.names]
    exact h.known

/-- The state of a new boot knows the devices of its manifest. -/
theorem known_first_state {devices : List Json}
    (hdevices : initialized_devices floats manifest = .ok devices) :
    Known (first_state manifest devices) manifest := by
  intro fields hfields source device hget
  obtain ⟨names, hnames, hsorted⟩ := bind_eq_ok.mp hdevices
  rw [devices_of, hfields, Option.getD_some] at hnames
  obtain rfl := Except.ok.inj hnames
  have hmem : Json.str source ∈ devices :=
    (Ranking.sortM_perm hsorted).mem_iff.mpr (List.mem_map_of_mem (Dict.mem_of_get hget))
  show source ∈ (((devices.map device_key).dedup.map fun name => (name, DeviceState.mk 0 none))).map
    Prod.fst
  rw [List.map_map]
  refine List.mem_map.mpr ⟨source, ?_, rfl⟩
  exact List.mem_dedup.mpr (List.mem_map_of_mem (f := device_key) hmem)

theorem standing_first_state {devices : List Json}
    (hvalid : validate_manifest floats manifest = .ok [])
    (hdevices : initialized_devices floats manifest = .ok devices) :
    Standing floats
      { b with
        device_manifest := some manifest
        hardware_state := some (first_state manifest devices)
        genesis := genesis } (first_state manifest devices) manifest := by
  refine ⟨load_eq_ok.mpr ⟨rfl, rfl⟩, hvalid, rfl, ?_, known_first_state hdevices⟩
  exact HardwareState.rooted_root _

end Keeps

end Bogbin.Bogvm.BogBoot
