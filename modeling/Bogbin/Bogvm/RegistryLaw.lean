import Bogbin.Bogvm.RegistryInstall

/-!
# When registry operations fail safe

`sync_registry_from` removes the old registry before it looks at the new one, so it fails safe only when
it does not fail; `install` asks for fields that a short verification does not have
(`registry_fails_safe_iff`).
-/

namespace Bogbin.Bogvm

open StateExcept

/-- `receipt["execution_status"] == "completed"` -/
def IsCompleted (receipt : Dict) : Prop :=
  Dict.get receipt "execution_status" = some (.str "completed")

section Safety

variable (host : Host) (keys : Keys) (reader : ManifestReader) (place : RegistryPlace)
  (w : RegistryWorkspace)

/-- A synchronization that does not end completed leaves the registry as it was. -/
def SyncSafe (source_path : String) (source : RegistrySource) : Prop :=
  (∃ receipt w', sync_registry_from keys place source_path source w = .ok receipt w' ∧
    IsCompleted receipt) ∨
  (after (sync_registry_from keys place source_path source w)).registry = w.registry

/-- The registry verifies. -/
def RegistryVerifies (registry : Option (Tree File)) : Prop :=
  ∃ check, verify_registry keys place registry = .ok check ∧ check.failures = []

/-- The source has no index, it is what the registry holds already, or it verifies as a registry. -/
def SyncSound (source : RegistrySource) : Prop :=
  source.has_index_file w.registry = true → ∃ directory, source = .elsewhere directory ∧
    (w.registry = some directory ∨
      RegistryVerifies keys place (some directory) ∧ Appendable w.genesis.ledger)

/-- An installation returns a receipt, which is completed only when the registry and the lock verify and
the package is pinned. -/
def InstallSafe (package : String) : Prop :=
  ∃ receipt w', install host keys reader place package w = .ok receipt w' ∧
    (IsCompleted receipt → RegistryVerifies keys place w.registry ∧
      (∃ check, verify_lock keys place w = .ok check ∧ check.failures = []) ∧
      ∃ entry, pinned w.lock package = .ok (some entry))

/-- The registry and the lock can be read, with all fields that their verification asks for; the package
can be installed when nothing is wrong; and the ledger can be continued. -/
def InstallSound (package : String) : Prop :=
  ∃ verified hash package_count registry_failures lock_hash names lock_failures entry,
    verify_registry keys place w.registry =
      .ok (.full verified hash package_count registry_failures) ∧
    verify_lock keys place w = .ok (.full lock_hash names lock_failures) ∧
    pinned w.lock package = .ok entry ∧
    (∀ item, entry = some item → registry_failures = [] → lock_failures = [] →
      Ends (install_pinned host keys reader place item) w) ∧
    Appendable w.genesis.ledger

end Safety

section Sync

variable {keys : Keys} {place : RegistryPlace} {w w' : RegistryWorkspace} {source_path : String}
  {source : RegistrySource} {directory : Tree File}

theorem at_path_empty {α : Type} (path : Path) : (Tree.empty : Tree α).at_path path = .empty := by
  induction path with
  | nil => rfl
  | cons name path ih => exact ih

theorem get_status_sync_receipt (check : RegistryCheck) :
    Dict.get (sync_receipt check.fields) "execution_status" =
      some (.str (execution_status check.failures)) := by
  cases check with
  | short failures => simp [sync_receipt, RegistryCheck.fields, RegistryCheck.failures, Dict.of]
  | full verified hash package_count failures =>
    simp [sync_receipt, RegistryCheck.fields, RegistryCheck.failures, Dict.of]

theorem execution_status_eq_completed {failures : List Failure} :
    execution_status failures = "completed" ↔ failures = [] := by
  unfold execution_status
  split_ifs with h
  · simp [h]
  · simp [h]

theorem recordable_sync_receipt (check : RegistryCheck) : Recordable (sync_receipt check.fields) := by
  constructor
  case format =>
    have hget : Dict.get (sync_receipt check.fields) "format" =
        some (.str "BOGOS-Genesis-registry-sync-receipt-9.0") := by
      cases check with
      | short failures => simp [sync_receipt, RegistryCheck.fields, Dict.of, Dict.get_set]
      | full verified hash package_count failures =>
        simp [sync_receipt, RegistryCheck.fields, Dict.of, Dict.get_set]
    rw [str_field_of_get hget]
    decide
  case status =>
    rw [str_field_of_get (get_status_sync_receipt check)]
    unfold execution_status
    split_ifs
    · rfl
    · rfl

theorem sync_of_no_index (h : source.has_index_file w.registry = false) :
    sync_registry_from keys place source_path source w =
      record_session keys "registry-sync" (missing_source_receipt source_path) w := by
  unfold sync_registry_from
  rw [bind_of_ok get_apply, h]
  rfl

theorem sync_of_inside {path : Path} (h : (RegistrySource.inside path).has_index_file w.registry = true) :
    sync_registry_from keys place source_path (.inside path) w =
      .error .FileNotFoundError { w with registry := none } := by
  unfold sync_registry_from
  rw [bind_of_ok get_apply, h]
  rfl

/-- The new registry, and then its verification. -/
theorem sync_of_elsewhere
    (h : (RegistrySource.elsewhere directory).has_index_file w.registry = true) :
    sync_registry_from keys place source_path (.elsewhere directory) w =
      (sync_registry keys place >>= fun receipt => pure (Dict.set receipt "source" (.str source_path)))
        { w with registry := some directory } := by
  unfold sync_registry_from
  rw [bind_of_ok get_apply, h]
  rfl

theorem sync_registry_of_ok {check : RegistryCheck}
    (h : verify_registry keys place w.registry = .ok check) :
    sync_registry keys place w = record_session keys "registry-sync" (sync_receipt check.fields) w := by
  unfold sync_registry
  rw [bind_of_ok get_apply, h, bind_of_ok ofExcept_ok]

theorem sync_registry_of_error {e : PyError} (h : verify_registry keys place w.registry = .error e) :
    sync_registry keys place w = .error e w := by
  unfold sync_registry
  rw [bind_of_ok get_apply, h, bind_of_error ofExcept_error]

theorem registry_sync_registry : (after (sync_registry keys place w)).registry = w.registry := by
  cases h : verify_registry keys place w.registry with
  | error e => rw [sync_registry_of_error h]; rfl
  | ok check => rw [sync_registry_of_ok h]; exact registry_record_session

theorem after_sync_elsewhere
    (h : (RegistrySource.elsewhere directory).has_index_file w.registry = true) :
    (after (sync_registry_from keys place source_path (.elsewhere directory) w)).registry =
      some directory := by
  rw [sync_of_elsewhere h]
  have hsync := @registry_sync_registry keys place { w with registry := some directory }
  exact after_bind (P := fun (v : RegistryWorkspace) => v.registry = some directory) hsync
    (fun _ _ hv => hv)

/-- A completed synchronization has a registry that verifies and a ledger that can be continued. -/
theorem completed_sync_elsewhere_iff (hkeys : keys.Lawful)
    (h : (RegistrySource.elsewhere directory).has_index_file w.registry = true) :
    (∃ receipt w', sync_registry_from keys place source_path (.elsewhere directory) w = .ok receipt w' ∧
      IsCompleted receipt) ↔
      RegistryVerifies keys place (some directory) ∧ Appendable w.genesis.ledger := by
  rw [sync_of_elsewhere h]
  have hstatus {check : RegistryCheck} {entry : Dict} {w₁ w' : RegistryWorkspace}
      (hentry : record_session keys "registry-sync" (sync_receipt check.fields) w₁ = .ok entry w') :
      IsCompleted (Dict.set entry "source" (.str source_path)) ↔ check.failures = [] := by
    rw [IsCompleted, Dict.get_set_of_ne (by decide), get_record_session hentry (by decide),
      get_status_sync_receipt, ← execution_status_eq_completed]
    simp
  constructor
  · rintro ⟨receipt, w', hok, hcompleted⟩
    obtain ⟨entry, w₁, hsync, hpure⟩ := StateExcept.bind_eq_ok.mp hok
    obtain ⟨rfl, rfl⟩ := EStateM.Result.ok.inj hpure
    cases hcheck : verify_registry keys place (some directory) with
    | error e =>
      rw [sync_registry_of_error (w := { w with registry := some directory }) hcheck] at hsync
      cases hsync
    | ok check =>
      rw [sync_registry_of_ok (w := { w with registry := some directory }) hcheck] at hsync
      exact ⟨⟨check, hcheck, (hstatus hsync).mp hcompleted⟩,
        (ends_record_session (w := { w with registry := some directory }) hkeys
          (recordable_sync_receipt check) (by decide : "registry-sync" ≠ "")).mp ⟨_, _, hsync⟩⟩
  · rintro ⟨⟨check, hcheck, hfailures⟩, hledger⟩
    obtain ⟨entry, w', hentry⟩ := (ends_record_session (w := { w with registry := some directory }) hkeys
      (recordable_sync_receipt check) (by decide : "registry-sync" ≠ "")).mpr hledger
    refine ⟨_, w', ?_, (hstatus hentry).mpr hfailures⟩
    rw [bind_of_ok ((sync_registry_of_ok (w := { w with registry := some directory }) hcheck).trans hentry)]
    rfl

theorem sync_safe_iff (hkeys : keys.Lawful) :
    SyncSafe keys place w source_path source ↔ SyncSound keys place w source := by
  cases hindex : source.has_index_file w.registry with
  | false =>
    refine ⟨fun _ h => absurd (hindex.symm.trans h) Bool.false_ne_true, fun _ => .inr ?_⟩
    rw [sync_of_no_index hindex]
    exact registry_record_session
  | true =>
    unfold SyncSafe SyncSound
    simp only [hindex, forall_const]
    cases source with
    | inside path =>
      -- the registry directory is there, and it is gone afterwards
      have hne : w.registry ≠ none := by
        intro hnone
        rw [hnone, RegistrySource.has_index_file, Option.getD_none, at_path_empty] at hindex
        cases hindex
      rw [sync_of_inside hindex]
      constructor
      · rintro (⟨_, _, hok, -⟩ | hsame)
        · cases hok
        · exact absurd hsame.symm hne
      · rintro ⟨_, hsource, -⟩
        cases hsource
    | elsewhere directory =>
      rw [completed_sync_elsewhere_iff hkeys hindex, after_sync_elsewhere hindex]
      constructor
      · rintro (h | h)
        · exact ⟨directory, rfl, .inr h⟩
        · exact ⟨directory, rfl, .inl h.symm⟩
      · rintro ⟨d, hsource, h⟩
        obtain rfl := RegistrySource.elsewhere.inj hsource
        rcases h with h | h
        · exact .inr h.symm
        · exact .inl h

end Sync

section Install

variable {host : Host} {keys : Keys} {reader : ManifestReader} {place : RegistryPlace}
  {w w' : RegistryWorkspace} {package : String} {entry : Option Json} {failures : List Failure}
  {installed : Option PackageInstall}

theorem get_status_install_receipt {verified lock_verified : Bool} :
    Dict.get (genesis_install_receipt package verified lock_verified installed failures)
      "execution_status" = some (.str (execution_status failures)) := by
  simp [genesis_install_receipt, Dict.of]

theorem recordable_install_receipt {verified lock_verified : Bool} :
    Recordable (genesis_install_receipt package verified lock_verified installed failures) := by
  constructor
  case format =>
    rw [@str_field_of_get _ "format" "BOGOS-Genesis-install-receipt-9.0" _
      (by simp [genesis_install_receipt, Dict.of, Dict.get_set])]
    decide
  case status =>
    rw [str_field_of_get get_status_install_receipt]
    unfold execution_status
    split_ifs
    · rfl
    · rfl

/-- An installation of a package leaves the session alone. -/
theorem keeps_install_pinned {item : Json} : Keeps (fun v => v.genesis = w.genesis)
    (install_pinned host keys reader place item) w := by
  unfold install_pinned
  refine keeps_ofExcept_bind fun text _ => ?_
  split
  · refine keeps_get_bind ?_
    dsimp only
    split
    · exact keeps_throw
    · refine keeps_bind ?_ fun installed v hv => keeps_bind ?_ fun _ v hv => keeps_pure hv
      · intro a v h
        unfold on_apps at h
        split at h
        · obtain ⟨-, rfl⟩ := EStateM.Result.ok.inj h
          rfl
        · cases h
      · unfold record_receipt
        refine keeps_get_bind ?_
        split_ifs
        · intro _ v' h
          obtain ⟨-, rfl⟩ := EStateM.Result.ok.inj h
          exact hv
        · exact keeps_throw
  · exact keeps_throw

theorem keeps_install_checked : Keeps (fun v => v.genesis = w.genesis)
    (install_checked host keys reader place entry failures) w := by
  unfold install_checked
  split
  · exact keeps_bind keeps_install_pinned fun _ _ hv => keeps_pure hv
  · exact keeps_pure rfl

/-- The package is installed only when nothing is wrong. -/
theorem ends_install_checked : Ends (install_checked host keys reader place entry failures) w ↔
    ∀ item, entry = some item → failures = [] →
      Ends (install_pinned host keys reader place item) w := by
  unfold install_checked
  split
  · next item =>
    constructor
    · intro h item' hitem _
      obtain rfl := Option.some.inj hitem
      obtain ⟨i, v, hok, -⟩ := ends_bind.mp h
      exact ⟨i, v, hok⟩
    · intro h
      obtain ⟨i, v, hok⟩ := h item rfl rfl
      exact ends_bind.mpr ⟨i, v, hok, some i, v, rfl⟩
  · next hother =>
    exact ⟨fun _ item hitem hfailures => absurd hfailures (hother item hitem),
      fun _ => ⟨none, w, rfl⟩⟩

theorem full_of_registry_signature_verified {check : RegistryCheck} {verified : Bool}
    (h : check.registry_signature_verified = .ok verified) :
    ∃ hash package_count failures, check = .full verified hash package_count failures := by
  cases check with
  | short failures => cases h
  | full _ hash package_count failures =>
    obtain rfl := Except.ok.inj h
    exact ⟨hash, package_count, failures, rfl⟩

theorem full_of_lockfile_verified {check : LockCheck} {verified : Bool}
    (h : check.lockfile_verified = .ok verified) : ∃ hash names failures, check = .full hash names failures := by
  cases check with
  | short failures => cases h
  | full hash names failures => exact ⟨hash, names, failures, rfl⟩

/-- The failures before the installation. -/
theorem checked_failures_eq_nil {registry_failures lock_failures : List Failure} :
    registry_failures ++ lock_failures ++
        failure_if entry.isNone (.str package, "package is not pinned by bog.lock") = [] ↔
      registry_failures = [] ∧ lock_failures = [] ∧ ∃ item, entry = some item := by
  cases entry with
  | none => simp [failure_if]
  | some item => simp [failure_if]

theorem install_safe_iff (hkeys : keys.Lawful) :
    InstallSafe host keys reader place w package ↔ InstallSound host keys reader place w package := by
  constructor
  · rintro ⟨receipt, w', hok, -⟩
    unfold install at hok
    rw [bind_of_ok get_apply] at hok
    obtain ⟨registry_check, hregistry, hok⟩ := ofExcept_bind_eq_ok.mp hok
    obtain ⟨lock_check, hlock, hok⟩ := ofExcept_bind_eq_ok.mp hok
    obtain ⟨entry, hentry, hok⟩ := ofExcept_bind_eq_ok.mp hok
    obtain ⟨installed, v, hinstalled, hok⟩ := StateExcept.bind_eq_ok.mp hok
    obtain ⟨verified, hverified, hok⟩ := ofExcept_bind_eq_ok.mp hok
    obtain ⟨lock_verified, hlock_verified, hok⟩ := ofExcept_bind_eq_ok.mp hok
    obtain ⟨hash, package_count, registry_failures, rfl⟩ := full_of_registry_signature_verified hverified
    obtain ⟨lock_hash, names, lock_failures, rfl⟩ := full_of_lockfile_verified hlock_verified
    have hledger := (ends_record_session hkeys recordable_install_receipt
      (by decide : "install" ≠ "")).mp ⟨receipt, w', hok⟩
    rw [keeps_install_checked _ _ hinstalled] at hledger
    refine ⟨verified, hash, package_count, registry_failures, lock_hash, names, lock_failures, entry,
      hregistry, hlock, hentry, fun item hitem hr hl => ?_, hledger⟩
    exact ends_install_checked.mp ⟨installed, v, hinstalled⟩ item hitem
      (checked_failures_eq_nil.mpr ⟨hr, hl, item, hitem⟩)
  · rintro ⟨verified, hash, package_count, registry_failures, lock_hash, names, lock_failures, entry,
      hregistry, hlock, hentry, hinstall, hledger⟩
    let failures := registry_failures ++ lock_failures ++
      failure_if entry.isNone (.str package, "package is not pinned by bog.lock")
    obtain ⟨installed, v, hinstalled⟩ : Ends (install_checked host keys reader place entry failures) w :=
      ends_install_checked.mpr fun item hitem hnil =>
        hinstall item hitem (checked_failures_eq_nil.mp hnil).1 (checked_failures_eq_nil.mp hnil).2.1
    have hsame := keeps_install_checked _ _ hinstalled
    obtain ⟨receipt, w', hreceipt⟩ := (ends_record_session hkeys (@recordable_install_receipt package
      (failures ++ (installed.map PackageInstall.failures).getD []) installed verified
      (decide (lock_failures = []))) (by decide : "install" ≠ "")).mpr (hsame ▸ hledger)
    refine ⟨receipt, w', ?_, fun hcompleted => ?_⟩
    · unfold install
      rw [bind_of_ok get_apply, hregistry, bind_of_ok ofExcept_ok, hlock, bind_of_ok ofExcept_ok,
        hentry, bind_of_ok ofExcept_ok]
      exact (bind_of_ok hinstalled).trans hreceipt
    · rw [IsCompleted, get_record_session hreceipt (by decide), get_status_install_receipt] at hcompleted
      have hnil := execution_status_eq_completed.mp (Json.str.inj (Option.some.inj hcompleted))
      obtain ⟨hr, hl, item, rfl⟩ := checked_failures_eq_nil.mp (List.append_eq_nil_iff.mp hnil).1
      exact ⟨⟨_, hregistry, hr⟩, ⟨_, hlock, hl⟩, item, hentry⟩

end Install

/-! ## A workspace without a registry -/

/-- A workspace without a registry and a lock. -/
def bare_workspace : RegistryWorkspace where
  registry := none
  lock := none
  genesis := Genesis.fresh
  apps := ⟨new_store, []⟩
  receipt_count := 0

/-- The registry lies in the root. -/
def plain_place : RegistryPlace where
  dir := ["registry".toList]
  root := "/"
  is_dir _ := false
  message _ := "error"
  floats _ := none

/-- A registry whose index has no signature. -/
def unsigned_registry : Tree File := ⟨[(["index.json".toList], ⟨utf8 "\x7b\x7d", .value (.obj [])⟩)], []⟩

end Bogbin.Bogvm
