import Bogbin.Bogvm.Broker
import Bogbin.Bogvm.ArchiveTree
import Bogbin.Bogvm.DictSorted

/-!
# Requests to the broker

What a request to the broker does (`Granted`, `handle_spec`): an operation is either refused, with an
empty reply and all files as they were, or granted for a listed resource.  A request is answered
exactly when it is `Answerable`; the others make `_handle` raise.
-/

namespace Bogbin.Bogvm

open StateExcept

/-! ## Writing a file -/

/-- A file can be written at the path. -/
structure Writable (host : Host) (t : Tree Bytes) (p : Path) : Prop where
  free : ∀ q, q ≠ [] → q <+: p.dropLast → q ∉ t.paths
  parents : ∀ q name, q ++ [name] <+: p.dropLast → q ++ [name] ∈ t.dirs ∨ host.admits name = true
  name : ∃ init name, p = init ++ [name] ∧ host.admits name = true
  not_dir : p ∉ t.dirs

section Write

variable {b : Broker} {state state' : BrokerState} {target : Path} {data : Bytes} {e : PyError}

theorem write_target_ok (h : write_target b target data state = .ok ⟨⟩ state') :
    state'.calls = state.calls ∧ state'.runtime.files = (state.runtime.put target data).files ∧
      Writable b.host state.runtime target := by
  rw [write_target] at h
  split at h
  · next output houtput =>
    obtain ⟨-, rfl⟩ := EStateM.Result.ok.inj h
    obtain ⟨⟨⟩, middle, hdirs, hwrite⟩ := StateExcept.bind_eq_ok.mp houtput
    have hmade := made_of_ok hdirs
    obtain ⟨⟨init, name, rfl, hname⟩, hdir, rfl⟩ := write_bytes_eq_ok hwrite
    refine ⟨rfl, by simp only [Tree.put, hmade.files], ?_, ?_, ⟨init, name, rfl, hname⟩, ?_⟩
    · simpa using hmade.free
    · simpa using hmade.admitted
    · exact fun hmem => hdir ((hmade.dirs _).mpr (.inl hmem))
  · cases h

theorem files_of_write_bytes_error {output output' : Output}
    (h : write_bytes b.host target data output = .error e output') : output' = output := by
  rw [write_bytes, bind_of_ok get_apply] at h
  cases hlast : target.getLast? with
  | none =>
    rw [hlast] at h
    exact (EStateM.Result.error.inj h).2.symm
  | some name =>
    rw [hlast] at h
    dsimp only at h
    split_ifs at h
    · exact (EStateM.Result.error.inj h).2.symm
    · cases h

theorem files_of_make_dirs_error {host : Host} {base names : Path} {output output' : Output}
    (h : make_dirs host base names output = .error e output') :
    output'.tree.files = output.tree.files := by
  induction names generalizing base output with
  | nil => cases h
  | cons name rest ih =>
    rw [make_dirs] at h
    simp only [bind_of_ok get_apply] at h
    split_ifs at h
    · exact congrArg (·.tree.files) (EStateM.Result.error.inj h).2.symm
    · exact ih h
    · exact congrArg (·.tree.files) (EStateM.Result.error.inj h).2.symm
    · rw [bind_of_ok set_apply] at h
      have hfiles := ih h
      exact hfiles

/-- A write that fails can have made directories, but no file. -/
theorem write_target_error (h : write_target b target data state = .error e state') :
    state'.calls = state.calls ∧ state'.runtime.files = state.runtime.files := by
  rw [write_target] at h
  split at h
  · cases h
  · next output houtput =>
    obtain ⟨-, rfl⟩ := EStateM.Result.error.inj h
    refine ⟨rfl, ?_⟩
    rcases StateExcept.bind_eq_error.mp houtput with hdirs | ⟨⟨⟩, middle, hdirs, hwrite⟩
    · exact files_of_make_dirs_error hdirs
    · rw [files_of_write_bytes_error hwrite]
      exact (made_of_ok hdirs).files

theorem ends_write_target_iff :
    Ends (write_target b target data) state ↔ Writable b.host state.runtime target := by
  constructor
  · rintro ⟨⟨⟩, state', h⟩
    exact (write_target_ok h).2.2
  · intro h
    obtain ⟨init, name, rfl, hname⟩ := h.name
    obtain ⟨⟨⟩, middle, hdirs⟩ : Ends (make_dirs b.host [] init) ⟨state.runtime, []⟩ := by
      refine ends_make_dirs (fun q hne hq => ?_) fun q n hq => ?_
      · exact h.free q hne (by simpa using hq)
      · exact h.parents q n (by simpa using hq)
    have hdir : init ++ [name] ∉ middle.tree.dirs := by
      rw [(made_of_ok hdirs).dirs]
      rintro (hmem | ⟨q, -, hq, heq⟩)
      · exact h.not_dir hmem
      · have hle := hq.length_le
        rw [← List.nil_append q, ← heq] at hle
        simp at hle
    refine ⟨⟨⟩, { state with runtime := middle.tree.put (init ++ [name]) data }, ?_⟩
    rw [write_target, List.dropLast_concat, bind_of_ok hdirs, write_bytes_of_admits hname hdir]

end Write

/-! ## The operations -/

/-- A path that the app may read, with the bytes below the package. -/
structure Readable (b : Broker) (site : Site) (text : String) (data : Bytes) : Prop where
  listed : text ∈ b.app_info.capabilities.read
  safe : is_safe_relpath (.str text) = true
  not_symlink : site.install_links.is_symlink (path_parts text) = false
  contained : ∃ target, site.install_links.resolve (path_parts text) = .ok (some target)
  file : (site.store.installed b.app_info.install_dir).bind (·.file (path_parts text)) = some data

/-- A path that the app may write, and where it leads below the runtime directory. -/
structure Granted (b : Broker) (site : Site) (text : String) (target : Path) : Prop where
  listed : text ∈ b.app_info.capabilities.write
  safe : is_safe_relpath (.str text) = true
  contained : site.runtime_links.resolve (path_parts text) = .ok (some target)

section Operations

variable {b : Broker} {site : Site} {request evidence : Dict} {failures : List StoreFailure}
  {outcome : Outcome} {state state' : BrokerState} {e : PyError}

/-- An operation that was refused with this evidence. -/
structure Refused (evidence : Dict) (outcome : Outcome) : Prop where
  evidence : outcome.evidence = evidence
  failures : outcome.failures ≠ []
  reply : outcome.reply = .empty

theorem refused_append {failure : StoreFailure} :
    Refused evidence ⟨evidence, failures ++ [failure], .empty⟩ :=
  ⟨rfl, by simp, rfl⟩

theorem read_call_ok (h : read_call b site request evidence failures = .ok outcome) :
    Refused (path_evidence evidence b.app_info.capabilities.read (requested request "path"))
        outcome ∨
      ∃ text data, failures = [] ∧ requested request "path" = .str text ∧
        Readable b site text data ∧
        outcome = ⟨Dict.set (path_evidence evidence b.app_info.capabilities.read (.str text)) "sha256"
          (.str (hexdigest data)), [], { Reply.empty with data_hex := some (to_hex data) }⟩ := by
  unfold read_call at h
  generalize requested request "path" = path at h ⊢
  cases path with
  | null | bool | int | float | arr | obj =>
    obtain rfl := Except.ok.inj h
    exact .inl refused_append
  | str text =>
    dsimp only at h
    split_ifs at h with hrefused hfailures hsymlink
    · obtain rfl := Except.ok.inj h
      exact .inl refused_append
    · obtain rfl := Except.ok.inj h
      exact .inl ⟨rfl, hfailures, rfl⟩
    · obtain rfl := Except.ok.inj h
      exact .inl refused_append
    · obtain ⟨target, htarget, h⟩ := bind_eq_ok.mp h
      cases target with
      | none =>
        obtain rfl := Except.ok.inj h
        exact .inl refused_append
      | some target =>
        dsimp only at h
        split at h
        · obtain rfl := Except.ok.inj h
          exact .inl refused_append
        · next data hdata =>
          obtain rfl := Except.ok.inj h
          rw [not_not] at hfailures
          subst hfailures
          have hlisted : is_safe_relpath (.str text) = true ∧
              text ∈ b.app_info.capabilities.read := by
            simpa [listed] using hrefused
          exact .inr ⟨text, data, rfl, rfl, ⟨hlisted.2, hlisted.1, by simpa using hsymlink,
            ⟨target, htarget⟩, hdata⟩, rfl⟩

/-- Reading raises exactly where a listed path cannot be resolved. -/
theorem read_call_ok_iff : (∃ outcome, read_call b site request evidence failures = .ok outcome) ↔
    (failures = [] → ∀ text ∈ b.app_info.capabilities.read, requested request "path" = .str text →
      site.install_links.is_symlink (path_parts text) = false →
        ∃ target, site.install_links.resolve (path_parts text) = .ok target) := by
  constructor
  · rintro ⟨outcome, h⟩ hfailures text hlisted htext hsymlink
    unfold read_call at h
    rw [htext] at h
    dsimp only at h
    have hsafe := b.app_info.safe text (List.mem_append_left _ hlisted)
    rw [if_neg (by simp [listed, hsafe, hlisted]), if_neg (not_not.mpr hfailures),
      if_neg (by simp [hsymlink])] at h
    obtain ⟨target, htarget, -⟩ := bind_eq_ok.mp h
    exact ⟨target, htarget⟩
  · intro h
    unfold read_call
    generalize requested request "path" = path at h ⊢
    cases path with
    | null | bool | int | float | arr | obj => exact ⟨_, rfl⟩
    | str text =>
      dsimp only
      split_ifs with hrefused hfailures hsymlink
      · exact ⟨_, rfl⟩
      · exact ⟨_, rfl⟩
      · exact ⟨_, rfl⟩
      · have hlisted : is_safe_relpath (.str text) = true ∧ text ∈ b.app_info.capabilities.read := by
          simpa [listed] using hrefused
        obtain ⟨target, htarget⟩ :=
          h (not_not.mp hfailures) text hlisted.2 rfl (by simpa using hsymlink)
        rw [htarget, ok_bind]
        cases target with
        | none => exact ⟨_, rfl⟩
        | some target =>
          dsimp only
          split <;> exact ⟨_, rfl⟩

/-- The text of the data of a write request. -/
def data_text (request : Dict) : Json := (Dict.get request "data_hex").getD (.str "")

theorem write_data_ok {path : Json} {data : Bytes} {failures' : List StoreFailure}
    (h : write_data request failures path = .ok (data, failures')) :
    ∃ text, data_text request = .str text ∧
      (from_hex text.toList = some data ∧ failures' = failures ∨
        from_hex text.toList = none ∧ failures' ≠ []) := by
  unfold write_data at h
  rw [← data_text] at h
  cases hdata : data_text request with
  | null | bool | int | float | arr | obj =>
    rw [hdata] at h
    cases h
  | str text =>
    rw [hdata] at h
    dsimp only at h
    refine ⟨text, rfl, ?_⟩
    cases hhex : from_hex text.toList with
    | none =>
      rw [hhex] at h
      obtain ⟨-, rfl⟩ := Prod.mk.inj (Except.ok.inj h)
      exact .inr ⟨rfl, by simp⟩
    | some data' =>
      rw [hhex] at h
      obtain ⟨rfl, rfl⟩ := Prod.mk.inj (Except.ok.inj h)
      exact .inl ⟨rfl, rfl⟩

/-- What comes after the data of a write request. -/
theorem write_call_of_data {data : Bytes} {failures' : List StoreFailure}
    (h : write_data request failures (requested request "path") = .ok (data, failures')) :
    write_call b site request evidence failures state =
      (let evidence := Dict.set (path_evidence evidence b.app_info.capabilities.write
          (requested request "path")) "sha256" (.str (hexdigest data))
      match requested request "path" with
      | .str text =>
        if !is_safe_relpath (requested request "path") ||
            !listed b.app_info.capabilities.write (requested request "path") then
          return ⟨evidence, failures' ++ [(text, "write blocked by capability manifest")], .empty⟩
        else if failures' ≠ [] then return ⟨evidence, failures', .empty⟩
        else do
          match ← MonadExcept.ofExcept (site.runtime_links.resolve (path_parts text)) with
          | none => return ⟨evidence, [(text, "broker write escaped appdata")], .empty⟩
          | some target =>
            write_target b target data
            return ⟨evidence, failures',
              { Reply.empty with size := some data.length, sha256 := some (hexdigest data) }⟩
      | _ => return ⟨evidence, failures' ++ [(py_str (requested request "path"),
          "write blocked by capability manifest")], .empty⟩ : EStateM PyError BrokerState Outcome)
        state := by
  unfold write_call
  rw [h]
  rfl

theorem write_call_ok (h : write_call b site request evidence failures state = .ok outcome state') :
    (state' = state ∧ ∃ sha256, Refused (Dict.set (path_evidence evidence
        b.app_info.capabilities.write (requested request "path")) "sha256" (.str sha256)) outcome) ∨
      ∃ hex text target data, failures = [] ∧ data_text request = .str hex ∧
        from_hex hex.toList = some data ∧ requested request "path" = .str text ∧
        Granted b site text target ∧ write_target b target data state = .ok ⟨⟩ state' ∧
        outcome = ⟨Dict.set (path_evidence evidence b.app_info.capabilities.write (.str text))
          "sha256" (.str (hexdigest data)), [],
          { Reply.empty with size := some data.length, sha256 := some (hexdigest data) }⟩ := by
  cases hdata : write_data request failures (requested request "path") with
  | error e =>
    unfold write_call at h
    rw [hdata] at h
    cases h
  | ok result =>
    obtain ⟨data, failures'⟩ := result
    rw [write_call_of_data hdata] at h
    have hfailures := write_data_ok hdata
    clear hdata
    generalize requested request "path" = path at h ⊢
    cases path with
    | null | bool | int | float | arr | obj =>
      obtain ⟨rfl, rfl⟩ := EStateM.Result.ok.inj h
      exact .inl ⟨rfl, _, refused_append⟩
    | str text =>
      dsimp only at h
      split_ifs at h with hrefused hnone
      · obtain ⟨rfl, rfl⟩ := EStateM.Result.ok.inj h
        exact .inl ⟨rfl, _, refused_append⟩
      · obtain ⟨rfl, rfl⟩ := EStateM.Result.ok.inj h
        exact .inl ⟨rfl, _, rfl, hnone, rfl⟩
      · obtain ⟨target, middle, htarget, h⟩ := StateExcept.bind_eq_ok.mp h
        obtain ⟨hresolve, rfl⟩ := ofExcept_eq_ok.mp htarget
        cases target with
        | none =>
          obtain ⟨rfl, rfl⟩ := EStateM.Result.ok.inj h
          exact .inl ⟨rfl, _, rfl, by simp, rfl⟩
        | some target =>
          obtain ⟨⟨⟩, last, hwrite, h⟩ := StateExcept.bind_eq_ok.mp h
          obtain ⟨rfl, rfl⟩ := EStateM.Result.ok.inj h
          rw [not_not] at hnone
          subst hnone
          obtain ⟨hex, htext, ⟨hhex, hfailures⟩ | ⟨-, hfailures⟩⟩ := hfailures
          swap
          · exact absurd rfl hfailures
          have hlisted : is_safe_relpath (.str text) = true ∧
              text ∈ b.app_info.capabilities.write := by
            simpa [listed] using hrefused
          exact .inr ⟨hex, text, target, data, hfailures.symm, htext, hhex, rfl,
            ⟨hlisted.2, hlisted.1, hresolve⟩, hwrite, rfl⟩

theorem write_call_error (h : write_call b site request evidence failures state = .error e state') :
    state'.calls = state.calls ∧ state'.runtime.files = state.runtime.files := by
  cases hdata : write_data request failures (requested request "path") with
  | error e =>
    unfold write_call at h
    rw [hdata] at h
    obtain ⟨-, rfl⟩ := EStateM.Result.error.inj h
    exact ⟨rfl, rfl⟩
  | ok result =>
    obtain ⟨data, failures'⟩ := result
    rw [write_call_of_data hdata] at h
    clear hdata
    generalize requested request "path" = path at h
    cases path with
    | null | bool | int | float | arr | obj => cases h
    | str text =>
      dsimp only at h
      split_ifs at h
      · cases h
      · cases h
      · rcases StateExcept.bind_eq_error.mp h with h | ⟨target, middle, htarget, h⟩
        · obtain ⟨-, rfl⟩ := ofExcept_eq_error.mp h
          exact ⟨rfl, rfl⟩
        · obtain ⟨-, rfl⟩ := ofExcept_eq_ok.mp htarget
          cases target with
          | none => cases h
          | some target =>
            rcases StateExcept.bind_eq_error.mp h with h | ⟨_, _, -, h⟩
            · exact write_target_error h
            · cases h

/-- Writing raises exactly without a text of the data, and where a listed path cannot be resolved or
written. -/
theorem ends_write_call_iff : Ends (write_call b site request evidence failures) state ↔
    ∃ hex, data_text request = .str hex ∧
      (failures = [] → ∀ text ∈ b.app_info.capabilities.write, requested request "path" = .str text →
        (from_hex hex.toList).isSome = true → ∃ target,
          site.runtime_links.resolve (path_parts text) = .ok target ∧
            ∀ p, target = some p → Writable b.host state.runtime p) := by
  cases hdata : write_data request failures (requested request "path") with
  | error e =>
    constructor
    · rintro ⟨outcome, state', h⟩
      unfold write_call at h
      rw [hdata] at h
      cases h
    · rintro ⟨hex, hhex, -⟩
      unfold write_data at hdata
      rw [← data_text, hhex] at hdata
      dsimp only at hdata
      split at hdata <;> cases hdata
  | ok result =>
    obtain ⟨data, failures'⟩ := result
    obtain ⟨hex, hhex, hfailures⟩ := write_data_ok hdata
    rw [Ends, write_call_of_data hdata]
    have hdetermined (P : String → Prop) :
        (∃ hex, data_text request = .str hex ∧ P hex) ↔ P hex := by
      constructor
      · rintro ⟨hex', hhex', h⟩
        obtain rfl := Json.str.inj (hhex.symm.trans hhex')
        exact h
      · exact fun h => ⟨hex, hhex, h⟩
    rw [hdetermined]
    clear hdata
    generalize requested request "path" = path
    cases path with
    | null | bool | int | float | arr | obj =>
      exact ⟨fun _ _ _ _ => nofun, fun _ => ⟨_, _, rfl⟩⟩
    | str text =>
      dsimp only
      split_ifs with hrefused hnone
      · refine ⟨fun _ _ text' hlisted heq => ?_, fun _ => ⟨_, _, rfl⟩⟩
        obtain rfl := Json.str.inj heq
        have hsafe := b.app_info.safe text (List.mem_append_right _ hlisted)
        simp [listed, hsafe, hlisted] at hrefused
      · refine ⟨fun _ hempty text' _ _ hsome => ?_, fun _ => ⟨_, _, rfl⟩⟩
        rcases hfailures with ⟨-, rfl⟩ | ⟨hnone', -⟩
        · exact absurd hempty hnone
        · rw [hnone'] at hsome
          cases hsome
      · rw [not_not] at hnone
        subst hnone
        have hlisted : is_safe_relpath (.str text) = true ∧
            text ∈ b.app_info.capabilities.write := by
          simpa [listed] using hrefused
        obtain ⟨hsome, rfl⟩ | ⟨-, hfailures⟩ := hfailures
        swap
        · exact absurd rfl hfailures
        have hwrites : (∀ text' ∈ b.app_info.capabilities.write, Json.str text = .str text' →
            (from_hex hex.toList).isSome = true → ∃ target,
              site.runtime_links.resolve (path_parts text') = .ok target ∧
                ∀ p, target = some p → Writable b.host state.runtime p) ↔
            ∃ target, site.runtime_links.resolve (path_parts text) = .ok target ∧
              ∀ p, target = some p → Writable b.host state.runtime p := by
          constructor
          · exact fun h => h text hlisted.2 rfl (by rw [hsome]; rfl)
          · rintro h text' - heq -
            obtain rfl := Json.str.inj heq
            exact h
        refine Iff.trans ?_ ((forall_prop_of_true rfl).trans hwrites).symm
        refine ends_bind.trans ?_
        constructor
        · rintro ⟨target, middle, htarget, hends⟩
          obtain ⟨hresolve, rfl⟩ := ofExcept_eq_ok.mp htarget
          refine ⟨target, hresolve, ?_⟩
          rintro p rfl
          obtain ⟨⟨⟩, last, hwrite, -⟩ := ends_bind.mp hends
          exact ends_write_target_iff.mp ⟨_, _, hwrite⟩
        · rintro ⟨target, hresolve, hwritable⟩
          refine ⟨target, state, ofExcept_eq_ok.mpr ⟨hresolve, rfl⟩, ?_⟩
          cases target with
          | none => exact ⟨_, _, rfl⟩
          | some p =>
            obtain ⟨⟨⟩, last, hwrite⟩ := ends_write_target_iff.mpr (hwritable p rfl)
            exact ends_bind.mpr ⟨_, _, hwrite, _, _, rfl⟩

end Operations

end Bogbin.Bogvm
