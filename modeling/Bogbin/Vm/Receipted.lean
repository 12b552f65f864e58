import Bogbin.Vm.AssemblerErrors
import Bogbin.Vm.Guards

/-!
# Blocked executions

The exceptions of the assembler and of the machine: which texts give a program or an
`AssemblerError`, and which instructions give a receipt or a `VMError`.
-/

namespace Bogbin.Vm

open Bogvm StateExcept

section Manifest

variable {items : List (String × Json)} {key : String} {value : Json}

theorem mem_of_get_foldl {d : Dict}
    (h : Dict.get (items.foldl (fun d item => Dict.set d item.1 item.2) d) key = some value) :
    (key, value) ∈ items ∨ Dict.get d key = some value := by
  induction items generalizing d with
  | nil => exact .inr h
  | cons item items ih =>
    rcases ih h with hmem | hget
    · exact .inl (List.mem_cons_of_mem item hmem)
    · rw [Dict.get_set] at hget
      split_ifs at hget with hkey
      · obtain rfl := Option.some.inj hget
        subst hkey
        exact .inl List.mem_cons_self
      · exact .inr hget

theorem mem_of_get_of (h : Dict.get (Dict.of items) key = some value) : (key, value) ∈ items := by
  rcases mem_of_get_foldl h with hmem | hnil
  · exact hmem
  · cases hnil

theorem mem_of_get_id_table {values : List Json} (h : Dict.get (id_table values) key = some value) :
    value ∈ values := by
  obtain ⟨entry, hentry, heq⟩ := List.mem_map.mp (mem_of_get_of h)
  have hvalue : entry.1 = value := (Prod.mk.inj heq).2
  rw [← hvalue]
  exact List.fst_mem_of_mem_zipIdx hentry

section Fields

variable (a : Assembler)

theorem get_manifest_nodes :
    Dict.get a.manifest "nodes" = some (.obj (id_table (a.nodes.map text_json))) := by
  simp [Assembler.manifest, Dict.of, Dict.get_set]

theorem get_manifest_claims : Dict.get a.manifest "claims" =
    some (.obj (id_table (a.claims.zipIdx.map fun entry => claim_meta entry.2 entry.1))) := by
  simp [Assembler.manifest, Dict.of, Dict.get_set]

theorem get_manifest_data_blocks :
    Dict.get a.manifest "data_blocks" = some (.obj (id_table (a.data_names.map text_json))) := by
  simp [Assembler.manifest, Dict.of, Dict.get_set]

theorem get_manifest_constants :
    Dict.get a.manifest "constants" = some (.obj (id_table (a.constants.map text_json))) := by
  simp [Assembler.manifest, Dict.of, Dict.get_set]

/-- The manifests that the assembler writes. -/
theorem tables_manifest : Tables a.manifest where
  nodes := ⟨_, get_manifest_nodes a⟩
  claims := ⟨_, get_manifest_claims a⟩
  data_blocks := ⟨_, get_manifest_data_blocks a⟩
  constants := ⟨_, get_manifest_constants a⟩
  named fields key value hfields hvalue := by
    rw [get_manifest_claims a] at hfields
    obtain rfl := Json.obj.inj (Option.some.inj hfields)
    obtain ⟨entry, -, rfl⟩ := List.mem_map.mp (mem_of_get_id_table hvalue)
    exact ⟨_, text_json entry.1.name, rfl, by simp [Dict.of, Dict.get_set]⟩

end Fields

end Manifest

/-- A text gives a program or an `AssemblerError` exactly when its lines are convertible, and a list
of instructions gives a receipt, of a run or of its block, exactly when they are guarded. -/
theorem execution_receipted_iff {manifest : Dict} (ht : Tables manifest) (program_hash : String)
    (instructions : List Instruction) (text : Text) :
    (((∃ program, assemble_text text = .ok program) ∨
      assemble_text text = .error .AssemblerError) ↔ TextConverts text) ∧
    (((∃ receipt s, run manifest program_hash instructions .initial = .ok receipt s) ∨
      ∃ s, run manifest program_hash instructions .initial = .error .VMError s) ↔
        AllGuarded manifest instructions) ∧
    ((∃ receipt code,
      run_with_block_receipt manifest program_hash instructions = .ok (receipt, code) ∧
        HasStatus receipt code) ↔ AllGuarded manifest instructions) :=
  ⟨assemble_text_iff text, run_receipted_iff ht program_hash, block_receipt_iff ht program_hash⟩

/-- A text that halts at once. -/
theorem execution_receipted_halt :
    (∃ program, assemble_text "HALT".toList = .ok program) ∧ TextConverts "HALT".toList ∧
      AllGuarded Assembler.new.manifest [⟨0x01, 0, 0, 0, 0⟩] ∧
      ∃ receipt code, run_with_block_receipt Assembler.new.manifest "" [⟨0x01, 0, 0, 0, 0⟩] =
        .ok (receipt, code) ∧ HasStatus receipt code := by
  have hiff := execution_receipted_iff (tables_manifest .new) "" [⟨0x01, 0, 0, 0, 0⟩] "HALT".toList
  have hprogram : ∃ program, assemble_text "HALT".toList = .ok program := by
    cases hassemble : assemble_text "HALT".toList with
    | ok program => exact ⟨program, rfl⟩
    | error e =>
      have hok : (assemble_text "HALT".toList).toOption.isSome = true := by decide +kernel
      rw [hassemble] at hok
      cases hok
  have hhalts : halts_with Assembler.new.manifest [⟨0x01, 0, 0, 0, 0⟩] (fun _ => true) := by
    decide +kernel
  obtain ⟨receipt, s, hrun, -⟩ :=
    run_of_halts "" (tables_manifest .new).data_blocks hhalts fun _ _ _ _ => rfl
  have hguarded := hiff.2.1.mp (.inl ⟨receipt, s, hrun⟩)
  exact ⟨hprogram, hiff.1.mp (.inl hprogram), hguarded, hiff.2.2.mpr hguarded⟩

/-- A factor that is no number, and a `VERIFY` of a claim that was never created. -/
theorem execution_not_receipted :
    assemble_text "DECAY fast".toList = .error .ValueError ∧
      ∃ s, run Assembler.new.manifest "" [⟨0x0A, 0, 0, 0, 0⟩] .initial = .error .KeyError s :=
  ⟨rfl, _, rfl⟩

end Bogbin.Vm
