import Bogbin.Vm.Machine

/-!
# What an instruction does

`Effect` is the step relation of the machine without the ledger: what each opcode needs and what it
changes.  An instruction that does not raise has its effect and logs one event (`execute_ok`).
-/

namespace Bogbin.Vm

open Bogvm StateExcept
open Std (TreeMap)

/-- The opcodes that change the ledger only. -/
def Op.Silent : Op → Prop
  | .NOOP | .HALT | .LOG_RECEIPT => True
  | _ => False

inductive Effect (manifest : Dict) (instr : Instruction) (s : VMState) : Op → VMState → Prop
  | silent {op : Op} (silent : op.Silent) : Effect manifest instr s op s
  | create_node {name : Json} (symbol : require_symbol manifest "nodes" instr.target = .ok name) :
      Effect manifest instr s .CREATE_NODE
        { s with node_table := s.node_table.insert instr.target ⟨instr.target, name⟩ }
  | create_edge {type : EdgeType} (source : instr.source ∈ s.node_table)
      (target : instr.param ∈ s.node_table) (named : EDGE_TYPE_NAMES instr.flags = some type) :
      Effect manifest instr s .CREATE_EDGE
        { s with
          edge_table := s.edge_table.insert instr.target
            ⟨instr.target, instr.source, instr.param, type, SCALE⟩
          adjacency_out := add_adjacent s.adjacency_out instr.source instr.target
          adjacency_in := add_adjacent s.adjacency_in instr.param instr.target }
  | create_claim {name : Json} (source : instr.source ∈ s.node_table)
      (target : instr.param ∈ s.node_table)
      (symbol : (require_symbol manifest "claims" instr.target >>= name_of) = .ok name) :
      Effect manifest instr s .CREATE_CLAIM
        { s with
          claim_table := s.claim_table.insert instr.target
            ⟨instr.target, name, instr.source, instr.param⟩ }
  | activate (node : instr.target ∈ s.node_table) (strength : instr.param ≤ SCALE) :
      Effect manifest instr s .ACTIVATE
        { s with activation_current := s.activation_current.insert instr.target instr.param }
  | propagate {type : EdgeType} {cumulative : TreeMap ℕ ℕ} {total_energy : ℕ} {reached : List ℕ}
      (named : EDGE_TYPE_NAMES instr.flags = some type)
      (spread : ticks s type instr.param s.activation_current
        ((∅ : TreeMap ℕ ℕ).insert instr.source ((s.activation_current[instr.source]?).getD 0)) 0 [] =
          .ok (cumulative, total_energy, reached)) :
      Effect manifest instr s .PROPAGATE { s with activation_current := cumulative }
  | decay (factor : instr.param ≤ SCALE) :
      Effect manifest instr s .DECAY
        { s with
          activation_current := s.activation_current.toList.foldl (fun decayed entry =>
            let value := entry.2 * instr.param / SCALE
            if 0 < value then decayed.insert entry.1 value else decayed) ∅ }
  | interfere {claim : Claim} {pressure : Pressure} (claimed : s.claim_table[instr.target]? = some claim)
      (pressed : pressure_of s claim.target = .ok pressure) :
      Effect manifest instr s .INTERFERE
        { s with
          pressure_current := s.pressure_current.insert instr.target pressure
          tension_current := s.tension_current.insert instr.target
            (min pressure.support_pressure pressure.conflict_pressure) }
  | compute_tension {tension : ℕ} (claimed : instr.target ∈ s.claim_table) :
      Effect manifest instr s .COMPUTE_TENSION
        { s with tension_current := s.tension_current.insert instr.target tension }
  | verify {status : Status} (verified : verify_claim s instr.target = .ok status) :
      Effect manifest instr s .VERIFY
        { s with verifier_results := s.verifier_results.insert instr.target status }
  | accept (claimed : instr.target ∈ s.claim_table)
      (verified : s.verifier_results[instr.target]? = some .verified) :
      Effect manifest instr s .ACCEPT
        { s with accepted_claims := add_sorted s.accepted_claims instr.target }
  | repair (claimed : instr.target ∈ s.claim_table)
      (rejected : s.verifier_results[instr.target]? = some .rejected) :
      Effect manifest instr s .ACCEPT
        { s with
          rejected_claims := add_sorted s.rejected_claims instr.target
          quarantined_claims := add_sorted s.quarantined_claims instr.target }
  | reject (claimed : instr.target ∈ s.claim_table) :
      Effect manifest instr s .REJECT
        { s with rejected_claims := add_sorted s.rejected_claims instr.target }
  | quarantine (claimed : instr.target ∈ s.claim_table) :
      Effect manifest instr s .QUARANTINE
        { s with quarantined_claims := add_sorted s.quarantined_claims instr.target }
  | emit_receipt : Effect manifest instr s .EMIT_RECEIPT { s with receipt_emitted := true }
  | declare_basis {basis : Basis}
      (constant : require_symbol manifest "constants" instr.target = .ok (.str basis.name)) :
      Effect manifest instr s .DECLARE_BASIS { s with active_basis := some basis }
  | load_coefficients {name : Json}
      (symbol : require_symbol manifest "data_blocks" instr.target = .ok name)
      (byte : instr.source ≤ 255) (delta : instr.flags ≤ 255) :
      Effect manifest instr s .LOAD_COEFFICIENTS
        { s with
          data_blocks := s.data_blocks.insert instr.target
            ⟨instr.target, name, s.active_basis, instr.source, instr.flags, instr.param, [], []⟩ }
  | synthesize {block : DataBlock} {bytes : Bytes} (found : s.data_blocks[instr.target]? = some block)
      (made : synthesized block = .ok bytes) :
      Effect manifest instr s .SYNTHESIZE
        { s with data_blocks := s.data_blocks.insert instr.target { block with bytes := bytes } }
  | verify_hash {block : DataBlock} {expected_hash : Json}
      (found : s.data_blocks[instr.target]? = some block)
      (constant : require_symbol manifest "constants" instr.source = .ok expected_hash) :
      Effect manifest instr s .VERIFY_HASH
        { s with
          data_hash_results := s.data_hash_results.insert instr.target
            (if .str (hexdigest block.bytes) = expected_hash then .verified else .rejected) }
  | accept_data {block : DataBlock} (found : s.data_blocks[instr.target]? = some block)
      (verified : s.data_hash_results[instr.target]? = some .verified) :
      Effect manifest instr s .ACCEPT_DATA
        { s with accepted_data_blocks := add_sorted s.accepted_data_blocks instr.target }
  | reject_data {block : DataBlock} (found : s.data_blocks[instr.target]? = some block)
      (rejected : s.data_hash_results[instr.target]? = some .rejected) :
      Effect manifest instr s .REJECT_DATA
        { s with rejected_data_blocks := add_sorted s.rejected_data_blocks instr.target }
  | store_residual {block : DataBlock} (found : s.data_blocks[instr.target]? = some block)
      (offset : instr.source < block.length) (byte : instr.param ≤ 255) :
      Effect manifest instr s .STORE_RESIDUAL
        { s with
          data_blocks := s.data_blocks.insert instr.target { block with
            residuals := (block.residuals ++ [Patch.mk instr.source instr.param]).mergeSort patch_le } }
  | apply_residual {block : DataBlock} {data : Bytes}
      (found : s.data_blocks[instr.target]? = some block)
      (applied : block.residuals.foldlM apply_patch block.bytes = .ok data) :
      Effect manifest instr s .APPLY_RESIDUAL
        { s with data_blocks := s.data_blocks.insert instr.target { block with bytes := data } }

/-! ## Reading the state -/

section Reading

variable {α : Type} {manifest : Dict} {s s' : VMState} {pc : ℕ} {instr : Instruction}

theorem reading_eq_ok {f : VMState → Except PyError α} {a : α} :
    reading f s = .ok a s' ↔ f s = .ok a ∧ s' = s := by
  unfold reading
  rw [bind_of_ok get_apply]
  exact ofExcept_eq_ok

theorem reading_bind_eq_ok {β : Type} {f : VMState → Except PyError α} {g : α → VM β} {b : β} :
    (reading f >>= g) s = .ok b s' ↔ ∃ a, f s = .ok a ∧ g a s = .ok b s' := by
  unfold reading
  rw [bind_assoc, bind_of_ok get_apply]
  exact ofExcept_bind_eq_ok

@[simp] theorem log_apply {n : ℤ} {opcode : String} {details : List (String × Json)} :
    log n opcode details s = .ok () (s.logged n opcode details) := rfl

theorem lookup_eq_ok {table : TreeMap ℕ α} {key : ℕ} {a : α} :
    lookup table key = .ok a ↔ table[key]? = some a := by
  unfold lookup
  cases table[key]? with
  | none => simp
  | some value => simp

theorem require_eq_ok {e : PyError} {v : Option α} {a : α} : require e v = .ok a ↔ v = some a := by
  cases v with
  | none => simp [require]
  | some value => simp [require]

theorem require_error {α : Type} {v : Option α} {e e' : PyError} (h : require e v = .error e') :
    e' = e := by
  cases v with
  | none => exact (Except.error.inj h).symm
  | some a => cases h

theorem mem_iff_getElem? {table : TreeMap ℕ α} {key : ℕ} :
    key ∈ table ↔ ∃ a, table[key]? = some a := by
  rw [TreeMap.mem_iff_isSome_getElem?, Option.isSome_iff_exists]

theorem getElem?_empty_ne {key : ℕ} {a : α} : (∅ : TreeMap ℕ α)[key]? ≠ some a := by
  rw [TreeMap.getElem?_emptyc]
  exact nofun

theorem node_name_eq_ok {id : ℕ} {name : Json} :
    s.node_name id = .ok name ↔ ∃ node, s.node_table[id]? = some node ∧ node.name = name := by
  simp only [VMState.node_name, Bogbin.bind_eq_ok, lookup_eq_ok, Except.ok.injEq]

theorem claim_name_eq_ok {id : ℕ} {name : Json} :
    s.claim_name id = .ok name ↔ ∃ claim, s.claim_table[id]? = some claim ∧ claim.name = name := by
  simp only [VMState.claim_name, Bogbin.bind_eq_ok, lookup_eq_ok, Except.ok.injEq]

theorem mem_of_node_name {id : ℕ} {name : Json} (h : s.node_name id = .ok name) :
    id ∈ s.node_table := by
  obtain ⟨node, hnode, -⟩ := node_name_eq_ok.mp h
  exact mem_iff_getElem?.mpr ⟨node, hnode⟩

theorem mem_of_claim_name {id : ℕ} {name : Json} (h : s.claim_name id = .ok name) :
    id ∈ s.claim_table := by
  obtain ⟨claim, hclaim, -⟩ := claim_name_eq_ok.mp h
  exact mem_iff_getElem?.mpr ⟨claim, hclaim⟩

theorem block_of_bind_eq_ok {g : DataBlock → VM α} {a : α} :
    (block_of instr >>= g) s = .ok a s' ↔
      ∃ block, s.data_blocks[instr.target]? = some block ∧ g block s = .ok a s' := by
  unfold block_of
  simp only [reading_bind_eq_ok, require_eq_ok]

end Reading

/-! ## The opcodes -/

section Opcodes

variable {manifest : Dict} {pc : ℕ} {instr : Instruction} {s s' : VMState} {u : Unit}

/-- An instruction with this effect, which has logged an event. -/
def Executed (manifest : Dict) (instr : Instruction) (op : Op) (s s' : VMState) : Prop :=
  ∃ s₁ n opcode details, Effect manifest instr s op s₁ ∧ s' = VMState.logged s₁ n opcode details

theorem executed {op : Op} {s₁ : VMState} {n : ℤ} {opcode : String} {details : List (String × Json)}
    (h : Effect manifest instr s op s₁) (hlog : log n opcode details s₁ = .ok u s') :
    Executed manifest instr op s s' := by
  obtain ⟨-, rfl⟩ := EStateM.Result.ok.inj hlog
  exact ⟨s₁, _, _, _, h, rfl⟩

theorem create_node_ok (h : create_node manifest pc instr s = .ok u s') :
    Executed manifest instr .CREATE_NODE s s' := by
  unfold create_node at h
  obtain ⟨name, hname, h⟩ := ofExcept_bind_eq_ok.mp h
  rw [bind_of_ok (modify_apply _)] at h
  exact executed (.create_node hname) h

theorem create_edge_ok (h : create_edge pc instr s = .ok u s') :
    Executed manifest instr .CREATE_EDGE s s' := by
  unfold create_edge at h
  rw [bind_of_ok get_apply] at h
  split_ifs at h with hnodes
  · cases h
  simp only [Bool.or_eq_true, Bool.not_eq_true', not_or, Bool.not_eq_false,
    TreeMap.contains_iff_mem] at hnodes
  obtain ⟨type, htype, h⟩ := ofExcept_bind_eq_ok.mp h
  rw [bind_of_ok (modify_apply _)] at h
  obtain ⟨source, -, h⟩ := reading_bind_eq_ok.mp h
  obtain ⟨target, -, h⟩ := reading_bind_eq_ok.mp h
  exact executed (.create_edge hnodes.1 hnodes.2 (require_eq_ok.mp htype)) h

theorem create_claim_ok (h : create_claim manifest pc instr s = .ok u s') :
    Executed manifest instr .CREATE_CLAIM s s' := by
  unfold create_claim at h
  obtain ⟨name, hname, h⟩ := ofExcept_bind_eq_ok.mp h
  rw [bind_of_ok (modify_apply _)] at h
  obtain ⟨source, hsource, h⟩ := reading_bind_eq_ok.mp h
  obtain ⟨target, htarget, h⟩ := reading_bind_eq_ok.mp h
  exact executed (.create_claim (mem_of_node_name hsource) (mem_of_node_name htarget) hname) h

theorem activate_ok (h : activate pc instr s = .ok u s') :
    Executed manifest instr .ACTIVATE s s' := by
  unfold activate at h
  rw [bind_of_ok get_apply] at h
  split_ifs at h with hnode hstrength
  · cases h
  · cases h
  rw [Bool.not_eq_true', Bool.not_eq_false, TreeMap.contains_iff_mem] at hnode
  rw [bind_of_ok (modify_apply _)] at h
  obtain ⟨name, -, h⟩ := reading_bind_eq_ok.mp h
  exact executed (.activate hnode (not_lt.mp hstrength)) h

theorem propagate_ok (h : propagate pc instr s = .ok u s') :
    Executed manifest instr .PROPAGATE s s' := by
  unfold propagate at h
  obtain ⟨type, htype, h⟩ := ofExcept_bind_eq_ok.mp h
  rw [bind_of_ok get_apply] at h
  obtain ⟨⟨cumulative, total_energy, reached⟩, hticks, h⟩ := ofExcept_bind_eq_ok.mp h
  dsimp only at h
  rw [bind_of_ok (modify_apply _)] at h
  obtain ⟨source, -, h⟩ := reading_bind_eq_ok.mp h
  obtain ⟨names, -, h⟩ := reading_bind_eq_ok.mp h
  exact executed (.propagate (require_eq_ok.mp htype) hticks) h

theorem decay_ok (h : decay pc instr s = .ok u s') : Executed manifest instr .DECAY s s' := by
  unfold decay at h
  split_ifs at h with hfactor
  · cases h
  rw [bind_of_ok (modify_apply _)] at h
  exact executed (.decay (not_lt.mp hfactor)) h

theorem interfere_ok (h : interfere pc instr s = .ok u s') :
    Executed manifest instr .INTERFERE s s' := by
  unfold interfere at h
  obtain ⟨claim, hclaim, h⟩ := reading_bind_eq_ok.mp h
  obtain ⟨pressure, hpressure, h⟩ := reading_bind_eq_ok.mp h
  rw [bind_of_ok (modify_apply _)] at h
  obtain ⟨name, -, h⟩ := reading_bind_eq_ok.mp h
  exact executed (.interfere (lookup_eq_ok.mp hclaim) hpressure) h

theorem compute_tension_ok (h : compute_tension pc instr s = .ok u s') :
    Executed manifest instr .COMPUTE_TENSION s s' := by
  unfold compute_tension at h
  rw [bind_of_ok get_apply, bind_of_ok (modify_apply _)] at h
  obtain ⟨name, hname, h⟩ := reading_bind_eq_ok.mp h
  exact executed (.compute_tension (mem_of_claim_name hname)) h

theorem verify_ok (h : verify pc instr s = .ok u s') : Executed manifest instr .VERIFY s s' := by
  unfold verify at h
  obtain ⟨status, hstatus, h⟩ := reading_bind_eq_ok.mp h
  rw [bind_of_ok (modify_apply _)] at h
  obtain ⟨name, -, h⟩ := reading_bind_eq_ok.mp h
  exact executed (.verify hstatus) h

theorem accept_ok (h : accept pc instr s = .ok u s') : Executed manifest instr .ACCEPT s s' := by
  unfold accept at h
  rw [bind_of_ok get_apply] at h
  split_ifs at h with hrejected hverified
  · unfold repair_rejected_claim at h
    rw [bind_of_ok (modify_apply _), bind_of_ok get_apply] at h
    obtain ⟨name, hname, h⟩ := reading_bind_eq_ok.mp h
    exact executed (.repair (mem_of_claim_name hname) hrejected) h
  · obtain ⟨name, s₁, -, h⟩ := StateExcept.bind_eq_ok.mp h
    cases h
  · rw [bind_of_ok (modify_apply _)] at h
    obtain ⟨name, hname, h⟩ := reading_bind_eq_ok.mp h
    exact executed (.accept (mem_of_claim_name hname) (not_not.mp hverified)) h

theorem reject_ok (h : reject pc instr s = .ok u s') : Executed manifest instr .REJECT s s' := by
  unfold reject at h
  rw [bind_of_ok (modify_apply _)] at h
  obtain ⟨name, hname, h⟩ := reading_bind_eq_ok.mp h
  exact executed (.reject (mem_of_claim_name hname)) h

theorem quarantine_ok (h : quarantine pc instr s = .ok u s') :
    Executed manifest instr .QUARANTINE s s' := by
  unfold quarantine at h
  rw [bind_of_ok (modify_apply _)] at h
  obtain ⟨name, hname, h⟩ := reading_bind_eq_ok.mp h
  exact executed (.quarantine (mem_of_claim_name hname)) h

theorem declare_basis_ok (h : declare_basis manifest pc instr s = .ok u s') :
    Executed manifest instr .DECLARE_BASIS s s' := by
  unfold declare_basis at h
  obtain ⟨value, hvalue, h⟩ := ofExcept_bind_eq_ok.mp h
  cases value with
  | str name =>
    obtain ⟨basis, hbasis, h⟩ := ofExcept_bind_eq_ok.mp h
    rw [bind_of_ok (modify_apply _)] at h
    have hname := Basis.name_of_of_name (require_eq_ok.mp hbasis)
    rw [← hname] at hvalue
    exact executed (.declare_basis hvalue) h
  | _ => cases h

theorem load_coefficients_ok (h : load_coefficients manifest pc instr s = .ok u s') :
    Executed manifest instr .LOAD_COEFFICIENTS s s' := by
  unfold load_coefficients at h
  obtain ⟨name, hname, h⟩ := ofExcept_bind_eq_ok.mp h
  split_ifs at h with hbyte hdelta
  · cases h
  · cases h
  rw [bind_of_ok (modify_apply _)] at h
  exact executed (.load_coefficients hname (not_lt.mp hbyte) (not_lt.mp hdelta)) h

theorem synthesize_ok (h : synthesize pc instr s = .ok u s') :
    Executed manifest instr .SYNTHESIZE s s' := by
  unfold synthesize set_block at h
  obtain ⟨block, hblock, h⟩ := block_of_bind_eq_ok.mp h
  obtain ⟨bytes, hbytes, h⟩ := ofExcept_bind_eq_ok.mp h
  rw [bind_of_ok (modify_apply _)] at h
  exact executed (.synthesize hblock hbytes) h

theorem verify_hash_ok (h : verify_hash manifest pc instr s = .ok u s') :
    Executed manifest instr .VERIFY_HASH s s' := by
  unfold verify_hash at h
  obtain ⟨block, hblock, h⟩ := block_of_bind_eq_ok.mp h
  obtain ⟨expected_hash, hconstant, h⟩ := ofExcept_bind_eq_ok.mp h
  rw [bind_of_ok (modify_apply _)] at h
  exact executed (.verify_hash hblock hconstant) h

theorem accept_data_ok (h : accept_data pc instr s = .ok u s') :
    Executed manifest instr .ACCEPT_DATA s s' := by
  unfold accept_data at h
  obtain ⟨block, hblock, h⟩ := block_of_bind_eq_ok.mp h
  rw [bind_of_ok get_apply] at h
  split_ifs at h with hverified
  · cases h
  rw [bind_of_ok (modify_apply _)] at h
  exact executed (.accept_data hblock (not_not.mp hverified)) h

theorem reject_data_ok (h : reject_data pc instr s = .ok u s') :
    Executed manifest instr .REJECT_DATA s s' := by
  unfold reject_data at h
  obtain ⟨block, hblock, h⟩ := block_of_bind_eq_ok.mp h
  rw [bind_of_ok get_apply] at h
  split_ifs at h with hrejected
  · cases h
  rw [bind_of_ok (modify_apply _)] at h
  exact executed (.reject_data hblock (not_not.mp hrejected)) h

theorem store_residual_ok (h : store_residual pc instr s = .ok u s') :
    Executed manifest instr .STORE_RESIDUAL s s' := by
  unfold store_residual set_block at h
  obtain ⟨block, hblock, h⟩ := block_of_bind_eq_ok.mp h
  split_ifs at h with hoffset hbyte
  · cases h
  · cases h
  rw [bind_of_ok (modify_apply _)] at h
  exact executed (.store_residual hblock (not_le.mp hoffset) (not_lt.mp hbyte)) h

theorem apply_residual_ok (h : apply_residual pc instr s = .ok u s') :
    Executed manifest instr .APPLY_RESIDUAL s s' := by
  unfold apply_residual set_block at h
  obtain ⟨block, hblock, h⟩ := block_of_bind_eq_ok.mp h
  obtain ⟨data, hdata, h⟩ := ofExcept_bind_eq_ok.mp h
  rw [bind_of_ok (modify_apply _)] at h
  exact executed (.apply_residual hblock hdata) h

theorem emit_receipt_ok (h : emit_receipt pc s = .ok u s') :
    Executed manifest instr .EMIT_RECEIPT s s' := by
  unfold emit_receipt at h
  rw [bind_of_ok (modify_apply _)] at h
  exact executed .emit_receipt h

/-- An instruction that does not raise has its effect. -/
theorem execute_ok {op : Op} (h : execute manifest pc instr op s = .ok u s') :
    Executed manifest instr op s s' := by
  cases op with
  | NOOP => exact executed (.silent trivial) h
  | HALT => exact executed (.silent trivial) h
  | CREATE_NODE => exact create_node_ok h
  | CREATE_EDGE => exact create_edge_ok h
  | CREATE_CLAIM => exact create_claim_ok h
  | ACTIVATE => exact activate_ok h
  | PROPAGATE => exact propagate_ok h
  | DECAY => exact decay_ok h
  | INTERFERE => exact interfere_ok h
  | COMPUTE_TENSION => exact compute_tension_ok h
  | VERIFY => exact verify_ok h
  | ACCEPT => exact accept_ok h
  | REJECT => exact reject_ok h
  | QUARANTINE => exact quarantine_ok h
  | LOG_RECEIPT => exact executed (.silent trivial) h
  | EMIT_RECEIPT => exact emit_receipt_ok h
  | DECLARE_BASIS => exact declare_basis_ok h
  | LOAD_COEFFICIENTS => exact load_coefficients_ok h
  | SYNTHESIZE => exact synthesize_ok h
  | VERIFY_HASH => exact verify_hash_ok h
  | ACCEPT_DATA => exact accept_data_ok h
  | STORE_RESIDUAL => exact store_residual_ok h
  | APPLY_RESIDUAL => exact apply_residual_ok h
  | REJECT_DATA => exact reject_data_ok h

end Opcodes

end Bogbin.Vm
