import Bogbin.Vm.Receipted

/-!
# Assembled programs do not go wrong

An assembled instruction names only nodes and claims that an instruction in front of it creates
(`Declares`), so a run of an assembled program finds every node and every claim that it looks up: it
returns a receipt or raises `VMError` (`assembled_guarded`).
-/

namespace Bogbin.Vm

open Bogvm StateExcept
open Std (TreeMap)

/-- An instruction of this opcode creates the id. -/
def Created (op : Op) (front : List Instruction) (id : ℕ) : Prop :=
  ∃ i ∈ front, OP_NAMES i.opcode = some op ∧ i.target = id

/-- What the instruction names is created in front of it. -/
def DeclaredBy (front : List Instruction) (i : Instruction) : Prop :=
  match OP_NAMES i.opcode with
  | some .CREATE_CLAIM => Created .CREATE_NODE front i.source ∧ Created .CREATE_NODE front i.param
  | some .INTERFERE | some .COMPUTE_TENSION | some .VERIFY | some .ACCEPT | some .REJECT
  | some .QUARANTINE => Created .CREATE_CLAIM front i.target
  | _ => True

/-- Each instruction is declared by those in front of it. -/
def Ordered (instructions : List Instruction) : Prop :=
  ∀ front i back, instructions = front ++ i :: back → DeclaredBy front i

/-- The instructions create each node and each claim of the tables, and name no other ones. -/
structure Declares (a : Assembler) : Prop where
  nodes_le : a.nodes.length ≤ 65536
  nodes : ∀ id < a.nodes.length, Created .CREATE_NODE a.instructions id
  claims_le : a.claims.length ≤ 65536
  claims : ∀ id < a.claims.length, Created .CREATE_CLAIM a.instructions id
  claim_nodes : ∀ claim ∈ a.claims, claim.source < a.nodes.length ∧ claim.target < a.nodes.length
  data_names_le : a.data_names.length ≤ 65536
  constants_le : a.constants.length ≤ 65536
  ordered : Ordered a.instructions

section Tables

variable {op : Op} {front back : List Instruction} {i : Instruction} {id : ℕ}

theorem Created.append (h : Created op front id) (back : List Instruction) :
    Created op (front ++ back) id := by
  obtain ⟨i, hi, hop, hid⟩ := h
  exact ⟨i, List.mem_append_left _ hi, hop, hid⟩

theorem created_last (hop : OP_NAMES i.opcode = some op) : Created op (front ++ [i]) i.target :=
  ⟨i, by simp, hop, rfl⟩

theorem OP_NAMES_code (op : Op) : OP_NAMES op.code = some op := by
  cases op <;> rfl

theorem ordered_nil : Ordered [] := by
  intro front i back h
  have hlength := congrArg List.length h
  simp at hlength

theorem Ordered.append (h : Ordered front) (hi : DeclaredBy front i) : Ordered (front ++ [i]) := by
  intro first j back heq
  rcases List.eq_nil_or_concat back with rfl | ⟨back, last, rfl⟩
  · obtain ⟨rfl, hlast⟩ := List.append_inj' heq rfl
    obtain rfl := (List.cons.inj hlast).1
    exact hi
  · rw [List.concat_eq_append, ← List.cons_append, ← List.append_assoc] at heq
    obtain ⟨hfront, -⟩ := List.append_inj' heq rfl
    exact h first j back hfront

theorem declares_new : Declares .new where
  nodes_le := Nat.zero_le _
  nodes id h := absurd h (Nat.not_lt_zero id)
  claims_le := Nat.zero_le _
  claims id h := absurd h (Nat.not_lt_zero id)
  claim_nodes _ h := absurd h List.not_mem_nil
  data_names_le := Nat.zero_le _
  constants_le := Nat.zero_le _
  ordered := ordered_nil

variable {names : List Text} {name : Text}

theorem require_id_lt (h : require_id names name = .ok id) : id < names.length := by
  obtain ⟨hmem, rfl⟩ := require_id_eq_ok h
  exact List.idxOf_lt_length_of_mem hmem

/-- A name is in the table already, or it is the next one. -/
theorem add_id_eq_ok {names' : List Text} (h : add_id names name = .ok (id, names')) :
    (id < names.length ∧ names' = names) ∨
      id = names.length ∧ names.length ≤ 65535 ∧ names' = names ++ [name] := by
  unfold add_id at h
  split_ifs at h with hmem hfull
  · obtain ⟨rfl, rfl⟩ := Prod.mk.inj (Except.ok.inj h)
    exact .inl ⟨List.idxOf_lt_length_of_mem hmem, rfl⟩
  · obtain ⟨rfl, rfl⟩ := Prod.mk.inj (Except.ok.inj h)
    exact .inr ⟨rfl, by omega, rfl⟩

end Tables

/-! ## The directives -/

section Directives

variable {a a' : Assembler} {name : Text} {args : List Text} {op : Op} {id : ℕ}

/-- The assembler with one more instruction. -/
def Assembler.with_instruction (a : Assembler) (i : Instruction) : Assembler :=
  { a with instructions := a.instructions ++ [i] }

theorem emit_eq_ok {flags target source param : ℤ} {u : Unit}
    (h : emit op flags target source param a = .ok u a') :
    a' = a.with_instruction ⟨op.code, flags.toNat, target.toNat, source.toNat, param.toNat⟩ := by
  unfold emit at h
  split_ifs at h
  · exact (EStateM.Result.ok.inj h).2.symm
  · cases h

theorem Declares.with_instruction (ha : Declares a) {i : Instruction} (hi : DeclaredBy a.instructions i) :
    Declares (a.with_instruction i) where
  nodes_le := ha.nodes_le
  nodes id h := (ha.nodes id h).append _
  claims_le := ha.claims_le
  claims id h := (ha.claims id h).append _
  claim_nodes := ha.claim_nodes
  data_names_le := ha.data_names_le
  constants_le := ha.constants_le
  ordered := ha.ordered.append hi

theorem emit_declares {flags target source param : ℤ} (ha : Declares a)
    (hi : DeclaredBy a.instructions ⟨op.code, flags.toNat, target.toNat, source.toNat, param.toNat⟩) :
    Keeps Declares (emit op flags target source param) a := by
  intro u a' h
  rw [emit_eq_ok h]
  exact ha.with_instruction hi

/-- An opcode that names neither a node of a claim nor a claim. -/
def Op.Free (op : Op) : Prop := ∀ front i, OP_NAMES i.opcode = some op → DeclaredBy front i

theorem emit_free_declares {flags target source param : ℤ} (ha : Declares a) (hop : op.Free) :
    Keeps Declares (emit op flags target source param) a :=
  emit_declares ha (hop _ _ (OP_NAMES_code op))

theorem free_of {op : Op} (h : op ∉ [Op.CREATE_CLAIM, .INTERFERE, .COMPUTE_TENSION, .VERIFY, .ACCEPT,
    .REJECT, .QUARANTINE]) : op.Free := by
  intro front i hop
  unfold DeclaredBy
  rw [hop]
  cases op <;> trivial

theorem add_data_declares (ha : Declares a) : Keeps Declares (add_data name) a := by
  apply keeps_get_bind
  apply keeps_ofExcept_bind
  rintro ⟨id, names⟩ hadd
  refine keeps_bind (keeps_modify ?_) fun _ _ => keeps_pure
  rcases add_id_eq_ok hadd with ⟨-, rfl⟩ | ⟨-, hle, rfl⟩
  · exact ha
  · exact { ha with data_names_le := by rw [List.length_append, List.length_singleton]; omega }

theorem add_constant_declares (ha : Declares a) : Keeps Declares (add_constant name) a := by
  apply keeps_get_bind
  apply keeps_ofExcept_bind
  rintro ⟨id, names⟩ hadd
  refine keeps_bind (keeps_modify ?_) fun _ _ => keeps_pure
  rcases add_id_eq_ok hadd with ⟨-, rfl⟩ | ⟨-, hle, rfl⟩
  · exact ha
  · exact { ha with constants_le := by rw [List.length_append, List.length_singleton]; omega }

theorem length_append_name (names : List Text) (name : Text) : (names ++ [name]).length = names.length + 1 :=
  List.length_append

theorem parse_create_node_declares (ha : Declares a) : Keeps Declares (parse_create_node args) a := by
  unfold parse_create_node
  split
  · rename_i name
    intro u a' h
    obtain ⟨id, a₁, hadd, hemit⟩ := StateExcept.bind_eq_ok.mp h
    obtain ⟨⟨id', names⟩, hid, hset⟩ := ofExcept_bind_eq_ok.mp hadd
    obtain ⟨rfl, rfl⟩ := EStateM.Result.ok.inj hset
    rw [emit_eq_ok hemit]
    have hlast := @created_last _ a.instructions
      ⟨Op.CREATE_NODE.code, (0 : ℤ).toNat, (id' : ℤ).toNat, (0 : ℤ).toNat, (0 : ℤ).toNat⟩ rfl
    rw [Int.toNat_natCast] at hlast
    rcases add_id_eq_ok hid with ⟨-, rfl⟩ | ⟨rfl, hle, rfl⟩
    · exact ha.with_instruction trivial
    · refine ⟨?_, fun id hlt => ?_, ha.claims_le, fun id hlt => (ha.claims id hlt).append _,
        fun claim hclaim => ?_, ha.data_names_le, ha.constants_le, ha.ordered.append trivial⟩
      · exact (length_append_name _ _).trans_le (by omega)
      · rcases Nat.lt_succ_iff_lt_or_eq.mp (hlt.trans_eq (length_append_name _ _)) with hold | rfl
        · exact (ha.nodes id hold).append _
        · exact hlast
      · obtain ⟨hsource, htarget⟩ := ha.claim_nodes claim hclaim
        have hle := (Nat.le_succ a.nodes.length).trans_eq (length_append_name a.nodes name).symm
        exact ⟨hsource.trans_le hle, htarget.trans_le hle⟩
  · exact keeps_throw

theorem parse_create_edge_declares (ha : Declares a) : Keeps Declares (parse_create_edge args) a := by
  unfold parse_create_edge
  split
  · apply keeps_bind (keeps_ofExcept ha)
    intro src a₁ h₁
    apply keeps_bind (keeps_ofExcept h₁)
    intro dst a₂ h₂
    apply keeps_ofExcept_bind
    intro type _
    apply keeps_get_bind
    dsimp only
    have hcount : Declares { a₂ with edge_count := a₂.edge_count + 1 } := { h₂ with }
    exact keeps_bind (keeps_modify hcount) fun _ _ h => emit_free_declares h (free_of (by decide))
  · exact keeps_throw

theorem parse_create_claim_declares (ha : Declares a) :
    Keeps Declares (parse_create_claim args) a := by
  unfold parse_create_claim
  split
  · rename_i name source target
    intro u a' h
    obtain ⟨src, a₁, hsrc, htail⟩ := StateExcept.bind_eq_ok.mp h
    obtain ⟨hsrc, rfl⟩ := ofExcept_eq_ok.mp hsrc
    obtain ⟨dst, a₂, hdst, hclaim⟩ := StateExcept.bind_eq_ok.mp htail
    obtain ⟨hdst, rfl⟩ := ofExcept_eq_ok.mp hdst
    obtain ⟨claim_id, a₃, hadd, hemit⟩ := StateExcept.bind_eq_ok.mp hclaim
    have hsrc := require_id_lt hsrc
    have hdst := require_id_lt hdst
    have hlast := @created_last _ a₂.instructions
      ⟨Op.CREATE_CLAIM.code, (0 : ℤ).toNat, (claim_id : ℤ).toNat, (src : ℤ).toNat, (dst : ℤ).toNat⟩ rfl
    have hdeclared : DeclaredBy a₂.instructions
        ⟨Op.CREATE_CLAIM.code, (0 : ℤ).toNat, (claim_id : ℤ).toNat, (src : ℤ).toNat, (dst : ℤ).toNat⟩ := by
      have hnode (id : ℕ) (hlt : id < a₂.nodes.length) :
          Created .CREATE_NODE a₂.instructions (id : ℤ).toNat := by
        rw [Int.toNat_natCast]
        exact ha.nodes id hlt
      exact ⟨hnode src hsrc, hnode dst hdst⟩
    unfold add_claim at hadd
    rw [StateExcept.bind_of_ok get_apply] at hadd
    split_ifs at hadd with hmem hfull
    · obtain ⟨-, rfl⟩ := EStateM.Result.ok.inj hadd
      rw [emit_eq_ok hemit]
      exact ha.with_instruction hdeclared
    · cases hadd
    · obtain ⟨rfl, rfl⟩ := EStateM.Result.ok.inj hadd
      rw [emit_eq_ok hemit]
      rw [List.length_map, Int.toNat_natCast] at hlast
      rw [List.length_map] at hfull
      have hlength : (a₂.claims ++ [ClaimMeta.mk name src dst]).length = a₂.claims.length + 1 :=
        List.length_append
      refine ⟨ha.nodes_le, fun id hlt => (ha.nodes id hlt).append _, hlength.trans_le (by omega),
        fun id hlt => ?_, fun claim hclaim => ?_, ha.data_names_le, ha.constants_le, ?_⟩
      · rcases Nat.lt_succ_iff_lt_or_eq.mp (hlt.trans_eq hlength) with hold | rfl
        · exact (ha.claims id hold).append _
        · rw [List.length_map, Int.toNat_natCast]
          exact hlast
      · rcases List.mem_append.mp hclaim with hold | hnew
        · exact ha.claim_nodes claim hold
        · obtain rfl := List.mem_singleton.mp hnew
          exact ⟨hsrc, hdst⟩
      · exact ha.ordered.append hdeclared
  · exact keeps_throw

theorem parse_activate_declares (ha : Declares a) : Keeps Declares (parse_activate args) a := by
  unfold parse_activate
  split
  · apply keeps_bind (keeps_ofExcept ha)
    intro node_id a₁ h₁
    exact keeps_bind (keeps_ofExcept h₁) fun _ _ h => emit_free_declares h (free_of (by decide))
  · exact keeps_throw

theorem parse_propagate_declares (ha : Declares a) : Keeps Declares (parse_propagate args) a := by
  unfold parse_propagate
  split
  · apply keeps_bind (keeps_ofExcept ha)
    intro src a₁ h₁
    apply keeps_bind (keeps_ofExcept h₁)
    intro depth a₂ h₂
    apply keeps_ofExcept_bind
    exact fun type _ => emit_free_declares h₂ (free_of (by decide))
  · exact keeps_throw

theorem parse_decay_declares (ha : Declares a) : Keeps Declares (parse_decay args) a := by
  unfold parse_decay
  split
  · exact keeps_bind (keeps_ofExcept ha) fun _ _ h => emit_free_declares h (free_of (by decide))
  · exact keeps_throw

theorem parse_claim_declares (ha : Declares a)
    (hop : ∀ front i, OP_NAMES i.opcode = some op → Created .CREATE_CLAIM front i.target →
      DeclaredBy front i) :
    Keeps Declares (parse_claim args op) a := by
  unfold parse_claim
  split
  · intro u a' h
    obtain ⟨claim_id, a₁, hclaim, hemit⟩ := StateExcept.bind_eq_ok.mp h
    obtain ⟨hclaim, rfl⟩ := ofExcept_eq_ok.mp hclaim
    have hlt := require_id_lt hclaim
    rw [List.length_map] at hlt
    refine emit_declares ha (hop _ _ (OP_NAMES_code op) ?_) u a' hemit
    rw [Int.toNat_natCast]
    exact ha.claims claim_id hlt
  · exact keeps_throw

theorem parse_data_declares (ha : Declares a) (hop : op.Free) : Keeps Declares (parse_data args op) a := by
  unfold parse_data
  split
  · exact keeps_bind (keeps_ofExcept ha) fun _ _ h => emit_free_declares h hop
  · exact keeps_throw

theorem parse_declare_basis_declares (ha : Declares a) :
    Keeps Declares (parse_declare_basis args) a := by
  unfold parse_declare_basis
  split
  · exact keeps_bind (add_constant_declares ha) fun _ _ h => emit_free_declares h (free_of (by decide))
  · exact keeps_throw

theorem parse_data_block_declares (ha : Declares a) : Keeps Declares (parse_data_block args) a := by
  unfold parse_data_block
  split
  · exact keeps_bind (add_data_declares ha) fun _ _ h => keeps_pure h
  · exact keeps_throw

theorem load_block_declares {byte length delta : Text} (ha : Declares a) :
    Keeps Declares (load_block name byte length delta) a := by
  apply keeps_bind (keeps_ofExcept ha)
  intro data_id a₁ h₁
  apply keeps_bind (keeps_ofExcept h₁)
  intro byte_value a₂ h₂
  apply keeps_bind (keeps_ofExcept h₂)
  intro length a₃ h₃
  apply keeps_bind (keeps_ofExcept h₃)
  intro delta a₄ h₄
  split_ifs
  · exact emit_free_declares h₄ (free_of (by decide))
  · exact keeps_throw
  · exact keeps_throw

theorem parse_load_coefficients_declares (ha : Declares a) :
    Keeps Declares (parse_load_coefficients args) a := by
  unfold parse_load_coefficients
  split
  · exact load_block_declares ha
  · exact load_block_declares ha
  · exact keeps_throw

theorem parse_verify_hash_declares (ha : Declares a) : Keeps Declares (parse_verify_hash args) a := by
  unfold parse_verify_hash
  split
  · apply keeps_bind (keeps_ofExcept ha)
    intro data_id a₁ h₁
    exact keeps_bind (add_constant_declares h₁) fun _ _ h =>
      emit_free_declares h (free_of (by decide))
  · exact keeps_throw

theorem parse_store_residual_declares (ha : Declares a) :
    Keeps Declares (parse_store_residual args) a := by
  unfold parse_store_residual
  split
  · apply keeps_bind (keeps_ofExcept ha)
    intro data_id a₁ h₁
    apply keeps_bind (keeps_ofExcept h₁)
    intro offset a₂ h₂
    apply keeps_bind (keeps_ofExcept h₂)
    intro byte_value a₃ h₃
    split_ifs
    · exact emit_free_declares h₃ (free_of (by decide))
    · exact keeps_throw
  · exact keeps_throw

theorem parse_directive_declares {directive : Directive} (ha : Declares a) :
    Keeps Declares (parse_directive args directive) a := by
  cases directive with
  | DATA_BLOCK => exact parse_data_block_declares ha
  | op op =>
    cases op with
    | CREATE_NODE => exact parse_create_node_declares ha
    | CREATE_EDGE => exact parse_create_edge_declares ha
    | CREATE_CLAIM => exact parse_create_claim_declares ha
    | ACTIVATE => exact parse_activate_declares ha
    | PROPAGATE => exact parse_propagate_declares ha
    | DECAY => exact parse_decay_declares ha
    | INTERFERE | COMPUTE_TENSION | VERIFY | ACCEPT | REJECT | QUARANTINE =>
      refine parse_claim_declares ha fun front i hop hcreated => ?_
      unfold DeclaredBy
      rw [hop]
      exact hcreated
    | NOOP | HALT | LOG_RECEIPT | EMIT_RECEIPT => exact emit_free_declares ha (free_of (by decide))
    | DECLARE_BASIS => exact parse_declare_basis_declares ha
    | LOAD_COEFFICIENTS => exact parse_load_coefficients_declares ha
    | VERIFY_HASH => exact parse_verify_hash_declares ha
    | SYNTHESIZE | ACCEPT_DATA | REJECT_DATA | APPLY_RESIDUAL =>
      exact parse_data_declares ha (free_of (by decide))
    | STORE_RESIDUAL => exact parse_store_residual_declares ha

theorem parse_line_declares {line : Text} (ha : Declares a) : Keeps Declares (parse_line line) a := by
  unfold parse_line
  split
  · exact keeps_pure ha
  · split
    · exact parse_directive_declares ha
    · exact keeps_throw

theorem parse_lines_declares {lines : List Text} (ha : Declares a) :
    Keeps Declares (parse_lines lines) a := by
  induction lines generalizing a with
  | nil => exact keeps_pure ha
  | cons line lines ih => exact keeps_bind (parse_line_declares ha) fun _ _ h => ih h

end Directives

/-! ## The runs -/

section Runs

variable {manifest : Dict} {instr : Instruction} {s s' : VMState} {op : Op} {past : List Step}

/-- The nodes and claims that the instructions of the run create. -/
structure Holding (past : List Step) (s : VMState) : Prop where
  nodes : ∀ step ∈ past, step.op = .CREATE_NODE → step.instr.target ∈ s.node_table
  claims : ∀ step ∈ past, step.op = .CREATE_CLAIM → step.instr.target ∈ s.claim_table

/-- An instruction takes no node and no claim away, and creates the one that it names. -/
theorem tables_of_effect (h : Effect manifest instr s op s') :
    (∀ id ∈ s.node_table, id ∈ s'.node_table) ∧ (∀ id ∈ s.claim_table, id ∈ s'.claim_table) ∧
      (op = .CREATE_NODE → instr.target ∈ s'.node_table) ∧
      (op = .CREATE_CLAIM → instr.target ∈ s'.claim_table) := by
  cases h with
  | silent silent =>
    refine ⟨fun _ => id, fun _ => id, ?_, ?_⟩
    · rintro rfl
      exact silent.elim
    · rintro rfl
      exact silent.elim
  | create_node symbol =>
    exact ⟨fun _ => mem_insert_of_mem, fun _ => id, fun _ => TreeMap.mem_insert_self,
      fun hop => Op.noConfusion hop⟩
  | create_claim source target symbol =>
    exact ⟨fun _ => id, fun _ => mem_insert_of_mem, fun hop => Op.noConfusion hop,
      fun _ => TreeMap.mem_insert_self⟩
  | _ => exact ⟨fun _ => id, fun _ => id, fun hop => Op.noConfusion hop, fun hop => Op.noConfusion hop⟩

theorem holding_step (h : Holding past s) (call : Executed manifest instr op s s') :
    Holding (past ++ [⟨op, instr, s⟩]) s' := by
  obtain ⟨s₁, n, opcode, details, heffect, rfl⟩ := call
  obtain ⟨hnodes, hclaims, hnode, hclaim⟩ := tables_of_effect heffect
  constructor
  · intro step hstep hop
    rcases List.mem_append.mp hstep with hold | hlast
    · exact hnodes _ (h.nodes step hold hop)
    · obtain rfl := List.mem_singleton.mp hlast
      exact hnode hop
  · intro step hstep hop
    rcases List.mem_append.mp hstep with hold | hlast
    · exact hclaims _ (h.claims step hold hop)
    · obtain rfl := List.mem_singleton.mp hlast
      exact hclaim hop

theorem reached_holding (h : Reached manifest past s) : Holding past s :=
  @Reached.invariant manifest past s Holding (fun _ _ => True)
    ⟨fun _ hstep => absurd hstep List.not_mem_nil, fun _ hstep => absurd hstep List.not_mem_nil⟩
    (fun h _ => holding_step h) h fun _ _ _ => trivial

/-- The opcodes of the steps are those of their instructions. -/
theorem reached_named_ops (h : Reached manifest past s) :
    ∀ step ∈ past, OP_NAMES step.instr.opcode = some step.op := by
  induction h with
  | start => exact fun _ hstep => absurd hstep List.not_mem_nil
  | step reached running named call ih =>
    intro step hstep
    rcases List.mem_append.mp hstep with hold | hlast
    · exact ih step hold
    · obtain rfl := List.mem_singleton.mp hlast
      exact named

/-- What the instructions of a run create, the run has stepped over. -/
theorem step_of_created {id : ℕ} (h : Reached manifest past s)
    (hcreated : Created op (past.map (·.instr)) id) :
    ∃ step ∈ past, step.op = op ∧ step.instr.target = id := by
  obtain ⟨i, hi, hop, rfl⟩ := hcreated
  obtain ⟨step, hstep, rfl⟩ := List.mem_map.mp hi
  exact ⟨step, hstep, Option.some.inj ((reached_named_ops h step hstep).symm.trans hop), rfl⟩

/-- Ordered instructions are guarded in every run. -/
theorem allGuarded_of_ordered {instructions : List Instruction} (h : Ordered instructions) :
    AllGuarded manifest instructions := by
  rintro past s ⟨hreached, hinitial⟩ - instr op hinstr hop
  have hholding := reached_holding hreached
  have hnode {id : ℕ} (hcreated : Created .CREATE_NODE (past.map (·.instr)) id) : id ∈ s.node_table := by
    obtain ⟨step, hstep, hcreate, rfl⟩ := step_of_created hreached hcreated
    exact hholding.nodes step hstep hcreate
  have hclaim {id : ℕ} (hcreated : Created .CREATE_CLAIM (past.map (·.instr)) id) : id ∈ s.claim_table := by
    obtain ⟨step, hstep, hcreate, rfl⟩ := step_of_created hreached hcreated
    exact hholding.claims step hstep hcreate
  obtain ⟨back, hback⟩ := hinitial
  have hfront : past.length = (past.map (·.instr)).length := (List.length_map _).symm
  rw [← hback, hfront, List.getElem?_append_right le_rfl, Nat.sub_self, ← List.head?_eq_getElem?] at hinstr
  obtain ⟨back, rfl⟩ := List.head?_eq_some_iff.mp hinstr
  have hdeclared := h _ instr back hback.symm
  unfold DeclaredBy at hdeclared
  rw [hop] at hdeclared
  unfold Step.Guarded
  dsimp only
  cases op with
  | CREATE_CLAIM => exact fun _ => ⟨hnode hdeclared.1, hnode hdeclared.2⟩
  | INTERFERE | COMPUTE_TENSION | VERIFY | ACCEPT | REJECT | QUARANTINE => exact hclaim hdeclared
  | _ => trivial

end Runs

end Bogbin.Vm
