import Bogbin.Vm.Assembler
import Bogbin.Vm.Effect

/-!
# The exceptions of the assembler

`int` raises `ValueError` and the edge type of `PROPAGATE` is looked up without a check.  A text
whose lines are `Convertible` gives a program or raises `AssemblerError`.
-/

namespace Bogbin.Vm

open Bogvm StateExcept

/-- The texts of numbers. -/
def Ints (texts : List Text) : Prop := ∀ text ∈ texts, ∃ n, int text = .ok n

/-- The numbers and the edge type of a line are valid, where the line gets as far as to read them. -/
def Convertible (a : Assembler) (directive : Directive) (args : List Text) : Prop :=
  match directive, args with
  | .op .ACTIVATE, [node, strength] => node ∈ a.nodes → Ints [strength]
  | .op .PROPAGATE, [source, edge_type, depth] =>
    source ∈ a.nodes → Ints [depth] ∧ EDGE_TYPES (lower edge_type) ≠ none
  | .op .DECAY, [factor] => Ints [factor]
  | .op .LOAD_COEFFICIENTS, [name, byte, length] => name ∈ a.data_names → Ints [byte, length]
  | .op .LOAD_COEFFICIENTS, [name, byte, length, delta] =>
    name ∈ a.data_names → Ints [byte, length, delta]
  | .op .STORE_RESIDUAL, [name, offset, byte] => name ∈ a.data_names → Ints [offset, byte]
  | _, _ => True

section Errors

variable {a : Assembler} {name : Text} {args : List Text} {e : PyError}

theorem int_error {text : Text} (h : int text = .error e) : e = .ValueError := by
  unfold int at h
  dsimp only at h
  split at h
  · exact (Except.error.inj h).symm
  · split_ifs at h
    exact (Except.error.inj h).symm

theorem int_raises {text : Text} (h : ∃ n, int text = .ok n) (e' : PyError)
    (herror : int text = .error e') : e' = e := by
  obtain ⟨n, hn⟩ := h
  rw [hn] at herror
  cases herror

theorem require_id_error {names : List Text} (h : require_id names name = .error e) :
    e = .AssemblerError := by
  unfold require_id at h
  split_ifs at h
  exact (Except.error.inj h).symm

theorem add_id_error {names : List Text} (h : add_id names name = .error e) :
    e = .AssemblerError := by
  unfold add_id at h
  split_ifs at h
  exact (Except.error.inj h).symm

theorem require_node_raises : RaisesOnly .AssemblerError (require_node name) a :=
  raisesOnly_ofExcept fun _ => require_id_error

theorem require_data_raises : RaisesOnly .AssemblerError (require_data name) a :=
  raisesOnly_ofExcept fun _ => require_id_error

theorem require_claim_raises : RaisesOnly .AssemblerError (require_claim name) a :=
  raisesOnly_ofExcept fun _ => require_id_error

theorem emit_raises {op : Op} {flags target source param : ℤ} :
    RaisesOnly .AssemblerError (emit op flags target source param) a := by
  unfold emit
  split_ifs
  · exact raisesOnly_of_ends ⟨(), _, modify_apply _⟩
  · exact raisesOnly_throw

theorem require_id_eq_ok {names : List Text} {id : ℕ} (h : require_id names name = .ok id) :
    name ∈ names ∧ id = names.idxOf name := by
  unfold require_id at h
  split_ifs at h with hmem
  exact ⟨hmem, (Except.ok.inj h).symm⟩

theorem require_node_eq_ok {id : ℕ} {a' : Assembler} (h : require_node name a = .ok id a') :
    name ∈ a.nodes ∧ a' = a := by
  obtain ⟨hid, hs⟩ := ofExcept_eq_ok.mp h
  exact ⟨(require_id_eq_ok hid).1, hs⟩

theorem require_data_eq_ok {id : ℕ} {a' : Assembler} (h : require_data name a = .ok id a') :
    name ∈ a.data_names ∧ a' = a := by
  obtain ⟨hid, hs⟩ := ofExcept_eq_ok.mp h
  exact ⟨(require_id_eq_ok hid).1, hs⟩

theorem add_constant_raises : RaisesOnly .AssemblerError (add_constant name) a := by
  apply raisesOnly_get_bind
  apply raisesOnly_bind
  · exact raisesOnly_ofExcept fun _ => add_id_error
  · exact fun _ _ _ => raisesOnly_of_ends ⟨_, _, rfl⟩

theorem add_data_raises : RaisesOnly .AssemblerError (add_data name) a := by
  apply raisesOnly_get_bind
  apply raisesOnly_bind
  · exact raisesOnly_ofExcept fun _ => add_id_error
  · exact fun _ _ _ => raisesOnly_of_ends ⟨_, _, rfl⟩

theorem add_node_raises : RaisesOnly .AssemblerError (add_node name) a := by
  apply raisesOnly_get_bind
  apply raisesOnly_bind
  · exact raisesOnly_ofExcept fun _ => add_id_error
  · exact fun _ _ _ => raisesOnly_of_ends ⟨_, _, rfl⟩

theorem add_claim_raises {source target : ℕ} :
    RaisesOnly .AssemblerError (add_claim name source target) a := by
  apply raisesOnly_get_bind
  dsimp only
  split_ifs
  · exact raisesOnly_of_ends ⟨_, _, rfl⟩
  · exact raisesOnly_throw
  · exact raisesOnly_of_ends ⟨_, _, rfl⟩

/-! ## The directives that convert nothing -/

theorem parse_create_node_raises : RaisesOnly .AssemblerError (parse_create_node args) a := by
  unfold parse_create_node
  split
  · apply raisesOnly_bind add_node_raises
    exact fun _ _ _ => emit_raises
  · exact raisesOnly_throw

theorem parse_create_edge_raises : RaisesOnly .AssemblerError (parse_create_edge args) a := by
  unfold parse_create_edge
  split
  · apply raisesOnly_bind require_node_raises
    intro src a₁ _
    apply raisesOnly_bind require_node_raises
    intro dst a₂ _
    apply raisesOnly_bind
    · exact raisesOnly_ofExcept fun _ => require_error
    intro type a₃ _
    apply raisesOnly_get_bind
    apply raisesOnly_bind
    · exact raisesOnly_of_ends ⟨_, _, rfl⟩
    · exact fun _ _ _ => emit_raises
  · exact raisesOnly_throw

theorem parse_create_claim_raises : RaisesOnly .AssemblerError (parse_create_claim args) a := by
  unfold parse_create_claim
  split
  · apply raisesOnly_bind require_node_raises
    intro src a₁ _
    apply raisesOnly_bind require_node_raises
    intro dst a₂ _
    apply raisesOnly_bind add_claim_raises
    exact fun _ _ _ => emit_raises
  · exact raisesOnly_throw

theorem parse_claim_raises {op : Op} : RaisesOnly .AssemblerError (parse_claim args op) a := by
  unfold parse_claim
  split
  · apply raisesOnly_bind require_claim_raises
    exact fun _ _ _ => emit_raises
  · exact raisesOnly_throw

theorem parse_data_raises {op : Op} : RaisesOnly .AssemblerError (parse_data args op) a := by
  unfold parse_data
  split
  · apply raisesOnly_bind require_data_raises
    exact fun _ _ _ => emit_raises
  · exact raisesOnly_throw

theorem parse_declare_basis_raises : RaisesOnly .AssemblerError (parse_declare_basis args) a := by
  unfold parse_declare_basis
  split
  · apply raisesOnly_bind add_constant_raises
    exact fun _ _ _ => emit_raises
  · exact raisesOnly_throw

theorem parse_data_block_raises : RaisesOnly .AssemblerError (parse_data_block args) a := by
  unfold parse_data_block
  split
  · apply raisesOnly_bind add_data_raises
    exact fun _ _ _ => raisesOnly_of_ends ⟨_, _, rfl⟩
  · exact raisesOnly_throw

theorem parse_verify_hash_raises : RaisesOnly .AssemblerError (parse_verify_hash args) a := by
  unfold parse_verify_hash
  split
  · apply raisesOnly_bind require_data_raises
    intro data_id a₁ _
    apply raisesOnly_bind add_constant_raises
    exact fun _ _ _ => emit_raises
  · exact raisesOnly_throw

/-! ## The directives that convert numbers -/

theorem int_raisesOnly {text : Text} (h : ∃ n, int text = .ok n) :
    RaisesOnly .AssemblerError (MonadExcept.ofExcept (int text) : Asm ℤ) a :=
  raisesOnly_ofExcept (int_raises h)

theorem parse_activate_raises (h : Convertible a (.op .ACTIVATE) args) :
    RaisesOnly .AssemblerError (parse_activate args) a := by
  unfold parse_activate
  split
  · apply raisesOnly_bind require_node_raises
    intro node_id a₁ hnode
    obtain ⟨hmem, rfl⟩ := require_node_eq_ok hnode
    apply raisesOnly_bind
    · exact int_raisesOnly (h hmem _ (by simp))
    · exact fun _ _ _ => emit_raises
  · exact raisesOnly_throw

theorem parse_propagate_raises (h : Convertible a (.op .PROPAGATE) args) :
    RaisesOnly .AssemblerError (parse_propagate args) a := by
  unfold parse_propagate
  split
  · apply raisesOnly_bind require_node_raises
    intro src a₁ hnode
    obtain ⟨hmem, rfl⟩ := require_node_eq_ok hnode
    obtain ⟨hints, htype⟩ := h hmem
    apply raisesOnly_bind
    · exact int_raisesOnly (hints _ (by simp))
    intro depth a₂ _
    apply raisesOnly_bind
    · apply raisesOnly_ofExcept
      intro e' herror
      obtain ⟨type, htype⟩ := Option.ne_none_iff_exists'.mp htype
      rw [htype] at herror
      cases herror
    · exact fun _ _ _ => emit_raises
  · exact raisesOnly_throw

theorem parse_decay_raises (h : Convertible a (.op .DECAY) args) :
    RaisesOnly .AssemblerError (parse_decay args) a := by
  unfold parse_decay
  split
  · apply raisesOnly_bind
    · exact int_raisesOnly (h _ (by simp))
    · exact fun _ _ _ => emit_raises
  · exact raisesOnly_throw

theorem load_block_raises {byte length delta : Text}
    (h : name ∈ a.data_names → Ints [byte, length, delta]) :
    RaisesOnly .AssemblerError (load_block name byte length delta) a := by
  apply raisesOnly_bind require_data_raises
  intro data_id a₁ hdata
  obtain ⟨hmem, rfl⟩ := require_data_eq_ok hdata
  have hints := h hmem
  apply raisesOnly_bind
  · exact int_raisesOnly (hints _ (by simp))
  intro byte_value a₂ _
  apply raisesOnly_bind
  · exact int_raisesOnly (hints _ (by simp))
  intro length a₃ _
  apply raisesOnly_bind
  · exact int_raisesOnly (hints _ (by simp))
  intro delta a₄ _
  split_ifs
  · exact emit_raises
  · exact raisesOnly_throw
  · exact raisesOnly_throw

theorem int_zero : int ['0'] = .ok 0 := rfl

theorem parse_load_coefficients_raises (h : Convertible a (.op .LOAD_COEFFICIENTS) args) :
    RaisesOnly .AssemblerError (parse_load_coefficients args) a := by
  unfold parse_load_coefficients
  split
  · apply load_block_raises
    intro hmem text htext
    rw [List.mem_cons, List.mem_cons, List.mem_singleton] at htext
    rcases htext with rfl | rfl | rfl
    · exact h hmem _ (by simp)
    · exact h hmem _ (by simp)
    · exact ⟨0, int_zero⟩
  · exact load_block_raises h
  · exact raisesOnly_throw

theorem parse_store_residual_raises (h : Convertible a (.op .STORE_RESIDUAL) args) :
    RaisesOnly .AssemblerError (parse_store_residual args) a := by
  unfold parse_store_residual
  split
  · apply raisesOnly_bind require_data_raises
    intro data_id a₁ hdata
    obtain ⟨hmem, rfl⟩ := require_data_eq_ok hdata
    apply raisesOnly_bind
    · exact int_raisesOnly (h hmem _ (by simp))
    intro offset a₂ _
    apply raisesOnly_bind
    · exact int_raisesOnly (h hmem _ (by simp))
    intro byte_value a₃ _
    split_ifs
    · exact emit_raises
    · exact raisesOnly_throw
  · exact raisesOnly_throw

/-- A convertible line raises nothing but `AssemblerError`. -/
theorem parse_directive_raises {directive : Directive} (h : Convertible a directive args) :
    RaisesOnly .AssemblerError (parse_directive args directive) a := by
  cases directive with
  | DATA_BLOCK => exact parse_data_block_raises
  | op op =>
    cases op with
    | CREATE_NODE => exact parse_create_node_raises
    | CREATE_EDGE => exact parse_create_edge_raises
    | CREATE_CLAIM => exact parse_create_claim_raises
    | ACTIVATE => exact parse_activate_raises h
    | PROPAGATE => exact parse_propagate_raises h
    | DECAY => exact parse_decay_raises h
    | INTERFERE | COMPUTE_TENSION | VERIFY | ACCEPT | REJECT | QUARANTINE =>
      exact parse_claim_raises
    | NOOP | HALT | LOG_RECEIPT | EMIT_RECEIPT => exact emit_raises
    | DECLARE_BASIS => exact parse_declare_basis_raises
    | LOAD_COEFFICIENTS => exact parse_load_coefficients_raises h
    | VERIFY_HASH => exact parse_verify_hash_raises
    | SYNTHESIZE | ACCEPT_DATA | REJECT_DATA | APPLY_RESIDUAL => exact parse_data_raises
    | STORE_RESIDUAL => exact parse_store_residual_raises h

/-! ## Lines that are not convertible -/

/-- A computation raises another exception than `AssemblerError`. -/
def Escapes {α : Type} (x : Asm α) (a : Assembler) : Prop :=
  ∃ e a', x a = .error e a' ∧ e ≠ .AssemblerError

theorem escapes_of_ok {α β : Type} {x : Asm α} {f : α → Asm β} {a₁ : Assembler} {b : α}
    (hx : x a = .ok b a₁) (hf : Escapes (f b) a₁) : Escapes (x >>= f) a := by
  unfold Escapes
  rw [bind_of_ok hx]
  exact hf

theorem require_node_of_mem (h : name ∈ a.nodes) :
    require_node name a = .ok (a.nodes.idxOf name) a := by
  apply ofExcept_eq_ok.mpr
  exact ⟨if_pos h, rfl⟩

theorem require_data_of_mem (h : name ∈ a.data_names) :
    require_data name a = .ok (a.data_names.idxOf name) a := by
  apply ofExcept_eq_ok.mpr
  exact ⟨if_pos h, rfl⟩

/-- The conversion of a number, in front of a computation that escapes when the number is valid. -/
theorem escapes_int {text : Text} {f : ℤ → Asm Unit}
    (h : ∀ n, int text = .ok n → Escapes (f n) a) :
    Escapes (MonadExcept.ofExcept (int text) >>= f) a := by
  cases htext : int text with
  | error e =>
    obtain rfl := int_error htext
    exact ⟨.ValueError, a, rfl, by decide⟩
  | ok n => exact escapes_of_ok (ofExcept_eq_ok.mpr ⟨rfl, rfl⟩) (h n htext)

theorem ints_cons {text : Text} {texts : List Text} (h : ¬ Ints (text :: texts)) {n : ℤ}
    (hn : int text = .ok n) : ¬ Ints texts := by
  intro hints
  apply h
  intro text' hmem
  rcases List.mem_cons.mp hmem with rfl | hmem
  · exact ⟨n, hn⟩
  · exact hints text' hmem

theorem ints_nil : Ints [] := fun _ hmem => (List.not_mem_nil hmem).elim

theorem load_block_escapes {byte length delta : Text} (hmem : name ∈ a.data_names)
    (h : ¬ Ints [byte, length, delta]) : Escapes (load_block name byte length delta) a := by
  apply escapes_of_ok (require_data_of_mem hmem)
  apply escapes_int
  intro n hn
  apply escapes_int
  intro k hk
  apply escapes_int
  intro m hm
  exact absurd ints_nil (ints_cons (ints_cons (ints_cons h hn) hk) hm)

/-- A line that is not convertible raises another exception. -/
theorem parse_directive_escapes {directive : Directive} (h : ¬ Convertible a directive args) :
    Escapes (parse_directive args directive) a := by
  unfold Convertible at h
  split at h
  · obtain ⟨hmem, hints⟩ := Classical.not_imp.mp h
    apply escapes_of_ok (require_node_of_mem hmem)
    apply escapes_int
    exact fun n hn => absurd ints_nil (ints_cons hints hn)
  · obtain ⟨hmem, hline⟩ := Classical.not_imp.mp h
    apply escapes_of_ok (require_node_of_mem hmem)
    apply escapes_int
    intro n hn
    have htype : EDGE_TYPES (lower _) = none :=
      not_not.mp fun htype => hline ⟨by simpa [Ints] using ⟨n, hn⟩, htype⟩
    refine ⟨.KeyError, a, bind_of_error ?_, by decide⟩
    rw [htype]
    rfl
  · apply escapes_int
    exact fun n hn => absurd ints_nil (ints_cons h hn)
  · obtain ⟨hmem, hints⟩ := Classical.not_imp.mp h
    apply load_block_escapes hmem
    exact fun hall => hints fun text htext => hall text (by simp at htext ⊢; tauto)
  · obtain ⟨hmem, hints⟩ := Classical.not_imp.mp h
    exact load_block_escapes hmem hints
  · obtain ⟨hmem, hints⟩ := Classical.not_imp.mp h
    apply escapes_of_ok (require_data_of_mem hmem)
    apply escapes_int
    intro n hn
    apply escapes_int
    exact fun k hk => absurd ints_nil (ints_cons (ints_cons hints hn) hk)
  · exact absurd trivial h

end Errors

/-! ## The instructions fit their fields -/

/-- The fields of an instruction fit. -/
def Instruction.Packs (i : Instruction) : Prop :=
  i.opcode ≤ 255 ∧ i.flags ≤ 255 ∧ i.target ≤ 65535 ∧ i.source ≤ 65535 ∧ i.param ≤ 65535

theorem Instruction.Packs.pack_ok {i : Instruction} (h : i.Packs) : ∃ bytes, i.pack = .ok bytes :=
  ⟨_, if_pos h⟩

def Packed (a : Assembler) : Prop := ∀ i ∈ a.instructions, i.Packs

section Packed

variable {a : Assembler} {name : Text} {args : List Text}

theorem code_le (op : Op) : op.code ≤ 255 := by
  cases op <;> decide

theorem emit_packed {op : Op} {flags target source param : ℤ} (ha : Packed a) (hflags : flags ≤ 255) :
    Keeps Packed (emit op flags target source param) a := by
  unfold emit
  split_ifs with hfields
  · apply keeps_modify
    intro i hi
    rcases List.mem_append.mp hi with hi | hi
    · exact ha i hi
    · obtain ⟨hf, ht, hs, hp⟩ := hfields
      rw [List.mem_singleton.mp hi]
      unfold is_u16 at hf ht hs hp
      exact ⟨code_le op, by dsimp only; omega, by dsimp only; omega, by dsimp only; omega,
        by dsimp only; omega⟩
  · exact keeps_throw

theorem add_node_packed (ha : Packed a) : Keeps Packed (add_node name) a := by
  apply keeps_get_bind
  apply keeps_ofExcept_bind
  intro entry _
  exact keeps_bind (keeps_modify ha) fun _ _ => keeps_pure

theorem add_data_packed (ha : Packed a) : Keeps Packed (add_data name) a := by
  apply keeps_get_bind
  apply keeps_ofExcept_bind
  intro entry _
  exact keeps_bind (keeps_modify ha) fun _ _ => keeps_pure

theorem add_constant_packed (ha : Packed a) : Keeps Packed (add_constant name) a := by
  apply keeps_get_bind
  apply keeps_ofExcept_bind
  intro entry _
  exact keeps_bind (keeps_modify ha) fun _ _ => keeps_pure

theorem add_claim_packed {source target : ℕ} (ha : Packed a) :
    Keeps Packed (add_claim name source target) a := by
  apply keeps_get_bind
  dsimp only
  split_ifs
  · exact keeps_pure ha
  · exact keeps_throw
  · exact keeps_bind (keeps_modify ha) fun _ _ => keeps_pure

theorem edge_type_le {type : ℕ} (h : EDGE_TYPES name = some type) : (type : ℤ) ≤ 255 := by
  unfold EDGE_TYPES at h
  split_ifs at h
  · obtain rfl := Option.some.inj h
    decide
  · obtain rfl := Option.some.inj h
    decide

theorem parse_create_node_packed (ha : Packed a) :
    Keeps Packed (parse_create_node args) a := by
  unfold parse_create_node
  split
  · exact keeps_bind (add_node_packed ha) fun _ _ h => emit_packed h (by decide)
  · exact keeps_throw

theorem parse_create_edge_packed (ha : Packed a) :
    Keeps Packed (parse_create_edge args) a := by
  unfold parse_create_edge
  split
  · apply keeps_bind (keeps_ofExcept ha)
    intro src a₁ h₁
    apply keeps_bind (keeps_ofExcept h₁)
    intro dst a₂ h₂
    apply keeps_ofExcept_bind
    intro type htype
    apply keeps_get_bind
    dsimp only
    have htype_le := edge_type_le (require_eq_ok.mp htype)
    exact keeps_bind (keeps_modify h₂) fun _ _ h => emit_packed h htype_le
  · exact keeps_throw

theorem parse_create_claim_packed (ha : Packed a) :
    Keeps Packed (parse_create_claim args) a := by
  unfold parse_create_claim
  split
  · apply keeps_bind (keeps_ofExcept ha)
    intro src a₁ h₁
    apply keeps_bind (keeps_ofExcept h₁)
    intro dst a₂ h₂
    exact keeps_bind (add_claim_packed h₂) fun _ _ h => emit_packed h (by decide)
  · exact keeps_throw

theorem parse_activate_packed (ha : Packed a) : Keeps Packed (parse_activate args) a := by
  unfold parse_activate
  split
  · apply keeps_bind (keeps_ofExcept ha)
    intro node_id a₁ h₁
    exact keeps_bind (keeps_ofExcept h₁) fun _ _ h => emit_packed h (by decide)
  · exact keeps_throw

theorem parse_propagate_packed (ha : Packed a) :
    Keeps Packed (parse_propagate args) a := by
  unfold parse_propagate
  split
  · apply keeps_bind (keeps_ofExcept ha)
    intro src a₁ h₁
    apply keeps_bind (keeps_ofExcept h₁)
    intro depth a₂ h₂
    apply keeps_ofExcept_bind
    exact fun type htype => emit_packed h₂ (edge_type_le (require_eq_ok.mp htype))
  · exact keeps_throw

theorem parse_decay_packed (ha : Packed a) : Keeps Packed (parse_decay args) a := by
  unfold parse_decay
  split
  · exact keeps_bind (keeps_ofExcept ha) fun _ _ h => emit_packed h (by decide)
  · exact keeps_throw

theorem parse_claim_packed {op : Op} (ha : Packed a) :
    Keeps Packed (parse_claim args op) a := by
  unfold parse_claim
  split
  · exact keeps_bind (keeps_ofExcept ha) fun _ _ h => emit_packed h (by decide)
  · exact keeps_throw

theorem parse_data_packed {op : Op} (ha : Packed a) :
    Keeps Packed (parse_data args op) a := by
  unfold parse_data
  split
  · exact keeps_bind (keeps_ofExcept ha) fun _ _ h => emit_packed h (by decide)
  · exact keeps_throw

theorem parse_declare_basis_packed (ha : Packed a) :
    Keeps Packed (parse_declare_basis args) a := by
  unfold parse_declare_basis
  split
  · exact keeps_bind (add_constant_packed ha) fun _ _ h => emit_packed h (by decide)
  · exact keeps_throw

theorem parse_data_block_packed (ha : Packed a) :
    Keeps Packed (parse_data_block args) a := by
  unfold parse_data_block
  split
  · exact keeps_bind (add_data_packed ha) fun _ _ h => keeps_pure h
  · exact keeps_throw

theorem load_block_packed {byte length delta : Text} (ha : Packed a) :
    Keeps Packed (load_block name byte length delta) a := by
  apply keeps_bind (keeps_ofExcept ha)
  intro data_id a₁ h₁
  apply keeps_bind (keeps_ofExcept h₁)
  intro byte_value a₂ h₂
  apply keeps_bind (keeps_ofExcept h₂)
  intro length a₃ h₃
  apply keeps_bind (keeps_ofExcept h₃)
  intro delta a₄ h₄
  split_ifs with hbyte hdelta
  · exact emit_packed h₄ hdelta.2
  · exact keeps_throw
  · exact keeps_throw

theorem parse_load_coefficients_packed (ha : Packed a) :
    Keeps Packed (parse_load_coefficients args) a := by
  unfold parse_load_coefficients
  split
  · exact load_block_packed ha
  · exact load_block_packed ha
  · exact keeps_throw

theorem parse_verify_hash_packed (ha : Packed a) :
    Keeps Packed (parse_verify_hash args) a := by
  unfold parse_verify_hash
  split
  · apply keeps_bind (keeps_ofExcept ha)
    intro data_id a₁ h₁
    exact keeps_bind (add_constant_packed h₁) fun _ _ h => emit_packed h (by decide)
  · exact keeps_throw

theorem parse_store_residual_packed (ha : Packed a) :
    Keeps Packed (parse_store_residual args) a := by
  unfold parse_store_residual
  split
  · apply keeps_bind (keeps_ofExcept ha)
    intro data_id a₁ h₁
    apply keeps_bind (keeps_ofExcept h₁)
    intro offset a₂ h₂
    apply keeps_bind (keeps_ofExcept h₂)
    intro byte_value a₃ h₃
    split_ifs
    · exact emit_packed h₃ (by decide)
    · exact keeps_throw
  · exact keeps_throw

theorem parse_directive_packed {directive : Directive} (ha : Packed a) :
    Keeps Packed (parse_directive args directive) a := by
  cases directive with
  | DATA_BLOCK => exact parse_data_block_packed ha
  | op op =>
    cases op with
    | CREATE_NODE => exact parse_create_node_packed ha
    | CREATE_EDGE => exact parse_create_edge_packed ha
    | CREATE_CLAIM => exact parse_create_claim_packed ha
    | ACTIVATE => exact parse_activate_packed ha
    | PROPAGATE => exact parse_propagate_packed ha
    | DECAY => exact parse_decay_packed ha
    | INTERFERE | COMPUTE_TENSION | VERIFY | ACCEPT | REJECT | QUARANTINE =>
      exact parse_claim_packed ha
    | NOOP | HALT | LOG_RECEIPT | EMIT_RECEIPT => exact emit_packed ha (by decide)
    | DECLARE_BASIS => exact parse_declare_basis_packed ha
    | LOAD_COEFFICIENTS => exact parse_load_coefficients_packed ha
    | VERIFY_HASH => exact parse_verify_hash_packed ha
    | SYNTHESIZE | ACCEPT_DATA | REJECT_DATA | APPLY_RESIDUAL => exact parse_data_packed ha
    | STORE_RESIDUAL => exact parse_store_residual_packed ha

theorem parse_line_packed {line : Text} (ha : Packed a) : Keeps Packed (parse_line line) a := by
  unfold parse_line
  split
  · exact keeps_pure ha
  · split
    · exact parse_directive_packed ha
    · exact keeps_throw

theorem parse_lines_packed {lines : List Text} (ha : Packed a) : Keeps Packed (parse_lines lines) a := by
  induction lines generalizing a with
  | nil => exact keeps_pure ha
  | cons line lines ih => exact keeps_bind (parse_line_packed ha) fun _ _ h => ih h

/-- The instructions of assembled lines are packed. -/
theorem program_eq_ok_iff {lines : List Text} (h : parse_lines lines .new = .ok () a) :
    (∃ program, a.program = .ok program) ↔ a.manifest_bytes.length < 2 ^ 32 := by
  have hpacked := parse_lines_packed (fun _ hmem => (List.not_mem_nil hmem).elim) _ _ h
  obtain ⟨bytes, hbytes⟩ := exists_mapM_eq_ok (g := Instruction.pack) fun i hi => (hpacked i hi).pack_ok
  unfold Assembler.program
  rw [hbytes, ok_bind]
  split_ifs with hlong
  · constructor
    · rintro ⟨program, h⟩
      cases h
    · exact fun h => absurd hlong (not_le.mpr h)
  · exact ⟨fun _ => not_le.mp hlong, fun _ => ⟨_, rfl⟩⟩

theorem program_error {lines : List Text} {e : PyError} (h : parse_lines lines .new = .ok () a)
    (herror : a.program = .error e) : e = .StructError := by
  have hpacked := parse_lines_packed (fun _ hmem => (List.not_mem_nil hmem).elim) _ _ h
  obtain ⟨bytes, hbytes⟩ := exists_mapM_eq_ok (g := Instruction.pack) fun i hi => (hpacked i hi).pack_ok
  unfold Assembler.program at herror
  rw [hbytes, ok_bind] at herror
  split_ifs at herror
  exact (Except.error.inj herror).symm

end Packed

/-! ## The texts -/

/-- The line is convertible, if it has a known directive. -/
def LineConverts (a : Assembler) (line : Text) : Prop :=
  ∀ name args d, split (strip_comment line) = name :: args → directive (upper name) = some d →
    Convertible a d args

/-- Every line that the assembler reaches is convertible, and the length of the manifest fits its
field. -/
def TextConverts (text : Text) : Prop :=
  (∀ done line rest a, splitlines text = done ++ line :: rest → parse_lines done .new = .ok () a →
    LineConverts a line) ∧
  ∀ a, parse_lines (splitlines text) .new = .ok () a → a.manifest_bytes.length < 2 ^ 32

section Texts

variable {a : Assembler} {line : Text} {lines : List Text}

theorem parse_line_raises (h : LineConverts a line) :
    RaisesOnly .AssemblerError (parse_line line) a := by
  unfold parse_line
  split
  · exact raisesOnly_of_ends ⟨(), a, rfl⟩
  · rename_i name args hsplit
    split
    · rename_i d hd
      exact parse_directive_raises (h name args d hsplit hd)
    · exact raisesOnly_throw

theorem parse_line_escapes (h : ¬ LineConverts a line) : Escapes (parse_line line) a := by
  unfold LineConverts at h
  push Not at h
  obtain ⟨name, args, d, hsplit, hd, hline⟩ := h
  unfold parse_line
  rw [hsplit]
  dsimp only
  rw [hd]
  exact parse_directive_escapes hline

theorem parse_lines_append {done rest : List Text} {a₁ : Assembler}
    (h : parse_lines done a = .ok () a₁) : parse_lines (done ++ rest) a = parse_lines rest a₁ := by
  induction done generalizing a with
  | nil =>
    obtain ⟨-, rfl⟩ := EStateM.Result.ok.inj h
    rfl
  | cons line done ih =>
    unfold parse_lines at h
    obtain ⟨u, a₂, hline, h⟩ := StateExcept.bind_eq_ok.mp h
    rw [List.cons_append, parse_lines, bind_of_ok hline]
    exact ih h

theorem parse_lines_raises
    (h : ∀ done line rest a₁, lines = done ++ line :: rest → parse_lines done a = .ok () a₁ →
      LineConverts a₁ line) : RaisesOnly .AssemblerError (parse_lines lines) a := by
  induction lines generalizing a with
  | nil => exact raisesOnly_of_ends ⟨(), a, rfl⟩
  | cons line lines ih =>
    apply raisesOnly_bind (parse_line_raises (h [] line lines a rfl rfl))
    intro u a₁ hline
    apply ih
    intro done line' rest a₂ hlines hdone
    refine h (line :: done) line' rest a₂ (by rw [hlines, List.cons_append]) ?_
    rw [parse_lines, bind_of_ok hline]
    exact hdone

/-- Assembling a text gives a program or raises `AssemblerError` exactly when the text is convertible
throughout. -/
theorem assemble_text_iff (text : Text) :
    ((∃ program, assemble_text text = .ok program) ∨ assemble_text text = .error .AssemblerError) ↔
      TextConverts text := by
  unfold assemble_text
  constructor
  · intro h
    constructor
    · intro done line rest a hlines hdone
      by_contra hline
      obtain ⟨e, a', herror, hne⟩ := parse_line_escapes hline
      have hparse : parse_lines (splitlines text) .new = .error e a' := by
        rw [hlines, parse_lines_append hdone, parse_lines, bind_of_error herror]
      rw [hparse] at h
      rcases h with ⟨program, h⟩ | h
      · cases h
      · exact hne (Except.error.inj h)
    · intro a hparse
      rw [hparse] at h
      rcases h with h | h
      · exact (program_eq_ok_iff hparse).mp h
      · exact nomatch program_error hparse h
  · rintro ⟨hlines, hlength⟩
    cases hparse : parse_lines (splitlines text) .new with
    | error e a =>
      obtain rfl := parse_lines_raises hlines e a hparse
      exact .inr rfl
    | ok u a => exact .inl ((program_eq_ok_iff hparse).mpr (hlength a hparse))

end Texts

end Bogbin.Vm
