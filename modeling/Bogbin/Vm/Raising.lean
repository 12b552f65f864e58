import Bogbin.Vm.Guards

/-!
# What a raising instruction leaves

An instruction that raises leaves the edges and the activations as they were (`execute_error_graph`):
the opcodes that change them raise only before the change.  So the state in which a run is blocked has
the graph of a state between two instructions (`Passes.graph_eq`).
-/

namespace Bogbin.Vm

open Bogvm StateExcept
open Std (TreeMap)

/-- The edges with the adjacency lists, and the activations. -/
structure Graph where
  edge_table : TreeMap ℕ Edge
  adjacency_out : TreeMap ℕ (List ℕ)
  adjacency_in : TreeMap ℕ (List ℕ)
  activation_current : TreeMap ℕ ℕ

def VMState.graph (s : VMState) : Graph :=
  ⟨s.edge_table, s.adjacency_out, s.adjacency_in, s.activation_current⟩

/-! ## Computations that leave the graph -/

/-- The computation leaves the graph, also when it raises. -/
def Quiet {α : Type} (x : VM α) : Prop := ∀ s, (after (x s)).graph = s.graph

section Quiet

variable {α β : Type} {x : VM α} {f : α → VM β}

theorem quiet_bind (hx : Quiet x) (hf : ∀ a, Quiet (f a)) : Quiet (x >>= f) := by
  intro s
  have hs := hx s
  cases h : x s with
  | ok a s₁ =>
    rw [h] at hs
    rw [bind_of_ok h, hf a s₁]
    exact hs
  | error e s₁ =>
    rw [h] at hs
    rw [bind_of_error h]
    exact hs

theorem quiet_log {n : ℤ} {opcode : String} {details : List (String × Json)} :
    Quiet (log n opcode details) := fun _ => rfl

theorem quiet_throw {e : PyError} : Quiet (throw e : VM α) := fun _ => rfl

theorem quiet_ofExcept {r : Except PyError α} : Quiet (MonadExcept.ofExcept r : VM α) := by
  intro s
  cases r <;> rfl

theorem quiet_get : Quiet (get : VM VMState) := fun _ => rfl

theorem quiet_reading {g : VMState → Except PyError α} : Quiet (reading g) :=
  quiet_bind quiet_get fun _ => quiet_ofExcept

theorem quiet_modify {g : VMState → VMState} (h : ∀ s, (g s).graph = s.graph) :
    Quiet (modify g : VM Unit) := fun s => h s

/-- The end of an opcode: a name is read and the event logged. -/
theorem quiet_name_log {g : VMState → Except PyError Json} {n : ℤ} {opcode : String}
    {details : Json → List (String × Json)} :
    Quiet (reading g >>= fun name => log n opcode (details name)) :=
  quiet_bind quiet_reading fun _ => quiet_log

end Quiet

section Opcodes

variable {manifest : Dict} {pc : ℕ} {instr : Instruction} {s s' : VMState} {e : PyError}

theorem quiet_modify_log {g : VMState → VMState} {n : ℤ} {opcode : String}
    {details : List (String × Json)} (h : ∀ s, (g s).graph = s.graph) :
    Quiet (modify g >>= fun _ => log n opcode details) :=
  quiet_bind (quiet_modify h) fun _ => quiet_log

theorem quiet_modify_name {f : VMState → VMState} {g : VMState → Except PyError Json} {n : ℤ}
    {opcode : String} {details : Json → List (String × Json)} (h : ∀ s, (f s).graph = s.graph) :
    Quiet (modify f >>= fun _ => reading g >>= fun name => log n opcode (details name)) :=
  quiet_bind (quiet_modify h) fun _ => quiet_name_log

theorem quiet_create_claim : Quiet (create_claim manifest pc instr) :=
  quiet_bind quiet_ofExcept fun _ => quiet_bind (quiet_modify fun _ => rfl) fun _ =>
    quiet_bind quiet_reading fun _ => quiet_name_log

theorem quiet_interfere : Quiet (interfere pc instr) :=
  quiet_bind quiet_reading fun _ => quiet_bind quiet_reading fun _ =>
    quiet_modify_name fun _ => rfl

theorem quiet_accept : Quiet (accept pc instr) := by
  refine quiet_bind quiet_get fun s => ?_
  dsimp only
  split_ifs
  · exact quiet_bind (quiet_modify fun _ => rfl) fun _ => quiet_bind quiet_get fun _ => quiet_name_log
  · exact quiet_bind quiet_reading fun _ => quiet_throw
  · exact quiet_modify_name fun _ => rfl

theorem quiet_declare_basis : Quiet (declare_basis manifest pc instr) := by
  refine quiet_bind quiet_ofExcept fun value => ?_
  cases value with
  | str name => exact quiet_bind quiet_ofExcept fun _ => quiet_modify_log fun _ => rfl
  | _ => exact quiet_throw

theorem quiet_load_coefficients : Quiet (load_coefficients manifest pc instr) := by
  refine quiet_bind quiet_ofExcept fun name => ?_
  split_ifs
  · exact quiet_throw
  · exact quiet_throw
  · exact quiet_modify_log fun _ => rfl

theorem quiet_block {α : Type} {f : DataBlock → VM α} (h : ∀ block, Quiet (f block)) :
    Quiet (block_of instr >>= f) :=
  quiet_bind quiet_reading h

theorem quiet_accept_data : Quiet (accept_data pc instr) := by
  refine quiet_block fun block => quiet_bind quiet_get fun s => ?_
  split_ifs
  · exact quiet_throw
  · exact quiet_modify_log fun _ => rfl

theorem quiet_reject_data : Quiet (reject_data pc instr) := by
  refine quiet_block fun block => quiet_bind quiet_get fun s => ?_
  split_ifs
  · exact quiet_throw
  · exact quiet_modify_log fun _ => rfl

theorem quiet_store_residual : Quiet (store_residual pc instr) := by
  refine quiet_block fun block => ?_
  split_ifs
  · exact quiet_throw
  · exact quiet_throw
  · exact quiet_modify_log fun _ => rfl

/-! ## The opcodes that change the graph -/

/-- The computation leaves the state when it raises. -/
def Unmoved {α : Type} (x : VM α) (s : VMState) : Prop := ∀ e s', x s = .error e s' → s' = s

theorem unmoved_throw {α : Type} : Unmoved (throw e : VM α) s :=
  fun _ _ h => (EStateM.Result.error.inj h).2.symm

theorem unmoved_of_ends {α : Type} {x : VM α} (h : Ends x s) : Unmoved x s := by
  intro e s' herror
  obtain ⟨a, s₁, hok⟩ := h
  exact nomatch hok.symm.trans herror

theorem unmoved_ofExcept_bind {α β : Type} {r : Except PyError α} {f : α → VM β}
    (h : ∀ a, r = .ok a → Unmoved (f a) s) : Unmoved (MonadExcept.ofExcept r >>= f) s := by
  intro e s' herror
  rcases ofExcept_bind_eq_error.mp herror with ⟨-, heq⟩ | ⟨a, hr, herror⟩
  · exact heq
  · exact h a hr e s' herror

theorem unmoved_get_bind {α : Type} {f : VMState → VM α} (h : Unmoved (f s) s) :
    Unmoved (get >>= f) s := by
  intro e s' herror
  rw [bind_of_ok get_apply] at herror
  exact h e s' herror

theorem create_edge_unmoved : Unmoved (create_edge pc instr) s := by
  apply unmoved_get_bind
  split_ifs with hnodes
  · exact unmoved_throw
  simp only [Bool.or_eq_true, Bool.not_eq_true', not_or, Bool.not_eq_false,
    TreeMap.contains_iff_mem] at hnodes
  apply unmoved_ofExcept_bind
  intro type _
  apply unmoved_of_ends
  apply ends_modify_bind
  apply ends_reading_bind (node_name_ok hnodes.1)
  intro source _
  exact ends_name_log (node_name_ok hnodes.2)

theorem activate_unmoved : Unmoved (activate pc instr) s := by
  apply unmoved_get_bind
  split_ifs with hnode hstrength
  · exact unmoved_throw
  · exact unmoved_throw
  rw [Bool.not_eq_true', Bool.not_eq_false, TreeMap.contains_iff_mem] at hnode
  apply unmoved_of_ends
  apply ends_modify_bind
  exact ends_name_log (node_name_ok hnode)

theorem propagate_unmoved (hs : Linked s) : Unmoved (propagate pc instr) s := by
  apply unmoved_ofExcept_bind
  intro type _
  apply unmoved_get_bind
  apply unmoved_ofExcept_bind
  rintro ⟨cumulative, total_energy, reached⟩ hticks
  have hreached := ticks_reached hs (fun _ hnode => (List.not_mem_nil hnode).elim) hticks
  apply unmoved_of_ends
  apply ends_modify_bind
  apply ends_reading_bind
  · split_ifs with hnode
    · exact node_name_ok (TreeMap.contains_iff_mem.mp hnode)
    · exact ⟨_, rfl⟩
  intro source _
  apply ends_reading_bind
  · exact exists_mapM_eq_ok fun node hnode => node_name_ok (hreached node hnode)
  · exact fun nodes_reached _ => ends_log

theorem decay_unmoved : Unmoved (decay pc instr) s := by
  unfold decay
  split_ifs
  · exact unmoved_throw
  · exact unmoved_of_ends (ends_modify_bind ends_log)

theorem graph_of_quiet {x : VM Unit} (hx : Quiet x) (h : x s = .error e s') : s'.graph = s.graph := by
  have hs := hx s
  rwa [h] at hs

theorem execute_error_graph {op : Op} (hs : Linked s)
    (h : execute manifest pc instr op s = .error e s') : s'.graph = s.graph := by
  have hquiet (hx : Quiet (execute manifest pc instr op)) : s'.graph = s.graph := graph_of_quiet hx h
  cases op with
  | CREATE_EDGE => rw [create_edge_unmoved e s' h]
  | ACTIVATE => rw [activate_unmoved e s' h]
  | PROPAGATE => rw [propagate_unmoved hs e s' h]
  | DECAY => rw [decay_unmoved e s' h]
  | NOOP => exact hquiet quiet_log
  | HALT => exact hquiet quiet_log
  | LOG_RECEIPT => exact hquiet quiet_log
  | CREATE_NODE => exact hquiet (quiet_bind quiet_ofExcept fun _ => quiet_modify_log fun _ => rfl)
  | CREATE_CLAIM => exact hquiet quiet_create_claim
  | INTERFERE => exact hquiet quiet_interfere
  | COMPUTE_TENSION =>
    exact hquiet (quiet_bind quiet_get fun _ => quiet_modify_name fun _ => rfl)
  | VERIFY => exact hquiet (quiet_bind quiet_reading fun _ => quiet_modify_name fun _ => rfl)
  | ACCEPT => exact hquiet quiet_accept
  | REJECT => exact hquiet (quiet_modify_name fun _ => rfl)
  | QUARANTINE => exact hquiet (quiet_modify_name fun _ => rfl)
  | EMIT_RECEIPT => exact hquiet (quiet_modify_log fun _ => rfl)
  | DECLARE_BASIS => exact hquiet quiet_declare_basis
  | LOAD_COEFFICIENTS => exact hquiet quiet_load_coefficients
  | SYNTHESIZE =>
    exact hquiet (quiet_block fun _ => quiet_bind quiet_ofExcept fun _ => quiet_modify_log fun _ => rfl)
  | VERIFY_HASH =>
    exact hquiet (quiet_block fun _ => quiet_bind quiet_ofExcept fun _ => quiet_modify_log fun _ => rfl)
  | ACCEPT_DATA => exact hquiet quiet_accept_data
  | REJECT_DATA => exact hquiet quiet_reject_data
  | STORE_RESIDUAL => exact hquiet quiet_store_residual
  | APPLY_RESIDUAL =>
    exact hquiet (quiet_block fun _ => quiet_bind quiet_ofExcept fun _ => quiet_modify_log fun _ => rfl)

end Opcodes

/-! ## The states of a run -/

/-- A state that a run comes to after these steps: between two instructions, or when the next one
raises. -/
def Passes (manifest : Dict) (instructions : List Instruction) (past : List Step) (s : VMState) :
    Prop :=
  Runs manifest instructions past s ∨
    ∃ before instr op e, Runs manifest instructions past before ∧ (∀ step ∈ past, step.op ≠ .HALT) ∧
      past.map (·.instr) ++ [instr] <+: instructions ∧ OP_NAMES instr.opcode = some op ∧
      execute manifest past.length instr op before = .error e s

section Passes

variable {manifest : Dict} {instructions : List Instruction} {past : List Step} {s : VMState}

theorem Passes.graph_eq (h : Passes manifest instructions past s) :
    ∃ between, Runs manifest instructions past between ∧ s.graph = between.graph := by
  rcases h with h | ⟨before, instr, op, e, hruns, -, -, -, hraise⟩
  · exact ⟨s, h, rfl⟩
  · exact ⟨before, hruns, execute_error_graph (reached_linked hruns.1) hraise⟩

/-- The loop ends in a state that the run passes, whether it halts or raises. -/
theorem loop_passes (hs : Reached manifest past s) (running : ∀ step ∈ past, step.op ≠ .HALT) :
    Passes manifest (past.map (·.instr) ++ instructions)
      (past ++ steps manifest past.length instructions s)
      (after (loop manifest past.length instructions s)) := by
  induction instructions generalizing past s with
  | nil =>
    rw [steps, List.append_nil, List.append_nil]
    exact .inl ⟨hs, List.prefix_refl _⟩
  | cons instr rest ih =>
    have hbefore : Runs manifest (past.map (·.instr) ++ instr :: rest) past s :=
      ⟨hs, List.prefix_append _ _⟩
    unfold loop
    cases named : OP_NAMES instr.opcode with
    | none =>
      rw [steps, named, List.append_nil]
      exact .inl hbefore
    | some op =>
      have hop : (MonadExcept.ofExcept (require .VMError (some op)) : VM Op) s = .ok op s := rfl
      rw [bind_of_ok hop]
      cases call : execute manifest past.length instr op s with
      | error e s' =>
        rw [bind_of_error call, steps, named]
        dsimp only
        rw [call, List.append_nil]
        refine .inr ⟨s, instr, op, e, hbefore, running, ?_, named, call⟩
        exact ⟨rest, by simp⟩
      | ok u s' =>
        have hstep := Reached.step hs running named call
        rw [bind_of_ok call, steps_of_call named call]
        split_ifs with hhalt
        · refine .inl ⟨hstep, rest, ?_⟩
          simp
        · have hlength : past.length + 1 = (past ++ [Step.mk op instr s]).length := by simp
          have hpasses := ih hstep (not_halt_append running hhalt)
          rw [List.map_append, List.append_assoc, List.append_assoc] at hpasses
          rw [hlength]
          exact hpasses

/-- The run ends in a state that it passes, up to its last event. -/
theorem run_passes (manifest : Dict) (program_hash : String) (instructions : List Instruction) :
    ∃ s, Passes manifest instructions (steps manifest 0 instructions .initial) s ∧
      (after (run manifest program_hash instructions .initial)).graph = s.graph := by
  refine ⟨_, @loop_passes manifest instructions [] _ .start (by simp), ?_⟩
  unfold run
  cases hloop : loop manifest 0 instructions .initial with
  | error e s =>
    rw [bind_of_error hloop]
    rfl
  | ok n s =>
    rw [bind_of_ok hloop]
    refine quiet_bind quiet_get (fun s => ?_) s
    split_ifs
    · exact quiet_bind quiet_log fun _ => quiet_reading
    · exact quiet_reading

end Passes

end Bogbin.Vm
