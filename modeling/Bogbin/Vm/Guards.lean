import Bogbin.Vm.Run

/-!
# Lookups of a run

Every lookup of a run finds an entry, apart from those that name a node or a claim that was never
created: such an instruction raises `KeyError`.  A run of `Guarded` instructions returns a receipt or
raises `VMError`.
-/

namespace Bogbin.Vm

open Bogvm StateExcept
open Std (TreeMap)

/-- A manifest of the shape that the assembler writes. -/
structure Tables (manifest : Dict) : Prop where
  nodes : HasTable manifest "nodes"
  claims : HasTable manifest "claims"
  data_blocks : HasTable manifest "data_blocks"
  constants : HasTable manifest "constants"
  named : ∀ fields key value, Dict.get manifest "claims" = some (.obj fields) →
    Dict.get fields key = some value → ∃ entry name, value = .obj entry ∧ Dict.get entry "name" = some name

/-- The edges of the adjacency lists exist. -/
def Listed (adjacency : TreeMap ℕ (List ℕ)) (table : TreeMap ℕ Edge) : Prop :=
  ∀ (node : ℕ) (edges : List ℕ), adjacency[node]? = some edges → ∀ edge ∈ edges, edge ∈ table

/-- The edges of the adjacency lists exist, and so do their targets. -/
structure Linked (s : VMState) : Prop where
  out : Listed s.adjacency_out s.edge_table
  incoming : Listed s.adjacency_in s.edge_table
  targets : ∀ (id : ℕ) (edge : Edge), s.edge_table[id]? = some edge → edge.target ∈ s.node_table

theorem linked_initial : Linked .initial where
  out _ _ h := (getElem?_empty_ne h).elim
  incoming _ _ h := (getElem?_empty_ne h).elim
  targets _ _ h := (getElem?_empty_ne h).elim

section Linked

variable {manifest : Dict} {s s' : VMState} {op : Op} {instr : Instruction} {past : List Step}

theorem mem_insert_of_mem {α : Type} {table : TreeMap ℕ α} {key k : ℕ} {a : α} (h : key ∈ table) :
    key ∈ table.insert k a :=
  TreeMap.mem_insert.mpr (.inr h)

/-- The adjacency lists after a new edge. -/
theorem adjacent_add {adjacency : TreeMap ℕ (List ℕ)} {table : TreeMap ℕ Edge} {key edge : ℕ}
    {value : Edge} (h : Listed adjacency table) :
    Listed (add_adjacent adjacency key edge) (table.insert edge value) := by
  intro node edges hedges e he
  unfold add_adjacent at hedges
  rw [TreeMap.getElem?_insert] at hedges
  by_cases hnode : key = node
  · rw [if_pos (Nat.compare_eq_eq.mpr hnode)] at hedges
    obtain rfl := Option.some.inj hedges
    rw [List.mem_mergeSort, List.mem_append, List.mem_singleton] at he
    rcases he with he | rfl
    · cases hold : adjacency[key]? with
      | none =>
        rw [hold] at he
        cases he
      | some old =>
        rw [hold] at he
        exact mem_insert_of_mem (h key old hold e he)
    · exact TreeMap.mem_insert_self
  · rw [if_neg (mt Nat.compare_eq_eq.mp hnode)] at hedges
    exact mem_insert_of_mem (h node edges hedges e he)

theorem linked_create_edge {type : EdgeType} (h : Linked s) (target : instr.param ∈ s.node_table) :
    Linked { s with
      edge_table := s.edge_table.insert instr.target
        ⟨instr.target, instr.source, instr.param, type, SCALE⟩
      adjacency_out := add_adjacent s.adjacency_out instr.source instr.target
      adjacency_in := add_adjacent s.adjacency_in instr.param instr.target } where
  out := adjacent_add h.out
  incoming := adjacent_add h.incoming
  targets id edge hedge := by
    dsimp only at hedge ⊢
    rw [TreeMap.getElem?_insert] at hedge
    split_ifs at hedge
    · obtain rfl := Option.some.inj hedge
      exact target
    · exact h.targets id edge hedge

theorem linked_step (h : Linked s) (executed : Executed manifest instr op s s') : Linked s' := by
  obtain ⟨s₁, n, opcode, details, heffect, rfl⟩ := executed
  cases heffect with
  | create_node _ => exact ⟨h.out, h.incoming, fun id edge hedge => mem_insert_of_mem (h.targets id edge hedge)⟩
  | @create_edge type _ target _ =>
    have hlinked := @linked_create_edge s instr type h target
    exact ⟨hlinked.out, hlinked.incoming, hlinked.targets⟩
  | _ => exact ⟨h.out, h.incoming, h.targets⟩

theorem reached_linked (h : Reached manifest past s) : Linked s :=
  @Reached.invariant manifest past s (fun _ => Linked) (fun _ _ => True) linked_initial
    (fun h _ => linked_step h) h fun _ _ _ => trivial

end Linked

/-! ## The lookups -/

section Lookups

variable {s : VMState} {e : PyError}

theorem lookup_ok {α : Type} {table : TreeMap ℕ α} {key : ℕ} (h : key ∈ table) :
    ∃ a, lookup table key = .ok a := by
  obtain ⟨a, ha⟩ := mem_iff_getElem?.mp h
  exact ⟨a, lookup_eq_ok.mpr ha⟩

theorem node_name_ok {id : ℕ} (h : id ∈ s.node_table) : ∃ name, s.node_name id = .ok name := by
  obtain ⟨node, hnode⟩ := mem_iff_getElem?.mp h
  exact ⟨node.name, node_name_eq_ok.mpr ⟨node, hnode, rfl⟩⟩

theorem claim_name_ok {id : ℕ} (h : id ∈ s.claim_table) : ∃ name, s.claim_name id = .ok name := by
  obtain ⟨claim, hclaim⟩ := mem_iff_getElem?.mp h
  exact ⟨claim.name, claim_name_eq_ok.mpr ⟨claim, hclaim, rfl⟩⟩

/-- The sorted list of a node in an adjacency table. -/
theorem mem_edges {adjacency : TreeMap ℕ (List ℕ)} {table : TreeMap ℕ Edge} {node edge : ℕ}
    (h : Listed adjacency table)
    (hmem : edge ∈ ((adjacency[node]?).getD []).mergeSort (· ≤ ·)) : edge ∈ table := by
  rw [List.mem_mergeSort] at hmem
  cases hedges : adjacency[node]? with
  | none =>
    rw [hedges] at hmem
    cases hmem
  | some edges =>
    rw [hedges] at hmem
    exact h node edges hedges edge hmem

theorem propagate_edge_error {type : EdgeType} {activation : ℕ} {w : Wave} {edge_id : ℕ}
    (hedge : edge_id ∈ s.edge_table) (h : propagate_edge s type activation w edge_id = .error e) :
    e = .VMError := by
  obtain ⟨edge, hlookup⟩ := lookup_ok hedge
  unfold propagate_edge at h
  rw [hlookup, ok_bind] at h
  dsimp only at h
  split_ifs at h
  exact (Except.error.inj h).symm

theorem propagate_edge_reached {type : EdgeType} {activation : ℕ} {w w' : Wave} {edge_id : ℕ}
    (hs : Linked s) (hw : ∀ node ∈ w.reached, node ∈ s.node_table)
    (h : propagate_edge s type activation w edge_id = .ok w') :
    ∀ node ∈ w'.reached, node ∈ s.node_table := by
  unfold propagate_edge at h
  obtain ⟨edge, hlookup, h⟩ := Bogbin.bind_eq_ok.mp h
  dsimp only at h
  split_ifs at h
  · obtain rfl := Except.ok.inj h
    exact hw
  · obtain rfl := Except.ok.inj h
    exact hw
  · obtain rfl := Except.ok.inj h
    intro node hnode
    rcases mem_add_sorted.mp hnode with hnode | rfl
    · exact hw node hnode
    · exact hs.targets edge_id edge (lookup_eq_ok.mp hlookup)

theorem propagate_node_error {type : EdgeType} {w : Wave} {entry : ℕ × ℕ} (hs : Linked s)
    (h : propagate_node s type w entry = .error e) : e = .VMError := by
  unfold propagate_node at h
  split_ifs at h
  exact foldlM_error (fun w edge e' hedge => propagate_edge_error (mem_edges hs.out hedge)) h

theorem propagate_node_reached {type : EdgeType} {w w' : Wave} {entry : ℕ × ℕ} (hs : Linked s)
    (hw : ∀ node ∈ w.reached, node ∈ s.node_table) (h : propagate_node s type w entry = .ok w') :
    ∀ node ∈ w'.reached, node ∈ s.node_table := by
  unfold propagate_node at h
  split_ifs at h
  · obtain rfl := Except.ok.inj h
    exact hw
  · exact foldlM_invariant (P := fun w => ∀ node ∈ w.reached, node ∈ s.node_table)
      (fun w edge w' _ hw => propagate_edge_reached hs hw) h hw

theorem ticks_error {type : EdgeType} {depth : ℕ} {cumulative frontier : TreeMap ℕ ℕ}
    {total_energy : ℕ} {reached : List ℕ} (hs : Linked s)
    (h : ticks s type depth cumulative frontier total_energy reached = .error e) : e = .VMError := by
  induction depth generalizing cumulative frontier total_energy reached with
  | zero => cases h
  | succ depth ih =>
    unfold ticks at h
    cases hwave : frontier.toList.foldlM (propagate_node s type) ⟨total_energy, ∅, reached⟩ with
    | error e' =>
      rw [hwave] at h
      obtain rfl := Except.error.inj h
      exact foldlM_error (fun w entry e' _ => propagate_node_error hs) hwave
    | ok w =>
      rw [hwave, ok_bind] at h
      exact ih h

theorem ticks_reached {type : EdgeType} {depth : ℕ} {cumulative frontier : TreeMap ℕ ℕ}
    {total_energy : ℕ} {reached : List ℕ} {result : TreeMap ℕ ℕ × ℕ × List ℕ} (hs : Linked s)
    (hreached : ∀ node ∈ reached, node ∈ s.node_table)
    (h : ticks s type depth cumulative frontier total_energy reached = .ok result) :
    ∀ node ∈ result.2.2, node ∈ s.node_table := by
  induction depth generalizing cumulative frontier total_energy reached with
  | zero =>
    obtain rfl := Except.ok.inj h
    exact hreached
  | succ depth ih =>
    unfold ticks at h
    obtain ⟨w, hwave, h⟩ := Bogbin.bind_eq_ok.mp h
    refine ih ?_ h
    exact foldlM_invariant (P := fun w : Wave => ∀ node ∈ w.reached, node ∈ s.node_table)
      (fun w entry w' _ hw => propagate_node_reached hs hw) hwave hreached

theorem pressure_of_ok (hs : Linked s) (node : ℕ) : ∃ pressure, pressure_of s node = .ok pressure := by
  have hconflict : ∃ conflict_pressure,
      (((s.adjacency_in[node]?).getD []).mergeSort (· ≤ ·)).foldlM (conflict_edge s) 0 =
        .ok conflict_pressure := by
    apply exists_foldlM_eq_ok
    intro conflict_pressure edge_id hmem
    obtain ⟨edge, hlookup⟩ := lookup_ok (mem_edges hs.incoming hmem)
    unfold conflict_edge
    rw [hlookup, ok_bind]
    split_ifs
    · exact ⟨_, rfl⟩
    · exact ⟨_, rfl⟩
  obtain ⟨conflict_pressure, hconflict⟩ := hconflict
  unfold pressure_of
  rw [hconflict]
  exact ⟨_, rfl⟩

theorem support_targets_ok (hs : Linked s) (visited : List ℕ) (node : ℕ) :
    ∃ targets, support_targets s visited node = .ok targets := by
  obtain ⟨edges, hedges⟩ := exists_mapM_eq_ok (g := lookup s.edge_table)
    (l := ((s.adjacency_out[node]?).getD []).mergeSort (· ≤ ·)) fun edge hedge =>
      lookup_ok (mem_edges hs.out hedge)
  unfold support_targets
  rw [hedges]
  exact ⟨_, rfl⟩

theorem search_ok (hs : Linked s) (target turns : ℕ) (queue visited : List ℕ) :
    ∃ found, search s target turns queue visited = .ok found := by
  induction turns generalizing queue visited with
  | zero =>
    cases queue with
    | nil => exact ⟨false, rfl⟩
    | cons node queue => exact ⟨false, rfl⟩
  | succ turns ih =>
    cases queue with
    | nil => exact ⟨false, rfl⟩
    | cons node queue =>
      unfold search
      split_ifs
      · exact ⟨true, rfl⟩
      · exact ih queue visited
      · obtain ⟨targets, htargets⟩ := support_targets_ok hs (node :: visited) node
        rw [htargets, ok_bind]
        exact ih _ _

theorem verify_claim_ok (hs : Linked s) {id : ℕ} (h : id ∈ s.claim_table) :
    ∃ status, verify_claim s id = .ok status := by
  obtain ⟨claim, hclaim⟩ := lookup_ok h
  unfold verify_claim
  rw [hclaim, ok_bind]
  dsimp only
  split_ifs
  · exact ⟨_, rfl⟩
  · obtain ⟨found, hfound⟩ : ∃ found, support_path_exists s claim.source claim.target = .ok found :=
      search_ok hs _ _ _ _
    rw [hfound]
    exact ⟨_, rfl⟩

end Lookups

theorem Tables.value_named {manifest : Dict} {id : ℕ} {value : Json} (ht : Tables manifest)
    (h : require_symbol manifest "claims" id = .ok value) :
    ∃ entry name, value = .obj entry ∧ Dict.get entry "name" = some name := by
  obtain ⟨fields, hfields⟩ := ht.claims
  unfold require_symbol symbol at h
  rw [table_ok hfields] at h
  change (if (Dict.get fields (toString id)).getD .null = .null then _ else _) = _ at h
  split_ifs at h with hnull
  obtain rfl := Except.ok.inj h
  cases hvalue : Dict.get fields (toString id) with
  | none =>
    rw [hvalue] at hnull
    exact absurd rfl hnull
  | some value => exact ht.named fields _ value hfields hvalue

/-! ## The opcodes -/

/-- The nodes and claims that the instruction names have been created. -/
def Step.Guarded (manifest : Dict) (step : Step) : Prop :=
  let s := step.before
  let instr := step.instr
  match step.op with
  | .CREATE_CLAIM => (∃ name, require_symbol manifest "claims" instr.target = .ok name) →
      instr.source ∈ s.node_table ∧ instr.param ∈ s.node_table
  | .INTERFERE | .COMPUTE_TENSION | .VERIFY | .ACCEPT | .REJECT | .QUARANTINE =>
      instr.target ∈ s.claim_table
  | _ => True

section Opcodes

variable {manifest : Dict} {pc : ℕ} {instr : Instruction} {s : VMState}

theorem ends_log {n : ℤ} {opcode : String} {details : List (String × Json)} :
    Ends (log n opcode details) s := ⟨(), _, rfl⟩

theorem ends_modify_bind {f : VMState → VMState} {g : Unit → VM Unit} (h : Ends (g ()) (f s)) :
    Ends (modify f >>= g) s := ends_of_ok (modify_apply f) h

theorem ends_reading_bind {α : Type} {f : VMState → Except PyError α} {g : α → VM Unit}
    (hf : ∃ a, f s = .ok a) (hg : ∀ a, f s = .ok a → Ends (g a) s) : Ends (reading f >>= g) s := by
  obtain ⟨a, ha⟩ := hf
  exact ends_of_ok (reading_eq_ok.mpr ⟨ha, rfl⟩) (hg a ha)

theorem raises_reading_bind {α : Type} {f : VMState → Except PyError α} {g : α → VM Unit} {e : PyError}
    (hf : ∀ e', f s = .error e' → e' = e) (hg : ∀ a, f s = .ok a → Raises e (g a) s) :
    Raises e (reading f >>= g) s := by
  unfold reading
  rw [bind_assoc]
  exact raises_of_ok get_apply (raises_ofExcept_bind hf hg)

/-- The end of an opcode: a name is read and the event logged. -/
theorem ends_name_log {f : VMState → Except PyError Json} {n : ℤ} {opcode : String}
    {details : Json → List (String × Json)} (hf : ∃ name, f s = .ok name) :
    Ends (reading f >>= fun name => log n opcode (details name)) s :=
  ends_reading_bind hf fun _ _ => ends_log

theorem require_symbol_error {table : String} {id : ℕ} {e : PyError} (h : HasTable manifest table)
    (herror : require_symbol manifest table id = .error e) : e = .VMError := by
  obtain ⟨fields, hfields⟩ := h
  unfold require_symbol symbol at herror
  rw [table_ok hfields] at herror
  dsimp only [ok_bind] at herror
  change (if _ then _ else _) = _ at herror
  split_ifs at herror
  exact (Except.error.inj herror).symm

theorem create_node_raises (ht : Tables manifest) :
    Raises .VMError (create_node manifest pc instr) s := by
  apply raises_ofExcept_bind
  · exact fun e => require_symbol_error ht.nodes
  · exact fun name _ => raises_of_ends (ends_modify_bind ends_log)

theorem create_edge_raises : Raises .VMError (create_edge pc instr) s := by
  apply raises_of_ok get_apply
  split_ifs with hnodes
  · exact raises_throw
  simp only [Bool.or_eq_true, Bool.not_eq_true', not_or, Bool.not_eq_false,
    TreeMap.contains_iff_mem] at hnodes
  apply raises_ofExcept_bind
  · exact fun e => require_error
  intro type _
  apply raises_of_ends
  apply ends_modify_bind
  apply ends_reading_bind (node_name_ok hnodes.1)
  intro source _
  exact ends_name_log (node_name_ok hnodes.2)

theorem create_claim_raises (ht : Tables manifest)
    (guarded : Step.Guarded manifest ⟨.CREATE_CLAIM, instr, s⟩) :
    Raises .VMError (create_claim manifest pc instr) s := by
  apply raises_ofExcept_bind
  · intro e h
    cases hsymbol : require_symbol manifest "claims" instr.target with
    | error e' =>
      rw [hsymbol] at h
      obtain rfl := Except.error.inj h
      exact require_symbol_error ht.claims hsymbol
    | ok value =>
      obtain ⟨entry, name, rfl, hname⟩ := ht.value_named hsymbol
      rw [hsymbol] at h
      change Dict.item entry "name" = _ at h
      rw [Dict.item_eq_ok.mpr hname] at h
      cases h
  · intro name hname
    obtain ⟨value, hvalue, -⟩ := Bogbin.bind_eq_ok.mp hname
    obtain ⟨hsource, htarget⟩ := guarded ⟨value, hvalue⟩
    apply raises_of_ends
    apply ends_modify_bind
    apply ends_reading_bind (node_name_ok hsource)
    intro source _
    exact ends_name_log (node_name_ok htarget)

theorem activate_raises : Raises .VMError (activate pc instr) s := by
  apply raises_of_ok get_apply
  split_ifs with hnode hstrength
  · exact raises_throw
  · exact raises_throw
  rw [Bool.not_eq_true', Bool.not_eq_false, TreeMap.contains_iff_mem] at hnode
  apply raises_of_ends
  apply ends_modify_bind
  exact ends_name_log (node_name_ok hnode)

theorem propagate_raises (hs : Linked s) : Raises .VMError (propagate pc instr) s := by
  apply raises_ofExcept_bind
  · exact fun e => require_error
  intro type _
  apply raises_of_ok get_apply
  apply raises_ofExcept_bind
  · exact fun e => ticks_error hs
  rintro ⟨cumulative, total_energy, reached⟩ hticks
  have hreached := ticks_reached hs (fun _ hnode => (List.not_mem_nil hnode).elim) hticks
  apply raises_of_ends
  apply ends_modify_bind
  apply ends_reading_bind
  · split_ifs with hnode
    · exact node_name_ok (TreeMap.contains_iff_mem.mp hnode)
    · exact ⟨_, rfl⟩
  intro source _
  apply ends_reading_bind
  · exact exists_mapM_eq_ok fun node hnode => node_name_ok (hreached node hnode)
  · exact fun nodes_reached _ => ends_log

theorem decay_raises : Raises .VMError (decay pc instr) s := by
  unfold decay
  split_ifs
  · exact raises_throw
  · exact raises_of_ends (ends_modify_bind ends_log)

theorem interfere_raises (hs : Linked s) (claimed : instr.target ∈ s.claim_table) :
    Raises .VMError (interfere pc instr) s := by
  apply raises_of_ends
  apply ends_reading_bind (lookup_ok claimed)
  intro claim _
  apply ends_reading_bind (pressure_of_ok hs claim.target)
  intro pressure _
  apply ends_modify_bind
  exact ends_name_log (claim_name_ok claimed)

theorem compute_tension_raises (claimed : instr.target ∈ s.claim_table) :
    Raises .VMError (compute_tension pc instr) s := by
  apply raises_of_ok get_apply
  apply raises_of_ends
  apply ends_modify_bind
  exact ends_name_log (claim_name_ok claimed)

theorem verify_raises (hs : Linked s) (claimed : instr.target ∈ s.claim_table) :
    Raises .VMError (verify pc instr) s := by
  apply raises_of_ends
  apply ends_reading_bind (verify_claim_ok hs claimed)
  intro status _
  apply ends_modify_bind
  exact ends_name_log (claim_name_ok claimed)

theorem accept_raises (claimed : instr.target ∈ s.claim_table) :
    Raises .VMError (accept pc instr) s := by
  apply raises_of_ok get_apply
  dsimp only
  split_ifs
  · apply raises_of_ends
    apply ends_modify_bind
    apply ends_of_ok get_apply
    exact ends_name_log (claim_name_ok claimed)
  · obtain ⟨name, hname⟩ := claim_name_ok claimed
    apply raises_reading_bind
    · intro e h
      rw [hname] at h
      cases h
    · exact fun name _ => raises_throw
  · apply raises_of_ends
    apply ends_modify_bind
    exact ends_name_log (claim_name_ok claimed)

theorem reject_raises (claimed : instr.target ∈ s.claim_table) :
    Raises .VMError (reject pc instr) s :=
  raises_of_ends (ends_modify_bind (ends_name_log (claim_name_ok claimed)))

theorem quarantine_raises (claimed : instr.target ∈ s.claim_table) :
    Raises .VMError (quarantine pc instr) s :=
  raises_of_ends (ends_modify_bind (ends_name_log (claim_name_ok claimed)))

theorem declare_basis_raises (ht : Tables manifest) :
    Raises .VMError (declare_basis manifest pc instr) s := by
  apply raises_ofExcept_bind
  · exact fun e => require_symbol_error ht.constants
  intro value _
  split
  · apply raises_ofExcept_bind
    · exact fun e => require_error
    · exact fun basis _ => raises_of_ends (ends_modify_bind ends_log)
  · exact raises_throw

theorem load_coefficients_raises (ht : Tables manifest) :
    Raises .VMError (load_coefficients manifest pc instr) s := by
  apply raises_ofExcept_bind
  · exact fun e => require_symbol_error ht.data_blocks
  intro name _
  split_ifs
  · exact raises_throw
  · exact raises_throw
  · exact raises_of_ends (ends_modify_bind ends_log)

/-- An opcode that starts with the block of its target. -/
theorem block_raises {g : DataBlock → VM Unit} (hg : ∀ block, Raises .VMError (g block) s) :
    Raises .VMError (block_of instr >>= g) s := by
  apply raises_reading_bind
  · exact fun e => require_error
  · exact fun block _ => hg block

theorem synthesized_error {block : DataBlock} {e : PyError} (h : synthesized block = .error e) :
    e = .VMError := by
  unfold synthesized at h
  split at h
  · exact (Except.error.inj h).symm
  · split at h
    · cases h
    · exact (Except.error.inj h).symm

theorem synthesize_raises : Raises .VMError (synthesize pc instr) s := by
  apply block_raises
  intro block
  apply raises_ofExcept_bind
  · exact fun e => synthesized_error
  · exact fun bytes _ => raises_of_ends (ends_modify_bind ends_log)

theorem verify_hash_raises (ht : Tables manifest) :
    Raises .VMError (verify_hash manifest pc instr) s := by
  apply block_raises
  intro block
  apply raises_ofExcept_bind
  · exact fun e => require_symbol_error ht.constants
  · exact fun expected_hash _ => raises_of_ends (ends_modify_bind ends_log)

theorem accept_data_raises : Raises .VMError (accept_data pc instr) s := by
  apply block_raises
  intro block
  apply raises_of_ok get_apply
  split_ifs
  · exact raises_throw
  · exact raises_of_ends (ends_modify_bind ends_log)

theorem reject_data_raises : Raises .VMError (reject_data pc instr) s := by
  apply block_raises
  intro block
  apply raises_of_ok get_apply
  split_ifs
  · exact raises_throw
  · exact raises_of_ends (ends_modify_bind ends_log)

theorem store_residual_raises : Raises .VMError (store_residual pc instr) s := by
  apply block_raises
  intro block
  split_ifs
  · exact raises_throw
  · exact raises_throw
  · exact raises_of_ends (ends_modify_bind ends_log)

theorem apply_patch_error {data : Bytes} {patch : Patch} {e : PyError}
    (h : apply_patch data patch = .error e) : e = .VMError := by
  unfold apply_patch at h
  split_ifs at h
  exact (Except.error.inj h).symm

theorem apply_residual_raises : Raises .VMError (apply_residual pc instr) s := by
  apply block_raises
  intro block
  apply raises_ofExcept_bind
  · exact fun e => foldlM_error fun _ _ _ _ => apply_patch_error
  · exact fun data _ => raises_of_ends (ends_modify_bind ends_log)

/-- A guarded instruction raises nothing but `VMError`, and then it leaves the state. -/
theorem execute_raises {op : Op} (ht : Tables manifest) (hs : Linked s)
    (guarded : Step.Guarded manifest ⟨op, instr, s⟩) :
    Raises .VMError (execute manifest pc instr op) s := by
  cases op with
  | NOOP => exact raises_of_ends ends_log
  | HALT => exact raises_of_ends ends_log
  | CREATE_NODE => exact create_node_raises ht
  | CREATE_EDGE => exact create_edge_raises
  | CREATE_CLAIM => exact create_claim_raises ht guarded
  | ACTIVATE => exact activate_raises
  | PROPAGATE => exact propagate_raises hs
  | DECAY => exact decay_raises
  | INTERFERE => exact interfere_raises hs guarded
  | COMPUTE_TENSION => exact compute_tension_raises guarded
  | VERIFY => exact verify_raises hs guarded
  | ACCEPT => exact accept_raises guarded
  | REJECT => exact reject_raises guarded
  | QUARANTINE => exact quarantine_raises guarded
  | LOG_RECEIPT => exact raises_of_ends ends_log
  | EMIT_RECEIPT => exact raises_of_ends (ends_modify_bind ends_log)
  | DECLARE_BASIS => exact declare_basis_raises ht
  | LOAD_COEFFICIENTS => exact load_coefficients_raises ht
  | SYNTHESIZE => exact synthesize_raises
  | VERIFY_HASH => exact verify_hash_raises ht
  | ACCEPT_DATA => exact accept_data_raises
  | STORE_RESIDUAL => exact store_residual_raises
  | APPLY_RESIDUAL => exact apply_residual_raises
  | REJECT_DATA => exact reject_data_raises

/-! ## Instructions that are not guarded -/

/-- A computation raises `KeyError`. -/
def KeyRaises {α : Type} (x : VM α) (s : VMState) : Prop := ∃ s', x s = .error .KeyError s'

theorem keyRaises_of_ok {α β : Type} {x : VM α} {f : α → VM β} {s s₁ : VMState} {a : α}
    (hx : x s = .ok a s₁) (hf : KeyRaises (f a) s₁) : KeyRaises (x >>= f) s := by
  unfold KeyRaises
  rw [bind_of_ok hx]
  exact hf

theorem keyRaises_reading_bind {α β : Type} {f : VMState → Except PyError α} {g : α → VM β}
    {s : VMState} (hf : f s = .error .KeyError) : KeyRaises (reading f >>= g) s := by
  refine ⟨s, bind_of_error ?_⟩
  unfold reading
  rw [bind_of_ok get_apply, hf]
  rfl

theorem lookup_error {α : Type} {table : TreeMap ℕ α} {key : ℕ} (h : key ∉ table) :
    lookup table key = .error .KeyError := by
  unfold lookup
  rw [TreeMap.getElem?_eq_none h]

theorem node_name_error {id : ℕ} (h : id ∉ s.node_table) : s.node_name id = .error .KeyError := by
  unfold VMState.node_name
  rw [lookup_error h]
  rfl

theorem claim_name_error {id : ℕ} (h : id ∉ s.claim_table) : s.claim_name id = .error .KeyError := by
  unfold VMState.claim_name
  rw [lookup_error h]
  rfl

theorem create_claim_key_raises (ht : Tables manifest)
    (h : ¬ Step.Guarded manifest ⟨.CREATE_CLAIM, instr, s⟩) :
    KeyRaises (create_claim manifest pc instr) s := by
  obtain ⟨⟨value, hvalue⟩, hnodes⟩ := Classical.not_imp.mp h
  obtain ⟨entry, name, rfl, hname⟩ := ht.value_named hvalue
  have hread : (require_symbol manifest "claims" instr.target >>= name_of) = .ok name :=
    Bogbin.bind_eq_ok.mpr ⟨_, hvalue, Dict.item_eq_ok.mpr hname⟩
  apply keyRaises_of_ok (ofExcept_eq_ok.mpr ⟨hread, rfl⟩)
  apply keyRaises_of_ok (modify_apply _)
  by_cases hsource : instr.source ∈ s.node_table
  · obtain ⟨source, hsource'⟩ := node_name_ok hsource
    apply keyRaises_of_ok (reading_eq_ok.mpr ⟨hsource', rfl⟩)
    exact keyRaises_reading_bind (node_name_error fun htarget => hnodes ⟨hsource, htarget⟩)
  · exact keyRaises_reading_bind (node_name_error hsource)

theorem accept_key_raises (h : instr.target ∉ s.claim_table) : KeyRaises (accept pc instr) s := by
  apply keyRaises_of_ok get_apply
  dsimp only
  split_ifs
  · apply keyRaises_of_ok (modify_apply _)
    apply keyRaises_of_ok get_apply
    exact keyRaises_reading_bind (claim_name_error h)
  · exact keyRaises_reading_bind (claim_name_error h)
  · apply keyRaises_of_ok (modify_apply _)
    exact keyRaises_reading_bind (claim_name_error h)

/-- An instruction that is not guarded raises `KeyError`. -/
theorem execute_key_raises {op : Op} (ht : Tables manifest)
    (h : ¬ Step.Guarded manifest ⟨op, instr, s⟩) : KeyRaises (execute manifest pc instr op) s := by
  cases op with
  | CREATE_CLAIM => exact create_claim_key_raises ht h
  | INTERFERE => exact keyRaises_reading_bind (lookup_error h)
  | COMPUTE_TENSION =>
    apply keyRaises_of_ok get_apply
    apply keyRaises_of_ok (modify_apply _)
    exact keyRaises_reading_bind (claim_name_error h)
  | VERIFY =>
    apply keyRaises_reading_bind
    unfold verify_claim
    rw [lookup_error h]
    rfl
  | ACCEPT => exact accept_key_raises h
  | REJECT =>
    apply keyRaises_of_ok (modify_apply _)
    exact keyRaises_reading_bind (claim_name_error h)
  | QUARANTINE =>
    apply keyRaises_of_ok (modify_apply _)
    exact keyRaises_reading_bind (claim_name_error h)
  | _ => exact absurd trivial h

end Opcodes

/-! ## The runs -/

/-- Every instruction that a run reaches is guarded. -/
def AllGuarded (manifest : Dict) (instructions : List Instruction) : Prop :=
  ∀ past s, Runs manifest instructions past s → (∀ step ∈ past, step.op ≠ .HALT) →
    ∀ instr op, instructions[past.length]? = some instr → OP_NAMES instr.opcode = some op →
      Step.Guarded manifest ⟨op, instr, s⟩

section Runs

variable {manifest : Dict} {instructions rest : List Instruction} {past : List Step} {s s' : VMState}
  {e : PyError}

theorem loop_raises (ht : Tables manifest) (guarded : AllGuarded manifest instructions)
    (hrest : past.map (·.instr) ++ rest = instructions) (hs : Reached manifest past s)
    (running : ∀ step ∈ past, step.op ≠ .HALT) (h : loop manifest past.length rest s = .error e s') :
    e = .VMError ∧ ∃ past, Reached manifest past s' := by
  induction rest generalizing past s with
  | nil =>
    obtain ⟨he, rfl⟩ := EStateM.Result.error.inj h
    exact ⟨he.symm, past, hs⟩
  | cons instr rest ih =>
    unfold loop at h
    rcases ofExcept_bind_eq_error.mp h with ⟨hop, rfl⟩ | ⟨op, hop, h⟩
    · exact ⟨require_error hop, past, hs⟩
    have named := require_eq_ok.mp hop
    have hnext : instructions[past.length]? = some instr := by
      rw [← hrest, List.getElem?_append_right (by simp)]
      simp
    have hguarded := guarded past s ⟨hs, instr :: rest, hrest⟩ running instr op hnext named
    rcases StateExcept.bind_eq_error.mp h with hcall | ⟨u, s₁, hcall, h⟩
    · obtain ⟨he, rfl⟩ := execute_raises ht (reached_linked hs) hguarded _ _ hcall
      exact ⟨he, past, hs⟩
    · split_ifs at h with hhalt
      · cases h
      · have hlength : past.length + 1 = (past ++ [Step.mk op instr s]).length := by simp
        rw [hlength] at h
        refine ih ?_ (.step hs running named hcall) (not_halt_append running hhalt) h
        rw [List.map_append, List.append_assoc]
        exact hrest

/-- The loop goes through every reached state. -/
theorem loop_of_reached (hs : Reached manifest past s) (running : ∀ step ∈ past, step.op ≠ .HALT)
    (rest : List Instruction) :
    loop manifest 0 (past.map (·.instr) ++ rest) .initial = loop manifest past.length rest s := by
  induction hs generalizing rest with
  | start => rfl
  | @step past s s' op instr hs _ named call ih =>
    have hhalt : op ≠ .HALT := running ⟨op, instr, s⟩ (by simp)
    rw [List.map_append, List.append_assoc,
      ih fun step hmem => running step (List.mem_append_left _ hmem), List.length_append]
    change loop manifest past.length (instr :: rest) s = _
    rw [loop, bind_of_ok (ofExcept_eq_ok.mpr ⟨require_eq_ok.mpr named, rfl⟩), bind_of_ok call,
      if_neg hhalt]
    rfl

/-- A run that reaches an instruction which is not guarded raises `KeyError`. -/
theorem loop_key_raises (ht : Tables manifest) (h : ¬ AllGuarded manifest instructions) :
    ∃ s', loop manifest 0 instructions .initial = .error .KeyError s' := by
  unfold AllGuarded at h
  push Not at h
  obtain ⟨past, s, ⟨hs, rest, hrest⟩, running, instr, op, hnext, named, hguarded⟩ := h
  obtain ⟨s', hcall⟩ := @execute_key_raises manifest past.length instr s op ht hguarded
  have hcons : ∃ rest', rest = instr :: rest' := by
    rw [← hrest, List.getElem?_append_right (by simp)] at hnext
    cases rest with
    | nil => cases hnext
    | cons i rest' =>
      have hi : i = instr := by simpa using hnext
      exact ⟨rest', by rw [hi]⟩
  obtain ⟨rest', rfl⟩ := hcons
  refine ⟨s', ?_⟩
  rw [← hrest, loop_of_reached hs running, loop,
    bind_of_ok (ofExcept_eq_ok.mpr ⟨require_eq_ok.mpr named, rfl⟩), bind_of_error hcall]

/-- A receipt with the status of a run that ended or was blocked. -/
def HasStatus (receipt : Dict) (code : ℕ) : Prop :=
  Dict.get receipt "execution_status" = some (.str "completed") ∧ code = 0 ∨
    Dict.get receipt "execution_status" = some (.str "blocked") ∧ code = 1

/-- A run of guarded instructions returns a receipt or raises `VMError`, in a state with a receipt. -/
theorem run_of_guarded (ht : Tables manifest) (program_hash : String)
    (guarded : AllGuarded manifest instructions) :
    (∃ receipt s, run manifest program_hash instructions .initial = .ok receipt s) ∨
      ∃ s, run manifest program_hash instructions .initial = .error .VMError s ∧ Named s := by
  cases hloop : loop manifest 0 instructions .initial with
  | ok n s =>
    obtain ⟨receipt, s', hrun, -⟩ := run_of_loop program_hash ht.data_blocks hloop
    exact .inl ⟨receipt, s', hrun⟩
  | error e s =>
    obtain ⟨rfl, past, hs⟩ := @loop_raises _ _ _ [] _ _ _ ht guarded rfl .start (by simp) hloop
    refine .inr ⟨s, ?_, reached_named hs⟩
    unfold run
    rw [bind_of_error hloop]

theorem run_of_not_guarded (ht : Tables manifest) (program_hash : String)
    (h : ¬ AllGuarded manifest instructions) :
    ∃ s, run manifest program_hash instructions .initial = .error .KeyError s := by
  obtain ⟨s, hloop⟩ := loop_key_raises ht h
  refine ⟨s, ?_⟩
  unfold run
  rw [bind_of_error hloop]

/-- A run returns a receipt or raises `VMError` exactly when every instruction that it reaches is
guarded. -/
theorem run_receipted_iff (ht : Tables manifest) (program_hash : String) :
    ((∃ receipt s, run manifest program_hash instructions .initial = .ok receipt s) ∨
      ∃ s, run manifest program_hash instructions .initial = .error .VMError s) ↔
      AllGuarded manifest instructions := by
  constructor
  · intro h
    by_contra hguarded
    obtain ⟨s', hrun⟩ := run_of_not_guarded ht program_hash hguarded
    rw [hrun] at h
    rcases h with ⟨_, _, h⟩ | ⟨_, h⟩
    · cases h
    · cases h
  · intro guarded
    rcases run_of_guarded ht program_hash guarded with hrun | ⟨s, hrun, -⟩
    · exact .inl hrun
    · exact .inr ⟨s, hrun⟩

/-- The receipt of a blocked run is built as well. -/
theorem block_receipt_iff (ht : Tables manifest) (program_hash : String) :
    (∃ receipt code, run_with_block_receipt manifest program_hash instructions = .ok (receipt, code) ∧
      HasStatus receipt code) ↔ AllGuarded manifest instructions := by
  unfold run_with_block_receipt
  constructor
  · rintro ⟨receipt, code, h, -⟩
    by_contra hguarded
    obtain ⟨s', hrun⟩ := run_of_not_guarded ht program_hash hguarded
    rw [hrun] at h
    cases h
  · intro guarded
    rcases run_of_guarded ht program_hash guarded with ⟨receipt, s, hrun⟩ | ⟨s, hrun, hnamed⟩
    · rw [hrun]
      exact ⟨_, 0, rfl, .inl ⟨Dict.get_set_self, rfl⟩⟩
    · obtain ⟨receipt, hreceipt⟩ := receipt_exists (s := s.logged (-1) "BLOCKED_EXECUTION" [])
        program_hash ⟨hnamed.accepted, hnamed.rejected, hnamed.quarantined⟩ ht.data_blocks
      rw [hrun]
      dsimp only
      rw [hreceipt]
      exact ⟨_, 1, rfl, .inr ⟨Dict.get_set_self, rfl⟩⟩

end Runs

end Bogbin.Vm
