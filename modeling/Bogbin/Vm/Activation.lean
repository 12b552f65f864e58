import Bogbin.Library.WeightedSum
import Bogbin.Vm.Raising

/-!
# The range of activations

Every edge has the weight `SCALE`, so a wave loses nothing on its way and brings a node the activation
of the source once for every walk to it (`propagate_value_le_iff`).  Activations stay in the range of
`ACTIVATE` in a run whose propagations are `Damped`: no node has too many walks from the source.
-/

namespace Bogbin.Vm

open Bogvm StateExcept WeightedSum
open Std (TreeMap)

/-- Every activation is at most `SCALE`. -/
def InRange (activation : TreeMap ℕ ℕ) : Prop :=
  ∀ (id value : ℕ), activation[id]? = some value → value ≤ SCALE

/-! ## Walks -/

/-- The targets of the edges of this type among these ids. -/
def targets_of (s : VMState) (type : EdgeType) (edges : List ℕ) : List ℕ :=
  ((edges.filterMap fun id => s.edge_table[id]?).filter fun edge => edge.type = type).map (·.target)

def out_targets (s : VMState) (type : EdgeType) (node : ℕ) : List ℕ :=
  targets_of s type ((s.adjacency_out[node]?).getD [])

/-- The number of walks of this length over edges of a type. -/
def walks (s : VMState) (type : EdgeType) : ℕ → ℕ → ℕ → ℕ
  | 0, source, target => if source = target then 1 else 0
  | length + 1, source, target =>
    ((out_targets s type source).map fun node => walks s type length node target).sum

/-- A `PROPAGATE` brings no node above `SCALE`: the activation of the source times the number of walks
of any length up to the depth. -/
def Step.Damped (step : Step) : Prop :=
  match step.op, EDGE_TYPE_NAMES step.instr.flags with
  | .PROPAGATE, some type =>
    ∀ length < step.instr.param, ∀ node ∈ step.before.node_table.keys,
      value step.before.activation_current step.instr.source *
        walks step.before type (length + 1) step.instr.source node ≤ SCALE
  | _, _ => True

instance (step : Step) : Decidable step.Damped := by
  obtain ⟨op, instr, before⟩ := step
  unfold Step.Damped
  cases op <;> cases EDGE_TYPE_NAMES instr.flags <;> infer_instance

/-- The sum of a weight over the targets of a node. -/
def spread (s : VMState) (type : EdgeType) (g : ℕ → ℕ) (node : ℕ) : ℕ :=
  ((out_targets s type node).map g).sum

section Walks

variable {s : VMState} {type : EdgeType} {w w' : Wave} {g : ℕ → ℕ}

theorem walks_eq_spread (length target : ℕ) :
    (fun source => walks s type length source target) = (spread s type)^[length] (at_key target) := by
  induction length with
  | zero => rfl
  | succ length ih =>
    rw [Function.iterate_succ_apply', ← ih]
    rfl

theorem mem_targets_of {edges : List ℕ} {node : ℕ} :
    node ∈ targets_of s type edges ↔ ∃ (id : ℕ) (edge : Edge), id ∈ edges ∧
      s.edge_table[id]? = some edge ∧ edge.type = type ∧ edge.target = node := by
  unfold targets_of
  constructor
  · intro h
    obtain ⟨edge, hedge, hnode⟩ := List.mem_map.mp h
    obtain ⟨hedge, htype⟩ := List.mem_filter.mp hedge
    obtain ⟨id, hid, hlookup⟩ := List.mem_filterMap.mp hedge
    exact ⟨id, edge, hid, hlookup, of_decide_eq_true htype, hnode⟩
  · rintro ⟨id, edge, hid, hlookup, htype, hnode⟩
    exact List.mem_map.mpr ⟨edge, List.mem_filter.mpr
      ⟨List.mem_filterMap.mpr ⟨id, hid, hlookup⟩, decide_eq_true htype⟩, hnode⟩

/-- No walk ends at a node that was not created. -/
theorem walks_eq_zero (hs : Linked s) {target : ℕ} (h : target ∉ s.node_table) (length source : ℕ) :
    walks s type (length + 1) source target = 0 := by
  induction length generalizing source with
  | zero =>
    refine List.sum_eq_zero fun n hn => ?_
    obtain ⟨node, hnode, rfl⟩ := List.mem_map.mp hn
    obtain ⟨id, edge, -, hedge, -, rfl⟩ := mem_targets_of.mp hnode
    refine if_neg fun heq => h ?_
    rw [← heq]
    exact hs.targets id edge hedge
  | succ length ih =>
    refine List.sum_eq_zero fun n hn => ?_
    obtain ⟨node, -, rfl⟩ := List.mem_map.mp hn
    exact ih node

/-! ## Waves -/

/-- Every edge has the weight of `CREATE_EDGE`. -/
def FullWeights (s : VMState) : Prop :=
  ∀ (id : ℕ) (edge : Edge), s.edge_table[id]? = some edge → edge.weight = SCALE

theorem propagate_edge_weigh {activation edge_id : ℕ} (hs : FullWeights s)
    (h : propagate_edge s type activation w edge_id = .ok w') :
    weigh g w'.scratch =
      weigh g w.scratch + activation * ((targets_of s type [edge_id]).map g).sum := by
  unfold propagate_edge at h
  obtain ⟨edge, hlookup, h⟩ := Bogbin.bind_eq_ok.mp h
  have hedge := lookup_eq_ok.mp hlookup
  have hvalue : activation * edge.weight / SCALE = activation := by
    rw [hs edge_id edge hedge]
    exact Nat.mul_div_cancel activation (by decide)
  have htargets : targets_of s type [edge_id] = if edge.type = type then [edge.target] else [] := by
    unfold targets_of
    rw [List.filterMap_cons, hedge, List.filterMap_nil]
    by_cases htype : edge.type = type
    · simp [htype]
    · simp [htype]
  dsimp only at h
  rw [hvalue] at h
  rw [htargets]
  split_ifs at h with htype hzero
  · rw [if_neg htype, ← Except.ok.inj h]
    rfl
  · rw [hzero, ← Except.ok.inj h]
    omega
  · rw [if_pos (not_not.mp htype), ← Except.ok.inj h, List.map_singleton, List.sum_singleton]
    exact weigh_add_to

theorem targets_of_cons (s : VMState) (type : EdgeType) (edge_id : ℕ) (edges : List ℕ) :
    targets_of s type (edge_id :: edges) = targets_of s type [edge_id] ++ targets_of s type edges := by
  unfold targets_of
  rw [← List.singleton_append, List.filterMap_append, List.filter_append, List.map_append]

theorem propagate_edges_weigh {activation : ℕ} {edges : List ℕ} (hs : FullWeights s)
    (h : edges.foldlM (propagate_edge s type activation) w = .ok w') :
    weigh g w'.scratch = weigh g w.scratch + activation * ((targets_of s type edges).map g).sum := by
  induction edges generalizing w with
  | nil =>
    obtain rfl := Except.ok.inj h
    rfl
  | cons edge_id edges ih =>
    rw [List.foldlM_cons] at h
    obtain ⟨w₁, hedge, h⟩ := Bogbin.bind_eq_ok.mp h
    rw [ih h, propagate_edge_weigh hs hedge, targets_of_cons s type edge_id edges, List.map_append,
      List.sum_append, Nat.mul_add, Nat.add_assoc]

theorem targets_of_perm {edges edges' : List ℕ} (h : edges.Perm edges') :
    (targets_of s type edges).Perm (targets_of s type edges') :=
  ((h.filterMap _).filter _).map _

theorem propagate_node_weigh {entry : ℕ × ℕ} (hs : FullWeights s)
    (h : propagate_node s type w entry = .ok w') :
    weigh g w'.scratch = weigh g w.scratch + entry.2 * spread s type g entry.1 := by
  unfold propagate_node at h
  split_ifs at h with hzero
  · rw [hzero, ← Except.ok.inj h]
    omega
  · have hperm := @targets_of_perm s type _ _
      (List.mergeSort_perm ((s.adjacency_out[entry.1]?).getD []) (· ≤ ·))
    rw [propagate_edges_weigh hs h, (hperm.map g).sum_eq]
    rfl

theorem propagate_nodes_weigh {frontier : List (ℕ × ℕ)} (hs : FullWeights s)
    (h : frontier.foldlM (propagate_node s type) w = .ok w') :
    weigh g w'.scratch =
      weigh g w.scratch + (frontier.map fun entry => entry.2 * spread s type g entry.1).sum := by
  induction frontier generalizing w with
  | nil =>
    obtain rfl := Except.ok.inj h
    rfl
  | cons entry frontier ih =>
    rw [List.foldlM_cons] at h
    obtain ⟨w₁, hentry, h⟩ := Bogbin.bind_eq_ok.mp h
    rw [ih h, propagate_node_weigh hs hentry, List.map_cons, List.sum_cons, Nat.add_assoc]

/-- The wave of a tick. -/
theorem tick_weigh {frontier : TreeMap ℕ ℕ} {total_energy : ℕ} {reached : List ℕ} (hs : FullWeights s)
    (h : frontier.toList.foldlM (propagate_node s type) ⟨total_energy, ∅, reached⟩ = .ok w) :
    weigh g w.scratch = weigh (spread s type g) frontier := by
  rw [propagate_nodes_weigh hs h, weigh_empty, Nat.zero_add, weigh]

/-! ## The cumulative field -/

theorem value_insert (t : TreeMap ℕ ℕ) (key id x : ℕ) :
    value (t.insert key x) id = if key = id then x else value t id := by
  unfold value
  rw [getElem?_insert_eq]
  split_ifs
  · rfl
  · rfl

/-- A value is bounded when there is a bound on its entry. -/
theorem value_le_iff {t : TreeMap ℕ ℕ} {id bound : ℕ} :
    value t id ≤ bound ↔ ∀ entry ∈ t.toList, entry.1 = id → entry.2 ≤ bound := by
  constructor
  · rintro h ⟨key, x⟩ hmem rfl
    rwa [value, TreeMap.mem_toList_iff_getElem?_eq_some.mp hmem] at h
  · intro h
    unfold value
    cases hid : t[id]? with
    | none => exact Nat.zero_le bound
    | some x => exact h (id, x) (TreeMap.mem_toList_iff_getElem?_eq_some.mpr hid) rfl

theorem foldl_max_value_le_iff {entries : List (ℕ × ℕ)} {table : TreeMap ℕ ℕ} {id bound : ℕ} :
    value (entries.foldl (fun table entry =>
        table.insert entry.1 (max ((table[entry.1]?).getD 0) entry.2)) table) id ≤ bound ↔
      value table id ≤ bound ∧ ∀ entry ∈ entries, entry.1 = id → entry.2 ≤ bound := by
  induction entries generalizing table with
  | nil => simp
  | cons entry entries ih =>
    rw [List.foldl_cons, ih, value_insert, List.forall_mem_cons, ← and_assoc]
    refine and_congr_left fun _ => ?_
    by_cases heq : entry.1 = id
    · simp [value, heq]
    · simp [heq]

/-- The bounds of the field are those of the old field and of the wave. -/
theorem cumulate_value_le_iff {cumulative scratch : TreeMap ℕ ℕ} {id bound : ℕ} :
    value (cumulate cumulative scratch) id ≤ bound ↔
      value cumulative id ≤ bound ∧ value scratch id ≤ bound := by
  unfold cumulate
  rw [foldl_max_value_le_iff, ← value_le_iff]

/-- The bounds of the activations after a propagation: those before it and those of its waves. -/
theorem ticks_value_le_iff {depth : ℕ} {cumulative frontier : TreeMap ℕ ℕ} {total_energy id bound : ℕ}
    {reached : List ℕ} {result : TreeMap ℕ ℕ × ℕ × List ℕ} (hs : FullWeights s)
    (h : ticks s type depth cumulative frontier total_energy reached = .ok result) :
    value result.1 id ≤ bound ↔ value cumulative id ≤ bound ∧
      ∀ length < depth, weigh ((spread s type)^[length + 1] (at_key id)) frontier ≤ bound := by
  induction depth generalizing cumulative frontier total_energy reached with
  | zero =>
    obtain rfl := Except.ok.inj h
    simp
  | succ depth ih =>
    unfold ticks at h
    obtain ⟨w, hwave, h⟩ := Bogbin.bind_eq_ok.mp h
    have hscratch (g : ℕ → ℕ) : weigh g w.scratch = weigh (spread s type g) frontier :=
      tick_weigh hs hwave
    rw [ih h, cumulate_value_le_iff, value_eq_weigh w.scratch, hscratch, and_assoc,
      Nat.forall_lt_succ_left']
    simp only [hscratch, ← Function.iterate_succ_apply']
    rfl

/-! ## The instructions -/

theorem inRange_iff {activation : TreeMap ℕ ℕ} :
    InRange activation ↔ ∀ id, value activation id ≤ SCALE := by
  constructor
  · intro h id
    unfold value
    cases hid : activation[id]? with
    | none => exact Nat.zero_le SCALE
    | some x => exact h id x hid
  · intro h id x hid
    have hvalue := h id
    rwa [value, hid] at hvalue

theorem inRange_empty : InRange ∅ := fun _ _ h => (getElem?_empty_ne h).elim

theorem InRange.insert {activation : TreeMap ℕ ℕ} {id x : ℕ} (h : InRange activation) (hx : x ≤ SCALE) :
    InRange (activation.insert id x) := by
  rw [inRange_iff] at h ⊢
  intro key
  rw [value_insert]
  split_ifs
  · exact hx
  · exact h key

theorem InRange.decayed {activation : TreeMap ℕ ℕ} {factor : ℕ} (h : InRange activation)
    (hfactor : factor ≤ SCALE) :
    InRange (activation.toList.foldl (fun decayed entry =>
      let value := entry.2 * factor / SCALE
      if 0 < value then decayed.insert entry.1 value else decayed) ∅) := by
  refine List.foldlRecOn activation.toList _ inRange_empty ?_
  rintro decayed hdecayed ⟨id, x⟩ hmem
  dsimp only
  split_ifs
  · have hx := h id x (TreeMap.mem_toList_iff_getElem?_eq_some.mp hmem)
    refine hdecayed.insert ?_
    calc x * factor / SCALE ≤ SCALE * SCALE / SCALE := Nat.div_le_div_right (Nat.mul_le_mul hx hfactor)
      _ = SCALE := by decide
  · exact hdecayed

variable {depth total_energy source : ℕ} {cumulative : TreeMap ℕ ℕ} {reached : List ℕ}

/-- The bounds of the activations after `PROPAGATE`. -/
theorem propagate_value_le_iff {id bound : ℕ} (hs : FullWeights s)
    (h : ticks s type depth s.activation_current
      ((∅ : TreeMap ℕ ℕ).insert source ((s.activation_current[source]?).getD 0)) 0 [] =
        .ok (cumulative, total_energy, reached)) :
    value cumulative id ≤ bound ↔ value s.activation_current id ≤ bound ∧
      ∀ length < depth,
        value s.activation_current source * walks s type (length + 1) source id ≤ bound := by
  rw [ticks_value_le_iff hs h]
  simp only [weigh_single, ← walks_eq_spread]
  rfl

theorem propagate_inRange_iff (hs : FullWeights s) (hlinked : Linked s)
    (hrange : InRange s.activation_current)
    (h : ticks s type depth s.activation_current
      ((∅ : TreeMap ℕ ℕ).insert source ((s.activation_current[source]?).getD 0)) 0 [] =
        .ok (cumulative, total_energy, reached)) :
    InRange cumulative ↔ ∀ length < depth, ∀ node ∈ s.node_table.keys,
      value s.activation_current source * walks s type (length + 1) source node ≤ SCALE := by
  rw [inRange_iff] at hrange ⊢
  simp only [propagate_value_le_iff hs h]
  constructor
  · intro hvalue length hlength node _
    exact (hvalue node).2 length hlength
  · intro hwalks node
    refine ⟨hrange node, fun length hlength => ?_⟩
    by_cases hnode : node ∈ s.node_table
    · exact hwalks length hlength node (TreeMap.mem_keys.mpr hnode)
    · rw [walks_eq_zero hlinked hnode]
      exact Nat.zero_le SCALE

end Walks

/-! ## The runs -/

section Step

variable {manifest : Dict} {past : List Step} {s s' : VMState} {op : Op} {instr : Instruction}

theorem fullWeights_initial : FullWeights .initial := fun _ _ h => (getElem?_empty_ne h).elim

theorem fullWeights_step (h : FullWeights s) (executed : Executed manifest instr op s s') :
    FullWeights s' := by
  obtain ⟨s₁, n, opcode, details, heffect, rfl⟩ := executed
  cases heffect with
  | create_edge _ _ _ =>
    intro id edge hedge
    simp only [VMState.logged_edge_table, getElem?_insert_eq] at hedge
    split_ifs at hedge
    · rw [← Option.some.inj hedge]
    · exact h id edge hedge
  | _ => exact h

theorem reached_fullWeights (h : Reached manifest past s) : FullWeights s :=
  @Reached.invariant manifest past s (fun _ => FullWeights) (fun _ _ => True) fullWeights_initial
    (fun h _ => fullWeights_step h) h fun _ _ _ => trivial

theorem damped_of_ne (hop : op ≠ .PROPAGATE) : Step.Damped ⟨op, instr, s⟩ := by
  unfold Step.Damped
  split
  · exact (hop (by assumption)).elim
  · trivial

/-- From a state in range, the damped steps are those to a state in range. -/
theorem inRange_step_iff (hs : FullWeights s) (hlinked : Linked s) (h : InRange s.activation_current)
    (executed : Executed manifest instr op s s') :
    InRange s'.activation_current ↔ Step.Damped ⟨op, instr, s⟩ := by
  obtain ⟨s₁, n, opcode, details, heffect, rfl⟩ := executed
  cases heffect with
  | propagate named spread =>
    unfold Step.Damped
    simp only [named]
    exact propagate_inRange_iff hs hlinked h spread
  | activate _ strength => exact iff_of_true (h.insert strength) (damped_of_ne (by decide))
  | decay factor => exact iff_of_true (h.decayed factor) (damped_of_ne (by decide))
  | silent silent =>
    refine iff_of_true h (damped_of_ne ?_)
    rintro rfl
    exact silent
  | _ => exact iff_of_true h (damped_of_ne (by decide))

/-- The activations before every step and after the last. -/
def AlwaysInRange (past : List Step) (s : VMState) : Prop :=
  (∀ step ∈ past, InRange step.before.activation_current) ∧ InRange s.activation_current

theorem alwaysInRange_iff (h : Reached manifest past s) :
    AlwaysInRange past s ↔ ∀ step ∈ past, step.Damped := by
  induction h with
  | start => exact iff_of_true ⟨by simp, inRange_empty⟩ (by simp)
  | @step past s s' op instr reached running named call ih =>
    unfold AlwaysInRange at ih ⊢
    simp only [List.forall_mem_append, List.forall_mem_singleton]
    rw [ih]
    refine and_congr_right fun damped => ?_
    exact inRange_step_iff (reached_fullWeights reached) (reached_linked reached) (ih.mpr damped).2
      (execute_ok call)

theorem propagate_value_le (hs : FullWeights s) (executed : Executed manifest instr .PROPAGATE s s')
    (id : ℕ) : value s.activation_current id ≤ value s'.activation_current id := by
  obtain ⟨s₁, n, opcode, details, heffect, rfl⟩ := executed
  cases heffect with
  | propagate _ spread => exact ((propagate_value_le_iff hs spread).mp le_rfl).1
  | silent silent => exact silent.elim

end Step

section Runs

variable (manifest : Dict) (instructions : List Instruction)

/-- The activations are in range in all the states of a run exactly when its steps are damped, and a
`PROPAGATE` that does not raise lowers none. -/
theorem activations_in_range :
    (∀ past s, Passes manifest instructions past s →
      (AlwaysInRange past s ↔ ∀ step ∈ past, step.Damped)) ∧
    (∀ program_hash, (∀ step ∈ steps manifest 0 instructions .initial, step.Damped) →
      InRange (after (run manifest program_hash instructions .initial)).activation_current) ∧
    ∀ past s, Runs manifest instructions past s → ∀ instr s',
      execute manifest past.length instr .PROPAGATE s = .ok () s' →
      ∀ id, value s.activation_current id ≤ value s'.activation_current id := by
  have hpasses (past : List Step) (s : VMState) (h : Passes manifest instructions past s) :
      AlwaysInRange past s ↔ ∀ step ∈ past, step.Damped := by
    obtain ⟨between, hruns, hgraph⟩ := h.graph_eq
    have hactivation : s.activation_current = between.activation_current :=
      congrArg Graph.activation_current hgraph
    unfold AlwaysInRange
    rw [hactivation]
    exact alwaysInRange_iff hruns.1
  refine ⟨hpasses, fun program_hash damped => ?_, fun past s hruns instr s' call => ?_⟩
  · obtain ⟨s, hs, hgraph⟩ := run_passes manifest program_hash instructions
    have hactivation : (after (run manifest program_hash instructions .initial)).activation_current =
      s.activation_current := congrArg Graph.activation_current hgraph
    rw [hactivation]
    exact ((hpasses _ s hs).mpr damped).2
  · exact propagate_value_le (reached_fullWeights hruns.1) (execute_ok call)

end Runs

/-- The names of two nodes. -/
def two_nodes : Dict := [("data_blocks", .obj []), ("nodes", .obj [("0", .str "a"), ("1", .str "b")])]

/-- Two nodes with an edge from the first, which is active, to the second. -/
def activate_first : List Instruction :=
  [⟨0x02, 0, 0, 0, 0⟩, ⟨0x02, 0, 1, 0, 0⟩, ⟨0x03, 1, 0, 0, 1⟩, ⟨0x05, 0, 0, 0, 1000⟩]

theorem activations_in_range_activate_first :
    InRange (after (run two_nodes ""
      (activate_first ++ [⟨0x06, 1, 0, 0, 1⟩, ⟨0x01, 0, 0, 0, 0⟩]) .initial)).activation_current :=
  (activations_in_range _ _).2.1 "" (by decide +kernel)

/-- A second edge between the nodes. -/
def double_edge : List Instruction := activate_first ++ [⟨0x03, 1, 1, 0, 1⟩]

def first_active : VMState := after (loop two_nodes 0 activate_first .initial)

def doubled : VMState := after (loop two_nodes 0 double_edge .initial)

theorem doubled_out : ((doubled.adjacency_out[0]?).getD []).mergeSort (· ≤ ·) = [0, 1] := by
  have hadd : doubled.adjacency_out = add_adjacent first_active.adjacency_out 0 1 := rfl
  have hout : first_active.adjacency_out[0]? = some [0] := by decide +kernel
  -- the kernel does not evaluate `mergeSort`
  simp [hadd, add_adjacent, hout, List.mergeSort]

theorem doubled_ticks :
    ∃ cumulative, ticks doubled .support 1 doubled.activation_current
        ((∅ : TreeMap ℕ ℕ).insert 0 ((doubled.activation_current[0]?).getD 0)) 0 [] =
          .ok (cumulative, 2000, [1]) ∧ cumulative[1]? = some 2000 := by
  have hfirst : lookup doubled.edge_table 0 = .ok ⟨0, 0, 1, .support, SCALE⟩ := rfl
  have hsecond : lookup doubled.edge_table 1 = .ok ⟨1, 0, 1, .support, SCALE⟩ := rfl
  have hactive : doubled.activation_current[0]? = some 1000 := by decide +kernel
  have hfrontier : ((∅ : TreeMap ℕ ℕ).insert 0 1000).toList = [(0, 1000)] := by decide +kernel
  have hwave : [(0, 1000)].foldlM (propagate_node doubled .support) ⟨0, ∅, []⟩ =
      .ok ⟨2000, ((∅ : TreeMap ℕ ℕ).insert 1 1000).insert 1 2000, [1]⟩ := by
    have hreached : add_sorted (add_sorted [] 1) 1 = [1] := by decide +kernel
    rw [List.foldlM_cons, propagate_node, doubled_out]
    simp [propagate_edge, hfirst, hsecond, hreached, SCALE, ENERGY_LIMIT]
  refine ⟨cumulate doubled.activation_current (((∅ : TreeMap ℕ ℕ).insert 1 1000).insert 1 2000),
    ?_, ?_⟩
  · rw [hactive, Option.getD_some, ticks, hfrontier, hwave]
    rfl
  · decide +kernel

/-- The second node comes to twice the activation of the first. -/
theorem activations_not_in_range :
    ∃ receipt s, run two_nodes "" (double_edge ++ [⟨0x06, 1, 0, 0, 1⟩, ⟨0x01, 0, 0, 0, 0⟩]) .initial =
        .ok receipt s ∧ s.activation_current[1]? = some 2000 := by
  obtain ⟨cumulative, hticks, hvalue⟩ := doubled_ticks
  have hpropagate : ∃ s, propagate 5 ⟨0x06, 1, 0, 0, 1⟩ doubled = .ok () s ∧
      s.activation_current = cumulative := by
    unfold propagate
    have hsupport : (MonadExcept.ofExcept (require .VMError (EDGE_TYPE_NAMES 1)) : VM EdgeType)
      doubled = .ok .support doubled := rfl
    rw [bind_of_ok hsupport, bind_of_ok get_apply]
    dsimp only
    rw [hticks]
    exact ⟨_, rfl, rfl⟩
  obtain ⟨s, hpropagate, hs⟩ := hpropagate
  have hloop : loop two_nodes 0 (double_edge ++ [⟨0x06, 1, 0, 0, 1⟩, ⟨0x01, 0, 0, 0, 0⟩]) .initial =
      .ok 6 (s.logged 6 "HALT" []) := by
    have hfive : loop two_nodes 0 (double_edge ++ [⟨0x06, 1, 0, 0, 1⟩, ⟨0x01, 0, 0, 0, 0⟩]) .initial =
      loop two_nodes 5 [⟨0x06, 1, 0, 0, 1⟩, ⟨0x01, 0, 0, 0, 0⟩] doubled := rfl
    have hcall : execute two_nodes 5 ⟨0x06, 1, 0, 0, 1⟩ .PROPAGATE doubled = .ok () s := hpropagate
    have hop : (MonadExcept.ofExcept (require .VMError (OP_NAMES 0x06)) : VM Op) doubled =
      .ok .PROPAGATE doubled := rfl
    rw [hfive, loop, bind_of_ok hop, bind_of_ok hcall]
    rfl
  obtain ⟨receipt, s', hrun, heq⟩ := run_of_loop "" ⟨[], rfl⟩ hloop
  refine ⟨receipt, s', hrun, ?_⟩
  rcases heq with rfl | ⟨n, opcode, details, rfl⟩
  · exact hs ▸ hvalue
  · exact hs ▸ hvalue

end Bogbin.Vm
