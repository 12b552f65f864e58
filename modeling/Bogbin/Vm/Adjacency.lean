import Bogbin.Library.QueueSearch
import Bogbin.Vm.Activation

/-!
# The adjacency lists

The adjacency lists index the edges by their sources and targets.  `CREATE_EDGE` replaces an edge of
the same id but leaves the id in the lists of the old edge, so the lists index the edges in a run that
creates every edge once (`Step.Fresh`).  Then the search for a support path decides whether there is
one, and the conflict pressure on a node counts every conflict edge to it once (`Indexed.faithful`).
-/

namespace Bogbin.Vm

open Bogvm StateExcept WeightedSum QueueSearch
open Std (TreeMap)

/-- The list of a node holds the ids of its edges, each once, and nothing else. -/
def Lists (adjacency : TreeMap ℕ (List ℕ)) (table : TreeMap ℕ Edge) (endpoint : Edge → ℕ) : Prop :=
  ∀ node : ℕ, ((adjacency[node]?).getD []).Nodup ∧
    ∀ id : ℕ, id ∈ (adjacency[node]?).getD [] ↔
      ∃ edge : Edge, table[id]? = some edge ∧ endpoint edge = node

structure Indexed (s : VMState) : Prop where
  out : Lists s.adjacency_out s.edge_table (·.source)
  incoming : Lists s.adjacency_in s.edge_table (·.target)

/-- There is a support edge from `source` to `target`. -/
def Supports (s : VMState) (source target : ℕ) : Prop :=
  ∃ (id : ℕ) (edge : Edge), s.edge_table[id]? = some edge ∧ edge.type = .support ∧
    edge.source = source ∧ edge.target = target

def SupportPath (s : VMState) : ℕ → ℕ → Prop := Relation.ReflTransGen (Supports s)

/-- The pressure of the conflict edges to a node. -/
def conflict_into (s : VMState) (node : ℕ) : ℕ :=
  (((s.edge_table.toList.map (·.2)).filter fun edge => edge.type = .conflict ∧ edge.target = node).map
    fun edge => value s.activation_current edge.source * edge.weight / SCALE).sum

/-- The targets of the support edges of a node in the order of the search. -/
def support_next (s : VMState) (node : ℕ) : List ℕ :=
  targets_of s .support (((s.adjacency_out[node]?).getD []).mergeSort (· ≤ ·))

/-- The lists index the edges, and what is computed from them is about the edges. -/
structure Faithful (s : VMState) : Prop extends Indexed s where
  paths : ∀ source target, ∃ found, support_path_exists s source target = .ok found ∧
    Searches (support_next s) target [source] [] found ∧ (found = true ↔ SupportPath s source target)
  verified : ∀ (id : ℕ) (claim : Claim), s.claim_table[id]? = some claim →
    (verify_claim s id = .ok .verified ↔
      ((s.pressure_current[id]?).map (·.conflict_pressure)).getD 0 = 0 ∧
        SupportPath s claim.source claim.target)
  pressure : ∀ node, pressure_of s node = .ok ⟨value s.activation_current node, conflict_into s node,
    value s.activation_current node - conflict_into s node⟩

/-- The step creates no edge again. -/
def Step.Fresh (step : Step) : Prop :=
  step.op = .CREATE_EDGE → step.instr.target ∉ step.before.edge_table

instance (step : Step) : Decidable step.Fresh :=
  inferInstanceAs (Decidable (_ → _))

/-! ## The lists -/

section Lists

variable {adjacency : TreeMap ℕ (List ℕ)} {table : TreeMap ℕ Edge} {endpoint : Edge → ℕ}

theorem Lists.listed (h : Lists adjacency table endpoint) : Listed adjacency table := by
  intro node edges hedges id hid
  have hmem : id ∈ (adjacency[node]?).getD [] := by
    rw [hedges]
    exact hid
  obtain ⟨edge, hedge, -⟩ := ((h node).2 id).mp hmem
  exact mem_iff_getElem?.mpr ⟨edge, hedge⟩

theorem lists_empty : Lists ∅ ∅ endpoint := by
  intro node
  rw [TreeMap.getElem?_emptyc]
  refine ⟨List.nodup_nil, fun id => iff_of_false List.not_mem_nil ?_⟩
  rintro ⟨edge, hedge, -⟩
  exact getElem?_empty_ne hedge

theorem getD_add_adjacent (adjacency : TreeMap ℕ (List ℕ)) (key edge node : ℕ) :
    ((add_adjacent adjacency key edge)[node]?).getD [] =
      if key = node then ((adjacency[node]?).getD [] ++ [edge]).mergeSort (· ≤ ·)
      else (adjacency[node]?).getD [] := by
  unfold add_adjacent
  rw [getElem?_insert_eq]
  split_ifs with h
  · rw [h]
    rfl
  · rfl

theorem nodup_mergeSort_append {ids : List ℕ} {id : ℕ} :
    ((ids ++ [id]).mergeSort (· ≤ ·)).Nodup ↔ id ∉ ids ∧ ids.Nodup := by
  rw [(List.mergeSort_perm _ _).nodup_iff, List.nodup_append_comm, List.singleton_append,
    List.nodup_cons]

theorem Lists.add {id : ℕ} {edge : Edge} (h : Lists adjacency table endpoint) (hfresh : id ∉ table) :
    Lists (add_adjacent adjacency (endpoint edge) id) (table.insert id edge) endpoint := by
  have hnone : table[id]? = none := TreeMap.getElem?_eq_none hfresh
  intro node
  have hnew : id ∉ (adjacency[node]?).getD [] := by
    intro hmem
    obtain ⟨old, hold, -⟩ := ((h node).2 id).mp hmem
    rw [hnone] at hold
    cases hold
  rw [getD_add_adjacent]
  constructor
  · split_ifs
    · exact nodup_mergeSort_append.mpr ⟨hnew, (h node).1⟩
    · exact (h node).1
  · intro key
    rw [getElem?_insert_eq]
    by_cases hkey : id = key
    · rw [if_pos hkey, ← hkey]
      by_cases hnode : endpoint edge = node
      · simp [hnode]
      · simpa [hnode] using hnew
    · rw [if_neg hkey, ← (h node).2 key]
      split_ifs
      · simp [Ne.symm hkey]
      · rfl

/-- The id of an old edge remains in the list of its endpoint. -/
theorem lists_add_iff {id : ℕ} {edge : Edge} (h : Lists adjacency table endpoint) :
    Lists (add_adjacent adjacency (endpoint edge) id) (table.insert id edge) endpoint ↔ id ∉ table := by
  refine ⟨fun hadd hmem => ?_, h.add⟩
  obtain ⟨old, hold⟩ := mem_iff_getElem?.mp hmem
  have hid := ((h (endpoint old)).2 id).mpr ⟨old, hold, rfl⟩
  have hlist := hadd (endpoint old)
  rw [getD_add_adjacent] at hlist
  by_cases hsame : endpoint edge = endpoint old
  · rw [if_pos hsame] at hlist
    exact (nodup_mergeSort_append.mp hlist.1).1 hid
  · rw [if_neg hsame] at hlist
    obtain ⟨new, hnew, hendpoint⟩ := (hlist.2 id).mp hid
    rw [getElem?_insert_eq, if_pos rfl] at hnew
    obtain rfl := Option.some.inj hnew
    exact hsame hendpoint

end Lists

/-! ## What the lists are read for -/

section Reading

variable {s : VMState}

theorem mapM_lookup {α : Type} {table : TreeMap ℕ α} {ids : List ℕ} (h : ∀ id ∈ ids, id ∈ table) :
    ids.mapM (lookup table) = .ok (ids.filterMap (table[·]?)) := by
  induction ids with
  | nil => rfl
  | cons id ids ih =>
    obtain ⟨hid, hids⟩ := List.forall_mem_cons.mp h
    obtain ⟨a, ha⟩ := mem_iff_getElem?.mp hid
    rw [List.mapM_cons, lookup_eq_ok.mpr ha, ok_bind, ih hids, ok_bind, List.filterMap_cons, ha]
    rfl

theorem support_targets_eq (hs : Listed s.adjacency_out s.edge_table) (visited : List ℕ) (node : ℕ) :
    support_targets s visited node = .ok (fresh (support_next s) visited node) := by
  unfold support_targets fresh support_next targets_of
  rw [mapM_lookup fun id hid => mem_edges hs hid, ok_bind, List.filter_map, List.filter_filter]
  congr 2
  refine List.filter_congr fun edge _ => ?_
  simp [Bool.and_comm]

/-- The search is the one of the library over the support edges. -/
theorem search_eq (hs : Listed s.adjacency_out s.edge_table) (target turns : ℕ)
    (queue visited : List ℕ) :
    Vm.search s target turns queue visited =
      .ok (QueueSearch.search (support_next s) target turns queue visited) := by
  induction turns generalizing queue visited with
  | zero =>
    cases queue with
    | nil => rfl
    | cons node queue => rfl
  | succ turns ih =>
    cases queue with
    | nil => rfl
    | cons node queue =>
      rw [Vm.search, QueueSearch.search]
      split_ifs
      · rfl
      · exact ih queue visited
      · rw [support_targets_eq hs, ok_bind]
        exact ih _ _

theorem search_logged {n : ℤ} {opcode : String} {details : List (String × Json)} (target turns : ℕ)
    (queue visited : List ℕ) :
    Vm.search (s.logged n opcode details) target turns queue visited =
      Vm.search s target turns queue visited := by
  induction turns generalizing queue visited with
  | zero => cases queue <;> rfl
  | succ turns ih =>
    cases queue with
    | nil => rfl
    | cons node queue =>
      have htargets (visited : List ℕ) : support_targets (s.logged n opcode details) visited node =
        support_targets s visited node := rfl
      simp only [Vm.search, ih, htargets]

theorem length_support_next (s : VMState) (node : ℕ) :
    (support_next s node).length ≤ ((s.adjacency_out[node]?).getD []).length := by
  unfold support_next targets_of
  rw [List.length_map]
  calc _ ≤ _ := List.length_filter_le _ _
    _ ≤ _ := List.length_filterMap_le _ _
    _ = _ := List.length_mergeSort _

theorem pending_le (s : VMState) :
    pending (support_next s) s.adjacency_out.keys [] ≤
      (s.adjacency_out.toList.map fun entry => entry.2.length).sum := by
  unfold pending
  rw [← TreeMap.map_fst_toList_eq_keys, List.map_map]
  refine List.sum_le_sum fun entry hentry => ?_
  have hlength := length_support_next s entry.1
  rw [TreeMap.mem_toList_iff_getElem?_eq_some.mp hentry] at hlength
  simpa using hlength

theorem mem_keys_of_support_next {node : ℕ} (h : support_next s node ≠ []) :
    node ∈ s.adjacency_out.keys := by
  by_contra hnode
  rw [TreeMap.mem_keys] at hnode
  have hlength := length_support_next s node
  rw [TreeMap.getElem?_eq_none hnode] at hlength
  exact h (List.eq_nil_of_length_eq_zero (Nat.le_zero.mp hlength))

theorem Indexed.mem_support_next (h : Indexed s) (a b : ℕ) : b ∈ support_next s a ↔ Supports s a b := by
  unfold support_next Supports
  rw [mem_targets_of]
  refine exists_congr fun id => exists_congr fun edge => ?_
  rw [List.mem_mergeSort, (h.out a).2 id]
  constructor
  · rintro ⟨⟨edge', hedge', hsource⟩, hedge, htype, htarget⟩
    rw [hedge] at hedge'
    obtain rfl := Option.some.inj hedge'
    exact ⟨hedge, htype, hsource, htarget⟩
  · rintro ⟨hedge, htype, hsource, htarget⟩
    exact ⟨⟨edge, hedge, hsource⟩, hedge, htype, htarget⟩

theorem Indexed.support_path (h : Indexed s) (source target : ℕ) :
    ∃ found, support_path_exists s source target = .ok found ∧
      Searches (support_next s) target [source] [] found ∧
      (found = true ↔ SupportPath s source target) := by
  have hsearches := @searches_search ℕ _ (support_next s) target [source] [] s.adjacency_out.keys _
    (fun _ => mem_keys_of_support_next) (Nat.add_le_add_left (pending_le s) 1)
  refine ⟨_, search_eq h.out.listed _ _ _ _, hsearches, ?_⟩
  rw [hsearches.reaches_iff]
  unfold SupportPath
  simp only [h.mem_support_next]

theorem conflict_edges_ok {ids : List ℕ} (h : ∀ id ∈ ids, id ∈ s.edge_table) (conflict_pressure : ℕ) :
    ids.foldlM (conflict_edge s) conflict_pressure =
      .ok (conflict_pressure + (((ids.filterMap (s.edge_table[·]?)).filter (·.type = .conflict)).map
        fun edge => value s.activation_current edge.source * edge.weight / SCALE).sum) := by
  induction ids generalizing conflict_pressure with
  | nil => rfl
  | cons id ids ih =>
    obtain ⟨hid, hids⟩ := List.forall_mem_cons.mp h
    obtain ⟨edge, hedge⟩ := mem_iff_getElem?.mp hid
    rw [List.foldlM_cons, conflict_edge, lookup_eq_ok.mpr hedge, ok_bind, List.filterMap_cons, hedge]
    by_cases htype : edge.type = .conflict
    · simp [htype, ok_bind, ih hids, value, Nat.add_assoc]
    · simp [htype, ok_bind, ih hids]

/-- The edges of a list are those of the table with this endpoint. -/
theorem Lists.edges_perm {adjacency : TreeMap ℕ (List ℕ)} {table : TreeMap ℕ Edge} {endpoint : Edge → ℕ}
    (h : Lists adjacency table endpoint) (node : ℕ) :
    (((adjacency[node]?).getD []).filterMap (table[·]?)).Perm
      ((table.toList.map (·.2)).filter fun edge => endpoint edge = node) := by
  have hids : ((adjacency[node]?).getD []).Perm
      ((table.toList.filter fun entry => endpoint entry.2 = node).map (·.1)) := by
    have hkeys : (table.toList.map (·.1)).Nodup := by
      rw [TreeMap.map_fst_toList_eq_keys]
      exact TreeMap.nodup_keys
    rw [List.perm_ext_iff_of_nodup (h node).1 (hkeys.sublist (List.filter_sublist.map _))]
    intro id
    rw [(h node).2 id]
    simp [TreeMap.mem_toList_iff_getElem?_eq_some]
  refine (hids.filterMap _).trans (.of_eq ?_)
  rw [List.filterMap_map, List.filter_map, ← List.filterMap_eq_map]
  refine List.filterMap_congr fun entry hentry => ?_
  exact TreeMap.mem_toList_iff_getElem?_eq_some.mp (List.mem_filter.mp hentry).1

theorem Indexed.pressure_of (h : Indexed s) (node : ℕ) :
    Vm.pressure_of s node = .ok ⟨value s.activation_current node, conflict_into s node,
      value s.activation_current node - conflict_into s node⟩ := by
  have hperm : ((((s.adjacency_in[node]?).getD []).mergeSort (· ≤ ·)).filterMap (s.edge_table[·]?)).Perm
      ((s.edge_table.toList.map (·.2)).filter fun edge => edge.target = node) :=
    ((List.mergeSort_perm _ _).filterMap _).trans (h.incoming.edges_perm node)
  have hsum := ((hperm.filter fun edge => edge.type = .conflict).map
    fun edge => value s.activation_current edge.source * edge.weight / SCALE).sum_eq
  unfold Vm.pressure_of
  rw [conflict_edges_ok fun id hid => mem_edges h.incoming.listed hid, hsum, List.filter_filter,
    Nat.zero_add, ok_bind]
  simp only [← Bool.decide_and]
  rfl

theorem Indexed.verified (h : Indexed s) {id : ℕ} {claim : Claim}
    (hclaim : s.claim_table[id]? = some claim) :
    verify_claim s id = .ok .verified ↔
      ((s.pressure_current[id]?).map (·.conflict_pressure)).getD 0 = 0 ∧
        SupportPath s claim.source claim.target := by
  obtain ⟨found, hfound, -, hiff⟩ := h.support_path claim.source claim.target
  unfold verify_claim
  rw [lookup_eq_ok.mpr hclaim, ok_bind, hfound, ← hiff]
  dsimp only [ok_bind]
  cases s.pressure_current[id]? with
  | none => cases found <;> simp
  | some pressure =>
    by_cases hconflict : pressure.conflict_pressure = 0
    · cases found <;> simp [hconflict]
    · simp [hconflict, Nat.pos_of_ne_zero hconflict]

theorem Indexed.faithful (h : Indexed s) : Faithful s where
  toIndexed := h
  paths := h.support_path
  verified _ _ := h.verified
  pressure := h.pressure_of

end Reading

/-! ## The runs -/

section Step

variable {manifest : Dict} {past : List Step} {s s' : VMState} {op : Op} {instr : Instruction}

theorem indexed_initial : Indexed .initial := ⟨lists_empty, lists_empty⟩

/-- Only a `CREATE_EDGE` of an id in use breaks the index. -/
theorem indexed_step_iff (h : Indexed s) (executed : Executed manifest instr op s s') :
    Indexed s' ↔ Step.Fresh ⟨op, instr, s⟩ := by
  obtain ⟨s₁, n, opcode, details, heffect, rfl⟩ := executed
  have hkept (hop : op ≠ .CREATE_EDGE) (hkept : Indexed s₁) :
      Indexed (s₁.logged n opcode details) ↔ Step.Fresh ⟨op, instr, s⟩ :=
    iff_of_true ⟨hkept.out, hkept.incoming⟩ fun heq => absurd heq hop
  cases heffect with
  | @create_edge type _ _ _ =>
    have hout := @lists_add_iff _ _ (·.source) instr.target
      ⟨instr.target, instr.source, instr.param, type, SCALE⟩ h.out
    have hincoming := @lists_add_iff _ _ (·.target) instr.target
      ⟨instr.target, instr.source, instr.param, type, SCALE⟩ h.incoming
    constructor
    · exact fun hindexed _ => hout.mp hindexed.out
    · exact fun fresh => ⟨hout.mpr (fresh rfl), hincoming.mpr (fresh rfl)⟩
  | silent silent =>
    refine hkept ?_ h
    rintro rfl
    exact silent
  | _ => exact hkept (by decide) ⟨h.out, h.incoming⟩

/-- The states before every step and after the last. -/
def AlwaysFaithful (past : List Step) (s : VMState) : Prop :=
  (∀ step ∈ past, Faithful step.before) ∧ Faithful s

theorem faithful_iff : Faithful s ↔ Indexed s := ⟨fun h => h.toIndexed, fun h => h.faithful⟩

theorem alwaysFaithful_iff (h : Reached manifest past s) :
    AlwaysFaithful past s ↔ ∀ step ∈ past, step.Fresh := by
  induction h with
  | start => exact iff_of_true ⟨by simp, indexed_initial.faithful⟩ (by simp)
  | @step past s s' op instr reached running named call ih =>
    unfold AlwaysFaithful at ih ⊢
    simp only [List.forall_mem_append, List.forall_mem_singleton]
    rw [ih]
    refine and_congr_right fun fresh => ?_
    rw [faithful_iff]
    exact indexed_step_iff (ih.mpr fresh).2.toIndexed (execute_ok call)

theorem Indexed.of_graph_eq (hgraph : s.graph = s'.graph) (h : Indexed s') : Indexed s where
  out := by
    have hedges : s.edge_table = s'.edge_table := congrArg Graph.edge_table hgraph
    have hout : s.adjacency_out = s'.adjacency_out := congrArg Graph.adjacency_out hgraph
    rw [hedges, hout]
    exact h.out
  incoming := by
    have hedges : s.edge_table = s'.edge_table := congrArg Graph.edge_table hgraph
    have hincoming : s.adjacency_in = s'.adjacency_in := congrArg Graph.adjacency_in hgraph
    rw [hedges, hincoming]
    exact h.incoming

theorem faithful_congr (hgraph : s.graph = s'.graph) : Faithful s ↔ Faithful s' := by
  rw [faithful_iff, faithful_iff]
  exact ⟨.of_graph_eq hgraph.symm, .of_graph_eq hgraph⟩

end Step

section Runs

variable (manifest : Dict) (instructions : List Instruction)

/-- The lists are faithful in all the states of a run exactly when it creates no edge again. -/
theorem adjacency_faithful :
    (∀ past s, Passes manifest instructions past s →
      (AlwaysFaithful past s ↔ ∀ step ∈ past, step.Fresh)) ∧
    ∀ program_hash, (∀ step ∈ steps manifest 0 instructions .initial, step.Fresh) →
      Faithful (after (run manifest program_hash instructions .initial)) := by
  have hpasses (past : List Step) (s : VMState) (h : Passes manifest instructions past s) :
      AlwaysFaithful past s ↔ ∀ step ∈ past, step.Fresh := by
    obtain ⟨between, hruns, hgraph⟩ := h.graph_eq
    unfold AlwaysFaithful
    rw [faithful_congr hgraph]
    exact alwaysFaithful_iff hruns.1
  refine ⟨hpasses, fun program_hash fresh => ?_⟩
  obtain ⟨s, hs, hgraph⟩ := run_passes manifest program_hash instructions
  rw [faithful_congr hgraph]
  exact ((hpasses _ s hs).mpr fresh).2

end Runs

/-- A claim over two nodes of three. -/
def chain : Dict :=
  [("claims", .obj [("0", .obj [("name", .str "c")])]), ("data_blocks", .obj []),
    ("nodes", .obj [("0", .str "a"), ("1", .str "b"), ("2", .str "c")])]

/-- Three nodes with a support edge from the first to the second. -/
def first_edge : List Instruction :=
  [⟨0x02, 0, 0, 0, 0⟩, ⟨0x02, 0, 1, 0, 0⟩, ⟨0x02, 0, 2, 0, 0⟩, ⟨0x03, 1, 0, 0, 1⟩]

/-- The claim that the first node supports the last is verified and accepted. -/
def accept_chain : List Instruction :=
  [⟨0x04, 0, 0, 0, 2⟩, ⟨0x0A, 0, 0, 0, 0⟩, ⟨0x0B, 0, 0, 0, 0⟩, ⟨0x01, 0, 0, 0, 0⟩]

theorem adjacency_faithful_chain :
    Faithful (after (run chain "" (first_edge ++ [⟨0x03, 1, 1, 1, 2⟩] ++ accept_chain) .initial)) :=
  (adjacency_faithful _ _).2 "" (by decide +kernel)

/-- The second edge takes the id of the first: the claim is accepted though no edge leaves its
source. -/
theorem adjacency_not_faithful :
    ∃ receipt s, run chain "" (first_edge ++ [⟨0x03, 1, 0, 1, 2⟩] ++ accept_chain) .initial =
        .ok receipt s ∧
      0 ∈ (s.adjacency_out[0]?).getD [] ∧ (s.edge_table[0]?).map (·.source) = some 1 ∧
      support_path_exists s 0 2 = .ok true ∧ ¬ SupportPath s 0 2 ∧ s.accepted_claims = [0] := by
  have hhalts : halts_with chain (first_edge ++ [⟨0x03, 1, 0, 1, 2⟩] ++ accept_chain)
      (fun s => 0 ∈ (s.adjacency_out[0]?).getD [] ∧ (s.edge_table[0]?).map (·.source) = some 1 ∧
        support_path_exists s 0 2 = .ok true ∧ (∀ entry ∈ s.edge_table.toList, entry.2.source ≠ 0) ∧
        s.accepted_claims = [0]) := by
    decide +kernel
  obtain ⟨receipt, s, hrun, hfinal⟩ := run_of_halts "" ⟨[], rfl⟩ hhalts fun s n opcode details => by
    have hpath : support_path_exists (s.logged n opcode details) 0 2 = support_path_exists s 0 2 :=
      search_logged _ _ _ _
    rw [hpath]
    rfl
  obtain ⟨hlisted, hsource, hpath, hleaves, haccepted⟩ := of_decide_eq_true hfinal
  refine ⟨receipt, s, hrun, hlisted, hsource, hpath, fun hreach => ?_, haccepted⟩
  rcases hreach.cases_head with heq | ⟨node, ⟨id, edge, hedge, -, hzero, -⟩, -⟩
  · exact absurd heq (by decide)
  · exact hleaves (id, edge) (TreeMap.mem_toList_iff_getElem?_eq_some.mpr hedge) hzero

end Bogbin.Vm
