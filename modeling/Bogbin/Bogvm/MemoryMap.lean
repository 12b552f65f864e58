import Bogbin.Bogvm.BogBoot
import Bogbin.Bogvm.CompareLaw

/-!
# The memory map

`validate_manifest` sorts the ranges of the memory map and compares neighbours.  Where it returns, that
finds an overlap if and only if two ranges share an address (`reports_overlap_iff`).  It does not always
return: the ranges are sorted with their names, which need not have an order.  It returns if and only
if the devices can be put into a set and ranges with the same bounds have comparable names
(`memory_map_exact`).
-/

namespace Bogbin.Bogvm.BogBoot

open Ranking

def name_of (entry : Dict) : Json := (Dict.get entry "name").getD .null

/-- The entry is a range of addresses: a non-negative start and a positive size, both integers. -/
def Spans (entry : Dict) (start size : ℤ) : Prop :=
  int_value ((Dict.get entry "start").getD .null) = some start ∧
    int_value ((Dict.get entry "size").getD .null) = some size ∧ 0 ≤ start ∧ 0 < size

/-- An address lies in both ranges. -/
def SharesAddress (entry other : Dict) : Prop :=
  ∃ start size start' size' address, Spans entry start size ∧ Spans other start' size' ∧
    start ≤ address ∧ address < start + size ∧ start' ≤ address ∧ address < start' + size'

/-- Two of the entries share an address. -/
def Overlap (entries : List Dict) : Prop :=
  ¬ entries.Pairwise fun entry other => ¬ SharesAddress entry other

def ReportsOverlap (failures : List Failure) : Prop :=
  ∃ names, (.str "memory_map", "overlapping memory ranges: " ++ names) ∈ failures

/-- The devices can be put into a set. -/
def DevicesHashable (manifest : Dict) : Prop :=
  ∃ names, iterated (devices_of manifest) = .ok names ∧ names.all hashable = true

/-- Ranges with the same bounds have comparable names. -/
def NamesComparable (floats : Floats) (entries : List Dict) : Prop :=
  entries.Pairwise fun entry other => ∀ start size, Spans entry start size →
    Spans other start size → Comparable floats (name_of entry) (name_of other)

/-- The validation returns, and if all entries are ranges it reports exactly the overlaps. -/
def ExactMap (floats : Floats) (manifest : Dict) (entries : List Dict) : Prop :=
  ∃ failures, validate_manifest floats manifest = .ok failures ∧
    ((∀ entry ∈ entries, ∃ start size, Spans entry start size) →
      (ReportsOverlap failures ↔ Overlap entries))

/-! ## Ranges -/

/-- The range of an entry, with its end and its name. -/
def range_of (entry : Dict) : Option (ℤ × ℤ × Json) := (memory_range (.obj entry)).toOption.join

/-- A range as the tuple that is sorted. -/
def tuple_of (range : ℤ × ℤ × Json) : Json := .arr [.int range.1, .int range.2.1, range.2.2]

section Ranges

variable {floats : Floats} {entry other : Dict} {entries : List Dict} {a b : ℤ × ℤ × Json}
  {sorted : List (ℤ × ℤ × Json)}

theorem memory_range_obj (entry : Dict) : memory_range (.obj entry) = .ok (range_of entry) := by
  unfold range_of memory_range
  rw [as_dict, StateExcept.ok_bind]
  cases int_value ((Dict.get entry "start").getD .null) with
  | none => rfl
  | some start => cases int_value ((Dict.get entry "size").getD .null) <;> rfl

theorem range_of_eq_some : range_of entry = some a ↔
    ∃ start size, Spans entry start size ∧ a = (start, start + size, name_of entry) := by
  have hrange := memory_range_obj entry
  unfold memory_range at hrange
  rw [as_dict, StateExcept.ok_bind] at hrange
  unfold Spans name_of
  cases hstart : int_value ((Dict.get entry "start").getD .null) with
  | none =>
    rw [hstart] at hrange
    rw [← Except.ok.inj hrange]
    simp
  | some start =>
    cases hsize : int_value ((Dict.get entry "size").getD .null) with
    | none =>
      rw [hstart, hsize] at hrange
      rw [← Except.ok.inj hrange]
      simp
    | some size =>
      rw [hstart, hsize] at hrange
      rw [← Except.ok.inj hrange]
      simp [eq_comm]

theorem mapM_memory_range (entries : List Dict) :
    (entries.map Json.obj).mapM memory_range = .ok (entries.map range_of) := by
  induction entries with
  | nil => rfl
  | cons entry entries ih =>
    rw [List.map_cons, List.mapM_cons, memory_range_obj, ih]
    rfl

/-- Neighbours overlap unless each ends before the next one starts. -/
theorem reports_overlaps_iff : ReportsOverlap (overlaps sorted) ↔
    ¬ sorted.IsChain fun previous current => previous.2.1 ≤ current.1 := by
  induction sorted with
  | nil => simp [ReportsOverlap, overlaps]
  | cons previous sorted ih =>
    cases sorted with
    | nil => simp [ReportsOverlap, overlaps]
    | cons current rest =>
      rw [List.isChain_cons_cons, not_and_or, ← ih, not_le]
      unfold ReportsOverlap
      simp only [overlaps, List.mem_append, exists_or]
      refine or_congr ?_ Iff.rfl
      unfold failure_if
      split_ifs with hlt
      · simp only [hlt, iff_true]
        exact ⟨_, List.mem_singleton.mpr (by rw [String.append_assoc, String.append_assoc])⟩
      · simp [hlt]

theorem same_value_int (m n : ℤ) : same_value floats (.int m) (.int n) = decide (m = n) := by
  simp [same_value, number, Number.of_int]

theorem less_value_int (m n : ℤ) : less_value floats (.int m) (.int n) = .ok (decide (m < n)) := by
  simp [less_value, number, Number.of_int, exceeds]

/-- Ranges with other bounds have an order. -/
theorem range_less_eq (a b : ℤ × ℤ × Json) : range_less floats a b =
    if a.1 = b.1 then
      if a.2.1 = b.2.1 then
        if same_value floats a.2.2 b.2.2 then .ok false else less_value floats a.2.2 b.2.2
      else .ok (decide (a.2.1 < b.2.1))
    else .ok (decide (a.1 < b.1)) := by
  simp only [range_less, less_items, same_value_int, less_value_int, decide_eq_true_eq]
  rfl

end Ranges

/-! ## The sort of the ranges -/

section Sorted

variable {floats : Floats} {entries : List Dict} {a b : ℤ × ℤ × Json}
  {ranges sorted : List (ℤ × ℤ × Json)}

/-- Sorted ranges are in the order of their starts. -/
theorem sorted_starts (h : sortM (range_less floats) ranges = .ok sorted) :
    sorted.Pairwise fun a b => a.1 ≤ b.1 := by
  refine sortM_pairwise le_trans ?_ ?_ h
  · intro a _ b _ hless
    rw [range_less_eq] at hless
    split_ifs at hless with hstart
    · exact hstart.le
    · exact hstart.le
    · exact hstart.le
    · exact (of_decide_eq_true (Except.ok.inj hless)).le
  · intro a _ b _ hless
    rw [range_less_eq] at hless
    split_ifs at hless with hstart
    · exact hstart.ge
    · exact hstart.ge
    · exact hstart.ge
    · exact not_lt.mp (of_decide_eq_false (Except.ok.inj hless))

/-- A comparison of ranges returns if the names are comparable where they decide. -/
theorem range_less_ok (h : a.1 = b.1 → a.2.1 = b.2.1 → Comparable floats a.2.2 b.2.2) :
    ∃ passes, range_less floats a b = .ok passes := by
  rw [range_less_eq]
  split_ifs with hstart hend hsame
  · exact ⟨_, rfl⟩
  · exact ((h hstart hend).resolve_left hsame).1
  · exact ⟨_, rfl⟩
  · exact ⟨_, rfl⟩

/-- Comparable ranges with the same bounds have comparable names. -/
theorem comparable_names (h : Comparable floats (tuple_of a) (tuple_of b)) (hstart : a.1 = b.1)
    (hend : a.2.1 = b.2.1) : Comparable floats a.2.2 b.2.2 := by
  by_cases hsame : same_value floats a.2.2 b.2.2 = true
  · exact .inl hsame
  have hsame' : ¬ same_value floats b.2.2 a.2.2 = true := fun hsame' =>
    hsame ((same_value_iff _ _).mpr ((same_value_iff _ _).mp hsame').symm)
  rcases h with htuple | ⟨⟨r, hless⟩, r', hless'⟩
  · simp [tuple_of, same_value, same_items, hsame] at htuple
  · have hab : range_less floats a b = .ok r := hless
    have hba : range_less floats b a = .ok r' := hless'
    rw [range_less_eq, if_pos hstart, if_pos hend, if_neg hsame] at hab
    rw [range_less_eq, if_pos hstart.symm, if_pos hend.symm, if_neg hsame'] at hba
    exact .inr ⟨⟨r, hab⟩, r', hba⟩

theorem withoutNan_tuple (h : WithoutNan floats a.2.2) : WithoutNan floats (tuple_of a) := by
  refine withoutNan_items.mpr (List.forall_mem_cons.mpr ⟨?_, List.forall_mem_cons.mpr ⟨?_,
    List.forall_mem_cons.mpr ⟨h, by simp⟩⟩⟩)
  · simp [WithoutNan, float_texts]
  · simp [WithoutNan, float_texts]

/-- A sort that returns has compared the names of all ranges with the same bounds. -/
theorem comparable_of_sorted (hnan : ∀ a ∈ ranges, WithoutNan floats a.2.2)
    (h : sortM (range_less floats) ranges = .ok sorted) :
    ranges.Pairwise fun a b => a.1 = b.1 → a.2.1 = b.2.1 → Comparable floats a.2.2 b.2.2 := by
  have hperm := sortM_perm h
  have hsorted : sorted.Pairwise fun a b => AtMost floats (tuple_of a) (tuple_of b) := by
    refine sortM_pairwise AtMost.trans ?_ ?_ h
    · intro a _ b _ hless
      exact atMost_of_less hless
    · intro a ha b hb hless
      exact atMost_of_not_less (withoutNan_tuple (hnan a ha)) (withoutNan_tuple (hnan b hb)) hless
  have hcomparable : sorted.Pairwise fun a b => Comparable floats (tuple_of a) (tuple_of b) := by
    refine hsorted.imp_of_mem fun {a b} ha hb hle => ?_
    exact hle.comparable (withoutNan_tuple (hnan a (hperm.mem_iff.mp ha)))
      (withoutNan_tuple (hnan b (hperm.mem_iff.mp hb)))
  exact ((hperm.pairwise_iff fun h => h.symm).mp hcomparable).imp comparable_names

theorem namesComparable_iff : NamesComparable floats entries ↔ (entries.filterMap range_of).Pairwise
    fun a b => a.1 = b.1 → a.2.1 = b.2.1 → Comparable floats a.2.2 b.2.2 := by
  unfold NamesComparable
  rw [List.pairwise_filterMap]
  refine List.Pairwise.iff fun entry other => ?_
  simp only [range_of_eq_some]
  constructor
  · rintro h a ⟨start, size, hspans, rfl⟩ b ⟨start', size', hspans', rfl⟩ hstart hend
    dsimp only at hstart hend ⊢
    obtain rfl := hstart
    obtain rfl := Int.add_left_cancel hend
    exact h start size hspans hspans'
  · intro h start size hspans hspans'
    exact h _ ⟨start, size, hspans, rfl⟩ _ ⟨start, size, hspans', rfl⟩ rfl rfl

/-- The sorted ranges show an overlap if and only if two entries share an address. -/
theorem reports_overlap_iff
    (h : sortM (range_less floats) (entries.filterMap range_of) = .ok sorted) :
    ReportsOverlap (overlaps sorted) ↔ Overlap entries := by
  have hperm := sortM_perm h
  have hproper : ∀ a ∈ sorted, a.1 < a.2.1 := by
    intro a ha
    obtain ⟨entry, -, hentry⟩ := List.mem_filterMap.mp (hperm.mem_iff.mp ha)
    obtain ⟨start, size, ⟨-, -, -, hpos⟩, rfl⟩ := range_of_eq_some.mp hentry
    dsimp only
    omega
  rw [reports_overlaps_iff, isChain_iff_apart hproper (sorted_starts h),
    hperm.pairwise_iff fun h => h.symm, List.pairwise_filterMap, Overlap, not_iff_not]
  refine List.Pairwise.iff fun entry other => ?_
  simp only [range_of_eq_some]
  constructor
  · rintro h ⟨start, size, start', size', address, hspans, hspans', hin⟩
    exact h _ ⟨start, size, hspans, rfl⟩ _ ⟨start', size', hspans', rfl⟩ address hin
  · rintro h a ⟨start, size, hspans, rfl⟩ b ⟨start', size', hspans', rfl⟩ address hin
    exact h ⟨start, size, start', size', address, hspans, hspans', hin⟩

end Sorted

/-! ## The validation -/

section Validation

variable {floats : Floats} {manifest : Dict} {entries : List Dict} {failures : List Failure}

theorem required_devices_ok :
    (∃ required, has_required_devices manifest = .ok required) ↔ DevicesHashable manifest := by
  unfold has_required_devices DevicesHashable
  cases iterated (devices_of manifest) with
  | error e => simp [bind, Except.bind]
  | ok names =>
    rw [StateExcept.ok_bind]
    split_ifs with hall
    · exact iff_of_true ⟨_, rfl⟩ ⟨names, rfl, hall⟩
    · refine iff_of_false (by simp) ?_
      rintro ⟨names', heq, hall'⟩
      cases heq
      exact hall hall'

/-- The validation returns when the devices can be put into a set and the ranges can be sorted. -/
theorem validate_manifest_eq_ok
    (hmap : Dict.get manifest "memory_map" = some (.arr (entries.map Json.obj))) :
    validate_manifest floats manifest = .ok failures ↔ ∃ required,
      has_required_devices manifest = .ok required ∧ ∃ sorted,
      sortM (range_less floats) (entries.filterMap range_of) = .ok sorted ∧
      failure_if (Dict.get manifest "platform" ≠ some (.str "qemu-virt-reference"))
          (.str "platform", "BogBoot v0.1 supports only qemu-virt-reference") ++
        failure_if (required = false) (.str "devices", "serial and timer devices are required") ++
        ((entries.map range_of).filter Option.isNone).map (fun _ => (.str "memory_map",
          "memory ranges require non-negative start and positive size")) ++
        overlaps sorted = failures := by
  have hentries : iterated ((Dict.get manifest "memory_map").getD (.arr [])) =
      .ok (entries.map Json.obj) := by
    rw [hmap]
    rfl
  unfold validate_manifest
  rw [hentries]
  simp only [bind_eq_ok, Except.ok.injEq, exists_eq_left', mapM_memory_range, List.filterMap_map,
    Function.id_comp]

/-- The validation returns, and finds exactly the overlaps, if the devices can be put into a set and
ranges with the same bounds have comparable names; where no name contains NaN, only then. -/
theorem memory_map_exact (floats : Floats) (manifest : Dict) (entries : List Dict)
    (hmap : Dict.get manifest "memory_map" = some (.arr (entries.map Json.obj))) :
    (DevicesHashable manifest ∧ NamesComparable floats entries → ExactMap floats manifest entries) ∧
    ((∀ entry ∈ entries, WithoutNan floats (name_of entry)) → ExactMap floats manifest entries →
      DevicesHashable manifest ∧ NamesComparable floats entries) := by
  constructor
  · rintro ⟨hdevices, hnames⟩
    obtain ⟨required, hrequired⟩ := required_devices_ok.mpr hdevices
    have hpairwise := (namesComparable_iff.mp hnames).imp fun {a b} h =>
      @range_less_ok floats b a fun hstart hend => (h hstart.symm hend.symm).symm
    obtain ⟨sorted, hsorted⟩ := sortM_ok hpairwise
    refine ⟨_, (validate_manifest_eq_ok hmap).mpr ⟨required, hrequired, sorted, hsorted, rfl⟩, ?_⟩
    intro hall
    have hvalid : (entries.map range_of).filter Option.isNone = [] := by
      rw [List.filter_eq_nil_iff]
      intro range hrange
      obtain ⟨entry, hentry, rfl⟩ := List.mem_map.mp hrange
      obtain ⟨start, size, hspans⟩ := hall entry hentry
      rw [range_of_eq_some.mpr ⟨start, size, hspans, rfl⟩]
      simp
    rw [← reports_overlap_iff hsorted, hvalid]
    refine exists_congr fun names => ?_
    simp [failure_if]
  · rintro hnan ⟨failures, hfailures, -⟩
    obtain ⟨required, hrequired, sorted, hsorted, -⟩ := (validate_manifest_eq_ok hmap).mp hfailures
    refine ⟨required_devices_ok.mp ⟨required, hrequired⟩, namesComparable_iff.mpr ?_⟩
    refine comparable_of_sorted (fun a ha => ?_) hsorted
    obtain ⟨entry, hentry, hrange⟩ := List.mem_filterMap.mp ha
    obtain ⟨start, size, -, rfl⟩ := range_of_eq_some.mp hrange
    exact hnan entry hentry

/-- The default manifest with these ranges. -/
def manifest_with (entries : List Dict) : Dict :=
  Dict.set DEFAULT_MANIFEST "memory_map" (.arr (entries.map Json.obj))

theorem get_manifest_with (entries : List Dict) :
    Dict.get (manifest_with entries) "memory_map" = some (.arr (entries.map Json.obj)) := by
  rw [manifest_with, Dict.get_set, if_pos rfl]

/-- A range inside another one. -/
def nested_ranges : List Dict :=
  [Dict.of [("start", .int 0), ("size", .int 4)], Dict.of [("start", .int 1), ("size", .int 2)]]

theorem memory_map_exact_nested :
    ExactMap (fun _ => none) (manifest_with nested_ranges) nested_ranges := by
  refine (memory_map_exact (fun _ => none) (manifest_with nested_ranges) nested_ranges
    (get_manifest_with nested_ranges)).1 ⟨⟨_, rfl, by decide⟩, ?_⟩
  simp [NamesComparable, nested_ranges, Spans, Dict.of, Dict.get_set, int_value]

/-- Two ranges with the same bounds, of which only one has a name. -/
def twin_ranges : List Dict :=
  [Dict.of [("start", .int 0), ("size", .int 1)],
    Dict.of [("start", .int 0), ("size", .int 1), ("name", .str "a")]]

/-- The validation raises for two equal ranges whose names have no order. -/
theorem twin_ranges_raise :
    ¬ ExactMap (fun _ => none) (manifest_with twin_ranges) twin_ranges := by
  rintro ⟨failures, hfailures, -⟩
  obtain ⟨required, -, sorted, hsorted, -⟩ :=
    (validate_manifest_eq_ok (get_manifest_with twin_ranges)).mp hfailures
  have hranges : twin_ranges.filterMap range_of = [(0, 1, .null), (0, 1, .str "a")] := rfl
  rw [hranges, sortM_cons_eq_ok] at hsorted
  obtain ⟨rest, hrest, hinsert⟩ := hsorted
  obtain rfl := Except.ok.inj hrest
  obtain ⟨hless, -⟩ | ⟨hless, -⟩ := insertM_cons_eq_ok.mp hinsert
  · simp [range_less_eq, same_value, less_value, number] at hless
  · simp [range_less_eq, same_value, less_value, number] at hless

end Validation

end Bogbin.Bogvm.BogBoot
