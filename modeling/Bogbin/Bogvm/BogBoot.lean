import Bogbin.Bogvm.Compare
import Bogbin.Bogvm.Ledger
import Bogbin.Library.Ranking

/-!
# The hardware ledger

`BogBoot`: a boot from a device manifest, the claims of device events, and `verify`.  The files below
the directory of the boot are written by these calls only and are read back as they were written.
-/

namespace Bogbin.Bogvm

def BOOT_FORMAT : String := "BOGBOOT-receipt-13.0"
def IRQ_FORMAT : String := "BOGIRQ-claim-receipt-14.0"
def HARDWARE_STATE_FORMAT : String := "BOGHW-state-14.0"

/-! ## The state -/

/-- A value that is an instance of `int`. -/
structure PyInt where
  value : Json
  int : ℤ
  is_int : int_value value = some int

/-- `isinstance(value, int)` -/
def as_int (value : Json) : Option PyInt :=
  match h : int_value value with
  | some n => some ⟨value, n, h⟩
  | none => none

def PyInt.of (n : ℤ) : PyInt := ⟨.int n, n, rfl⟩

structure DeviceState where
  event_count : ℕ
  last_payload_sha256 : Option String

def DeviceState.fields (d : DeviceState) : Dict :=
  Dict.of [("event_count", .int d.event_count), ("last_payload_sha256", opt_str d.last_payload_sha256)]

structure HardwareState where
  platform : Json
  manifest_sha256 : String
  tick : PyInt
  claim_sequence : ℕ
  accepted_claims : List String
  quarantined_claims : List String
  devices : List (String × DeviceState)
  state_root_sha256 : String

namespace HardwareState

/-- The fields that the state root covers. -/
def fields (st : HardwareState) : Dict :=
  Dict.of [("format", .str HARDWARE_STATE_FORMAT), ("platform", st.platform),
    ("manifest_sha256", .str st.manifest_sha256), ("tick", st.tick.value),
    ("claim_sequence", .int st.claim_sequence),
    ("accepted_claims", .arr (st.accepted_claims.map Json.str)),
    ("quarantined_claims", .arr (st.quarantined_claims.map Json.str)),
    ("devices", .obj (Dict.of (st.devices.map fun d => (d.1, .obj d.2.fields))))]

/-- `_state_root` -/
def state_root (st : HardwareState) : String := stable_hash (.obj st.fields)

/-- The state with its root. -/
def rooted (st : HardwareState) : HardwareState := { st with state_root_sha256 := st.state_root }

theorem rooted_fields (st : HardwareState) : st.rooted.fields = st.fields := by
  unfold fields rooted
  with_reducible rfl

theorem rooted_root (st : HardwareState) : st.rooted.state_root_sha256 = st.rooted.state_root := by
  have hroot : st.rooted.state_root_sha256 = st.state_root := by
    unfold rooted
    with_reducible rfl
  rw [hroot]
  unfold state_root
  rw [rooted_fields]

end HardwareState

/-- The part of a claim that its identifier covers. -/
structure ClaimCore where
  source : String
  timestamp_tick : Json
  raw_payload_sha256 : String
  decoded_event : Json
  capability_required : Json
  capabilities_presented : List String
  state_root_before : String

def ClaimCore.items (core : ClaimCore) : List (String × Json) :=
  [("source", .str core.source), ("timestamp_tick", core.timestamp_tick),
    ("raw_payload_sha256", .str core.raw_payload_sha256), ("decoded_event", core.decoded_event),
    ("capability_required", core.capability_required),
    ("capabilities_presented", .arr (core.capabilities_presented.map Json.str)),
    ("state_root_before", .str core.state_root_before)]

def ClaimCore.fields (core : ClaimCore) : Dict := Dict.of core.items

structure IrqClaim where
  core : ClaimCore
  claim_id : String
  state_root_after : String
  failures : List Failure

/-- The receipt of a claim. -/
def IrqClaim.receipt (claim : IrqClaim) : Dict :=
  Dict.of ([("format", .str IRQ_FORMAT), ("claim_id", .str claim.claim_id)] ++ claim.core.items ++
    [("accepted", .bool (claim.failures = [])), ("state_root_after", .str claim.state_root_after),
      ("failures", failures_json claim.failures),
      ("execution_status", .str (execution_status claim.failures))])

structure ClaimFile where
  name : List Char
  claim : IrqClaim

/-- The session and the directory of the boot. -/
structure BogBoot where
  genesis : Genesis
  device_manifest : Option Dict
  hardware_state : Option HardwareState
  irq_claims : List ClaimFile
  quarantine : List ClaimFile

namespace BogBoot

/-- The directories that a new workspace gets. -/
def fresh (g : Genesis) : BogBoot := ⟨g, none, none, [], []⟩

/-! ## Manifests -/

def device_entry (capability : String) (irq : Json) : Json :=
  .obj (Dict.of [("capability", .str capability), ("irq", irq)])

def memory_entry (name : String) (start size : ℤ) (kind : String) : Json :=
  .obj (Dict.of [("name", .str name), ("start", .int start), ("size", .int size), ("kind", .str kind)])

def DEFAULT_MANIFEST : Dict :=
  Dict.of [("format", .str "BOGHW-device-manifest-14.0"), ("platform", .str "qemu-virt-reference"),
    ("devices", .obj (Dict.of [("serial", device_entry "hardware.serial.input" (.int 4)),
      ("timer", device_entry "hardware.timer.tick" (.int 0)),
      ("keyboard", device_entry "hardware.keyboard.input" (.int 1)),
      ("block_device", device_entry "hardware.block.read" (.int 14)),
      ("framebuffer", device_entry "hardware.framebuffer.event" .null)])),
    ("memory_map", .arr [memory_entry "boot" 0x00100000 0x00010000 "reserved",
      memory_entry "bogk" 0x00110000 0x00090000 "reserved",
      memory_entry "available" 0x00200000 0x03E00000 "available"])]

/-- `manifest or DEFAULT_MANIFEST` -/
def given_manifest : Option Dict → Dict
  | none | some [] => DEFAULT_MANIFEST
  | some manifest => manifest

/-- The items of a value that is iterated. -/
def iterated : Json → Except PyError (List Json)
  | .arr items => .ok items
  | .obj fields => .ok (fields.map fun field => .str field.1)
  | .str s => .ok (s.toList.map fun c => .str (String.singleton c))
  | _ => .error .TypeError

def devices_of (manifest : Dict) : Json := (Dict.get manifest "devices").getD (.obj [])

/-- `required.issubset(manifest.get("devices", {}))`, which makes a set of the devices. -/
def has_required_devices (manifest : Dict) : Except PyError Bool := do
  let names ← iterated (devices_of manifest)
  if names.all hashable then .ok (.str "serial" ∈ names ∧ .str "timer" ∈ names)
  else .error .TypeError

/-- A range of the memory map, with its name; `none` where the start or the size is refused. -/
def memory_range (entry : Json) : Except PyError (Option (ℤ × ℤ × Json)) := do
  let fields ← as_dict entry
  match int_value ((Dict.get fields "start").getD .null),
      int_value ((Dict.get fields "size").getD .null) with
  | some start, some size =>
    .ok (if 0 ≤ start ∧ 0 < size then
      some (start, start + size, (Dict.get fields "name").getD .null) else none)
  | _, _ => .ok none

/-- The failures of neighbours that overlap. -/
def overlaps : List (ℤ × ℤ × Json) → List Failure
  | previous :: current :: rest =>
    failure_if (current.1 < previous.2.1) (.str "memory_map", "overlapping memory ranges: " ++
      py_str previous.2.2 ++ " and " ++ py_str current.2.2) ++ overlaps (current :: rest)
  | _ => []

section Manifest

variable (floats : Floats)

/-- `a < b` for two ranges. -/
def range_less (a b : ℤ × ℤ × Json) : Except PyError Bool :=
  less_items floats [.int a.1, .int a.2.1, a.2.2] [.int b.1, .int b.2.1, b.2.2]

/-- `_validate_manifest` -/
def validate_manifest (manifest : Dict) : Except PyError (List Failure) := do
  let required ← has_required_devices manifest
  let entries ← iterated ((Dict.get manifest "memory_map").getD (.arr []))
  let ranges ← entries.mapM memory_range
  let sorted ← Ranking.sortM (range_less floats) (ranges.filterMap id)
  .ok (failure_if (Dict.get manifest "platform" ≠ some (.str "qemu-virt-reference"))
      (.str "platform", "BogBoot v0.1 supports only qemu-virt-reference") ++
    failure_if (required = false) (.str "devices", "serial and timer devices are required") ++
    (ranges.filter Option.isNone).map (fun _ => (.str "memory_map",
      "memory ranges require non-negative start and positive size")) ++
    overlaps sorted)

/-- `sorted(manifest.get("devices", {}))` -/
def initialized_devices (manifest : Dict) : Except PyError (List Json) := do
  let names ← iterated (devices_of manifest)
  Ranking.sortM (less_value floats) names

end Manifest

/-! ## Boots -/

/-- The key of a device in the file of the state. -/
def device_key : Json → String
  | .str s => s
  | value => String.ofList value.dumps

/-- The state of a new boot. -/
def first_state (manifest : Dict) (devices : List Json) : HardwareState :=
  HardwareState.rooted
    { platform := (Dict.get manifest "platform").getD .null
      manifest_sha256 := stable_hash (.obj manifest)
      tick := PyInt.of 0
      claim_sequence := 0
      accepted_claims := []
      quarantined_claims := []
      devices := (devices.map device_key).dedup.map fun name => (name, ⟨0, none⟩)
      state_root_sha256 := "" }

def boot_receipt (manifest : Dict) (devices : List Json) (state : HardwareState)
    (failures : List Failure) : Dict :=
  Dict.of [("format", .str BOOT_FORMAT), ("target", .str "qemu-virt-reference"),
    ("platform", (Dict.get manifest "platform").getD .null), ("initialized_devices", .arr devices),
    ("memory_map", (Dict.get manifest "memory_map").getD (.arr [])),
    ("device_manifest_sha256", .str (stable_hash (.obj manifest))),
    ("hardware_state_root_sha256",
      if failures = [] then .str state.state_root_sha256 else .null),
    ("bogk_entrypoint", .str "verified-event-loop"), ("physical_hardware_claimed", .bool false),
    ("failures", failures_json failures),
    ("execution_status", .str (execution_status failures))]

/-- The files of a completed boot. -/
def booted (manifest : Dict) (state : HardwareState) (failures : List Failure) (b : BogBoot) : BogBoot :=
  if failures = [] then
    { b with device_manifest := some manifest, hardware_state := some state }
  else b

/-- The ledger entry of a call. -/
def recorded (keys : Keys) (event : String) (receipt : Dict) : EStateM PyError BogBoot Dict := do
  let (signed, genesis) ← MonadExcept.ofExcept (record keys (← get).genesis event receipt)
  modify fun b => { b with genesis := genesis }
  pure signed

def boot (floats : Floats) (keys : Keys) (manifest : Option Dict) : EStateM PyError BogBoot Dict := do
  let manifest := given_manifest manifest
  let failures ← MonadExcept.ofExcept (validate_manifest floats manifest)
  let devices ← MonadExcept.ofExcept (initialized_devices floats manifest)
  let state := first_state manifest devices
  modify (booted manifest state failures)
  recorded keys "bogboot" (boot_receipt manifest devices state failures)

/-! ## Claims -/

inductive Payload
  | bytes (data : Bytes)
  | text (data : String)

/-- `raw_payload.encode() if isinstance(raw_payload, str) else bytes(raw_payload)` -/
def Payload.data : Payload → Bytes
  | .bytes data => data
  | .text data => utf8 data

/-- The arguments of `irq_claim`; `None` as the tick is null. -/
structure ClaimCall where
  source : String
  raw_payload : Payload
  decoded_event : Json
  capabilities : List String
  timestamp_tick : Json

/-- `_load` -/
def load (b : BogBoot) : Except PyError (HardwareState × Dict) :=
  match b.hardware_state, b.device_manifest with
  | some state, some manifest => .ok (state, manifest)
  | _, _ => .error .BogBootError

/-- `manifest["devices"].get(source)` -/
def device_of (manifest : Dict) (source : String) : Except PyError Json := do
  let devices ← Dict.item manifest "devices"
  let devices ← as_dict devices
  .ok ((Dict.get devices source).getD .null)

/-- `device.get("capability") if device else None` -/
def required_capability (device : Json) : Except PyError Json :=
  if device.truthy then do
    let fields ← as_dict device
    .ok ((Dict.get fields "capability").getD .null)
  else .ok .null

/-- `required in capabilities` -/
def presented (required : Json) (capabilities : List String) : Bool :=
  match required with
  | .str capability => capability ∈ capabilities
  | _ => false

def claimed_tick (state : HardwareState) (timestamp_tick : Json) : Json :=
  if timestamp_tick = .null then .int (state.tick.int + 1) else timestamp_tick

/-- The tick of a claim, when it is an integer above the current one. -/
def next_tick (state : HardwareState) (tick : Json) : Option PyInt :=
  (as_int tick).filter fun t => state.tick.int < t.int

def claim_failures (state : HardwareState) (claim : ClaimCall) (device required tick : Json) :
    List Failure :=
  failure_if (device = .null) (.str claim.source, "device is not declared by hardware manifest") ++
    failure_if (presented required claim.capabilities = false)
      (.str claim.source, "missing hardware capability: " ++ py_str required) ++
    failure_if (next_tick state tick = none)
      (.str (py_str tick), "hardware tick must increase monotonically")

def name_sorted (names : List String) : List String :=
  names.mergeSort fun a b => a.toList ≤ b.toList

def claim_core (state : HardwareState) (claim : ClaimCall) (required tick : Json) : ClaimCore where
  source := claim.source
  timestamp_tick := tick
  raw_payload_sha256 := hexdigest claim.raw_payload.data
  decoded_event := claim.decoded_event
  capability_required := required
  capabilities_presented := name_sorted claim.capabilities.dedup
  state_root_before := state.state_root_sha256

/-- The device counts one more event. -/
def counted (source payload_sha256 : String) (devices : List (String × DeviceState)) :
    Except PyError (List (String × DeviceState)) :=
  if source ∈ devices.map Prod.fst then
    .ok (devices.map fun d =>
      if d.1 = source then (d.1, ⟨d.2.event_count + 1, some payload_sha256⟩) else d)
  else .error .KeyError

/-- The state after a claim. -/
def claimed_state (state : HardwareState) (core : ClaimCore) (claim_id : String)
    (failures : List Failure) : Except PyError HardwareState :=
  match failures, next_tick state core.timestamp_tick with
  | [], some tick => do
    let devices ← counted core.source core.raw_payload_sha256 state.devices
    .ok (HardwareState.rooted { state with
      claim_sequence := state.claim_sequence + 1
      tick := tick
      accepted_claims := state.accepted_claims ++ [claim_id]
      devices := devices })
  | _, _ => .ok (HardwareState.rooted { state with
      claim_sequence := state.claim_sequence + 1
      quarantined_claims := state.quarantined_claims ++ [claim_id] })

/-- The judgement of a claim: the new state and the claim as it is filed. -/
def judge (state : HardwareState) (manifest : Dict) (claim : ClaimCall) :
    Except PyError (HardwareState × IrqClaim) := do
  let device ← device_of manifest claim.source
  let required ← required_capability device
  let tick := claimed_tick state claim.timestamp_tick
  let failures := claim_failures state claim device required tick
  let core := claim_core state claim required tick
  let claim_id := stable_hash (.obj core.fields)
  let state ← claimed_state state core claim_id failures
  .ok (state, ⟨core, claim_id, state.state_root_sha256, failures⟩)

/-- Write a file; an older one of this name is replaced. -/
def write_claim (files : List ClaimFile) (sequence : ℕ) (claim : IrqClaim) : List ClaimFile :=
  files.filter (fun file => file.name ≠ entry_name sequence claim.claim_id) ++
    [⟨entry_name sequence claim.claim_id, claim⟩]

/-- The state and the claim are written. -/
def filed (state : HardwareState) (claim : IrqClaim) (b : BogBoot) : BogBoot :=
  if claim.failures = [] then
    { b with
      hardware_state := some state
      irq_claims := write_claim b.irq_claims state.claim_sequence claim }
  else
    { b with
      hardware_state := some state
      quarantine := write_claim b.quarantine state.claim_sequence claim }

def irq_claim (keys : Keys) (claim : ClaimCall) : EStateM PyError BogBoot Dict := do
  let (state, manifest) ← MonadExcept.ofExcept (← get).load
  let (state, judged) ← MonadExcept.ofExcept (judge state manifest claim)
  modify (filed state judged)
  recorded keys "bogirq" judged.receipt

/-! ## Verification -/

/-- `sorted(dir.glob("*.json"))` -/
def sorted_files (files : List ClaimFile) : List ClaimFile :=
  files.mergeSort fun a b => a.name ≤ b.name

/-- The check of a claim file below a directory. -/
def verify_claim (dir : String) (file : ClaimFile) : List Failure :=
  failure_if (file.claim.claim_id ≠ stable_hash (.obj file.claim.core.fields))
    (.str (dir ++ "/" ++ String.ofList file.name), "IRQ claim hash mismatch")

/-- The failures of `verify`; `dir` is the directory of the boot. -/
def verify (floats : Floats) (dir : String) (b : BogBoot) : Except PyError (List Failure) :=
  match b.load with
  | .error _ => .ok [(.str dir, "BogBoot has not completed")]
  | .ok (state, manifest) => do
    let failures ← validate_manifest floats manifest
    .ok (failures ++
      failure_if (state.manifest_sha256 ≠ stable_hash (.obj manifest))
        (.str (dir ++ "/device_manifest.json"), "hardware manifest hash mismatch") ++
      failure_if (state.state_root_sha256 ≠ state.state_root)
        (.str (dir ++ "/hardware_state.json"), "hardware state root mismatch") ++
      failure_if (b.irq_claims.length + b.quarantine.length ≠ state.claim_sequence)
        (.str dir, "hardware claim sequence mismatch") ++
      (sorted_files b.irq_claims).flatMap (verify_claim (dir ++ "/irq_claims")) ++
      (sorted_files b.quarantine).flatMap (verify_claim (dir ++ "/quarantine")))

end BogBoot

end Bogbin.Bogvm
