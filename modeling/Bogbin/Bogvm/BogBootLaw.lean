import Bogbin.Bogvm.BogBootRun

/-!
# The law of the hardware ledger

In an orderly run, in which every boot that completes finds no claim files, `verify` has no failures
after a completed boot, the ticks of accepted claims rise until the next completed boot, and a claim
is accepted exactly when it is admissible.  A boot after a claim makes `verify` fail.
-/

namespace Bogbin.Bogvm.BogBoot

open StateExcept

inductive HardwareCall
  | boot (manifest : Option Dict)
  | irq_claim (claim : ClaimCall)

def HardwareCall.call (floats : Floats) (keys : Keys) : HardwareCall → EStateM PyError BogBoot Dict
  | .boot manifest => BogBoot.boot floats keys manifest
  | .irq_claim claim => BogBoot.irq_claim keys claim

/-- The call is a boot that completes. -/
def HardwareCall.Resets (floats : Floats) : HardwareCall → Prop
  | .boot manifest => Completes floats manifest
  | .irq_claim _ => False

/-- The files after the calls, whether they return or raise. -/
def after_calls (floats : Floats) (keys : Keys) (b : BogBoot) (calls : List HardwareCall) : BogBoot :=
  calls.foldl (fun b c => after (c.call floats keys b)) b

theorem after_calls_nil (floats : Floats) (keys : Keys) (b : BogBoot) :
    after_calls floats keys b [] = b := rfl

theorem after_calls_boot (floats : Floats) (keys : Keys) (b : BogBoot) (m : Option Dict)
    (rest : List HardwareCall) : after_calls floats keys b (.boot m :: rest) =
      after_calls floats keys (after (BogBoot.boot floats keys m b)) rest := rfl

theorem after_calls_irq_claim (floats : Floats) (keys : Keys) (b : BogBoot) (claim : ClaimCall)
    (rest : List HardwareCall) : after_calls floats keys b (.irq_claim claim :: rest) =
      after_calls floats keys (after (BogBoot.irq_claim keys claim b)) rest := rfl

/-- Every boot that completes finds no claim files. -/
def Orderly (floats : Floats) (keys : Keys) : BogBoot → List HardwareCall → Prop
  | _, [] => True
  | b, call :: rest => (call.Resets floats → b.irq_claims = [] ∧ b.quarantine = []) ∧
      Orderly floats keys (after (call.call floats keys b)) rest

/-- The receipt of an accepted claim. -/
def Accepts (result : EStateM.Result PyError BogBoot Dict) : Prop :=
  ∃ receipt b, result = .ok receipt b ∧ Dict.get receipt "accepted" = some (.bool true)

/-- The tick of the claim that a call accepts. -/
def accepted_tick : EStateM.Result PyError BogBoot Dict → Option ℤ
  | .ok receipt _ =>
    if Dict.get receipt "accepted" = some (.bool true) then
      (Dict.get receipt "timestamp_tick").bind int_value
    else none
  | .error _ _ => none

def accepted_ticks (floats : Floats) (keys : Keys) : BogBoot → List HardwareCall → List ℤ
  | _, [] => []
  | b, call :: rest => (accepted_tick (call.call floats keys b)).toList ++
      accepted_ticks floats keys (after (call.call floats keys b)) rest

/-- A claim is accepted exactly when it is admissible; a rejected one leaves the tick and the
counters. -/
structure ClaimLaw (keys : Keys) (b : BogBoot) (state : HardwareState) (manifest : Dict)
    (claim : ClaimCall) : Prop where
  accepted_iff : Accepts (irq_claim keys claim b) ↔ Admissible state manifest claim
  rejected : ¬ Accepts (irq_claim keys claim b) → ∃ state',
    (after (irq_claim keys claim b)).hardware_state = some state' ∧ state'.tick = state.tick ∧
      state'.devices = state.devices

section Law

variable {floats : Floats} {keys : Keys} {dir : String} {b : BogBoot} {state : HardwareState}
  {manifest : Dict} {claim : ClaimCall} {call : HardwareCall} {calls : List HardwareCall}

/-- What a claim does in a standing boot: it raises and leaves the files, or it is judged. -/
theorem irq_claim_cases (hkeys : keys.Lawful) (hledger : Ledgered b.genesis.ledger)
    (h : Standing floats b state manifest) (claim : ClaimCall) :
    (∃ e, irq_claim keys claim b = .error e b ∧ ¬ Admissible state manifest claim) ∨
      ∃ entry genesis state' judged, irq_claim keys claim b =
          .ok entry { filed state' judged b with genesis := genesis } ∧ Ledgered genesis.ledger ∧
        Judged state manifest claim state' judged ∧
        Dict.get entry "accepted" = some (.bool (judged.failures = [])) ∧
        Dict.get entry "timestamp_tick" = some judged.core.timestamp_tick := by
  cases hjudge : judge state manifest claim with
  | error e =>
    refine .inl ⟨e, irq_claim_raises h.load hjudge, fun hadmissible => ?_⟩
    obtain ⟨state', judged, hok⟩ := judge_returns h.known hadmissible
    rw [hjudge] at hok
    cases hok
  | ok result =>
    obtain ⟨state', judged⟩ := result
    obtain ⟨entry, genesis, hreturns, hledger', hrecord⟩ :=
      irq_claim_returns hkeys hledger h.load hjudge
    refine .inr ⟨entry, genesis, state', judged, hreturns, hledger', judge_spec hjudge, ?_, ?_⟩
    · rw [get_recorded hrecord (by decide)]
      simp [IrqClaim.receipt, ClaimCore.items, Dict.of, Dict.get_set]
    · rw [get_recorded hrecord (by decide)]
      simp [IrqClaim.receipt, ClaimCore.items, Dict.of, Dict.get_set]

theorem claim_law (hkeys : keys.Lawful) (hledger : Ledgered b.genesis.ledger)
    (h : Standing floats b state manifest) (claim : ClaimCall) : ClaimLaw keys b state manifest claim := by
  rcases irq_claim_cases hkeys hledger h claim with
    ⟨e, hraises, hnot⟩ | ⟨entry, genesis, state', judged, hreturns, -, hjudged, haccepted, -⟩
  · have hrejected : ¬ Accepts (irq_claim keys claim b) := by
      rintro ⟨receipt, b', hok, -⟩
      rw [hraises] at hok
      cases hok
    refine ⟨iff_of_false hrejected hnot, fun _ => ⟨state, ?_, rfl, rfl⟩⟩
    rw [hraises]
    exact (load_eq_ok.mp h.load).1
  · have hiff : Accepts (irq_claim keys claim b) ↔ judged.failures = [] := by
      constructor
      · rintro ⟨receipt, b', hok, hget⟩
        rw [hreturns] at hok
        obtain ⟨rfl, -⟩ := EStateM.Result.ok.inj hok
        rw [haccepted] at hget
        exact of_decide_eq_true (Json.bool.inj (Option.some.inj hget))
      · intro hnil
        exact ⟨entry, _, hreturns, by rw [haccepted, decide_eq_true hnil]⟩
    refine ⟨hiff.trans hjudged.accepted_iff, fun hrejected => ?_⟩
    obtain ⟨htick, hdevices⟩ := hjudged.rejected (mt hiff.mpr hrejected)
    refine ⟨state', ?_, htick, hdevices⟩
    rw [hreturns]
    exact filed_hardware_state

/-- An orderly call keeps the files sound. -/
theorem Sound.step (hkeys : keys.Lawful) (h : Sound floats b)
    (horderly : call.Resets floats → b.irq_claims = [] ∧ b.quarantine = []) :
    Sound floats (after (call.call floats keys b)) := by
  cases call with
  | boot m =>
    by_cases hcompletes : Completes floats m
    · obtain ⟨hvalid, devices, hdevices⟩ := hcompletes
      obtain ⟨entry, genesis, hreturns, hledger⟩ := @boot_returns _ _ b hkeys h.ledger m _ hvalid hdevices
      obtain ⟨hclaims, hquarantine⟩ := horderly ⟨hvalid, devices, hdevices⟩
      show Sound floats (after (BogBoot.boot floats keys m b))
      rw [hreturns]
      refine ⟨hledger, .inr ⟨_, _, standing_first_state hvalid hdevices, ?_, ?_, ?_⟩⟩
      · show b.irq_claims.length + b.quarantine.length = 0
        rw [hclaims, hquarantine]
        rfl
      · show ∀ file ∈ b.irq_claims ++ b.quarantine, _
        rw [hclaims, hquarantine]
        exact nofun
      · show ∀ file ∈ b.irq_claims ++ b.quarantine, _
        rw [hclaims, hquarantine]
        exact nofun
    · obtain ⟨genesis, heq, hledger⟩ := @boot_blocked _ keys b h.ledger m hcompletes
      show Sound floats (after (BogBoot.boot floats keys m b))
      rw [heq]
      refine ⟨hledger, h.files.imp id ?_⟩
      rintro ⟨state, manifest, hstanding, hcounted⟩
      exact ⟨state, manifest, hstanding.recorded, hcounted.recorded⟩
  | irq_claim claim =>
    show Sound floats (after (BogBoot.irq_claim keys claim b))
    rcases h.files with ⟨hnone, hfiles⟩ | ⟨state, manifest, hstanding, hcounted⟩
    · have hload : b.load = .error .BogBootError := by
        rw [load, hnone]
      rw [irq_claim_unbooted hload]
      exact h
    · rcases irq_claim_cases hkeys h.ledger hstanding claim with
        ⟨e, hraises, -⟩ | ⟨entry, genesis, state', judged, hreturns, hledger, hjudged, -⟩
      · rw [hraises]
        exact h
      · rw [hreturns]
        exact ⟨hledger, .inr ⟨state', manifest, hstanding.filed hjudged, hcounted.filed hjudged⟩⟩

theorem Sound.run (hkeys : keys.Lawful) (h : Sound floats b) (horderly : Orderly floats keys b calls) :
    Sound floats (after_calls floats keys b calls) := by
  induction calls generalizing b with
  | nil => exact h
  | cons call rest ih => exact ih (h.step hkeys horderly.1) horderly.2

theorem Sound.standing (h : Sound floats b) (hload : b.load = .ok (state, manifest)) :
    Standing floats b state manifest ∧ Counted b state := by
  rcases h.files with ⟨hnone, -⟩ | ⟨state', manifest', hstanding, hcounted⟩
  · rw [load, hnone] at hload
    cases hload
  · obtain ⟨rfl, rfl⟩ := Prod.mk.inj (Except.ok.inj (hstanding.load.symm.trans hload))
    exact ⟨hstanding, hcounted⟩

theorem accepted_tick_boot (m : Option Dict) : accepted_tick (BogBoot.boot floats keys m b) = none := by
  cases hboot : BogBoot.boot floats keys m b with
  | error e b' => rfl
  | ok receipt b' =>
    unfold BogBoot.boot at hboot
    dsimp only at hboot
    obtain ⟨failures, -, hboot⟩ := ofExcept_bind_eq_ok.mp hboot
    obtain ⟨devices, -, hboot⟩ := ofExcept_bind_eq_ok.mp hboot
    rw [bind_of_ok (modify_apply _)] at hboot
    unfold recorded at hboot
    rw [bind_of_ok get_apply] at hboot
    obtain ⟨⟨signed, genesis⟩, hrecord, hboot⟩ := ofExcept_bind_eq_ok.mp hboot
    dsimp only at hboot
    rw [bind_of_ok (modify_apply _)] at hboot
    obtain ⟨rfl, -⟩ := EStateM.Result.ok.inj hboot
    have hget := @get_recorded _ _ _ _ _ _ "accepted" hrecord (by decide)
    rw [accepted_tick, hget]
    simp [boot_receipt, Dict.of, Dict.get_set, Dict.get]

/-- A call that is not a completed boot accepts nothing and leaves the tick, or accepts a later
one. -/
theorem tick_step (hkeys : keys.Lawful) (hledger : Ledgered b.genesis.ledger)
    (h : Standing floats b state manifest) (hcall : ¬ call.Resets floats) :
    ∃ state', Standing floats (after (call.call floats keys b)) state' manifest ∧
      Ledgered (after (call.call floats keys b)).genesis.ledger ∧
      ((accepted_tick (call.call floats keys b) = none ∧ state'.tick = state.tick) ∨
        (accepted_tick (call.call floats keys b) = some state'.tick.int ∧
          state.tick.int < state'.tick.int)) := by
  cases call with
  | boot m =>
    obtain ⟨genesis, heq, hledger'⟩ := @boot_blocked _ keys b hledger m hcall
    show ∃ state', Standing floats (after (BogBoot.boot floats keys m b)) state' manifest ∧
      Ledgered (after (BogBoot.boot floats keys m b)).genesis.ledger ∧ _
    rw [heq]
    exact ⟨state, h.recorded, hledger', .inl ⟨accepted_tick_boot m, rfl⟩⟩
  | irq_claim claim =>
    show ∃ state', Standing floats (after (BogBoot.irq_claim keys claim b)) state' manifest ∧
      Ledgered (after (BogBoot.irq_claim keys claim b)).genesis.ledger ∧
      ((accepted_tick (BogBoot.irq_claim keys claim b) = none ∧ _) ∨
        (accepted_tick (BogBoot.irq_claim keys claim b) = _ ∧ _))
    rcases irq_claim_cases hkeys hledger h claim with
      ⟨e, hraises, -⟩ | ⟨entry, genesis, state', judged, hreturns, hledger', hjudged, haccepted, htick⟩
    · rw [hraises]
      exact ⟨state, h, hledger, .inl ⟨rfl, rfl⟩⟩
    · rw [hreturns]
      refine ⟨state', h.filed hjudged, hledger', ?_⟩
      rw [accepted_tick, haccepted, htick]
      by_cases hnil : judged.failures = []
      · obtain ⟨hint, hlt⟩ := hjudged.accepted hnil
        rw [if_pos (by rw [decide_eq_true hnil])]
        exact .inr ⟨hint, hlt⟩
      · rw [if_neg (by simp [hnil])]
        exact .inl ⟨rfl, (hjudged.rejected hnil).1⟩

/-- Without a completed boot, accepted ticks are above the current one and rise. -/
theorem accepted_ticks_rise (hkeys : keys.Lawful) (hledger : Ledgered b.genesis.ledger)
    (h : Standing floats b state manifest) (hcalls : ∀ call ∈ calls, ¬ call.Resets floats) :
    (∀ t ∈ accepted_ticks floats keys b calls, state.tick.int < t) ∧
      (accepted_ticks floats keys b calls).Pairwise (· < ·) := by
  induction calls generalizing b state with
  | nil => exact ⟨nofun, List.Pairwise.nil⟩
  | cons call rest ih =>
    obtain ⟨hcall, hrest⟩ := List.forall_mem_cons.mp hcalls
    obtain ⟨state', hstanding, hledger', htick⟩ := tick_step hkeys hledger h hcall
    obtain ⟨habove, hrise⟩ := ih hledger' hstanding hrest
    unfold accepted_ticks
    rcases htick with ⟨hnone, hsame⟩ | ⟨hsome, hlt⟩
    · rw [hnone, Option.toList_none, List.nil_append, ← hsame]
      exact ⟨habove, hrise⟩
    · rw [hsome, Option.toList_some]
      refine ⟨List.forall_mem_cons.mpr ⟨hlt, fun t ht => hlt.trans (habove t ht)⟩, ?_⟩
      exact List.pairwise_cons.mpr ⟨habove, hrise⟩

/-- An admissible claim is counted. -/
theorem counted_after_claim (hkeys : keys.Lawful) (hledger : Ledgered b.genesis.ledger)
    (h : Standing floats b state manifest) (hcounted : Counted b state)
    (hadmissible : Admissible state manifest claim) :
    ∃ state', Standing floats (after (irq_claim keys claim b)) state' manifest ∧
      Ledgered (after (irq_claim keys claim b)).genesis.ledger ∧
      Counted (after (irq_claim keys claim b)) state' ∧
      state'.claim_sequence = state.claim_sequence + 1 := by
  rcases irq_claim_cases hkeys hledger h claim with
    ⟨e, -, hnot⟩ | ⟨entry, genesis, state', judged, hreturns, hledger', hjudged, -⟩
  · exact absurd hadmissible hnot
  · rw [hreturns]
    exact ⟨state', h.filed hjudged, hledger', hcounted.filed hjudged, hjudged.sequence⟩

/-- A boot that completes leaves the claim files, and no claims are counted. -/
theorem verify_after_boot (hkeys : keys.Lawful) (hledger : Ledgered b.genesis.ledger) {m : Option Dict}
    (hcompletes : Completes floats m) (hfiles : 0 < b.irq_claims.length + b.quarantine.length) :
    verify floats dir (after (BogBoot.boot floats keys m b)) ≠ .ok [] := by
  obtain ⟨hvalid, devices, hdevices⟩ := hcompletes
  obtain ⟨entry, genesis, hreturns, -⟩ := @boot_returns _ _ b hkeys hledger m _ hvalid hdevices
  rw [hreturns]
  refine verify_of_miscounted (standing_first_state hvalid hdevices) ?_
  show b.irq_claims.length + b.quarantine.length ≠ 0
  exact hfiles.ne'

end Law

/-! ## A boot after a claim -/

/-- An input event with the capability of the serial device. -/
def serial_claim : ClaimCall where
  source := "serial"
  raw_payload := .text "x"
  decoded_event := .str "x"
  capabilities := ["hardware.serial.input"]
  timestamp_tick := .null

theorem default_completes : Completes (fun _ => none) none := by
  refine ⟨?_, [.str "block_device", .str "framebuffer", .str "keyboard", .str "serial", .str "timer"], ?_⟩
  · decide +kernel
  · decide +kernel

theorem serial_claim_admissible (state : HardwareState) :
    Admissible state DEFAULT_MANIFEST serial_claim := by
  have hdevices : Dict.get DEFAULT_MANIFEST "devices" =
      some (.obj (Dict.of [("serial", device_entry "hardware.serial.input" (.int 4)),
        ("timer", device_entry "hardware.timer.tick" (.int 0)),
        ("keyboard", device_entry "hardware.keyboard.input" (.int 1)),
        ("block_device", device_entry "hardware.block.read" (.int 14)),
        ("framebuffer", device_entry "hardware.framebuffer.event" .null)])) := by
    simp [DEFAULT_MANIFEST, Dict.of, Dict.get_set]
  constructor
  case declared =>
    refine ⟨_, device_entry "hardware.serial.input" (.int 4), hdevices, ?_⟩
    simp [serial_claim, Dict.of, Dict.get_set]
  case presented =>
    refine ⟨_, Dict.of [("capability", .str "hardware.serial.input"), ("irq", .int 4)], hdevices, ?_, ?_⟩
    · simp [serial_claim, device_entry, Dict.of, Dict.get_set]
    · refine ⟨"hardware.serial.input", List.mem_singleton_self _, ?_⟩
      simp [Dict.of, Dict.get_set]
  case tick =>
    exact ⟨state.tick.int + 1, rfl, lt_add_one _⟩

/-- The files after a boot. -/
def booted_default : BogBoot :=
  after (boot (fun _ => none) plain_keys none (fresh Genesis.fresh))

/-- The files after a boot and a claim. -/
def claimed : BogBoot := after (irq_claim plain_keys serial_claim booted_default)

theorem booted_default_standing : ∃ state,
    Standing (fun _ => none) booted_default state DEFAULT_MANIFEST ∧
      Ledgered booted_default.genesis.ledger ∧ Counted booted_default state := by
  obtain ⟨hvalid, devices, hdevices⟩ := default_completes
  obtain ⟨entry, genesis, hreturns, hledger⟩ := @boot_returns _ _ (fresh Genesis.fresh)
    plain_keys_lawful ledgered_nil none devices hvalid hdevices
  rw [booted_default, hreturns]
  refine ⟨_, standing_first_state hvalid hdevices, hledger, rfl, ?_, ?_⟩
  · exact fun file hfile => absurd hfile List.not_mem_nil
  · exact fun file hfile => absurd hfile List.not_mem_nil

theorem claimed_standing : ∃ state, Standing (fun _ => none) claimed state DEFAULT_MANIFEST ∧
    Ledgered claimed.genesis.ledger ∧ 0 < claimed.irq_claims.length + claimed.quarantine.length := by
  obtain ⟨state, hstanding, hledger, hcounted⟩ := booted_default_standing
  obtain ⟨state', hstanding', hledger', hcounted', hsequence⟩ := counted_after_claim
    plain_keys_lawful hledger hstanding hcounted (serial_claim_admissible state)
  refine ⟨state', hstanding', hledger', ?_⟩
  have hlength := hcounted'.length
  rw [hsequence] at hlength
  rw [claimed, hlength]
  exact Nat.succ_pos _

end Bogbin.Bogvm.BogBoot
