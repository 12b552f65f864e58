import Bogbin.Kernel.SerialLine
import Bogbin.Kernel.SyscallFrame
import Bogbin.Kernel.RejectedSyscall

/-!
# Receipts that an application forges

The serial line over runs of calls, of the shell command that shows the last receipt, and of whatever
else the kernel prints.  A receipt of the kernel never carries a delimiter that came from user memory;
the text of a legacy receipt does when it holds one of the delimiters that
`contains_forbidden_sentinel` does not know (`spoof_free_iff`).
-/

namespace Bogbin.Kernel

open Buffer Bogbin.Core Occurrence KernelState

/-! ## Runs -/

def SyscallOutcome.receipts : SyscallOutcome → List Receipt
  | .returned _ receipts _ => receipts
  | .left _ receipts _ => receipts
  | .panicked => []

/-- What is on the serial line, and the kernel behind it. -/
structure Console where
  serial : Serial
  kernel : KernelState

/-- An event: a call with the memory and the registers that the application chose, the shell command
`cat /receipts/last`, or any other work of the kernel, which prints lines of its own. -/
inductive KernelEvent
  | syscall (memory : UInt32 → UInt8) (regs : SyscallRegisters)
  | cat_receipts_last
  | other (kernel : KernelState) (lines : List Bytes)

def own_lines (lines : List Bytes) : Serial := lines.flatMap fun line => own line ++ line_feed

/-- The text of the last receipt, as `cat /receipts/last` reads it. -/
def LastReceipt.text (r : LastReceipt) : Bytes := (from_utf8 (r.buf.val.take r.len)).getD []

def cat_receipts_last (r : LastReceipt) : Serial :=
  (if r.available then foreign r.text else serial_write "no app run yet") ++ line_feed

/-- The console after an event; `none` is a panic. -/
def Console.step (overflow_checks : Bool) (c : Console) : KernelEvent → Option Console
  | .syscall memory regs =>
    let outcome := handle_syscall overflow_checks { c.kernel with memory := memory } regs
    outcome.next.map fun k => ⟨c.serial ++ outcome.receipts.flatMap Receipt.emit, k⟩
  | .cat_receipts_last => some ⟨c.serial ++ cat_receipts_last c.kernel.last_receipt, c.kernel⟩
  | .other k lines => some ⟨c.serial ++ own_lines lines, k⟩

/-- A run ends with its events or with a panic. -/
def Console.run (overflow_checks : Bool) (c : Console) : List KernelEvent → Console
  | [] => c
  | e :: events =>
    match c.step overflow_checks e with
    | some c' => c'.run overflow_checks events
    | none => c

/-- A kernel that has printed lines of its own. -/
def Console.booted (k : KernelState) (lines : List Bytes) : Console := ⟨own_lines lines, k⟩

/-! ## What the filter lets through -/

/-- The text that a call prints as it is: a legacy receipt that passes the filter. -/
def KernelState.emitted_text (k : KernelState) (regs : SyscallRegisters) : Option Bytes :=
  let bytes := k.read_memory regs.ebx regs.ecx.toNat
  if regs.eax = 5 ∧ k.dynamic_loader_admitted = false ∧ regs.ebx ≠ 0 ∧ regs.ecx.toNat ≤ 1024 ∧
      contains_forbidden_sentinel bytes = false then from_utf8 bytes
  else none

def Holds (patterns : List Bytes) (text : Bytes) : Prop := ∃ d ∈ patterns, d <:+: text

/-- The delimiters that the filter does not look for. -/
def unfiltered_delimiters : List Bytes := delimiters.filter (· ∉ forbidden_sentinels)

/-- The text of a call holds none of the delimiters that the filter does not look for, and the last
receipt holds no delimiter when it is shown. -/
def Console.Harmless (c : Console) : KernelEvent → Prop
  | .syscall memory regs =>
    ∀ text, { c.kernel with memory := memory }.emitted_text regs = some text →
      ¬ Holds unfiltered_delimiters text
  | .cat_receipts_last =>
    c.kernel.last_receipt.available = true → ¬ Holds delimiters c.kernel.last_receipt.text
  | .other _ _ => True

/-- Every event of a run is harmless where it happens. -/
def Console.HarmlessRun (overflow_checks : Bool) (c : Console) : List KernelEvent → Prop
  | [] => True
  | e :: events => c.Harmless e ∧
    ∀ c', c.step overflow_checks e = some c' → c'.HarmlessRun overflow_checks events

/-- A delimiter on the serial line has a byte from user memory. -/
def Spoofed (serial : Serial) : Prop := Forged delimiters serial

/-! ## Delimiters -/

def LINE_FEED : UInt8 := 10

theorem symbols_of_delimiter {d : Bytes} (hd : d ∈ delimiters) :
    d.all delimiter_symbol = true := by
  have hbegin : (ascii "_BEGIN").all delimiter_symbol = true := by decide
  have hend : (ascii "_END").all delimiter_symbol = true := by decide
  have hstart : (ascii "BOGOS_").all delimiter_symbol = true := by decide
  obtain ⟨name, hname, hd⟩ := List.mem_flatMap.mp hd
  have hsymbols := name_symbols name hname
  simp only [List.mem_cons, List.not_mem_nil, or_false] at hd
  rcases hd with rfl | rfl
  · simp only [List.all_append, hstart, hsymbols, hbegin, Bool.and_self]
  · simp only [List.all_append, hstart, hsymbols, hend, Bool.and_self]

/-- A byte that is not a symbol of the delimiters cuts the serial line. -/
theorem not_mem_delimiter {c : UInt8} (hc : delimiter_symbol c = false) :
    ∀ d ∈ delimiters, c ∉ d := by
  intro d hd hmem
  have hsymbol := List.all_eq_true.mp (symbols_of_delimiter hd) c hmem
  rw [hc] at hsymbol
  cases hsymbol

theorem head_of_delimiter {d : Bytes} (hd : d ∈ delimiters) : 66 ∈ d := by
  have hstart : (66 : UInt8) ∈ ascii "BOGOS_" := by decide
  obtain ⟨name, -, hd⟩ := List.mem_flatMap.mp hd
  simp only [List.mem_cons, List.not_mem_nil, or_false] at hd
  rcases hd with rfl | rfl
  · simp only [List.mem_append, hstart, true_or]
  · simp only [List.mem_append, hstart, true_or]

theorem delimiter_ne_nil : ∀ d ∈ delimiters, d ≠ [] :=
  fun _ hd => List.ne_nil_of_mem (head_of_delimiter hd)

theorem line_feed_not_mem : ∀ d ∈ delimiters, LINE_FEED ∉ d := not_mem_delimiter (by decide)

theorem contains_forbidden_sentinel_iff {buf : Bytes} :
    contains_forbidden_sentinel buf = true ↔ Holds forbidden_sentinels buf := by
  unfold contains_forbidden_sentinel Holds
  rw [List.any_eq_true]
  refine exists_congr fun sentinel => and_congr_right fun _ => ?_
  rw [Bool.and_eq_true, decide_eq_true_eq, List.any_eq_true]
  constructor
  · rintro ⟨-, i, -, hslice⟩
    rw [decide_eq_true_eq] at hslice
    rw [← hslice]
    exact ((List.take_prefix ..).isInfix).trans (List.drop_suffix ..).isInfix
  · rintro ⟨s, t, rfl⟩
    have hlen : (s ++ sentinel ++ t).length = s.length + sentinel.length + t.length := by
      simp only [List.length_append]
    refine ⟨by omega, s.length, List.mem_range.mpr (by omega), ?_⟩
    rw [decide_eq_true_eq, slice, List.append_assoc, List.drop_left, List.take_left]

/-- A text that passes the filter holds a delimiter exactly when it holds one that the filter does
not look for. -/
theorem holds_iff_of_passes {text : Bytes} (h : contains_forbidden_sentinel text = false) :
    Holds delimiters text ↔ Holds unfiltered_delimiters text := by
  constructor
  · rintro ⟨d, hd, hinside⟩
    refine ⟨d, List.mem_filter.mpr ⟨hd, decide_eq_true fun hforbidden => ?_⟩, hinside⟩
    rw [contains_forbidden_sentinel_iff.mpr ⟨d, hforbidden, hinside⟩] at h
    cases h
  · rintro ⟨d, hd, hinside⟩
    exact ⟨d, (List.mem_filter.mp hd).1, hinside⟩

/-! ## The receipts of the kernel -/

/-- Not the text of an application. -/
def Receipt.Sealed : Receipt → Prop
  | .text _ => False
  | _ => True

theorem ends_line_feed (a : Serial) : EndsWith LINE_FEED (a ++ line_feed) := ⟨a, .own, rfl⟩

theorem spoofed_append_line {a b : Serial} :
    Spoofed (a ++ line_feed ++ b) ↔ Spoofed a ∨ Spoofed b := by
  unfold Spoofed
  rw [List.append_assoc]
  exact forged_append_sep line_feed_not_mem

theorem not_spoofed_own (text : Bytes) : ¬ Spoofed (own text) := not_forged_own text

theorem not_spoofed_nil : ¬ Spoofed [] := not_forged_nil

theorem spoofed_line {a : Serial} : Spoofed (a ++ line_feed) ↔ Spoofed a := by
  have h := @spoofed_append_line a []
  rw [List.append_nil] at h
  rw [h, or_iff_left not_spoofed_nil]

theorem own_append (a b : Bytes) : own a ++ own b = own (a ++ b) := (List.map_append ..).symm

/-- A field is spoofed when its value is. -/
theorem spoofed_field (f : String × Serial) : Spoofed (serial_field f) ↔ Spoofed f.2 := by
  have hequals : ascii (f.1 ++ "=") = ascii f.1 ++ [61] := by simp [ascii]
  have hsep : ∀ d ∈ delimiters, (61 : UInt8) ∉ d := not_mem_delimiter (by decide)
  have hends : EndsWith 61 (serial_write (f.1 ++ "=")) :=
    ⟨own (ascii f.1), .own, by rw [serial_write, hequals, ← own_append]; rfl⟩
  have hown : ¬ Forged delimiters (serial_write (f.1 ++ "=")) := not_forged_own _
  unfold serial_field
  rw [spoofed_line, Spoofed, forged_append hsep hends, or_iff_right hown]
  rfl

theorem spoofed_receipt (name : String) (fields : List (String × Serial)) :
    Spoofed (serial_receipt name fields) ↔ ∃ f ∈ fields, Spoofed f.2 := by
  have hends : ∀ f ∈ fields, EndsWith LINE_FEED (serial_field f) := fun f _ => ends_line_feed _
  unfold serial_receipt serial_write
  simp only [own_append]
  rw [List.append_assoc, spoofed_append_line, or_iff_right (not_spoofed_own _), Spoofed,
    forged_flatMap_append line_feed_not_mem hends, ← Spoofed, spoofed_line,
    or_iff_left (not_spoofed_own _)]
  exact exists_congr fun f => and_congr_right fun _ => spoofed_field f

theorem ends_receipt (name : String) (fields : List (String × Serial)) :
    EndsWith LINE_FEED (serial_receipt name fields) := (ends_line_feed _).append

/-! ### Values -/

theorem hex_digit_ne (n : ℕ) : hex_digit n ≠ 66 := by
  unfold hex_digit
  by_cases hn : n < 16
  · interval_cases n <;> decide
  · rw [List.getD_eq_default _ _ (by rw [show (ascii "0123456789abcdef").length = 16 by decide]; omega)]
    decide

/-- Hexadecimal digits hold no delimiter. -/
theorem not_holds_hex (bytes : Bytes) : ¬ Holds delimiters (hex_bytes bytes) := by
  rintro ⟨d, hd, hinside⟩
  obtain ⟨b, -, hb⟩ := List.mem_flatMap.mp (hinside.subset (head_of_delimiter hd))
  simp only [List.mem_cons, List.not_mem_nil, or_false] at hb
  rcases hb with hb | hb
  · exact hex_digit_ne _ hb.symm
  · exact hex_digit_ne _ hb.symm

theorem spoofed_foreign (text : Bytes) : Spoofed (foreign text) ↔ Holds delimiters text :=
  forged_foreign delimiter_ne_nil

theorem not_spoofed_hex (bytes : Bytes) : ¬ Spoofed (foreign (hex_bytes bytes)) :=
  fun h => not_holds_hex bytes ((spoofed_foreign _).mp h)

theorem not_spoofed_preview (bytes : Bytes) :
    ¬ Spoofed (serial_write "hex:" ++ foreign (hex_bytes bytes)) := by
  have hsep : ∀ d ∈ delimiters, (58 : UInt8) ∉ d := not_mem_delimiter (by decide)
  have hends : EndsWith 58 (serial_write "hex:") := ⟨serial_write "hex", .own, rfl⟩
  rw [Spoofed, forged_append hsep hends]
  rintro (h | h)
  · exact not_spoofed_own _ h
  · exact not_spoofed_hex bytes h

theorem not_spoofed_optional (n : Option ℕ) : ¬ Spoofed (write_optional n) := by
  cases n with
  | none => exact not_spoofed_own _
  | some n => exact not_spoofed_own _

theorem not_spoofed_optional_hash (hash : Option Digest) : ¬ Spoofed (write_optional_hash hash) := by
  cases hash with
  | none => exact not_spoofed_own _
  | some hash => exact not_spoofed_own _

theorem not_spoofed_i32 (value : Int32) : ¬ Spoofed (write_serial_i32 value) := by
  unfold write_serial_i32
  split
  · exact (own_append _ _) ▸ not_spoofed_own _
  · exact not_spoofed_own _

/-- A receipt of the kernel is not spoofed. -/
theorem not_spoofed_emit {r : Receipt} (h : r.Sealed) : ¬ Spoofed r.emit := by
  have hown (text : String) : ¬ Spoofed (serial_write text) := not_spoofed_own _
  have hnumber (n : ℕ) : ¬ Spoofed (write_usize n) := not_spoofed_own _
  have hhex (bytes : Bytes) : ¬ Spoofed (write_hex bytes) := not_spoofed_own _
  have hword (value : UInt32) : ¬ Spoofed (serial_write_hex_u32 value) := not_spoofed_own _
  have hbool (b : Bool) : ¬ Spoofed (write_bool b) := not_spoofed_own _
  have hpath (path : Option Bytes) : ¬ Spoofed (write_path path) := not_spoofed_own _
  cases r with
  | text bytes => exact h.elim
  | _ =>
    simp only [Receipt.emit, spoofed_receipt, List.mem_cons, List.not_mem_nil, or_false,
      exists_eq_or_imp, exists_eq_left, hown, hnumber, hhex, hword, hbool, hpath,
      not_spoofed_optional, not_spoofed_optional_hash, not_spoofed_i32, not_spoofed_preview,
      not_spoofed_hex, not_spoofed_own, not_false_eq_true]

theorem ends_emit {r : Receipt} (h : r.Sealed) : EndsWith LINE_FEED r.emit := by
  cases r with
  | text bytes => exact h.elim
  | _ => exact ends_receipt _ _

/-! ## The receipts of a call -/

/-- The call prints no text of an application. -/
def SyscallOutcome.Sealed (o : SyscallOutcome) : Prop := ∀ r ∈ o.receipts, r.Sealed

/-- A refusal of the checks prints no text of an application. -/
def SealedChecks {α : Type} (checks : Except Rejection α) : Prop :=
  ∀ refused, checks = .error refused → ∀ r ∈ refused.receipts, r.Sealed

namespace SealedChecks

variable {α β : Type}

theorem ok (a : α) : SealedChecks (.ok a) := fun _ h => nomatch h

theorem error {refused : Rejection} (h : ∀ r ∈ refused.receipts, r.Sealed) :
    SealedChecks (.error refused : Except Rejection α) :=
  fun _ heq => Except.error.inj heq ▸ h

theorem bind {checks : Except Rejection α} {f : α → Except Rejection β} (h : SealedChecks checks)
    (hf : ∀ a, SealedChecks (f a)) : SealedChecks (checks >>= f) := by
  cases checks with
  | ok a => exact hf a
  | error refused => exact error (h refused rfl)

theorem reject {p : Prop} [Decidable p] {refused : Rejection} (h : ∀ r ∈ refused.receipts, r.Sealed) :
    SealedChecks (reject_if p refused) := by
  unfold reject_if
  split
  · exact error h
  · exact ok ()

theorem mapError {x : Except String α} {f : String → Rejection}
    (h : ∀ reason, ∀ r ∈ (f reason).receipts, r.Sealed) : SealedChecks (x.mapError f) := by
  cases x with
  | ok a => exact ok a
  | error reason => exact error (h reason)

end SealedChecks

theorem sealed_nil : ∀ r ∈ ([] : List Receipt), r.Sealed := fun _ h => nomatch h

theorem sealed_singleton {receipt : Receipt} (h : receipt.Sealed) : ∀ r ∈ [receipt], r.Sealed :=
  fun _ hr => List.mem_singleton.mp hr ▸ h

namespace KernelState

variable {k : KernelState} {regs : SyscallRegisters}

theorem sealed_concat {receipts : List Receipt} {result : Int32} {status reason : String}
    (h : ∀ r ∈ receipts, r.Sealed) :
    ∀ r ∈ receipts ++ [k.syscall_receipt regs result status reason], r.Sealed := by
  intro r hr
  rcases List.mem_append.mp hr with hr | hr
  · exact h r hr
  · rw [List.mem_singleton.mp hr]
    trivial

theorem reject_sealed {refused : Rejection} (h : ∀ r ∈ refused.receipts, r.Sealed) :
    (k.reject regs refused).Sealed := sealed_concat h

theorem accept_sealed {receipts : List Receipt} {result : UInt32} (h : ∀ r ∈ receipts, r.Sealed) :
    (k.accept regs receipts result).Sealed := sealed_concat h

theorem attempt_sealed {α : Type} {checks : Except Rejection α} {call : α → SyscallOutcome}
    (h : SealedChecks checks) (hcall : ∀ a, (call a).Sealed) :
    (k.attempt regs checks call).Sealed := by
  cases checks with
  | ok a => exact hcall a
  | error refused => exact reject_sealed (h refused rfl)

theorem ite_sealed {c : Prop} [Decidable c] {o o' : SyscallOutcome} (h : o.Sealed)
    (h' : o'.Sealed) : (if c then o else o').Sealed := by
  split
  · exact h
  · exact h'

theorem panicked_sealed : SyscallOutcome.panicked.Sealed := sealed_nil

theorem legacy_sealed (result : Int32) : (k.legacy_result result).Sealed := sealed_nil

theorem user_range_sealed {address : UInt32} {length : ℕ} {writable : Bool}
    {receipts : String → List Receipt} (h : ∀ reason, ∀ r ∈ receipts reason, r.Sealed) :
    SealedChecks (k.user_range address length writable receipts) := .mapError h

theorem sys_read_file_sealed : (k.sys_read_file regs).Sealed := by
  apply ite_sealed (legacy_sealed _)
  dsimp only
  split
  · exact sealed_nil
  · exact legacy_sealed _

theorem sys_accept_sealed (overflow_checks : Bool) : (k.sys_accept overflow_checks).Sealed := by
  unfold sys_accept
  split
  · exact legacy_sealed _
  · exact panicked_sealed

theorem sys_reject_sealed (overflow_checks : Bool) : (k.sys_reject overflow_checks).Sealed := by
  unfold sys_reject
  split
  · exact legacy_sealed _
  · exact panicked_sealed

theorem sys_yield_sealed : (k.sys_yield regs).Sealed := by
  apply ite_sealed (reject_sealed sealed_nil)
  split
  · exact panicked_sealed
  · intro r hr
    simp only [SyscallOutcome.receipts, List.mem_cons, List.not_mem_nil, or_false] at hr
    rcases hr with rfl | rfl
    · trivial
    · trivial

theorem sys_write_console_sealed : (k.sys_write_console regs).Sealed := by
  apply attempt_sealed
  · exact .bind (.reject sealed_nil) fun _ => user_range_sealed fun _ => sealed_nil
  · exact fun pid => accept_sealed (sealed_singleton trivial)

theorem sys_process_info_sealed : (k.sys_process_info regs).Sealed := by
  apply attempt_sealed
  · exact .bind (.reject sealed_nil) fun _ => user_range_sealed fun _ => sealed_nil
  · intro pid
    dsimp only
    split
    · exact panicked_sealed
    · exact accept_sealed sealed_nil

theorem sys_verify_hash_sealed : (k.sys_verify_hash regs).Sealed := by
  apply attempt_sealed
  · refine SealedChecks.bind (.reject sealed_nil) fun _ => ?_
    refine SealedChecks.bind (user_range_sealed fun _ => sealed_nil) fun _ => ?_
    exact .bind (user_range_sealed fun _ => sealed_nil) fun _ => .ok _
  · intro pid
    exact ite_sealed (accept_sealed (sealed_singleton trivial))
      (reject_sealed (sealed_singleton trivial))

theorem sys_claim_sealed : (k.sys_claim regs).Sealed := by
  apply attempt_sealed
  · exact .bind (.reject (sealed_singleton trivial)) fun _ =>
      user_range_sealed fun _ => sealed_singleton trivial
  · exact fun pid => accept_sealed (sealed_singleton trivial)

/-! ### Channels -/

theorem ipc_caller_sealed : SealedChecks k.ipc_caller := .mapError fun _ => sealed_nil

theorem ipc_register_sealed : (k.ipc_register regs).Sealed := by
  apply attempt_sealed
  · refine SealedChecks.bind ipc_caller_sealed fun pid => ?_
    refine SealedChecks.bind (.reject (sealed_singleton trivial)) fun _ => ?_
    refine SealedChecks.bind (.reject (sealed_singleton trivial)) fun _ => ?_
    refine SealedChecks.bind (.reject (sealed_singleton trivial)) fun _ => ?_
    split
    · exact .ok _
    · exact .error (sealed_singleton trivial)
  · exact fun a => accept_sealed (sealed_singleton trivial)

theorem ipc_send_sealed : (k.ipc_send regs).Sealed := by
  apply attempt_sealed
  · refine SealedChecks.bind ipc_caller_sealed fun pid => ?_
    dsimp only
    split
    · exact .error (sealed_singleton trivial)
    · refine SealedChecks.bind (.reject (sealed_singleton trivial)) fun _ => ?_
      refine SealedChecks.bind (.reject (sealed_singleton trivial)) fun _ => ?_
      refine SealedChecks.bind (.reject (sealed_singleton trivial)) fun _ => ?_
      refine SealedChecks.bind (.reject (sealed_singleton trivial)) fun _ => ?_
      refine SealedChecks.bind (.reject (sealed_singleton trivial)) fun _ => ?_
      exact .bind (.mapError fun _ => sealed_singleton trivial) fun _ => .ok _
  · intro a
    dsimp only
    split
    · exact accept_sealed (sealed_singleton trivial)
    · exact panicked_sealed

theorem ipc_recv_sealed : (k.ipc_recv regs).Sealed := by
  apply attempt_sealed
  · refine SealedChecks.bind ipc_caller_sealed fun pid => ?_
    dsimp only
    split
    · exact .error (sealed_singleton trivial)
    · refine SealedChecks.bind (.reject (sealed_singleton trivial)) fun _ => ?_
      refine SealedChecks.bind (.reject (sealed_singleton trivial)) fun _ => ?_
      refine SealedChecks.bind (.reject (sealed_singleton trivial)) fun _ => ?_
      refine SealedChecks.bind (.reject (sealed_singleton trivial)) fun _ => ?_
      exact .bind (.mapError fun _ => sealed_singleton trivial) fun _ => .ok _
  · exact fun a => ite_sealed (accept_sealed (sealed_singleton trivial)) panicked_sealed

theorem ipc_poll_sealed : (k.ipc_poll regs).Sealed := by
  apply attempt_sealed
  · refine SealedChecks.bind ipc_caller_sealed fun pid => ?_
    dsimp only
    split
    · exact .error (sealed_singleton trivial)
    · exact .bind (.reject (sealed_singleton trivial)) fun _ => .ok _
  · exact fun a => accept_sealed (sealed_singleton trivial)

/-! ### Files -/

theorem bogfs_caller_sealed {receipts : String → List Receipt}
    (h : ∀ reason, ∀ r ∈ receipts reason, r.Sealed) : SealedChecks (k.bogfs_caller receipts) :=
  .mapError h

theorem bogfs_file_sealed {receipts : String → List Receipt}
    (h : ∀ reason, ∀ r ∈ receipts reason, r.Sealed) : SealedChecks (k.bogfs_file regs receipts) :=
  .mapError h

theorem sys_bogfs_write_sealed (overflow_checks : Bool) :
    (k.sys_bogfs_write overflow_checks regs).Sealed := by
  apply attempt_sealed
  · refine SealedChecks.bind (bogfs_caller_sealed fun _ => sealed_singleton trivial) fun pid => ?_
    refine SealedChecks.bind (.reject (sealed_singleton trivial)) fun _ => ?_
    refine SealedChecks.bind (bogfs_file_sealed fun _ => sealed_singleton trivial) fun _ => ?_
    refine SealedChecks.bind (.reject (sealed_singleton trivial)) fun _ => ?_
    refine SealedChecks.bind (user_range_sealed fun _ => sealed_singleton trivial) fun _ => ?_
    exact .bind (.reject (sealed_singleton trivial)) fun _ => .ok _
  · intro a
    dsimp only
    split
    · exact panicked_sealed
    · exact ite_sealed (reject_sealed (sealed_singleton trivial))
        (accept_sealed (sealed_singleton trivial))

theorem sys_bogfs_read_sealed : (k.sys_bogfs_read regs).Sealed := by
  apply attempt_sealed
  · refine SealedChecks.bind (bogfs_caller_sealed fun _ => sealed_nil) fun pid => ?_
    exact .bind (bogfs_file_sealed fun _ => sealed_singleton trivial) fun _ => .ok _
  · intro a
    dsimp only
    split
    · exact panicked_sealed
    · apply attempt_sealed
      · refine SealedChecks.bind (.reject (sealed_singleton trivial)) fun _ => ?_
        refine SealedChecks.bind (.reject (sealed_singleton trivial)) fun _ => ?_
        split
        · exact .bind (user_range_sealed fun _ => sealed_singleton trivial) fun _ => .ok _
        · exact .ok _
      · exact fun _ => accept_sealed (sealed_singleton trivial)

theorem sys_bogfs_stat_sealed : (k.sys_bogfs_stat regs).Sealed := by
  apply attempt_sealed
  · refine SealedChecks.bind (bogfs_caller_sealed fun _ => sealed_nil) fun pid => ?_
    refine SealedChecks.bind (bogfs_file_sealed fun _ => sealed_nil) fun _ => ?_
    exact .bind (.reject sealed_nil) fun _ => .ok _
  · intro a
    dsimp only
    split
    · exact panicked_sealed
    · apply attempt_sealed
      · refine SealedChecks.bind (.reject sealed_nil) fun _ => ?_
        exact .bind (user_range_sealed fun _ => sealed_nil) fun _ => .ok _
      · exact fun _ => accept_sealed (sealed_singleton trivial)

end KernelState

/-- Every call but the legacy receipt prints receipts of the kernel only. -/
theorem handle_sealed {overflow_checks : Bool} {k : KernelState} {regs : SyscallRegisters}
    (h : regs.eax ≠ 5) : (handle_syscall overflow_checks k regs).Sealed := by
  unfold handle_syscall
  dsimp only
  apply ite_sealed (reject_sealed sealed_nil)
  apply ite_sealed (ite_sealed (legacy_sealed _) (legacy_sealed _))
  apply ite_sealed (sys_accept_sealed _)
  apply ite_sealed (sys_reject_sealed _)
  apply ite_sealed sys_read_file_sealed
  rw [if_neg h]
  refine ite_sealed (sealed_singleton trivial) ?_
  apply ite_sealed sys_yield_sealed
  apply ite_sealed sys_write_console_sealed
  apply ite_sealed (ite_sealed (reject_sealed sealed_nil) (accept_sealed sealed_nil))
  apply ite_sealed sys_process_info_sealed
  apply ite_sealed sys_verify_hash_sealed
  apply ite_sealed sys_claim_sealed
  apply ite_sealed ipc_register_sealed
  apply ite_sealed ipc_send_sealed
  apply ite_sealed ipc_recv_sealed
  apply ite_sealed ipc_poll_sealed
  apply ite_sealed (sys_bogfs_write_sealed _)
  apply ite_sealed sys_bogfs_read_sealed
  apply ite_sealed sys_bogfs_stat_sealed
  exact reject_sealed sealed_nil

/-! ## Runs -/

section Runs

variable {overflow_checks : Bool} {c c' : Console} {e : KernelEvent}

theorem ends_receipts {receipts : List Receipt} (h : ∀ r ∈ receipts, r.Sealed) :
    ∀ r ∈ receipts, EndsWith LINE_FEED r.emit := fun r hr => ends_emit (h r hr)

theorem not_spoofed_receipts {receipts : List Receipt} (h : ∀ r ∈ receipts, r.Sealed) :
    ¬ Spoofed (receipts.flatMap Receipt.emit) := by
  rw [Spoofed, forged_flatMap line_feed_not_mem (ends_receipts h)]
  rintro ⟨r, hr, hspoofed⟩
  exact not_spoofed_emit (h r hr) hspoofed

/-- What a legacy receipt call prints. -/
theorem sys_emit_receipt_receipts {k : KernelState} {regs : SyscallRegisters} (h : regs.eax = 5)
    (hadmitted : k.dynamic_loader_admitted = false) :
    (k.sys_emit_receipt regs).receipts =
      match k.emitted_text regs with
      | some text => [.text (text ++ ascii "\n")]
      | none => [] := by
  unfold sys_emit_receipt emitted_text
  dsimp only
  by_cases hrange : regs.ebx = 0 ∨ 1024 < regs.ecx.toNat
  · have hnot (hall : regs.ebx ≠ 0 ∧ regs.ecx.toNat ≤ 1024) : False :=
      hrange.elim hall.1 (not_lt.mpr hall.2)
    rw [if_pos hrange, if_neg fun hall => hnot ⟨hall.2.2.1, hall.2.2.2.1⟩]
    rfl
  · by_cases hforbidden : contains_forbidden_sentinel (k.read_memory regs.ebx regs.ecx.toNat) = true
    · rw [if_neg hrange, if_pos hforbidden, if_neg fun hall => by simp [hforbidden] at hall]
      rfl
    · have hpasses := Bool.eq_false_iff.mpr hforbidden
      have hshort := not_or.mp hrange
      rw [if_neg hrange, if_neg hforbidden,
        if_pos ⟨h, hadmitted, hshort.1, not_lt.mp hshort.2, hpasses⟩]
      rfl

theorem emitted_text_passes {k : KernelState} {regs : SyscallRegisters} {text : Bytes}
    (h : k.emitted_text regs = some text) : contains_forbidden_sentinel text = false := by
  unfold emitted_text at h
  dsimp only at h
  split_ifs at h with hall
  unfold from_utf8 at h
  split_ifs at h
  obtain rfl := Option.some.inj h
  exact hall.2.2.2.2

theorem foreign_append (a b : Bytes) : foreign (a ++ b) = foreign a ++ foreign b := List.map_append

theorem spoofed_text (text : Bytes) :
    Spoofed (Receipt.text (text ++ ascii "\n")).emit ↔ Holds delimiters text := by
  have hline : foreign (text ++ ascii "\n") = foreign text ++ (.foreign, LINE_FEED) :: [] :=
    foreign_append _ _
  rw [Receipt.emit, hline, Spoofed, forged_append_sep line_feed_not_mem, or_iff_left not_forged_nil]
  exact spoofed_foreign text

/-- What a call prints is spoofed exactly when the text that it prints as it is holds a delimiter
that the filter does not look for. -/
theorem spoofed_call (k : KernelState) (regs : SyscallRegisters) :
    Spoofed ((handle_syscall overflow_checks k regs).receipts.flatMap Receipt.emit) ↔
      ∃ text, k.emitted_text regs = some text ∧ Holds unfiltered_delimiters text := by
  by_cases hemit : regs.eax = 5 ∧ k.dynamic_loader_admitted = false
  · rw [handle_emit_receipt hemit.1, hemit.2, if_neg Bool.false_ne_true,
      sys_emit_receipt_receipts hemit.1 hemit.2]
    cases htext : k.emitted_text regs with
    | none => simpa using not_spoofed_nil
    | some text =>
      rw [List.flatMap_singleton, spoofed_text, holds_iff_of_passes (emitted_text_passes htext)]
      simp
  · have hnone : k.emitted_text regs = none := by
      unfold emitted_text
      exact if_neg fun hall => hemit ⟨hall.1, hall.2.1⟩
    rw [hnone]
    refine iff_of_false (not_spoofed_receipts ?_) (by simp)
    by_cases hfive : regs.eax = 5
    · have hadmitted : k.dynamic_loader_admitted = true := by simpa [hfive] using hemit
      rw [handle_emit_receipt hfive, if_pos hadmitted]
      exact reject_sealed sealed_nil
    · exact handle_sealed hfive

/-- What an event prints. -/
def Console.printed (overflow_checks : Bool) (c : Console) : KernelEvent → Serial
  | .syscall memory regs =>
    (handle_syscall overflow_checks { c.kernel with memory := memory } regs).receipts.flatMap
      Receipt.emit
  | .cat_receipts_last => cat_receipts_last c.kernel.last_receipt
  | .other _ lines => own_lines lines

theorem step_serial (h : c.step overflow_checks e = some c') :
    c'.serial = c.serial ++ c.printed overflow_checks e := by
  cases e with
  | syscall memory regs =>
    obtain ⟨k, -, rfl⟩ := Option.map_eq_some_iff.mp h
    rfl
  | cat_receipts_last => exact Option.some.inj h ▸ rfl
  | other k lines => exact Option.some.inj h ▸ rfl

theorem receipts_of_panic {o : SyscallOutcome} (h : o.next = none) : o.receipts = [] := by
  cases o with
  | returned eax receipts k => cases h
  | left code receipts k => cases h
  | panicked => rfl

/-- An event that panics prints nothing before. -/
theorem printed_of_panic (h : c.step overflow_checks e = none) :
    c.printed overflow_checks e = [] := by
  cases e with
  | syscall memory regs =>
    rw [Console.printed, receipts_of_panic (Option.map_eq_none_iff.mp h), List.flatMap_nil]
  | cat_receipts_last => cases h
  | other k lines => cases h

theorem spoofed_printed : Spoofed (c.printed overflow_checks e) ↔ ¬ c.Harmless e := by
  cases e with
  | syscall memory regs =>
    rw [Console.printed, spoofed_call, Console.Harmless]
    push Not
    rfl
  | cat_receipts_last =>
    rw [Console.printed, cat_receipts_last, spoofed_line, Console.Harmless]
    cases c.kernel.last_receipt.available with
    | true => simp [spoofed_foreign]
    | false =>
      refine iff_of_false (not_spoofed_own _) (not_not.mpr fun hshown => ?_)
      cases hshown
  | other k lines =>
    rw [Console.printed, Spoofed, own_lines,
      forged_flatMap line_feed_not_mem fun line _ => ends_line_feed _]
    refine iff_of_false ?_ (not_not.mpr trivial)
    rintro ⟨line, -, hspoofed⟩
    exact not_spoofed_own _ (spoofed_line.mp hspoofed)

/-- Nothing, or whole lines. -/
def Lined (serial : Serial) : Prop := serial = [] ∨ EndsWith LINE_FEED serial

theorem Lined.append {a b : Serial} (ha : Lined a) (hb : Lined b) : Lined (a ++ b) := by
  rcases hb with rfl | hb
  · rwa [List.append_nil]
  · exact .inr hb.append

theorem Lined.flatMap {α : Type} {piece : α → Serial} {l : List α}
    (h : ∀ x ∈ l, EndsWith LINE_FEED (piece x)) : Lined (l.flatMap piece) := by
  induction l with
  | nil => exact .inl rfl
  | cons x l ih =>
    rw [List.flatMap_cons]
    exact .append (.inr (h x (List.mem_cons_self ..))) (ih fun y hy => h y (List.mem_cons_of_mem x hy))

theorem lined_own_lines (lines : List Bytes) : Lined (own_lines lines) :=
  .flatMap fun _ _ => ends_line_feed _

theorem spoofed_append {a b : Serial} (ha : Lined a) : Spoofed (a ++ b) ↔ Spoofed a ∨ Spoofed b := by
  rcases ha with rfl | ha
  · rw [List.nil_append, or_iff_right not_spoofed_nil]
  · exact forged_append line_feed_not_mem ha

theorem lined_call (k : KernelState) (regs : SyscallRegisters) :
    Lined ((handle_syscall overflow_checks k regs).receipts.flatMap Receipt.emit) := by
  by_cases hfive : regs.eax = 5
  · rw [handle_emit_receipt hfive]
    cases hadmitted : k.dynamic_loader_admitted with
    | true => exact .flatMap (ends_receipts (reject_sealed sealed_nil))
    | false =>
      rw [if_neg Bool.false_ne_true, sys_emit_receipt_receipts hfive hadmitted]
      cases k.emitted_text regs with
      | none => exact .inl rfl
      | some text =>
        rw [List.flatMap_singleton]
        exact .inr ⟨foreign text, .foreign, foreign_append _ _⟩
  · exact .flatMap (ends_receipts (handle_sealed hfive))

theorem lined_printed : Lined (c.printed overflow_checks e) := by
  cases e with
  | syscall memory regs => exact lined_call _ regs
  | cat_receipts_last => exact .inr (ends_line_feed _)
  | other k lines => exact lined_own_lines lines

/-- A run from whole lines: a line is spoofed at its end when one was at its start or an event was
not harmless. -/
theorem spoofed_run (events : List KernelEvent) (hlined : Lined c.serial) :
    Spoofed (c.run overflow_checks events).serial ↔
      Spoofed c.serial ∨ ¬ c.HarmlessRun overflow_checks events := by
  induction events generalizing c with
  | nil => simp [Console.run, Console.HarmlessRun]
  | cons e events ih =>
    have hprinted : Spoofed (c.printed overflow_checks e) ↔ ¬ c.Harmless e := spoofed_printed
    unfold Console.run Console.HarmlessRun
    cases hstep : c.step overflow_checks e with
    | none =>
      rw [printed_of_panic hstep] at hprinted
      have hharmless : c.Harmless e := not_not.mp (hprinted.not.mp not_spoofed_nil)
      simp [hharmless]
    | some c' =>
      have hserial := step_serial hstep
      have hlined' : Lined c'.serial := hserial ▸ hlined.append lined_printed
      rw [ih hlined', hserial, spoofed_append hlined, hprinted, or_assoc, ← not_and_or]
      simp

end Runs

/-- No delimiter on the serial line has a byte from user memory exactly when every event of the run
is harmless. -/
theorem spoof_free_iff (overflow_checks : Bool) (k : KernelState) (lines : List Bytes)
    (events : List KernelEvent) :
    ¬ Spoofed ((Console.booted k lines).run overflow_checks events).serial ↔
      (Console.booted k lines).HarmlessRun overflow_checks events := by
  have hclean : ¬ Spoofed (Console.booted k lines).serial :=
    (@spoofed_printed false ⟨[], k⟩ (.other k lines)).not.mpr (not_not.mpr trivial)
  rw [spoofed_run events (lined_own_lines lines), or_iff_right hclean, not_not]

/-- An application closes a system call receipt that the kernel never opened. -/
theorem syscall_end_spoofed :
    let memory : UInt32 → UInt8 := fun a => (ascii "-BOGOS_SYSCALL_END").getD a.toNat 0
    let regs : SyscallRegisters := { forging_registers with ecx := 17 }
    Spoofed ((Console.booted forging_kernel []).run true [.syscall memory regs]).serial := by
  intro memory regs
  rw [spoofed_run _ (lined_own_lines [])]
  right
  rintro ⟨hharmless, -⟩
  have htext : { forging_kernel with memory := memory }.emitted_text regs =
      some (ascii "BOGOS_SYSCALL_END") := by decide +kernel
  have hdelimiter : ascii "BOGOS_SYSCALL_END" ∈ unfiltered_delimiters := by decide +kernel
  exact hharmless _ htext ⟨_, hdelimiter, List.infix_rfl⟩

end Bogbin.Kernel
