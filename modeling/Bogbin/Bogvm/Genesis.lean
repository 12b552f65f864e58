import Bogbin.Bogvm.Signing
import Bogbin.Library.ZeroPadding

/-!
# Genesis sessions

The ledger of signed receipts and the copy-on-write state of a workspace: `record`,
`verify_ledger`, `read_entry` and the state pointer.  What a replay reads of other parts of the
workspace is in `Environment`.
-/

namespace Bogbin.Bogvm

open ZeroPadding

def LEDGER_FORMAT : String := "BOGOS-Genesis-ledger-entry-9.0"

def ZERO_HASH : String := String.ofList (List.replicate 64 '0')

/-- What reading a file as JSON gives. -/
inductive Content
  /-- Bytes that are not UTF-8. -/
  | undecodable
  /-- A text that `json.loads` refuses. -/
  | unparsable
  | value (v : Json)

/-- A file below the ledger directory, with the path from there as its name. -/
structure LedgerFile where
  name : List Char
  content : Content

/-- The directory of a session: the ledger, the objects, the file table of every state manifest and
the text of the state pointer. -/
structure Genesis where
  ledger : List LedgerFile
  objects : List (String × Bytes)
  states : List (String × Dict)
  current_root : Option String

/-- The directory that `_ensure_layout` makes in a new workspace. -/
def Genesis.fresh : Genesis := ⟨[], [], [], none⟩

/-- What a replay asks of other parts of the workspace. -/
structure Environment where
  verify_registry : Except PyError (List (Json × String))
  verify_lock : Except PyError (List (Json × String))
  /-- The installed package is verified. -/
  verify_installed_package : Json → Except PyError Bool
  /-- A path that leads out of the object directory is a file. -/
  is_file : String → Bool

/-! ## The ledger -/

/-- `f"{sequence:06d}_{event}.json"` -/
def entry_name (sequence : ℕ) (event : String) : List Char :=
  zero_padded 6 sequence ++ '_' :: (event.toList ++ ".json".toList)

/-- The files that `glob("*.json")` finds. -/
def is_entry (file : LedgerFile) : Bool :=
  '/' ∉ file.name ∧ ".json".toList.isSuffixOf file.name

def name_le (a b : LedgerFile) : Bool := a.name ≤ b.name

/-- `sorted(self.ledger_dir.glob("*.json"))` -/
def entry_files (ledger : List LedgerFile) : List LedgerFile :=
  (ledger.filter is_entry).mergeSort name_le

/-- The entry that stands for a text that is not JSON. -/
def unparsable_entry : Dict :=
  Dict.of [("sequence", .int (-1)), ("receipt_hash", .str ""), ("previous_hash", .str ""),
    ("signature", .obj [])]

def load_entry (file : LedgerFile) : Except PyError Json :=
  match file.content with
  | .undecodable => .error .UnicodeDecodeError
  | .unparsable => .ok (.obj unparsable_entry)
  | .value v => .ok v

def entries (ledger : List LedgerFile) : Except PyError (List Json) :=
  (entry_files ledger).mapM load_entry

/-- The attributes of a value that is used as a dictionary. -/
def as_dict : Json → Except PyError Dict
  | .obj fields => .ok fields
  | _ => .error .AttributeError

def last_hash (ledger : List LedgerFile) : Except PyError Json := do
  let found ← entries ledger
  match found.getLast? with
  | none => .ok (.str ZERO_HASH)
  | some entry => do
    let fields ← as_dict entry
    .ok ((Dict.get fields "receipt_hash").getD (.str ZERO_HASH))

/-- Write a file; an older file of this name is replaced. -/
def write_file (ledger : List LedgerFile) (name : List Char) (content : Content) :
    List LedgerFile :=
  ledger.filter (fun file => file.name ≠ name) ++ [⟨name, content⟩]

/-! ### The schema of a receipt -/

/-- `re.search` for a pattern between `^` and `$`; `$` matches before a final line break, too. -/
def anchored (pattern : List Char → Bool) (s : String) : Bool :=
  pattern s.toList || (s.toList.getLast? = some '\n' && pattern s.toList.dropLast)

def is_hex (s : List Char) : Bool := s.all fun c => c ∈ "0123456789abcdef".toList

/-- `^[0-9a-f]{n}$` -/
def hex_pattern (n : ℕ) : String → Bool := anchored fun s => s.length = n && is_hex s

/-- `^<start>.+<stop>$` -/
def framed (start stop : String) : String → Bool :=
  anchored fun s =>
    start.toList.isPrefixOf s && stop.toList.isSuffixOf s &&
      start.length + stop.length < s.length &&
      '\n' ∉ (s.drop start.length).take (s.length - start.length - stop.length)

def receipt_formats : List (String × String) :=
  ("BOGOS-Genesis-", "-receipt-9.0") :: ("BOGOS-verifier-first-", "-15.0") ::
    (["OS-HyperGenesis", "CELL", "BUILD", "PILOT", "PROOF", "STATE", "LEDGER"].map fun family =>
      ("BOG" ++ family ++ "-", "-10.0")) ++
    ["MESH", "PILOT", "BOOT", "IRQ"].flatMap fun family =>
      ["-11.0", "-12.0", "-13.0", "-14.0"].map fun version => ("BOG" ++ family ++ "-", version)

/-- A string field with a pattern. -/
def str_field (d : Dict) (key : String) (pattern : String → Bool) : Bool :=
  match Dict.get d key with
  | some (.str s) => pattern s
  | _ => false

def valid_signature (d : Dict) : Bool :=
  match Dict.get d "signature" with
  | some (.obj signature) =>
    str_field signature "format" (· = SIGNATURE_FORMAT) &&
      str_field signature "algorithm" (· = "ed25519") &&
      str_field signature "key_id" (hex_pattern 16) &&
      str_field signature "signature" (· ≠ "") &&
      signature.all fun field => field.1 ∈ ["format", "algorithm", "key_id", "signature"]
  | _ => false

def valid_sequence (d : Dict) : Bool :=
  match Dict.get d "sequence" with
  | some (.int n) => 1 ≤ n
  | _ => false

/-- `genesis-receipt.schema.json` -/
def valid_receipt (d : Dict) : Bool :=
  str_field d "format" (fun s => receipt_formats.any fun (start, stop) => framed start stop s) &&
    str_field d "ledger_format" (· = LEDGER_FORMAT) && valid_sequence d &&
    str_field d "event" (· ≠ "") && str_field d "previous_hash" (hex_pattern 64) &&
    str_field d "receipt_hash" (hex_pattern 64) &&
    str_field d "execution_status" (fun s => s = "completed" ∨ s = "blocked") && valid_signature d

/-! ### Recording and verifying -/

/-- The receipt with the fields of the ledger. -/
def ledger_payload (receipt : Dict) (sequence : ℕ) (event : String) (previous_hash : Json) : Dict :=
  Dict.set (Dict.set (Dict.set (Dict.set receipt "ledger_format" (.str LEDGER_FORMAT)) "sequence"
    (.int sequence)) "event" (.str event)) "previous_hash" previous_hash

/-- The payload with its hash and its signature. -/
def signed_entry (keys : Keys) (payload : Dict) : Dict :=
  let unsigned := Dict.set payload "receipt_hash" (.str (stable_hash (.obj payload)))
  Dict.set unsigned "signature" (.obj (sign_object keys unsigned))

def record (keys : Keys) (g : Genesis) (event : String) (receipt : Dict) :
    Except PyError (Dict × Genesis) := do
  let found ← entries g.ledger
  let sequence := found.length + 1
  let previous_hash ← last_hash g.ledger
  let signed := signed_entry keys (ledger_payload receipt sequence event previous_hash)
  if valid_receipt signed then
    .ok (signed, { g with
      ledger := write_file g.ledger (entry_name sequence event) (.value (.obj signed)) })
  else .error .GenesisError

/-- A failure, with its path and its reason. -/
abbrev Failure := Json × String

def failure_if (c : Prop) [Decidable c] (failure : Failure) : List Failure :=
  if c then [failure] else []

/-- The checks of one entry, with the hash that the next one has to name. -/
def verify_entry (keys : Keys) (expected : ℕ) (previous entry : Json) :
    Except PyError (List Failure × Json) := do
  let fields ← as_dict entry
  let signature := (Dict.get fields "signature").getD (.obj [])
  let unsigned := Dict.pop fields "signature"
  let payload := Dict.pop unsigned "receipt_hash"
  let receipt_hash := (Dict.get unsigned "receipt_hash").getD .null
  let path := Json.str (toString expected)
  let verified ← verify_object_signature keys unsigned signature
  .ok (failure_if (!((Dict.get fields "sequence").getD .null).py_eq (.int expected))
        (path, "ledger sequence mismatch") ++
      failure_if (!((Dict.get fields "previous_hash").getD .null).py_eq previous)
        (path, "ledger previous hash mismatch") ++
      failure_if (!receipt_hash.py_eq (.str (stable_hash (.obj payload))))
        (path, "ledger receipt hash mismatch") ++
      failure_if (!verified) (path, "ledger signature verification failed"),
    if receipt_hash.truthy then receipt_hash else previous)

/-- The loop over the entries. -/
def verify_entries (keys : Keys) : ℕ → Json → List Json → Except PyError (List Failure × Json)
  | _, previous, [] => .ok ([], previous)
  | expected, previous, entry :: rest => do
    let (failures, receipt_hash) ← verify_entry keys expected previous entry
    let (failures', last) ← verify_entries keys (expected + 1) receipt_hash rest
    .ok (failures ++ failures', last)

structure LedgerReport where
  entry_count : ℕ
  ledger_root_sha256 : Json
  failures : List Failure

def execution_status (failures : List Failure) : String :=
  if failures = [] then "completed" else "blocked"

def verify_ledger (keys : Keys) (ledger : List LedgerFile) : Except PyError LedgerReport := do
  let found ← entries ledger
  let (failures, last) ← verify_entries keys 1 (.str ZERO_HASH) found
  .ok ⟨found.length, last, failures⟩

/-- The zeros of the decimal digits. -/
def decimal_zeros : List ℕ :=
  [0x30, 0x660, 0x6f0, 0x7c0, 0x966, 0x9e6, 0xa66, 0xae6, 0xb66, 0xbe6, 0xc66, 0xce6, 0xd66, 0xde6,
    0xe50, 0xed0, 0xf20, 0x1040, 0x1090, 0x17e0, 0x1810, 0x1946, 0x19d0, 0x1a80, 0x1a90, 0x1b50,
    0x1bb0, 0x1c40, 0x1c50, 0xa620, 0xa8d0, 0xa900, 0xa9d0, 0xa9f0, 0xaa50, 0xabf0, 0xff10, 0x104a0,
    0x10d30, 0x11066, 0x110f0, 0x11136, 0x111d0, 0x112f0, 0x11450, 0x114d0, 0x11650, 0x116c0,
    0x11730, 0x118e0, 0x11950, 0x11c50, 0x11d50, 0x11da0, 0x16a60, 0x16ac0, 0x16b50, 0x1d7ce,
    0x1d7d8, 0x1d7e2, 0x1d7ec, 0x1d7f6, 0x1e140, 0x1e2f0, 0x1e950, 0x1fbf0]

/-- The other digits: superscripts, subscripts and digits in circles, as ranges. -/
def other_digits : List (ℕ × ℕ) :=
  [(0xb2, 0xb3), (0xb9, 0xb9), (0x1369, 0x1371), (0x19da, 0x19da), (0x2070, 0x2070),
    (0x2074, 0x2079), (0x2080, 0x2089), (0x2460, 0x2468), (0x2474, 0x247c), (0x2488, 0x2490),
    (0x24ea, 0x24ea), (0x24f5, 0x24fd), (0x24ff, 0x24ff), (0x2776, 0x277e), (0x2780, 0x2788),
    (0x278a, 0x2792), (0x10a40, 0x10a43), (0x10e60, 0x10e68), (0x11052, 0x1105a),
    (0x1f100, 0x1f10a)]

/-- The value of a decimal digit. -/
def decimal (c : Char) : Option ℕ :=
  (decimal_zeros.find? fun z => z ≤ c.toNat ∧ c.toNat < z + 10).map (c.toNat - ·)

/-- `str(selector).isdigit()` -/
def is_digits (selector : String) : Bool :=
  selector ≠ "" ∧ selector.toList.all fun c =>
    (decimal c).isSome || other_digits.any fun (first, last) => first ≤ c.toNat ∧ c.toNat ≤ last

/-- `int(selector)` of digits, which takes at most 4300 of them. -/
def parse_int (selector : String) : Except PyError ℕ :=
  if 4300 < selector.length then .error .ValueError
  else
    match selector.toList.mapM decimal with
    | some digits => .ok (Nat.ofDigits 10 digits.reverse)
    | none => .error .ValueError

/-- The first entry with a receipt hash. -/
def find_entry (selector : String) : List Json → Except PyError Json
  | [] => .error .GenesisError
  | entry :: rest => do
    let fields ← as_dict entry
    if Dict.get fields "receipt_hash" = some (.str selector) then .ok entry
    else find_entry selector rest

/-- The entry that a selector names, given as its text; 0 is the index -1, the last entry. -/
def read_entry (ledger : List LedgerFile) (selector : String) : Except PyError Json :=
  if is_digits selector then do
    let number ← parse_int selector
    let found ← entries ledger
    match if number = 0 then found.getLast? else found[number - 1]? with
    | some entry => .ok entry
    | none => .error .GenesisError
  else do
    let found ← entries ledger
    find_entry selector found

/-! ## The state -/

def manifest_root (files : Dict) : String := stable_hash (.obj [("files", .obj files)])

namespace Genesis

def set_current_root (g : Genesis) (root : String) : Genesis := { g with current_root := some root }

def save_manifest (g : Genesis) (files : Dict) : String × Genesis :=
  let root := manifest_root files
  (root, { g with states := (root, files) :: g.states }.set_current_root root)

/-- The pointer, which the first use sets to the empty state. -/
def opened (g : Genesis) : Genesis :=
  match g.current_root with
  | some _ => g
  | none => (g.save_manifest []).2

/-- The root and the files of the current state, read from the opened session. -/
def current_state (g : Genesis) : Except PyError (String × Dict) :=
  match g.current_root with
  | none => .error .FileNotFoundError
  | some root =>
    match g.states.lookup root with
    | some files => .ok (root, files)
    | none => .error .FileNotFoundError

/-- `(self.objects_dir / name).is_file()` -/
def has_object (env : Environment) (g : Genesis) (name : String) : Bool :=
  if '/' ∈ name.toList then env.is_file name else (g.objects.lookup name).isSome

end Genesis

/-- A text or `None`. -/
def opt_str : Option String → Json
  | some s => .str s
  | none => .null

/-- The receipt value of a list of failures. -/
def failures_json (failures : List Failure) : Json :=
  .arr (failures.map fun failure =>
    .obj (Dict.of [("path", failure.1), ("reason", .str failure.2)]))

/-- `a or b` -/
def py_or (a b : Option Json) : Option Json := if (a.getD .null).truthy then a else b

/-- `str(value)`; for a list or a dictionary, its canonical text. -/
def py_str : Json → String
  | .str s => s
  | .null => "None"
  | .bool b => if b then "True" else "False"
  | v => String.ofList v.dumps

/-- The state root that an entry names. -/
def target_root (entry : Dict) : Json :=
  (py_or (Dict.get entry "after_root_sha256")
    (py_or (Dict.get entry "state_root_sha256") (Dict.get entry "initial_state_root"))).getD .null

/-- The root of an entry is the one of a stored state. -/
def recoverable (g : Genesis) (entry : Dict) : Bool :=
  (target_root entry).truthy && (g.states.lookup (py_str (target_root entry))).isSome

end Bogbin.Bogvm
