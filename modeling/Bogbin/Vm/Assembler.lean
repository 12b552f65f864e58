import Bogbin.Bogvm.Text
import Bogbin.Vm.Machine

/-!
# The assembler

`Assembler`: from the lines of a text to the bytes of a program.  The names of nodes, claims, data
blocks and constants are listed in the order of their ids.
-/

namespace Bogbin.Vm

open Bogvm

def MAGIC : Bytes := ascii "BOGBIN01"

def Op.code (op : Op) : ℕ := OPS.idxOf op

namespace Instruction

/-- `pack`, a structure of two bytes and three 16-bit numbers. -/
def pack (i : Instruction) : Except PyError Bytes :=
  if i.opcode ≤ 255 ∧ i.flags ≤ 255 ∧ i.target ≤ 65535 ∧ i.source ≤ 65535 ∧ i.param ≤ 65535 then
    .ok (Buffer.beBytes 1 i.opcode ++ Buffer.beBytes 1 i.flags ++ Buffer.beBytes 2 i.target ++
      Buffer.beBytes 2 i.source ++ Buffer.beBytes 2 i.param)
  else .error .StructError

end Instruction

/-- A claim with its nodes, as in `claim_meta`. -/
structure ClaimMeta where
  name : Text
  source : ℕ
  target : ℕ

structure Assembler where
  nodes : List Text
  claims : List ClaimMeta
  edge_count : ℕ
  data_names : List Text
  constants : List Text
  instructions : List Instruction

def Assembler.new : Assembler := ⟨[], [], 0, [], [], []⟩

abbrev Asm := EStateM PyError Assembler

/-- The id of a name; an unknown name raises. -/
def require_id (names : List Text) (name : Text) : Except PyError ℕ :=
  if name ∈ names then .ok (names.idxOf name) else .error .AssemblerError

/-- The id of a name and the names with it; a new name gets the next id. -/
def add_id (names : List Text) (name : Text) : Except PyError (ℕ × List Text) :=
  if name ∈ names then .ok (names.idxOf name, names)
  else if 65535 < names.length then .error .AssemblerError
  else .ok (names.length, names ++ [name])

section Tables

variable (name : Text)

def require_node : Asm ℕ := do
  MonadExcept.ofExcept (require_id (← get).nodes name)

def require_claim : Asm ℕ := do
  MonadExcept.ofExcept (require_id ((← get).claims.map (·.name)) name)

def add_node : Asm ℕ := do
  let (id, nodes) ← MonadExcept.ofExcept (add_id (← get).nodes name)
  modify fun a => { a with nodes := nodes }
  pure id

def add_claim (source target : ℕ) : Asm ℕ := do
  let a ← get
  let names := a.claims.map (·.name)
  if name ∈ names then pure (names.idxOf name)
  else if 65535 < names.length then throw .AssemblerError
  else do
    modify fun a => { a with claims := a.claims ++ [ClaimMeta.mk name source target] }
    pure names.length

def add_data : Asm ℕ := do
  let (id, data_names) ← MonadExcept.ofExcept (add_id (← get).data_names name)
  modify fun a => { a with data_names := data_names }
  pure id

def require_data : Asm ℕ := do
  MonadExcept.ofExcept (require_id (← get).data_names name)

def add_constant : Asm ℕ := do
  let (id, constants) ← MonadExcept.ofExcept (add_id (← get).constants name)
  modify fun a => { a with constants := constants }
  pure id

end Tables

def is_u16 (n : ℤ) : Prop := 0 ≤ n ∧ n ≤ 65535

instance (n : ℤ) : Decidable (is_u16 n) := inferInstanceAs (Decidable (_ ∧ _))

def is_u8 (n : ℤ) : Prop := 0 ≤ n ∧ n ≤ 255

instance (n : ℤ) : Decidable (is_u8 n) := inferInstanceAs (Decidable (_ ∧ _))

def emit (op : Op) (flags target source param : ℤ) : Asm Unit :=
  if is_u16 flags ∧ is_u16 target ∧ is_u16 source ∧ is_u16 param then
    modify fun a => { a with
      instructions := a.instructions ++
        [⟨op.code, flags.toNat, target.toNat, source.toNat, param.toNat⟩] }
  else throw .AssemblerError

def EDGE_TYPES (name : Text) : Option ℕ :=
  if name = "support".toList then some 1
  else if name = "conflict".toList then some 2
  else none

/-! ## The lines -/

/-- The first word of a line. -/
inductive Directive
  | op (op : Op)
  | DATA_BLOCK

def directive (name : Text) : Option Directive :=
  if name = "DATA_BLOCK".toList then some .DATA_BLOCK
  else (OPS.find? fun op => op.name.toList = name).map .op

section Directives

variable (args : List Text)

def parse_create_node : Asm Unit :=
  match args with
  | [name] => do
    let node_id ← add_node name
    emit .CREATE_NODE 0 node_id 0 0
  | _ => throw .AssemblerError

def parse_create_edge : Asm Unit :=
  match args with
  | [source, target, edge_type] => do
    let src ← require_node source
    let dst ← require_node target
    let type ← MonadExcept.ofExcept (require .AssemblerError (EDGE_TYPES (lower edge_type)))
    let edge_id := (← get).edge_count
    modify fun a => { a with edge_count := a.edge_count + 1 }
    emit .CREATE_EDGE type edge_id src dst
  | _ => throw .AssemblerError

def parse_create_claim : Asm Unit :=
  match args with
  | [name, source, target] => do
    let src ← require_node source
    let dst ← require_node target
    let claim_id ← add_claim name src dst
    emit .CREATE_CLAIM 0 claim_id src dst
  | _ => throw .AssemblerError

def parse_activate : Asm Unit :=
  match args with
  | [node, strength] => do
    let node_id ← require_node node
    let strength ← MonadExcept.ofExcept (int strength)
    emit .ACTIVATE 0 node_id 0 strength
  | _ => throw .AssemblerError

def parse_propagate : Asm Unit :=
  match args with
  | [source, edge_type, depth] => do
    let src ← require_node source
    let depth ← MonadExcept.ofExcept (int depth)
    let type ← MonadExcept.ofExcept (require .KeyError (EDGE_TYPES (lower edge_type)))
    emit .PROPAGATE type 0 src depth
  | _ => throw .AssemblerError

def parse_decay : Asm Unit :=
  match args with
  | [factor] => do
    let factor ← MonadExcept.ofExcept (int factor)
    emit .DECAY 0 0 0 factor
  | _ => throw .AssemblerError

/-- `INTERFERE`, `COMPUTE_TENSION`, `VERIFY`, `ACCEPT`, `REJECT` and `QUARANTINE`. -/
def parse_claim (op : Op) : Asm Unit :=
  match args with
  | [name] => do
    let claim_id ← require_claim name
    emit op 0 claim_id 0 0
  | _ => throw .AssemblerError

def parse_declare_basis : Asm Unit :=
  match args with
  | [basis] => do
    let basis_id ← add_constant basis
    emit .DECLARE_BASIS 0 basis_id 0 0
  | _ => throw .AssemblerError

def parse_data_block : Asm Unit :=
  match args with
  | [name] => do
    let _ ← add_data name
    pure ()
  | _ => throw .AssemblerError

/-- The coefficients of a block: the byte, the length and the delta. -/
def load_block (name byte length delta : Text) : Asm Unit := do
  let data_id ← require_data name
  let byte_value ← MonadExcept.ofExcept (int byte)
  let length ← MonadExcept.ofExcept (int length)
  let delta ← MonadExcept.ofExcept (int delta)
  if ¬ is_u8 byte_value then throw .AssemblerError
  else if ¬ is_u8 delta then throw .AssemblerError
  else emit .LOAD_COEFFICIENTS delta data_id byte_value length

def parse_load_coefficients : Asm Unit :=
  match args with
  | [name, byte, length] => load_block name byte length ['0']
  | [name, byte, length, delta] => load_block name byte length delta
  | _ => throw .AssemblerError

/-- `SYNTHESIZE`, `ACCEPT_DATA`, `REJECT_DATA` and `APPLY_RESIDUAL`. -/
def parse_data (op : Op) : Asm Unit :=
  match args with
  | [name] => do
    let data_id ← require_data name
    emit op 0 data_id 0 0
  | _ => throw .AssemblerError

def parse_verify_hash : Asm Unit :=
  match args with
  | [name, hash] => do
    let data_id ← require_data name
    let hash_id ← add_constant hash
    emit .VERIFY_HASH 0 data_id hash_id 0
  | _ => throw .AssemblerError

def parse_store_residual : Asm Unit :=
  match args with
  | [name, offset, byte] => do
    let data_id ← require_data name
    let offset ← MonadExcept.ofExcept (int offset)
    let byte_value ← MonadExcept.ofExcept (int byte)
    if ¬ is_u8 byte_value then throw .AssemblerError
    else emit .STORE_RESIDUAL 0 data_id offset byte_value
  | _ => throw .AssemblerError

def parse_directive (directive : Directive) : Asm Unit :=
  match directive with
  | .DATA_BLOCK => parse_data_block args
  | .op .CREATE_NODE => parse_create_node args
  | .op .CREATE_EDGE => parse_create_edge args
  | .op .CREATE_CLAIM => parse_create_claim args
  | .op .ACTIVATE => parse_activate args
  | .op .PROPAGATE => parse_propagate args
  | .op .DECAY => parse_decay args
  | .op .INTERFERE => parse_claim args .INTERFERE
  | .op .COMPUTE_TENSION => parse_claim args .COMPUTE_TENSION
  | .op .VERIFY => parse_claim args .VERIFY
  | .op .ACCEPT => parse_claim args .ACCEPT
  | .op .REJECT => parse_claim args .REJECT
  | .op .QUARANTINE => parse_claim args .QUARANTINE
  | .op .LOG_RECEIPT => emit .LOG_RECEIPT 0 0 0 0
  | .op .EMIT_RECEIPT => emit .EMIT_RECEIPT 0 0 0 0
  | .op .HALT => emit .HALT 0 0 0 0
  | .op .DECLARE_BASIS => parse_declare_basis args
  | .op .LOAD_COEFFICIENTS => parse_load_coefficients args
  | .op .SYNTHESIZE => parse_data args .SYNTHESIZE
  | .op .VERIFY_HASH => parse_verify_hash args
  | .op .ACCEPT_DATA => parse_data args .ACCEPT_DATA
  | .op .REJECT_DATA => parse_data args .REJECT_DATA
  | .op .STORE_RESIDUAL => parse_store_residual args
  | .op .APPLY_RESIDUAL => parse_data args .APPLY_RESIDUAL
  | .op .NOOP => emit .NOOP 0 0 0 0

end Directives

/-- `_strip`: the line without its comment. -/
def strip_comment (line : Text) : Text := strip (line.takeWhile (· ≠ '#'))

/-- An empty line has no words. -/
def parse_line (line : Text) : Asm Unit :=
  match split (strip_comment line) with
  | [] => pure ()
  | name :: args =>
    match directive (upper name) with
    | some directive => parse_directive args directive
    | none => throw .AssemblerError

/-! ## The program -/

/-- A table of names by their ids. -/
def id_table (values : List Json) : Dict :=
  Dict.of (values.zipIdx.map fun entry => (toString entry.2, entry.1))

def text_json (text : Text) : Json := .str (String.ofList text)

def claim_meta (id : ℕ) (claim : ClaimMeta) : Json :=
  .obj (Dict.of [("id", .int id), ("name", text_json claim.name), ("source", .int claim.source),
    ("target", .int claim.target)])

namespace Assembler

variable (a : Assembler)

def manifest : Dict :=
  Dict.of [
    ("version", .str "0.1"),
    ("scale", .int SCALE),
    ("nodes", .obj (id_table (a.nodes.map text_json))),
    ("claims", .obj (id_table (a.claims.zipIdx.map fun entry => claim_meta entry.2 entry.1))),
    ("data_blocks", .obj (id_table (a.data_names.map text_json))),
    ("constants", .obj (id_table (a.constants.map text_json))),
    ("instruction_count", .int a.instructions.length)]

def manifest_bytes : Bytes := canonical_bytes (.obj a.manifest)

def program : Except PyError Bytes := do
  let instruction_bytes ← a.instructions.mapM Instruction.pack
  if 2 ^ 32 ≤ a.manifest_bytes.length then .error .StructError
  else .ok (MAGIC ++ Buffer.beBytes 4 a.manifest_bytes.length ++ a.manifest_bytes ++
    instruction_bytes.flatten)

end Assembler

/-- The lines, one after the other. -/
def parse_lines : List Text → Asm Unit
  | [] => pure ()
  | line :: rest => do
    parse_line line
    parse_lines rest

def assemble_text (text : Text) : Except PyError Bytes :=
  match parse_lines (splitlines text) .new with
  | .ok _ a => a.program
  | .error e _ => .error e

end Bogbin.Vm
