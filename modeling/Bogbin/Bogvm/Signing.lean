import Bogbin.Bogvm.Json

/-!
# Signatures

`sign_object` and `verify_object_signature`.  Ed25519 is the one of the `cryptography` package, a
parameter; a signature is kept as its text in base64.
-/

namespace Bogbin.Bogvm

/-- The workspace key and the trusted keys, with Ed25519 on the canonical bytes of an object. -/
structure Keys where
  public_key : Bytes
  trusted_keys : List Bytes
  /-- The signature of the workspace key. -/
  sign : Json → String
  /-- The public key accepts the text as a signature of the object. -/
  verify : Bytes → String → Json → Bool

/-- The workspace key is trusted and its signatures verify. -/
structure Keys.Lawful (keys : Keys) : Prop where
  trusted : keys.public_key ∈ keys.trusted_keys
  verify_sign : ∀ obj, keys.verify keys.public_key (keys.sign obj) obj = true
  sign_ne : ∀ obj, keys.sign obj ≠ ""

def SIGNATURE_FORMAT : String := "BOGSIG-ed25519-1.0"

def key_id (public_bytes : Bytes) : String :=
  String.ofList ((hexdigest public_bytes).toList.take 16)

def sign_object (keys : Keys) (obj : Dict) : Dict :=
  Dict.of [("format", .str SIGNATURE_FORMAT), ("algorithm", .str "ed25519"),
    ("key_id", .str (key_id keys.public_key)), ("signature", .str (keys.sign (.obj obj)))]

/-- The loop over the trusted keys. -/
def verify_with (keys : Keys) (obj signature : Dict) : List Bytes → Except PyError Bool
  | [] => .ok false
  | public_bytes :: rest =>
    if Dict.get signature "key_id" ≠ some (.str (key_id public_bytes)) then
      verify_with keys obj signature rest
    else
      match Dict.get signature "signature" with
      | none => verify_with keys obj signature rest
      | some (.str text) =>
        if keys.verify public_bytes text (.obj obj) then .ok true
        else verify_with keys obj signature rest
      | some _ => .error .TypeError

def verify_object_signature (keys : Keys) (obj : Dict) (signature : Json) : Except PyError Bool :=
  match signature with
  | .obj fields =>
    if Dict.get fields "format" ≠ some (.str SIGNATURE_FORMAT) ∨
        Dict.get fields "algorithm" ≠ some (.str "ed25519") then .ok false
    else verify_with keys obj fields keys.trusted_keys
  | _ => .error .AttributeError

section Lemmas

variable {keys : Keys} {obj : Dict}

theorem get_sign_object_format :
    Dict.get (sign_object keys obj) "format" = some (.str SIGNATURE_FORMAT) := by
  simp [sign_object, Dict.of, Dict.get_set]

theorem get_sign_object_algorithm :
    Dict.get (sign_object keys obj) "algorithm" = some (.str "ed25519") := by
  simp [sign_object, Dict.of, Dict.get_set]

theorem get_sign_object_key_id :
    Dict.get (sign_object keys obj) "key_id" = some (.str (key_id keys.public_key)) := by
  simp [sign_object, Dict.of, Dict.get_set]

theorem get_sign_object_signature :
    Dict.get (sign_object keys obj) "signature" = some (.str (keys.sign (.obj obj))) := by
  simp [sign_object, Dict.of]

theorem verify_with_sign_object (h : keys.Lawful) {trusted : List Bytes}
    (hmem : keys.public_key ∈ trusted) :
    verify_with keys obj (sign_object keys obj) trusted = .ok true := by
  induction trusted with
  | nil => exact absurd hmem List.not_mem_nil
  | cons public_bytes rest ih =>
    rw [verify_with, get_sign_object_key_id, get_sign_object_signature]
    dsimp only
    split_ifs with hid hverify
    · -- the key of this step has another id, so the workspace key comes later
      refine ih ((List.mem_cons.mp hmem).resolve_left ?_)
      rintro rfl
      exact hid rfl
    · rfl
    · refine ih ((List.mem_cons.mp hmem).resolve_left ?_)
      rintro rfl
      exact hverify (h.verify_sign _)

/-- What the workspace key signs verifies. -/
theorem verify_sign_object (h : keys.Lawful) :
    verify_object_signature keys obj (.obj (sign_object keys obj)) = .ok true := by
  rw [verify_object_signature, get_sign_object_format, get_sign_object_algorithm]
  exact (if_neg (by simp)).trans (verify_with_sign_object h h.trusted)

/-- A signature that verifies is accepted by one of the trusted keys. -/
theorem exists_of_verify_with {signature : Dict} {trusted : List Bytes}
    (h : verify_with keys obj signature trusted = .ok true) :
    ∃ public_bytes ∈ trusted, ∃ text, keys.verify public_bytes text (.obj obj) = true := by
  induction trusted with
  | nil => simp [verify_with] at h
  | cons public_bytes rest ih =>
    have hrest (hr : verify_with keys obj signature rest = .ok true) :
        ∃ public_bytes' ∈ public_bytes :: rest, ∃ text,
          keys.verify public_bytes' text (.obj obj) = true := by
      obtain ⟨p, hp, htext⟩ := ih hr
      exact ⟨p, List.mem_cons_of_mem _ hp, htext⟩
    rw [verify_with] at h
    split_ifs at h with hid
    · exact hrest h
    · split at h
      · exact hrest h
      · next text _ =>
        split_ifs at h with hverify
        · exact ⟨public_bytes, List.mem_cons_self, text, hverify⟩
        · exact hrest h
      · cases h

theorem exists_of_verify_object_signature {signature : Json}
    (h : verify_object_signature keys obj signature = .ok true) :
    ∃ public_bytes ∈ keys.trusted_keys, ∃ text, keys.verify public_bytes text (.obj obj) = true := by
  unfold verify_object_signature at h
  split at h
  · split_ifs at h
    · simp at h
    · exact exists_of_verify_with h
  · cases h

end Lemmas

/-- A workspace key that is the only trusted one. -/
def plain_keys : Keys := ⟨[], [[]], fun _ => "signature", fun _ _ _ => true⟩

theorem plain_keys_lawful : plain_keys.Lawful :=
  ⟨List.mem_singleton_self _, fun _ => rfl, fun _ => by simp [plain_keys]⟩

end Bogbin.Bogvm
