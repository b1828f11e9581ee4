import Libjingle.Stun.Message

/-!
# Messages that are built up
-/

namespace Libjingle.StunMessage

variable {msg : StunMessage} {attr : StunAttribute} {id key : List Uint8} {type : Uint16}
  {hmac : List Uint8 → List Uint8 → List Uint8}

/-- An attribute whose value has the type of its class is added. -/
theorem addAttribute_attrs (h : attr.value.valueType = msg.kind.getAttributeValueType attr.type) :
    (msg.addAttribute attr).1.attrs = msg.attrs ++ [attr] := by
  rw [addAttribute, if_neg (not_not.mpr h)]

@[simp] theorem addAttribute_kind : (msg.addAttribute attr).1.kind = msg.kind := by
  unfold addAttribute
  split_ifs <;> rfl

@[simp] theorem addAttribute_type : (msg.addAttribute attr).1.type = msg.type := by
  unfold addAttribute
  split_ifs <;> rfl

@[simp] theorem setTransactionID_kind : (msg.setTransactionID id).1.kind = msg.kind := by
  unfold setTransactionID
  split_ifs <;> rfl

@[simp] theorem setTransactionID_type : (msg.setTransactionID id).1.type = msg.type := by
  unfold setTransactionID
  split_ifs <;> rfl

@[simp] theorem setTransactionID_attrs : (msg.setTransactionID id).1.attrs = msg.attrs := by
  unfold setTransactionID
  split_ifs <;> rfl

/-- Adding another attribute does not matter. -/
theorem getAttribute_skip (h : attr.type ≠ type) :
    (msg.addAttribute attr).1.getAttribute type = msg.getAttribute type := by
  unfold addAttribute getAttribute
  split_ifs
  · rfl
  · rw [List.find?_append, List.find?_cons_of_neg (by simpa using h), List.find?_nil, Option.or_none]

/-- An attribute that is the first of its type is found. -/
theorem getAttribute_first (h : attr.value.valueType = msg.kind.getAttributeValueType attr.type)
    (hnone : msg.getAttribute attr.type = none) :
    (msg.addAttribute attr).1.getAttribute attr.type = some attr := by
  unfold getAttribute at hnone ⊢
  rw [addAttribute_attrs h, List.find?_append, hnone, Option.none_or,
    List.find?_cons_of_pos (by simp)]

/-! ## Message integrity -/

theorem addAttribute_integrity (bytes : List Uint8) :
    (msg.addAttribute ⟨attrMessageIntegrity, .byteString bytes⟩).1.attrs =
      msg.attrs ++ [⟨attrMessageIntegrity, .byteString bytes⟩] := by
  refine addAttribute_attrs ?_
  cases msg.kind <;> rfl

theorem addMessageIntegrity_spec (hmac : List Uint8 → List Uint8 → List Uint8) (msg : StunMessage)
    (key : List Uint8) :
    (msg.addMessageIntegrity hmac key).type = msg.type ∧
      ∃ bytes, (msg.addMessageIntegrity hmac key).attrs =
        msg.attrs ++ [⟨attrMessageIntegrity, .byteString bytes⟩] := by
  unfold addMessageIntegrity
  dsimp only
  split
  · exact ⟨addAttribute_type, _, addAttribute_integrity _⟩
  · next buf _ =>
    split
    · refine ⟨addAttribute_type, hmac key
        (buf.take (buf.length - kStunAttributeHeaderSize - kStunMessageIntegritySize)), ?_⟩
      dsimp only
      rw [addAttribute_integrity, List.dropLast_concat]
    · exact ⟨addAttribute_type, _, addAttribute_integrity _⟩

/-- The integrity of a message leaves its type. -/
@[simp] theorem addMessageIntegrity_type : (msg.addMessageIntegrity hmac key).type = msg.type :=
  (addMessageIntegrity_spec hmac msg key).1

/-- The integrity of a message leaves its other attributes. -/
theorem getAttribute_addMessageIntegrity (h : attrMessageIntegrity ≠ type) :
    (msg.addMessageIntegrity hmac key).getAttribute type = msg.getAttribute type := by
  obtain ⟨-, bytes, hattrs⟩ := addMessageIntegrity_spec hmac msg key
  unfold getAttribute
  rw [hattrs, List.find?_append, List.find?_cons_of_neg (by simpa using h), List.find?_nil,
    Option.or_none]

end Libjingle.StunMessage
