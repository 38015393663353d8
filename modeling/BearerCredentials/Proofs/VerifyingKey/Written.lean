import BearerCredentials.Proofs.Der.Written
import BearerCredentials.Proofs.Pem
import BearerCredentials.Proofs.VerifyingKey.OneKind
import BearerCredentials.VerifyingKey.Print

/-!
# Public keys are read back from their texts

* `PublicKeyKind.readsAs_keyInfo`   the sequence of the kind and the bytes of a key;
* `PublicKeyKind.holdsKey_pem`      what its text holds is the key;
* `VerifyingKey.ofSetting_text`     a setting with the text gives the key.
-/

namespace BearerCredentials

namespace PublicKeyKind

/-- what is read of the parameters -/
def parameterBlocks : PublicKeyKind → List Der.Block
  | rsa => [.other]
  | ec curve => [.identifier curve.arcs]
  | ed => []

/-- what is read of a written key -/
def block (kind : PublicKeyKind) (key : Bytes) : Der.Block :=
  .sequence [.sequence (.identifier kind.arcs :: kind.parameterBlocks), .bytes key]

theorem readsAs_arcs (kind : PublicKeyKind) : Der.ReadsAs (Der.identifier kind.arcs) (.identifier kind.arcs) := by
  cases kind <;> exact Der.readsAs_identifier (by decide) (by decide +kernel)

theorem readsAs_parameters (kind : PublicKeyKind) :
    List.Forall₂ Der.ReadsAs kind.parameters kind.parameterBlocks := by
  rcases kind with _ | (_ | _) | _
  · exact .cons Der.readsAs_null .nil
  · exact .cons (Der.readsAs_identifier (by decide) (by decide +kernel)) .nil
  · exact .cons (Der.readsAs_identifier (by decide) (by decide +kernel)) .nil
  · exact .nil

theorem length_kind_le (kind : PublicKeyKind) :
    (Der.identifier kind.arcs :: kind.parameters).flatten.length ≤ 19 := by
  rcases kind with _ | (_ | _) | _ <;> decide +kernel

variable {kind : PublicKeyKind} {key : Bytes}

/-- a written key is read as its two parts, if lengths of its size can be written -/
theorem readsAs_keyInfo (hl : 2 * key.length < UInt64.size) : Der.ReadsAs (kind.keyInfo key) (kind.block key) := by
  have hsize : 100 ≤ UInt64.size := by decide
  have hkind := length_kind_le kind
  have hinner : (Der.identifier kind.arcs :: kind.parameters).flatten.length < UInt64.size := by omega
  have hbits : (0 :: key).length < UInt64.size := by
    rw [List.length_cons]
    omega
  have houter : [Der.sequence (Der.identifier kind.arcs :: kind.parameters), Der.bitString key].flatten.length <
      UInt64.size := by
    have h1 : (Der.sequence (Der.identifier kind.arcs :: kind.parameters)).length ≤ _ := Der.length_element_le hinner
    have h2 : (Der.bitString key).length ≤ _ := Der.length_element_le hbits
    rw [List.length_cons] at h2
    simp only [List.flatten_cons, List.flatten_nil, List.append_nil, List.length_append]
    omega
  refine Der.readsAs_sequence (.cons ?_ (.cons (Der.readsAs_bitString hbits) .nil)) houter
  exact Der.readsAs_sequence (.cons kind.readsAs_arcs kind.readsAs_parameters) hinner

/-- the identifier of the kind comes first -/
theorem namesFirst_block (kind : PublicKeyKind) (key : Bytes) :
    NamesFirst kind.keyKind (Der.identifiers [kind.block key]) := by
  have hids : Der.identifiers [kind.block key] = [] ++ kind.arcs :: Der.identifiers kind.parameterBlocks := by
    rcases kind with _ | _ | _ <;> rfl
  exact ⟨[], kind.arcs, _, hids, kind.kindOf?_arcs, fun other hother => absurd hother List.not_mem_nil⟩

theorem firstBytes?_block (kind : PublicKeyKind) (key : Bytes) : Der.firstBytes? [kind.block key] = some key := by
  rcases kind with _ | _ | _ <;> rfl

/-- what the text of a key holds is the key -/
theorem holdsKey_pem (kind : PublicKeyKind) (key : Bytes) :
    (kind.pem key).HoldsKey [kind.block key] kind.keyKind key :=
  .named (Or.inl rfl) (kind.namesFirst_block key) (kind.firstBytes?_block key)

end PublicKeyKind

namespace VerifyingKey

/-! ## settings -/

theorem isPem_text (lineEnd : String) (pem : Pem) : isPem (Pem.text lineEnd pem) = true := by
  have hmark : pemMark.toList <+: Pem.beginMark.toList := by decide
  exact isPem_iff.2 (hmark.trans (Pem.beginMark_prefix_text lineEnd pem)).isInfix

/-- **A setting with the text of a public key gives the key**, of whatever kind and length, in lines with either end
and with any blanks around. Bytes that fit into memory are fewer than half of what a length of eight bytes counts. -/
theorem ofSetting_text (kind : PublicKeyKind) {key : Bytes} (hl : 2 * key.length < UInt64.size) {lineEnd : String}
    (he : Pem.IsLineEnd lineEnd) {pre post : String} (hpre : Text.allBlank pre = true)
    (hpost : Text.allBlank post = true) :
    ofSetting (some (pre ++ Pem.text lineEnd (kind.pem key) ++ post)) = .ok ⟨kind.keyKind, key⟩ := by
  have hpem : isPem (Pem.text lineEnd (kind.pem key)) = true := isPem_text lineEnd _
  have htrim : Text.trim (Pem.text lineEnd (kind.pem key)) = Pem.text lineEnd (kind.pem key) := by
    rw [Text.trim, (Pem.trimmed_text lineEnd _).trimBlanks, String.ofList_toList]
  have htext : Pem.ofText? (Pem.text lineEnd (kind.pem key)) = some (kind.pem key) :=
    Pem.ofText?_text he (show "PUBLIC KEY" ≠ "" by decide) (show ¬ '-' ∈ "PUBLIC KEY".toList by decide)
  have hread : Der.read (kind.pem key).contents = some [kind.block key] :=
    Der.read_of_readsAs (PublicKeyKind.readsAs_keyInfo hl)
  rw [ofSetting_between hpre hpost, ofSetting_of_isPem hpem, htrim, Outcome.elim_eq_ok_iff]
  exact ofPem?_eq_some_iff_holdsKey.2 ⟨_, _, htext, hread, kind.holdsKey_pem key⟩

/-- a key so long that its lengths take three bytes, in lines with the longer end -/
theorem ofSetting_text_long :
    ofSetting (some ("\u3000" ++ Pem.text "\r\n" (PublicKeyKind.rsa.pem (List.replicate 256 0xff)) ++ "\r\n\t")) =
      .ok ⟨.rsa, List.replicate 256 0xff⟩ :=
  ofSetting_text .rsa (by rw [List.length_replicate]; decide) (by decide) (by decide) (by decide)

end VerifyingKey

end BearerCredentials
