import BearerCredentials.Proofs.Authenticator.Issued

/-!
# Tokens under a keyed hash cannot be respelled

* `Accepts`                 a token that is accepted in some request, at some instant;
* `keyed_of_accepts`        its signature is the one spelling of the one keyed hash of what is signed;
* `eq_of_accepts`           so two such tokens with the same bytes in header and payload are the same text;
* `accepts_unmalleable`     and no other spelling of an accepted token is accepted.
-/

namespace BearerCredentials

namespace Token

/-- a token whose signature spells the keyed hash of what is signed -/
structure Keyed (material : Bytes) (t : Token) : Prop where
  header : ∃ bytes, segmentBytes? t.header = some bytes
  payload : ∃ bytes, segmentBytes? t.payload = some bytes
  signature : ∃ hash, t.algorithm? = some (.hmac hash) ∧
    t.signature = segment (hmac hash material t.signed)

variable {key : VerifyingKey} {t t' : Token}

theorem exists_hash_of_signed (hkind : key.kind = .hmac) (h : t.Signed standardScheme key) :
    ∃ hash, t.algorithm? = some (.hmac hash) ∧ t.signature = segment (hmac hash key.material t.signed) := by
  obtain ⟨algorithm, verify, signature, ha, hk, hv, hs, hok⟩ := h
  have hkind' := (KeyKind.mem_algorithms_iff key.kind algorithm).1 hk
  rw [hkind] at hkind'
  cases algorithm with
  | hmac hash =>
    obtain rfl := Except.ok.inj hv
    refine ⟨hash, ha, ?_⟩
    rw [eq_of_beq hok]
    exact segmentBytes?_eq_some_iff.1 hs
  | _ => cases hkind'

theorem exists_bytes_of_members {segment : String} {members : Members}
    (h : segmentMembers? segment = some members) : ∃ bytes, segmentBytes? segment = some bytes := by
  obtain ⟨bytes, hb, -⟩ := Option.bind_eq_some_iff.1 h
  exact ⟨bytes, hb⟩

theorem keyed_of_claims {tolerance now : Nat} {claims : Claims} (hkind : key.kind = .hmac)
    (h : t.claims standardScheme key tolerance now = .ok claims) : Keyed key.material t := by
  obtain ⟨hsigned, hclaims⟩ := claims_eq_ok_iff.1 h
  obtain ⟨hash, ha, hs⟩ := exists_hash_of_signed hkind hsigned
  obtain ⟨fields, hf, -⟩ := Option.bind_eq_some_iff.1 ha
  obtain ⟨members, -, hm, -⟩ := claimsAt_eq_ok_iff.1 hclaims
  exact ⟨exists_bytes_of_members hf, exists_bytes_of_members hm, hash, ha, hs⟩

/-- two keyed tokens with the same header and payload have the same signature -/
theorem Keyed.eq {material : Bytes} (h : Keyed material t) (h' : Keyed material t')
    (hh : t.header = t'.header) (hp : t.payload = t'.payload) : t = t' := by
  obtain ⟨hash, ha, hs⟩ := h.signature
  obtain ⟨hash', ha', hs'⟩ := h'.signature
  have hsigned : t.signed = t'.signed := by rw [signed, signed, hh, hp]
  have hhash : some (Algorithm.hmac hash) = some (Algorithm.hmac hash') := by
    rw [← ha, ← ha', algorithm?, algorithm?, hh]
  have hsig : t.signature = t'.signature := by
    rw [hs, hs', hsigned, Algorithm.hmac.inj (Option.some.inj hhash)]
  cases t
  cases t'
  simp only at hh hp hsig
  rw [hh, hp, hsig]

/-- two segments that are read exactly are the same text if they are read loosely as the same bytes -/
theorem segment_eq_of_decodeLoose {s s' : String} (h : ∃ bytes, segmentBytes? s = some bytes)
    (h' : ∃ bytes, segmentBytes? s' = some bytes)
    (he : Base64.decodeLoose .url s.toList = Base64.decodeLoose .url s'.toList) : s = s' := by
  obtain ⟨bytes, hb⟩ := h
  obtain ⟨bytes', hb'⟩ := h'
  have hbytes : some bytes = some bytes' := by
    rw [← Base64.decodeLoose_of_decode hb, ← Base64.decodeLoose_of_decode hb', he]
  rw [segmentBytes?_eq_some_iff.1 hb, segmentBytes?_eq_some_iff.1 hb', Option.some.inj hbytes]

/-- the segments of a text that is made of three texts are these, if it has a token at all -/
theorem eq_of_ofText?_text (h : ofText? t.text = some t') : t' = t := by
  obtain ⟨he, hh, hp, hs⟩ := ofText?_eq_some_iff.1 h
  have hcount : t.text.toList.count '.' = t'.text.toList.count '.' := by rw [he]
  rw [toList_text, toList_text] at hcount
  simp only [List.count_append, List.count_cons_self, List.count_eq_zero.2 hh, List.count_eq_zero.2 hp,
    List.count_eq_zero.2 hs] at hcount
  have hh' : ¬ '.' ∈ t.header.toList := List.count_eq_zero.1 (by omega)
  have hp' : ¬ '.' ∈ t.payload.toList := List.count_eq_zero.1 (by omega)
  have hs' : ¬ '.' ∈ t.signature.toList := List.count_eq_zero.1 (by omega)
  rw [ofText?_text hh' hp' hs'] at h
  exact (Option.some.inj h).symm

theorem text_padded_ne (t : Token) : (Token.mk t.header t.payload (t.signature ++ "=")).text ≠ t.text := by
  intro e
  have hlength := congrArg (fun x => x.toList.length) e
  simp [text] at hlength

end Token

namespace Authenticator

variable {a : Authenticator} {key : VerifyingKey} {x x' : String} {t t' : Token}

/-- a token that is accepted in some request, at some instant -/
def Accepts (scheme : SignatureScheme) (a : Authenticator) (token : String) : Prop :=
  ∃ now headers c log, Authorization.ofHeaders a.requireBearerScheme headers = .ok token ∧
    a.extract scheme now headers = some ⟨some c, log⟩

theorem keyed_of_accepts (hkey : a.key = .ok key) (hkind : key.kind = .hmac)
    (h : Accepts standardScheme a x) : ∃ t, Token.ofText? x = some t ∧ Token.Keyed key.material t := by
  obtain ⟨now, headers, c, log, hsent, hx⟩ := h
  obtain ⟨key', token, hkey', hsent', hc⟩ := authenticate_eq_ok_iff.1 (extract_eq_some_iff.1 hx).1
  obtain rfl := Except.ok.inj (hkey.symm.trans hkey')
  obtain rfl := Except.ok.inj (hsent.symm.trans hsent')
  obtain ⟨t, claims, ht, hclaims, -⟩ := credentialsOf_eq_ok_iff.1 hc
  exact ⟨t, ht, Token.keyed_of_claims hkind hclaims⟩

/-- two accepted tokens whose headers and payloads are read loosely as the same bytes are the same text -/
theorem eq_of_accepts (hkey : a.key = .ok key) (hkind : key.kind = .hmac)
    (h : Accepts standardScheme a x) (h' : Accepts standardScheme a x')
    (ht : Token.ofText? x = some t) (ht' : Token.ofText? x' = some t')
    (hh : Base64.decodeLoose .url t'.header.toList = Base64.decodeLoose .url t.header.toList)
    (hp : Base64.decodeLoose .url t'.payload.toList = Base64.decodeLoose .url t.payload.toList) :
    x' = x := by
  obtain ⟨u, hu, hkeyed⟩ := keyed_of_accepts hkey hkind h
  obtain ⟨u', hu', hkeyed'⟩ := keyed_of_accepts hkey hkind h'
  obtain rfl := Option.some.inj (ht.symm.trans hu)
  obtain rfl := Option.some.inj (ht'.symm.trans hu')
  have hheader := Token.segment_eq_of_decodeLoose hkeyed'.header hkeyed.header hh
  have hpayload := Token.segment_eq_of_decodeLoose hkeyed'.payload hkeyed.payload hp
  obtain rfl := hkeyed'.eq hkeyed hheader hpayload
  exact Token.ofText?_injective ht' ht

/-- **A token under a keyed hash cannot be respelled.** Another accepted token differs in the bytes of its header
or of its payload; and three texts that differ from an accepted token in spelling only, be it by padding, by
unused bits or by anything in the signature, are not accepted. -/
theorem accepts_unmalleable (hkey : a.key = .ok key) (hkind : key.kind = .hmac)
    (h : Accepts standardScheme a x) (ht : Token.ofText? x = some t) :
    (∀ x' t', Accepts standardScheme a x' → Token.ofText? x' = some t' →
        Token.segmentBytes? t'.header = Token.segmentBytes? t.header →
        Token.segmentBytes? t'.payload = Token.segmentBytes? t.payload → x' = x) ∧
      ∀ t' : Token, t'.text ≠ x →
        Base64.decodeLoose .url t'.header.toList = Base64.decodeLoose .url t.header.toList →
        Base64.decodeLoose .url t'.payload.toList = Base64.decodeLoose .url t.payload.toList →
        ¬ Accepts standardScheme a t'.text := by
  constructor
  · intro x' t' h' ht' hh hp
    obtain ⟨u, hu, hkeyed⟩ := keyed_of_accepts hkey hkind h
    obtain rfl := Option.some.inj (ht.symm.trans hu)
    obtain ⟨header, hb⟩ := hkeyed.header
    obtain ⟨payload, hb'⟩ := hkeyed.payload
    refine eq_of_accepts hkey hkind h h' ht ht' ?_ ?_
    · rw [Base64.decodeLoose_of_decode hb, Base64.decodeLoose_of_decode (hh.trans hb)]
    · rw [Base64.decodeLoose_of_decode hb', Base64.decodeLoose_of_decode (hp.trans hb')]
  · intro t' hne hh hp h'
    obtain ⟨u', hu', -⟩ := keyed_of_accepts hkey hkind h'
    obtain rfl := Token.eq_of_ofText?_text hu'
    exact hne (eq_of_accepts hkey hkind h h' ht hu' hh hp)

/-- a token for the payload at the edge -/
def edgeToken : Token := Token.issue .sha512 (utf8 "key") edgePayload

theorem accepts_edgeToken : Accepts standardScheme (ofSettings edgeSettings) edgeToken.text := by
  obtain ⟨headers, c, -, hsent, -, hx⟩ := exists_accepted_issue .sha512
    (key_of_secret (by decide) signingKey_edgeSettings) read_edgePayload timely_edgeMembers
    name_edgeMembers namesSubject_ada
  exact ⟨_, headers, c, _, hsent, hx⟩

theorem ofText?_edgeToken : Token.ofText? edgeToken.text = some edgeToken :=
  (Token.ofSymbols_issue .sha512 (utf8 "key") edgePayload).ofText?_text

/-- padding after the signature -/
theorem not_accepts_padded_edgeToken :
    Accepts standardScheme (ofSettings edgeSettings) edgeToken.text ∧
      ¬ Accepts standardScheme (ofSettings edgeSettings)
        (Token.mk edgeToken.header edgeToken.payload (edgeToken.signature ++ "=")).text := by
  have hkey := key_of_secret (by decide) signingKey_edgeSettings
  have hunique := accepts_unmalleable hkey rfl accepts_edgeToken ofText?_edgeToken
  exact ⟨accepts_edgeToken, hunique.2 _ (Token.text_padded_ne edgeToken) rfl rfl⟩

end Authenticator

end BearerCredentials
