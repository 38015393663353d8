import BearerCredentials.Proofs.VerifyingKey.Spelled

/-!
# A PEM text is a key of one kind

* `NamesFirst`, `Pem.HoldsKey`                    the kind of key that a PEM text names, and its bytes, without the
  readers;
* `VerifyingKey.ofPem?_eq_some_iff_holdsKey`      one of the readers finds them exactly where they are there;
* `VerifyingKey.pairwise_readings`                no two readers accept the same text;
* `VerifyingKey.findSome?_of_perm`                the order in which they are tried does not matter;
* `VerifyingKey.one_kind`                         the same for settings.
-/

namespace BearerCredentials

/-! ## what a PEM text holds -/

/-- the first of some identifiers that is known is the one of a kind of key -/
def NamesFirst (kind : KeyKind) (identifiers : List (List Nat)) : Prop :=
  ∃ before arcs after, identifiers = before ++ arcs :: after ∧ PemKey.kindOf? arcs = some kind ∧
    ∀ other ∈ before, PemKey.kindOf? other = none

theorem NamesFirst.ne_hmac {kind : KeyKind} {identifiers : List (List Nat)} (h : NamesFirst kind identifiers) :
    kind ≠ .hmac := by
  obtain ⟨-, arcs, -, -, hkind, -⟩ := h
  rintro rfl
  unfold PemKey.kindOf? at hkind
  repeat' split at hkind
  all_goals cases hkind

theorem PemKey.named?_eq_some_iff {blocks : List Der.Block} {kind : KeyKind} :
    named? blocks = some kind ↔ NamesFirst kind (Der.identifiers blocks) :=
  List.findSome?_eq_some_iff

/-- the key that labelled data is: a whole RSA key, or the first bytes beside a known identifier. A private key
counts for RSA only. -/
inductive Pem.HoldsKey (pem : Pem) (blocks : List Der.Block) : KeyKind → Bytes → Prop where
  | whole : pem.label = "RSA PRIVATE KEY" ∨ pem.label = "RSA PUBLIC KEY" → HoldsKey pem blocks .rsa pem.contents
  | named {kind : KeyKind} {material : Bytes} :
      pem.label = "PUBLIC KEY" ∨ pem.label = "CERTIFICATE" ∨ (pem.label = "PRIVATE KEY" ∧ kind = .rsa) →
      NamesFirst kind (Der.identifiers blocks) → Der.firstBytes? blocks = some material →
      HoldsKey pem blocks kind material

namespace PemKey

variable {kind named : KeyKind} {material contents : Bytes} {blocks : List Der.Block} {isPrivate : Bool}

theorem material?_rsaKey :
    (PemKey.mk .rsaKey contents blocks).material? kind = some material ↔ kind = .rsa ∧ contents = material := by
  cases kind <;> simp [material?, rsa?, ec?, ed?]

theorem material?_keyInfo :
    (PemKey.mk (.keyInfo named isPrivate) contents blocks).material? kind = some material ↔
      kind = named ∧ named ≠ .hmac ∧ (isPrivate = true → named = .rsa) ∧
        Der.firstBytes? blocks = some material := by
  cases kind <;> cases named <;> cases isPrivate <;> simp [material?, rsa?, ec?, ed?]

/-- which labels stand for which form -/
theorem formOf?_eq_some_iff {label : String} {form : PemForm} :
    formOf? label blocks = some form ↔
      (label = "RSA PRIVATE KEY" ∨ label = "RSA PUBLIC KEY") ∧ form = .rsaKey ∨
        ∃ kind, named? blocks = some kind ∧ (label = "PRIVATE KEY" ∧ form = .keyInfo kind true ∨
          (label = "PUBLIC KEY" ∨ label = "CERTIFICATE") ∧ form = .keyInfo kind false) := by
  constructor
  · intro h
    unfold formOf? at h
    split at h
    · cases h
      exact Or.inl ⟨Or.inl rfl, rfl⟩
    · cases h
      exact Or.inl ⟨Or.inr rfl, rfl⟩
    · obtain ⟨kind, hkind, rfl⟩ := Option.map_eq_some_iff.1 h
      exact Or.inr ⟨kind, hkind, Or.inl ⟨rfl, rfl⟩⟩
    · obtain ⟨kind, hkind, rfl⟩ := Option.map_eq_some_iff.1 h
      exact Or.inr ⟨kind, hkind, Or.inr ⟨Or.inl rfl, rfl⟩⟩
    · obtain ⟨kind, hkind, rfl⟩ := Option.map_eq_some_iff.1 h
      exact Or.inr ⟨kind, hkind, Or.inr ⟨Or.inr rfl, rfl⟩⟩
    · cases h
  · rintro (⟨rfl | rfl, rfl⟩ | ⟨kind, hkind, ⟨rfl, rfl⟩ | ⟨rfl | rfl, rfl⟩⟩)
    · rfl
    · rfl
    all_goals
      rw [formOf?, hkind]
      rfl

/-- the kind of key and its bytes that a label and its data amount to -/
theorem holdsKey_iff {pem : Pem} :
    pem.HoldsKey blocks kind material ↔
      ∃ form, formOf? pem.label blocks = some form ∧
        (PemKey.mk form pem.contents blocks).material? kind = some material := by
  constructor
  · rintro (hlabel | ⟨hlabel, hkind, hbytes⟩)
    · exact ⟨.rsaKey, formOf?_eq_some_iff.2 (Or.inl ⟨hlabel, rfl⟩), material?_rsaKey.2 ⟨rfl, rfl⟩⟩
    · have hne := hkind.ne_hmac
      have hnamed := named?_eq_some_iff.2 hkind
      rcases or_assoc.2 hlabel with hpublic | ⟨hprivate, rfl⟩
      · exact ⟨.keyInfo kind false, formOf?_eq_some_iff.2 (Or.inr ⟨kind, hnamed, Or.inr ⟨hpublic, rfl⟩⟩),
          material?_keyInfo.2 ⟨rfl, hne, nofun, hbytes⟩⟩
      · exact ⟨.keyInfo .rsa true, formOf?_eq_some_iff.2 (Or.inr ⟨.rsa, hnamed, Or.inl ⟨hprivate, rfl⟩⟩),
          material?_keyInfo.2 ⟨rfl, hne, fun _ => rfl, hbytes⟩⟩
  · rintro ⟨form, hform, hm⟩
    obtain ⟨hlabel, rfl⟩ | ⟨named, hnamed, ⟨hlabel, rfl⟩ | ⟨hlabel, rfl⟩⟩ := formOf?_eq_some_iff.1 hform
    · obtain ⟨rfl, rfl⟩ := material?_rsaKey.1 hm
      exact .whole hlabel
    · obtain ⟨rfl, -, hrsa, hbytes⟩ := material?_keyInfo.1 hm
      exact .named (Or.inr (Or.inr ⟨hlabel, hrsa rfl⟩)) (named?_eq_some_iff.1 hnamed) hbytes
    · obtain ⟨rfl, -, -, hbytes⟩ := material?_keyInfo.1 hm
      exact .named (or_assoc.1 (Or.inl hlabel)) (named?_eq_some_iff.1 hnamed) hbytes

/-- what is read of a PEM text, piece by piece -/
theorem exists_read?_iff {text : String} :
    (∃ key, read? text = some key ∧ key.material? kind = some material) ↔
      ∃ pem blocks, Pem.ofText? text = some pem ∧ Der.read pem.contents = some blocks ∧
        pem.HoldsKey blocks kind material := by
  constructor
  · rintro ⟨key, hread, hm⟩
    obtain ⟨pem, hpem, hread⟩ := Option.bind_eq_some_iff.1 hread
    obtain ⟨blocks, hblocks, hread⟩ := Option.bind_eq_some_iff.1 hread
    obtain ⟨form, hform, hread⟩ := Option.bind_eq_some_iff.1 hread
    cases hread
    exact ⟨pem, blocks, hpem, hblocks, holdsKey_iff.2 ⟨form, hform, hm⟩⟩
  · rintro ⟨pem, blocks, hpem, hblocks, hkey⟩
    obtain ⟨form, hform, hm⟩ := holdsKey_iff.1 hkey
    refine ⟨⟨form, pem.contents, blocks⟩, ?_, hm⟩
    simp only [read?, hpem, hblocks, hform, Option.bind_eq_bind, Option.bind_some, Option.pure_def]

end PemKey

/-! ## the readers -/

namespace VerifyingKey

variable {raw text : String} {key : VerifyingKey}

theorem ofPem?_eq_some_iff_holdsKey :
    ofPem? text = some key ↔
      ∃ pem blocks, Pem.ofText? text = some pem ∧ Der.read pem.contents = some blocks ∧
        pem.HoldsKey blocks key.kind key.material :=
  ofPem?_eq_some_iff.trans PemKey.exists_read?_iff

/-- readers of two kinds do not accept the same text -/
theorem reading_exclusive {kind kind' : KeyKind} (hne : kind ≠ kind') (text : String) :
    ((PemKey.read? text).bind fun pem => pem.material? kind).map (VerifyingKey.mk kind) = none ∨
      ((PemKey.read? text).bind fun pem => pem.material? kind').map (VerifyingKey.mk kind') = none := by
  cases hread : PemKey.read? text with
  | none => exact Or.inl rfl
  | some pem =>
    cases hm : pem.material? kind with
    | none =>
      left
      rw [Option.bind_some, hm]
      rfl
    | some material =>
      cases hm' : pem.material? kind' with
      | none =>
        right
        rw [Option.bind_some, hm']
        rfl
      | some material' => exact absurd ((PemKey.eq_keyKind hm).trans (PemKey.eq_keyKind hm').symm) hne

/-- **No two readers accept the same text.** -/
theorem pairwise_readings (text : String) :
    pemReadings.Pairwise fun reading reading' => reading text = none ∨ reading' text = none := by
  have hre : rsaOfPem? text = none ∨ ecOfPem? text = none := reading_exclusive (by decide) text
  have hrd : rsaOfPem? text = none ∨ edOfPem? text = none := reading_exclusive (by decide) text
  have hed : ecOfPem? text = none ∨ edOfPem? text = none := reading_exclusive (by decide) text
  simp [pemReadings, hre, hrd, hed]

/-- where no two of some readers accept a text, they can be tried in any order -/
theorem findSome?_of_perm {readings order : List (String → Option VerifyingKey)} (h : order.Perm readings)
    (hx : readings.Pairwise fun reading reading' => reading text = none ∨ reading' text = none) :
    order.findSome? (fun reading => reading text) = readings.findSome? fun reading => reading text := by
  induction h with
  | nil => rfl
  | cons reading _ ih =>
    rw [List.findSome?_cons, List.findSome?_cons, ih (List.pairwise_cons.1 hx).2]
  | swap a b readings =>
    have hab := (List.pairwise_cons.1 hx).1 b List.mem_cons_self
    rw [List.findSome?_cons, List.findSome?_cons, List.findSome?_cons, List.findSome?_cons]
    rcases hab with ha | hb
    · rw [ha]
    · rw [hb]
  | trans _ h' ih ih' =>
    have hx' := (h'.pairwise_iff fun {_ _} => Or.symm).2 hx
    rw [ih hx', ih' hx]

theorem ne_hmac_of_mem_algorithms (h : key.kind ≠ .hmac) {algorithm : Algorithm} (hm : algorithm ∈ key.algorithms)
    (hash : Sha2) : algorithm ≠ .hmac hash := by
  rintro rfl
  exact h ((KeyKind.mem_algorithms_iff key.kind (.hmac hash)).1 hm).symm

/-- **A setting with the mark of a PEM text gives a key of one kind**, whatever the order in which the kinds are
tried: the kind that the label and the first known identifier name. Where no reader accepts the text, there is no
key. No keyed hash goes with such a key, and blanks around the text do not matter. -/
theorem one_kind {raw : String} (h : pemMark.toList <:+: raw.toList) :
    (∀ text, pemReadings.Pairwise fun reading reading' => reading text = none ∨ reading' text = none) ∧
      (∀ order : List (String → Option VerifyingKey), order.Perm pemReadings →
        ofSetting (some raw) =
          (order.findSome? fun reading => reading (Text.trim raw)).elim (.error .unreadable) .ok) ∧
      (∀ fault, ofSetting (some raw) = .error fault ↔
        fault = .unreadable ∧ ∀ reading ∈ pemReadings, reading (Text.trim raw) = none) ∧
      (∀ key, ofSetting (some raw) = .ok key ↔
        ∃ pem blocks, Pem.ofText? (Text.trim raw) = some pem ∧ Der.read pem.contents = some blocks ∧
          pem.HoldsKey blocks key.kind key.material) ∧
      (∀ key, ofSetting (some raw) = .ok key →
        key.kind ≠ .hmac ∧ ∀ algorithm ∈ key.algorithms, ∀ hash, algorithm ≠ .hmac hash) ∧
      ∀ pre post, Text.allBlank pre = true → Text.allBlank post = true →
        ofSetting (some (pre ++ raw ++ post)) = ofSetting (some raw) := by
  rw [← isPem_iff] at h
  refine ⟨pairwise_readings, ?_, fun fault => ofSetting_of_isPem_eq_error_iff h, ?_, ?_,
    fun pre post hpre hpost => ofSetting_between hpre hpost raw⟩
  · intro order hperm
    rw [findSome?_of_perm hperm (pairwise_readings _)]
    exact ofSetting_of_isPem h
  · intro key
    rw [ofSetting_of_isPem h, Outcome.elim_eq_ok_iff]
    exact ofPem?_eq_some_iff_holdsKey
  · intro key hkey
    have hne := ne_hmac_of_isPem h hkey
    exact ⟨hne, fun algorithm hm hash => ne_hmac_of_mem_algorithms hne hm hash⟩

/-! ## a text with several identifiers -/

/-- a certificate that names an identifier which is not known, then a curve, and then RSA, and holds two strings of
bytes -/
def crossedKeyText : String :=
  "-----BEGIN CERTIFICATE-----\r\nMDswKTAFBgNVBAMwEwYHKoZIzj0CAQYIKoZIzj0DAQcGCSqGSIb3DQEBAQUABAVm\r\n" ++
    "aXJzdAMHAHNlY29uZA==\r\n-----END CERTIFICATE-----"

/-- it is a key of the second kind, and of no other, with the first of its strings -/
theorem one_kind_crossedKeyText :
    pemMark.toList <:+: crossedKeyText.toList ∧
      ofSetting (some ("\u00a0" ++ crossedKeyText ++ "\u2028\n")) = .ok ⟨.ec, utf8 "first"⟩ ∧
      [edOfPem?, rsaOfPem?, ecOfPem?].findSome? (fun reading => reading (Text.trim crossedKeyText)) =
        some ⟨.ec, utf8 "first"⟩ := by
  have hmark : pemMark.toList <:+: crossedKeyText.toList := Text.hasStretch_iff.1 (by decide +kernel)
  obtain ⟨-, horder, -, -, -, hbetween⟩ := one_kind hmark
  have hperm : [edOfPem?, rsaOfPem?, ecOfPem?].Perm pemReadings := by
    show ([edOfPem?] ++ [rsaOfPem?, ecOfPem?]).Perm ([rsaOfPem?, ecOfPem?] ++ [edOfPem?])
    exact List.perm_append_comm
  have hec : [edOfPem?, rsaOfPem?, ecOfPem?].findSome? (fun reading => reading (Text.trim crossedKeyText)) =
      some ⟨.ec, utf8 "first"⟩ := by decide +kernel
  refine ⟨hmark, ?_, hec⟩
  rw [hbetween "\u00a0" "\u2028\n" (by decide) (by decide), horder _ hperm, hec]
  rfl

end VerifyingKey

end BearerCredentials
