import SignedFirmware.Command.Program
import SignedFirmware.Proofs.Command.Run
import SignedFirmware.Proofs.Credential.Issue
import SignedFirmware.Proofs.Credential.KeyFile
import SignedFirmware.Proofs.Credential.Stored

/-!
# How long new certificates last

The days that a certificate is asked to last become seconds, the seconds are added to the clock, and
the sum becomes a date. The first of these steps is taken in 64 bits. If the product does not fit,
a build with overflow checks breaks off, and a build without them goes on with what fits. The second
step breaks off where the clock ends, in every build. Only the third refuses what is too much.

The build is part of a session, so what is said here of all sessions is said of both builds. A
certificate that is written lasts as long as the first step says, and where the end of it falls
decides how the command ends (`generateCertificate_lifetime`).
-/

namespace SignedFirmware.Command

open Credential X509

variable {s : Session} {i : Invocation} {o : CertificateOptions} {f : Failure}
variable {key : Rsa.PrivateKey} {issuer : Option Issuer} {c : Certificate}

/-! ## Making a certificate -/

theorem finds_checkMatch (mismatch : Failure) (cert : Certificate) (key : Rsa.PrivateKey) :
    Finds (checkMatch mismatch cert key : ExceptT Failure (StateM Session) Unit) fun _ ↦
      (matchesKey cert key).mapError .publicKey >>= fun isMatch ↦
        if isMatch then .ok () else .error mismatch := by
  refine (Finds.orFail .publicKey (matchesKey cert key)).bind fun isMatch ↦ ?_
  cases isMatch with
  | true => exact .settled (.ok ())
  | false => exact .settled (.error mismatch)

theorem finds_readIssuer (o : IssuerOptions) :
    Finds (readIssuer o : ExceptT Failure (StateM Session) Issuer) fun s ↦
      s.outcome (readIssuer o) := by
  have hcert (key : Rsa.PrivateKey) := ((Credential.finds_readCertificate o.cert).tryStep
    (.issuerCertificate o.cert)).bind fun cert ↦
      (finds_checkMatch .issuerMismatch cert key).bind fun _ ↦ .settled (.ok (Issuer.mk key cert))
  exact (((finds_readKey o.key o.passphrase).tryStep (.issuerKey o.key)).bind hcert).canonical

theorem finds_mapM_readIssuer (issuer : Option IssuerOptions) :
    Finds (issuer.mapM readIssuer : ExceptT Failure (StateM Session) (Option Issuer)) fun s ↦
      s.outcome (issuer.mapM readIssuer) := by
  cases issuer with
  | none => exact .settled (.ok none)
  | some o => exact ((finds_readIssuer o).bind fun issuer ↦ .settled (.ok (some issuer))).canonical

theorem finds_validityOf (days : Nat) :
    Finds (validityOf days : ExceptT Failure (StateM Session) Validity) fun s ↦
      validityIn s.overflow days s.clock :=
  Finds.overflow.bind fun overflow ↦
    Finds.now.bind fun now ↦ .settled (validityIn overflow days now)

theorem secondsOfDays_eq_iff {days : Nat} :
    secondsOfDays days = days * 86400 ↔ days * 86400 < 2 ^ 64 :=
  Nat.mod_eq_iff_lt (by decide)

theorem not_stopsAt_iff {overflow : Overflow} {days : Nat} :
    ¬StopsAt overflow days ↔ overflow = .wraps ∨ days * 86400 < 2 ^ 64 := by
  have hlimit : wordLimit = 2 ^ 64 := rfl
  rw [StopsAt, hlimit, not_and_or, Nat.not_le]
  cases overflow <;> simp

theorem validityIn_eq_ok_iff {overflow : Overflow} {days : Nat} {now : Instant} {v : Validity} :
    validityIn overflow days now = .ok v ↔
      ¬StopsAt overflow days ∧ now.seconds + secondsOfDays days ≤ lastSecond ∧
        validityFor now (secondsOfDays days) = .ok v := by
  rw [validityIn]
  split
  · rename_i hstops
    simp [hstops]
  · rename_i hgoes
    split
    · rename_i hlast
      simp [Nat.not_le.2 hlast]
    · rename_i hlast
      rw [Checked.mapError_eq_ok_iff]
      simp [hgoes, Nat.not_lt.1 hlast]

/-- What is done before anything is written. -/
def makeCertificate {m : Type → Type} [Monad m] [Host m] (o : CertificateOptions) :
    ExceptT Failure m Certificate := do
  let key ← tryStep (.key o.key) (readKey o.key o.passphrase)
  let issuer ← o.issuer.mapM readIssuer
  let validity ← validityOf o.validity
  let serial := Bytes.toNat (← Host.random 8)
  orFail .generateCertificate (issue key issuer serial validity o.subject o.isCa)

theorem generateCertificate_eq (o : CertificateOptions) :
    (generateCertificate o : ExceptT Failure (StateM Session) Unit) =
      makeCertificate o >>= fun c ↦
        tryStep (.writeCertificate o.output) (Credential.writeCertificate o.output c) := by
  simp [generateCertificate, makeCertificate]

/-- The serial number that is drawn in a session. -/
def serialIn (s : Session) : Nat := Bytes.toNat (List.replicate 8 s.randomness)

/-- The certificate that is made in a session. -/
def certificateIn (o : CertificateOptions) (s : Session) : Except Failure Certificate :=
  (s.outcome (readKey o.key o.passphrase)).mapError (.key o.key) >>= fun key ↦
    s.outcome (o.issuer.mapM readIssuer) >>= fun issuer ↦
      validityIn s.overflow o.validity s.clock >>= fun validity ↦
        (issue key issuer (serialIn s) validity o.subject o.isCa).mapError .generateCertificate

theorem finds_makeCertificate (o : CertificateOptions) :
    Finds (makeCertificate o : ExceptT Failure (StateM Session) Certificate) (certificateIn o) := by
  refine ((finds_readKey o.key o.passphrase).canonical.tryStep _).bind fun key ↦ ?_
  refine (finds_mapM_readIssuer o.issuer).bind fun issuer ↦ ?_
  refine (finds_validityOf o.validity).bind fun validity ↦ ?_
  exact (Finds.random 8).bind fun drawn ↦ Finds.orFail .generateCertificate _

theorem outcome_makeCertificate (o : CertificateOptions) (s : Session) :
    s.outcome (makeCertificate o) = certificateIn o s := by
  rw [(finds_makeCertificate o).outcome_eq, certificateIn, certificateIn,
    ← (finds_readKey o.key o.passphrase).canonical.outcome_eq,
    ← (finds_mapM_readIssuer o.issuer).outcome_eq]
  rfl

/-! ## Failures -/

theorem isCrash_of_mapError {ε α : Type} {reason : ε → Failure} {result : Except ε α}
    (hreason : ∀ e, (reason e).isCrash = false) (h : result.mapError reason = .error f) :
    f.isCrash = false := by
  obtain ⟨e, -, rfl⟩ := Checked.mapError_eq_error_iff.1 h
  exact hreason e

/-- A command that cannot read the issuer says so. -/
theorem isCrash_of_readIssuer {o : IssuerOptions} (h : s.outcome (readIssuer o) = .error f) :
    f.isCrash = false := by
  rw [readIssuer, Session.outcome_bind, Checked.bind_eq_error_iff] at h
  rcases h with hkey | ⟨key, -, h⟩
  · exact isCrash_of_mapError (fun _ ↦ rfl) hkey
  rw [Session.outcome_bind, Checked.bind_eq_error_iff] at h
  rcases h with hcert | ⟨cert, -, h⟩
  · exact isCrash_of_mapError (fun _ ↦ rfl) hcert
  rw [Session.outcome_bind, Checked.bind_eq_error_iff, (finds_checkMatch _ _ _).outcome_eq,
    Checked.bind_eq_error_iff] at h
  rcases h with (hmatch | ⟨isMatch, -, hmatch⟩) | ⟨_, -, h⟩
  · exact isCrash_of_mapError (fun _ ↦ rfl) hmatch
  · cases isMatch with
    | true => cases hmatch
    | false =>
      cases hmatch
      rfl
  · cases h

theorem isCrash_of_mapM_readIssuer {issuer : Option IssuerOptions}
    (h : s.outcome (issuer.mapM readIssuer) = .error f) : f.isCrash = false := by
  cases issuer with
  | none => cases h
  | some o =>
    have hsome :
        (some o).mapM (readIssuer : IssuerOptions → ExceptT Failure (StateM Session) Issuer) =
          readIssuer o >>= fun issuer ↦ pure (some issuer) := rfl
    rw [hsome, Session.outcome_bind, Checked.bind_eq_error_iff] at h
    rcases h with h | ⟨_, -, h⟩
    · exact isCrash_of_readIssuer h
    · cases h

/-- Of the steps up to the certificate, only the product and the sum with the clock break off. -/
theorem stopsAt_or_lt_of_isCrash (h : certificateIn o s = .error f) (hcrash : f.isCrash = true) :
    StopsAt s.overflow o.validity ∨
      lastSecond < s.clock.seconds + secondsOfDays o.validity := by
  have hcalm : f.isCrash ≠ false := by rw [hcrash]; decide
  rw [certificateIn, Checked.bind_eq_error_iff] at h
  rcases h with hkey | ⟨key, -, h⟩
  · exact absurd (isCrash_of_mapError (fun _ ↦ rfl) hkey) hcalm
  rw [Checked.bind_eq_error_iff] at h
  rcases h with hissuer | ⟨issuer, -, h⟩
  · exact absurd (isCrash_of_mapM_readIssuer hissuer) hcalm
  rw [Checked.bind_eq_error_iff] at h
  rcases h with hvalidity | ⟨validity, -, h⟩
  · rw [validityIn] at hvalidity
    split at hvalidity
    · exact .inl ‹_›
    split at hvalidity
    · exact .inr ‹_›
    · exact absurd (isCrash_of_mapError (fun _ ↦ rfl) hvalidity) hcalm
  · exact absurd (isCrash_of_mapError (fun _ ↦ rfl) h) hcalm

/-! ## Certificates -/

theorem lasts_of_certificateIn (h : certificateIn o s = .ok c) :
    Lasts c.tbs.validity s.clock (secondsOfDays o.validity) := by
  simp only [certificateIn, Checked.bind_eq_ok_iff, Checked.mapError_eq_ok_iff,
    validityIn_eq_ok_iff] at h
  obtain ⟨key, -, issuer, -, validity, ⟨-, -, hvalidity⟩, hissue⟩ := h
  rw [validity_of_issue hissue]
  exact lasts_of_validityFor hvalidity

theorem not_stopsAt_of_certificateIn (h : certificateIn o s = .ok c) :
    ¬StopsAt s.overflow o.validity := by
  simp only [certificateIn, Checked.bind_eq_ok_iff, validityIn_eq_ok_iff] at h
  obtain ⟨_, -, _, -, _, ⟨hgoes, -, -⟩, -⟩ := h
  exact hgoes

theorem files_after_makeCertificate (o : CertificateOptions) (s : Session) :
    (s.after (makeCertificate o)).files = s.files := by
  have hsame := (finds_makeCertificate o).surroundings_after s
  exact congrArg (fun surroundings ↦ surroundings.files) hsame

theorem generateCertificate_of_error (h : certificateIn o s = .error f) :
    s.outcome (generateCertificate o) = .error f ∧
      (s.after (generateCertificate o)).files = s.files := by
  have hmake : s.outcome (makeCertificate o) = .error f := (outcome_makeCertificate o s).trans h
  rw [generateCertificate_eq, Session.outcome_bind, Session.after_bind, hmake]
  exact ⟨rfl, files_after_makeCertificate o s⟩

theorem generateCertificate_of_ok (h : certificateIn o s = .ok c) :
    ((∃ name, Session.place o.output = .file name) →
      s.outcome (generateCertificate o) = .ok () ∧
        (s.after (generateCertificate o)).read o.output = .ok (certificateText c)) ∧
    ((¬∃ name, Session.place o.output = .file name) →
      s.outcome (generateCertificate o) =
          .error (.writeCertificate o.output (.unwritable o.output)) ∧
        (s.after (generateCertificate o)).files = s.files) := by
  have hmake : s.outcome (makeCertificate o) = .ok c := (outcome_makeCertificate o s).trans h
  rw [generateCertificate_eq, Session.outcome_bind, Session.after_bind, hmake]
  constructor
  · rintro ⟨name, hplace⟩
    obtain ⟨hwritten, hread⟩ :=
      read_after_writeFile hplace (s.after (makeCertificate o)) (certificateText c)
    exact ⟨congrArg (Except.mapError _) hwritten, hread⟩
  · intro hplace
    obtain ⟨hrefused, hsame⟩ :=
      writeFile_of_not_file (not_exists.1 hplace) (s.after (makeCertificate o)) (certificateText c)
    exact ⟨congrArg (Except.mapError _) hrefused,
      (congrArg Session.files hsame).trans (files_after_makeCertificate o s)⟩

/-- A command either leaves all files as they were or writes what it has made. -/
theorem generateCertificate_cases (o : CertificateOptions) (s : Session) :
    (∃ f, s.outcome (generateCertificate o) = .error f ∧
      (s.after (generateCertificate o)).files = s.files ∧
      (certificateIn o s = .error f ∨ f = .writeCertificate o.output (.unwritable o.output))) ∨
    ∃ c, s.outcome (generateCertificate o) = .ok () ∧
      (s.after (generateCertificate o)).read o.output = .ok (certificateText c) ∧
      certificateIn o s = .ok c := by
  cases hmade : certificateIn o s with
  | error f =>
    obtain ⟨houtcome, hfiles⟩ := generateCertificate_of_error hmade
    exact .inl ⟨f, houtcome, hfiles, .inl rfl⟩
  | ok c =>
    obtain ⟨hwritten, hrefused⟩ := generateCertificate_of_ok hmade
    by_cases hplace : ∃ name, Session.place o.output = .file name
    · obtain ⟨houtcome, hread⟩ := hwritten hplace
      exact .inr ⟨c, houtcome, hread, rfl⟩
    · obtain ⟨houtcome, hfiles⟩ := hrefused hplace
      exact .inl ⟨_, houtcome, hfiles, .inr rfl⟩

/-- All that a command needs besides a lifetime: a key, an issuer if there is to be one, a signature
under the certificate, and a file to write to. -/
structure Ready (s : Session) (o : CertificateOptions) (key : Rsa.PrivateKey)
    (issuer : Option Issuer) : Prop where
  readsKey : s.outcome (readKey o.key o.passphrase) = .ok key
  readsIssuer : s.outcome (o.issuer.mapM readIssuer) = .ok issuer
  signs : ∀ validity, validityFor s.clock (secondsOfDays o.validity) = .ok validity →
    ∃ c, issue key issuer (serialIn s) validity o.subject o.isCa = .ok c
  writes : ∃ name, Session.place o.output = .file name

/-- If all else is ready, what becomes of the certificate is what becomes of its validity. -/
theorem Ready.certificateIn_eq (h : Ready s o key issuer) :
    certificateIn o s = validityIn s.overflow o.validity s.clock >>= fun validity ↦
      (issue key issuer (serialIn s) validity o.subject o.isCa).mapError .generateCertificate := by
  rw [certificateIn, h.readsKey, h.readsIssuer, Checked.mapError_ok, Checked.ok_bind,
    Checked.ok_bind]

theorem Ready.certificateIn_of_isOnCalendar (h : Ready s o key issuer)
    (hgoes : ¬StopsAt s.overflow o.validity)
    (hend : (s.clock.later (secondsOfDays o.validity)).IsOnCalendar) :
    ∃ c, certificateIn o s = .ok c := by
  obtain ⟨validity, hvalidity⟩ := exists_validityFor_iff.2 hend
  have hlast : s.clock.seconds + secondsOfDays o.validity ≤ lastSecond := by
    rw [← Instant.seconds_later]
    exact hend.seconds_le.trans (by decide)
  obtain ⟨c, hc⟩ := h.signs validity hvalidity
  refine ⟨c, ?_⟩
  rw [h.certificateIn_eq, validityIn_eq_ok_iff.2 ⟨hgoes, hlast, hvalidity⟩, Checked.ok_bind, hc,
    Checked.mapError_ok]

theorem Ready.certificateIn_of_not_isOnCalendar (h : Ready s o key issuer)
    (hgoes : ¬StopsAt s.overflow o.validity)
    (hend : ¬(s.clock.later (secondsOfDays o.validity)).IsOnCalendar)
    (hlast : s.clock.seconds + secondsOfDays o.validity ≤ lastSecond) :
    certificateIn o s = .error (.validity .certificateFields) := by
  rw [h.certificateIn_eq, validityIn, if_neg hgoes, if_neg (Nat.not_lt.2 hlast),
    validityFor_of_not_isOnCalendar hend]
  rfl

theorem Ready.certificateIn_of_lt (h : Ready s o key issuer)
    (hgoes : ¬StopsAt s.overflow o.validity)
    (hlast : lastSecond < s.clock.seconds + secondsOfDays o.validity) :
    certificateIn o s = .error .clockRange := by
  rw [h.certificateIn_eq, validityIn, if_neg hgoes, if_pos hlast]
  rfl

theorem Ready.certificateIn_of_stopsAt (h : Ready s o key issuer)
    (hstops : StopsAt s.overflow o.validity) : certificateIn o s = .error .productRange := by
  rw [h.certificateIn_eq, validityIn, if_pos hstops]
  rfl

/-- **How long new certificates last.** A command that fails leaves all files as they were. It
breaks off only if the seconds of the days do not fit into 64 bits and the build checks that, or if
the clock ends before the certificate does. A command that succeeds has written a certificate that
begins now and lasts for the seconds of the days that were asked for, as far as 64 bits hold them;
in a build with overflow checks they hold all. If all else is ready, the days alone decide how the
command ends. A build with overflow checks breaks off if their seconds do not fit. Otherwise the
command succeeds where the end of the certificate is on the calendar, fails where it is behind that,
and breaks off where the clock does not go. -/
theorem generateCertificate_lifetime (haction : i.action = .generateCertificate o) :
    (∀ f, s.outcome (run i) = .error f → (s.after (run i)).files = s.files ∧
      (f.isCrash = true → (s.overflow = .breaksOff ∧ 2 ^ 64 ≤ o.validity * 86400) ∨
        lastSecond < s.clock.seconds + secondsOfDays o.validity)) ∧
    (s.outcome (run i) = .ok () → ∃ c : Certificate,
      (s.after (run i)).read o.output = .ok (certificateText c) ∧
      Lasts c.tbs.validity s.clock (secondsOfDays o.validity) ∧
      (c.tbs.validity.notAfter.toUnix = c.tbs.validity.notBefore.toUnix + o.validity * 86400 ↔
        o.validity * 86400 < 2 ^ 64) ∧
      (s.overflow = .breaksOff → o.validity * 86400 < 2 ^ 64)) ∧
    ∀ key issuer, Ready s o key issuer →
      (s.overflow = .breaksOff → 2 ^ 64 ≤ o.validity * 86400 →
        s.outcome (run i) = .error .productRange) ∧
      (s.overflow = .wraps ∨ o.validity * 86400 < 2 ^ 64 →
        ((s.clock.later (secondsOfDays o.validity)).IsOnCalendar → s.outcome (run i) = .ok ()) ∧
        (¬(s.clock.later (secondsOfDays o.validity)).IsOnCalendar →
          s.clock.seconds + secondsOfDays o.validity ≤ lastSecond →
          s.outcome (run i) = .error (.validity .certificateFields)) ∧
        (lastSecond < s.clock.seconds + secondsOfDays o.validity →
          s.outcome (run i) = .error .clockRange)) := by
  have hrun : (run i : ExceptT Failure (StateM Session) Unit) = generateCertificate o := by
    rw [run, haction]
  rw [hrun]
  refine ⟨fun f hf ↦ ?_, fun hok ↦ ?_, fun key issuer hready ↦ ⟨?_, fun hgoes ↦ ?_⟩⟩
  · rcases generateCertificate_cases o s with ⟨f', hfails, hfiles, hcause⟩ | ⟨c, hsucceeds, -, -⟩
    · obtain rfl : f' = f := Except.error.inj (hfails.symm.trans hf)
      refine ⟨hfiles, fun hcrash ↦ ?_⟩
      rcases hcause with hmade | rfl
      · exact stopsAt_or_lt_of_isCrash hmade hcrash
      · cases hcrash
    · cases hsucceeds.symm.trans hf
  · rcases generateCertificate_cases o s with ⟨f, hfails, -, -⟩ | ⟨c, -, hread, hmade⟩
    · cases hfails.symm.trans hok
    · have hlasts := lasts_of_certificateIn hmade
      refine ⟨c, hread, hlasts, ?_, fun hchecks ↦ ?_⟩
      · rw [hlasts.ends, Nat.add_left_cancel_iff, secondsOfDays_eq_iff]
      · exact Nat.not_le.1 fun hmany ↦ not_stopsAt_of_certificateIn hmade ⟨hchecks, hmany⟩
  · intro hchecks hmany
    exact (generateCertificate_of_error (hready.certificateIn_of_stopsAt ⟨hchecks, hmany⟩)).1
  · -- the product is formed, so where its sum with the clock falls decides
    have hgoes : ¬StopsAt s.overflow o.validity := not_stopsAt_iff.2 hgoes
    refine ⟨fun hend ↦ ?_, fun hend hlast ↦ ?_, fun hlast ↦ ?_⟩
    · obtain ⟨c, hmade⟩ := hready.certificateIn_of_isOnCalendar hgoes hend
      exact ((generateCertificate_of_ok hmade).1 hready.writes).1
    · have hmade := hready.certificateIn_of_not_isOnCalendar hgoes hend hlast
      exact (generateCertificate_of_error hmade).1
    · exact (generateCertificate_of_error (hready.certificateIn_of_lt hgoes hlast)).1

/-! ## A root -/

/-- A root for the key in `k.pem` that lasts some days. -/
def rootOptions (days : Nat) : CertificateOptions where
  key := "k.pem"
  passphrase := .absent
  issuer := none
  output := "root.pem"
  subject := "CN=R"
  validity := days
  isCa := true

def rootInvocation (days : Nat) : Invocation where
  filter := ⟨.info, .short⟩
  config := none
  action := .generateCertificate (rootOptions days)

theorem place_root : ∃ name, Session.place "root.pem" = .file name :=
  ⟨_, Session.place_of_isFileName (by decide)⟩

theorem ready_rootOptions (hread : s.read "k.pem" = .ok (Bytes.ofString (plainText Rsa.sampleKey)))
    (days : Nat) (hsigns : ∀ validity, validityFor s.clock (secondsOfDays days) = .ok validity →
      ∃ c, issue Rsa.sampleKey none (serialIn s) validity "CN=R" true = .ok c) :
    Ready s (rootOptions days) Rsa.sampleKey none where
  readsKey := readKey_of_not_infix hread ofPem?_sampleKey not_infix_sampleKey .absent
  readsIssuer := rfl
  signs := hsigns
  writes := place_root

/-- The key signs a root of some validity if it signs that of the validity that there is. -/
theorem signs_of_isOk {seconds : Nat}
    (h : (validityFor ⟨0⟩ seconds >>= fun validity ↦
      issue Rsa.sampleKey none 0 validity "CN=R" true).isOk = true) (validity : Validity)
    (hvalidity : validityFor ⟨0⟩ seconds = .ok validity) :
    ∃ c, issue Rsa.sampleKey none 0 validity "CN=R" true = .ok c := by
  rw [hvalidity, Checked.ok_bind] at h
  exact Checked.isOk_iff.1 h

/-- A session with the sample key in `k.pem`, in a given build. -/
def sessionOf (overflow : Overflow) : Session :=
  { sessionWith (plainText Rsa.sampleKey) with overflow }

theorem ready_sessionOf (overflow : Overflow) (filter : Option Log.Filter) (days : Nat)
    (hsigns : ∀ validity, validityFor ⟨0⟩ (secondsOfDays days) = .ok validity →
      ∃ c, issue Rsa.sampleKey none 0 validity "CN=R" true = .ok c) :
    Ready { sessionOf overflow with filter } (rootOptions days) Rsa.sampleKey none := by
  have hread : Session.read { sessionOf overflow with filter } "k.pem" =
      .ok (Bytes.ofString (plainText Rsa.sampleKey)) := Session.read_of_lookup (by decide) rfl
  have hzero : Bytes.toNat (List.replicate 8 0) = 0 := by decide
  have hserial : serialIn { sessionOf overflow with filter } = 0 := hzero
  refine ready_rootOptions hread days fun validity hvalidity ↦ ?_
  rw [hserial]
  exact hsigns validity hvalidity

theorem ready_sessionOf_tooMany (overflow : Overflow) (filter : Option Log.Filter) :
    Ready { sessionOf overflow with filter } (rootOptions (2 ^ 57)) Rsa.sampleKey none :=
  ready_sessionOf overflow filter (2 ^ 57) (signs_of_isOk (by decide +kernel))

/-- In both builds, a root for thirty days is made, and it lasts that long. For days whose seconds
do not fit, the build with overflow checks breaks off. -/
theorem generateCertificate_lifetime_root :
    (∀ overflow, Ready (sessionOf overflow) (rootOptions 30) Rsa.sampleKey none ∧
      (sessionOf overflow).outcome (run (rootInvocation 30)) = .ok () ∧
      ∃ c : Certificate,
        ((sessionOf overflow).after (run (rootInvocation 30))).read "root.pem" =
          .ok (certificateText c) ∧
        c.tbs.validity.notAfter.toUnix = c.tbs.validity.notBefore.toUnix + 30 * 86400) ∧
    Ready (sessionOf .breaksOff) (rootOptions (2 ^ 57)) Rsa.sampleKey none ∧
    (sessionOf .breaksOff).outcome (run (rootInvocation (2 ^ 57))) = .error .productRange := by
  refine ⟨fun overflow ↦ ?_, ?_⟩
  · have hready : Ready (sessionOf overflow) (rootOptions 30) Rsa.sampleKey none :=
      ready_sessionOf overflow none 30 (signs_of_isOk (by decide +kernel))
    obtain ⟨-, hwritten, hall⟩ := generateCertificate_lifetime (s := sessionOf overflow)
      (i := rootInvocation 30) (o := rootOptions 30) rfl
    have hend : (Instant.later ⟨0⟩ (secondsOfDays 30)).IsOnCalendar := by decide +kernel
    have hok : (sessionOf overflow).outcome (run (rootInvocation 30)) = .ok () :=
      ((hall _ _ hready).2 (.inr (by decide))).1 hend
    obtain ⟨c, hread, -, hexact, -⟩ := hwritten hok
    exact ⟨hready, hok, c, hread, hexact.2 (by decide)⟩
  · have hready : Ready (sessionOf .breaksOff) (rootOptions (2 ^ 57)) Rsa.sampleKey none :=
      ready_sessionOf_tooMany .breaksOff none
    obtain ⟨-, -, hall⟩ := generateCertificate_lifetime (s := sessionOf .breaksOff)
      (i := rootInvocation (2 ^ 57)) (o := rootOptions (2 ^ 57)) rfl
    exact ⟨hready, (hall _ _ hready).1 rfl (by decide)⟩

/-- How the program ends with what its command has ended with. -/
def endingOf : Except Failure Unit → Ending
  | .ok () => .success
  | .error f => if f.isCrash then .crash else .failure

/-- How the program goes on behind its command. -/
def conclude : Except Failure Unit → StateM Session Ending
  | .ok () => pure .success
  | .error f =>
    if f.isCrash then do
      Host.report f.message
      pure .crash
    else do
      narrate fun _ ↦ [⟨.error, f.report⟩]
      pure .failure

theorem ending_conclude (result : Except Failure Unit) (s : Session) :
    ((conclude result).run s).1 = endingOf result := by
  cases result with
  | ok _ => rfl
  | error f =>
    cases hcrash : f.isCrash with
    | true =>
      simp only [conclude, endingOf, hcrash, if_true]
      rfl
    | false =>
      simp only [conclude, endingOf, hcrash, Bool.false_eq_true, if_false]
      rfl

theorem ending_carryOut (i : Invocation) (s : Session) :
    ((carryOut i : StateM Session Ending).run s).1 =
      endingOf (({ s with filter := some i.filter } : Session).outcome (run i)) :=
  ending_conclude _ _

/-- A command that makes no certificate ends the program as its failure says. -/
theorem ending_of_certificateIn (haction : i.action = .generateCertificate o)
    (h : certificateIn o { s with filter := some i.filter } = .error f) :
    ((carryOut i : StateM Session Ending).run s).1 = endingOf (.error f) := by
  have hrun : (run i : ExceptT Failure (StateM Session) Unit) = generateCertificate o := by
    rw [run, haction]
  rw [ending_carryOut, hrun, (generateCertificate_of_error h).1]

/-- A number of days breaks the program off in every build, although its seconds fit into 64 bits. A
number of days whose seconds do not fit breaks it off in a build with overflow checks, and in one
without them gives a certificate that ends as it begins. -/
theorem lifetime_of_many_days :
    200000000000000 * 86400 < 2 ^ 64 ∧
    (∀ overflow, ((carryOut (rootInvocation 200000000000000) : StateM Session Ending).run
      (sessionOf overflow)).1 = .crash) ∧
    ((carryOut (rootInvocation (2 ^ 57)) : StateM Session Ending).run
      (sessionOf .breaksOff)).1 = .crash ∧
    (sessionOf .wraps).outcome (run (rootInvocation (2 ^ 57))) = .ok () ∧
    ∃ c : Certificate,
      ((sessionOf .wraps).after (run (rootInvocation (2 ^ 57)))).read "root.pem" =
        .ok (certificateText c) ∧
      c.tbs.validity.notAfter.toUnix = c.tbs.validity.notBefore.toUnix := by
  refine ⟨by decide, fun overflow ↦ ?_, ?_, ?_⟩
  · have hlate : ¬(Instant.later ⟨0⟩ (secondsOfDays 200000000000000)).IsOnCalendar := by
      decide +kernel
    have hready := ready_sessionOf overflow (some (rootInvocation 200000000000000).filter)
      200000000000000 fun validity hvalidity ↦
        absurd (exists_validityFor_iff.1 ⟨validity, hvalidity⟩) hlate
    have hgoes : ¬StopsAt overflow 200000000000000 := not_stopsAt_iff.2 (.inr (by decide))
    have hlast : lastSecond < Instant.seconds ⟨0⟩ + secondsOfDays 200000000000000 := by
      decide +kernel
    exact ending_of_certificateIn rfl (hready.certificateIn_of_lt hgoes hlast)
  · have hready := ready_sessionOf_tooMany .breaksOff (some (rootInvocation (2 ^ 57)).filter)
    have hstops : StopsAt .breaksOff (2 ^ 57) := by decide
    exact ending_of_certificateIn rfl (hready.certificateIn_of_stopsAt hstops)
  · have hready := ready_sessionOf_tooMany .wraps none
    have hgoes : ¬StopsAt .wraps (2 ^ 57) := not_stopsAt_iff.2 (.inl rfl)
    obtain ⟨c, hmade⟩ := hready.certificateIn_of_isOnCalendar hgoes (by decide +kernel)
    obtain ⟨hok, hread⟩ := (generateCertificate_of_ok hmade).1 hready.writes
    have hnothing : secondsOfDays (2 ^ 57) = 0 := by decide +kernel
    have hends : c.tbs.validity.notAfter.toUnix =
        c.tbs.validity.notBefore.toUnix + secondsOfDays (2 ^ 57) :=
      (lasts_of_certificateIn hmade).ends
    rw [hnothing, Nat.add_zero] at hends
    exact ⟨hok, c, hread, hends⟩

end SignedFirmware.Command
