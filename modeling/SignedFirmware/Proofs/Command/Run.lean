import SignedFirmware.Command.Run
import SignedFirmware.Proofs.Session

/-!
# Steps of commands

What the steps that commands begin with find in a session: the configuration, an input file, a
certificate. None of them changes anything but the lines that were written.
-/

namespace SignedFirmware

variable {ε α : Type}

/-! ## Failures -/

namespace Finds

variable {p : ExceptT ε (StateM Session) α} {f : Session → Except ε α}

theorem orFail (reason : ε → Command.Failure) (result : Except ε α) :
    Finds (Command.orFail reason result : ExceptT Command.Failure (StateM Session) α) fun _ ↦
      result.mapError reason :=
  settled _

theorem tryStep (reason : ε → Command.Failure) (hp : Finds p f) :
    Finds (Command.tryStep reason p) fun s ↦ (f s).mapError reason := by
  constructor
  · intro s
    exact congrArg (Except.mapError reason) (hp.outcome_eq s)
  · exact hp.surroundings_after

end Finds

/-! ## Files -/

/-- The configuration in what was read from a file. -/
def Config.inFile (path : Option String) :
    Except ReadFailure Bytes → Except Config.Error Config
  | .error .missing =>
    if path.isNone then .ok {} else .error (.read (path.getD defaultPath))
  | .error .unreadable => .error (.read (path.getD defaultPath))
  | .ok data =>
    match Bytes.toText? data with
    | none => .error (.read (path.getD defaultPath))
    | some text => parse (path.getD defaultPath) text

theorem Config.finds_load (path : Option String) :
    Finds (Config.load path : ExceptT ε (StateM Session) (Except Config.Error Config)) fun s ↦
      .ok (inFile path (s.read (path.getD defaultPath))) := by
  refine (Finds.read _).bind (g := fun result _ ↦ Except.ok (inFile path result)) fun result ↦ ?_
  fun_cases inFile path result with
  | case1 hpath =>
    rw [if_pos hpath]
    exact .narrated _ (.settled (.ok _))
  | case2 hpath =>
    rw [if_neg hpath]
    exact .settled (.ok _)
  | case3 => exact .settled (.ok _)
  | case4 data htext =>
    simp only [htext]
    exact .settled (.ok _)
  | case5 data text htext =>
    simp only [htext]
    exact .narrated _ (.settled (.ok _))

/-- The certificate in what was read from a file. -/
def Credential.certificateInFile (path : String) :
    Except ReadFailure Bytes → Except Credential.Error X509.Certificate
  | .error _ => .error (.unreadable path)
  | .ok data => parseCertificate data

theorem Credential.finds_readCertificate (path : String) :
    Finds (Credential.readCertificate path : ExceptT Error (StateM Session) _) fun s ↦
      certificateInFile path (s.read path) := by
  refine (Finds.read path).bind (g := fun result _ ↦ certificateInFile path result) fun result ↦ ?_
  match result with
  | .error _ => exact .settled (.error _)
  | .ok data => exact .settled _

namespace Command

theorem finds_status (text : String) :
    Finds (status text : ExceptT Failure (StateM Session) Unit) fun _ ↦ .ok () :=
  Finds.print _

theorem finds_loadConfig (path : Option String) :
    Finds (loadConfig path : ExceptT Failure (StateM Session) Config) fun s ↦
      (Config.inFile path (s.read (path.getD Config.defaultPath))).mapError .config :=
  (Config.finds_load path).bind fun result ↦ Finds.orFail .config result

theorem finds_readCertificate (path : String) :
    Finds (readCertificate path : ExceptT Failure (StateM Session) X509.Certificate) fun s ↦
      (Credential.certificateInFile path (s.read path)).mapError (.certificate path) :=
  (Credential.finds_readCertificate path).tryStep (.certificate path)

/-- Without a file, all settings have their defaults. -/
theorem loadConfig_of_missing {s : Session} (h : s.read Config.defaultPath = .error .missing) :
    s.outcome (loadConfig none) = .ok {} := by
  rw [(finds_loadConfig none).outcome_eq]
  change (Config.inFile none (s.read Config.defaultPath)).mapError _ = _
  rw [h]
  rfl

/-- The bytes of an input file, from its size and what was read from it. -/
def inputInFile (path : String) (limit : Nat) (size : Option Nat)
    (result : Except ReadFailure Bytes) : Except Failure Bytes :=
  match size with
  | none => .error (.statInput path)
  | some size =>
    if limit < size then .error (.inputLimit limit path)
    else result.mapError fun _ ↦ .readInput path

theorem finds_readInput (path : String) (limit : Nat) :
    Finds (readInput path limit : ExceptT Failure (StateM Session) Bytes) fun s ↦
      inputInFile path limit (s.size path) (s.read path) := by
  refine (Finds.size path).bind (g := fun size s ↦ inputInFile path limit size (s.read path))
    fun size ↦ ?_
  cases size with
  | none => exact .settled (.error _)
  | some size =>
    simp only [inputInFile]
    by_cases hlimit : limit < size
    · simp only [if_pos hlimit]
      exact .settled (.error _)
    · simp only [if_neg hlimit]
      refine (Finds.read path).bind
        (g := fun result _ ↦ result.mapError fun _ ↦ Failure.readInput path) fun result ↦ ?_
      cases result with
      | error _ => exact .settled (.error _)
      | ok data => exact .settled (.ok data)

end Command

end SignedFirmware
