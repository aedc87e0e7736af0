import SignedFirmware.Trust.Issuer

/-!
# Chains of trust

A certificate is trusted if a chain of issuers leads from it to a certificate in the store.
`Chain.walk` looks for one: at each certificate it checks what has to hold there, stops if that
certificate is an anchor, and else goes on to the first certificate whose name and key fit. The
store comes before the certificates that are not trusted. The walk does not turn back, so it settles
for one issuer even if another would have led further.

A certificate is used only once. A walk carries the chain that it has built, and no certificate that
equals one of them is a candidate, so the candidates become fewer and the walk ends.
-/

namespace SignedFirmware.Trust

open X509 (Certificate)
open Blob (Error)

namespace Chain

/-- What a walk needs to know besides the certificates. -/
structure Setting where
  store : Store
  policy : Policy
  now : Instant

/-! ## The issuer of a certificate -/

/-- The result of looking for an issuer: the candidates whose key does not fit, with what was wrong
about them, and then the one whose key does, if there is one. -/
structure Search where
  rejected : List (Certificate × Error)
  issuer : Option Certificate

/-- Tries candidates in order. -/
def search (cert : Certificate) : List Certificate → Search
  | [] => ⟨[], none⟩
  | candidate :: rest =>
    match checkSignature cert candidate with
    | .ok () => ⟨[], some candidate⟩
    | .error e =>
      let s := search cert rest
      ⟨(candidate, e) :: s.rejected, s.issuer⟩

/-- Why no issuer was found: what was wrong about the last candidate, if there were any. -/
def Search.failure (cert : Certificate) (s : Search) : Error :=
  match s.rejected.getLast? with
  | some (_, e) => e
  | none => .issuerNotFound cert.subject

theorem mem_of_search_issuer {cert issuer : Certificate} {candidates : List Certificate}
    (h : (search cert candidates).issuer = some issuer) : issuer ∈ candidates := by
  induction candidates with
  | nil => simp [search] at h
  | cons candidate rest ih =>
    unfold search at h
    split at h
    · simp_all
    · exact List.mem_cons_of_mem _ (ih h)

/-- The certificates of a pool that a chain does not hold yet. -/
def unused (chain pool : List Certificate) : List Certificate :=
  pool.filter fun c ↦ !chain.contains c

/-- With one of the unused certificates at its end, a chain leaves fewer of them. -/
theorem length_unused_lt {cert : Certificate} {chain pool : List Certificate}
    (h : cert ∈ unused chain pool) :
    (unused (chain ++ [cert]) pool).length < (unused chain pool).length := by
  have hfilter : unused (chain ++ [cert]) pool = (unused chain pool).filter (· != cert) := by
    rw [unused, unused, List.filter_filter]
    refine List.filter_congr fun c _ ↦ ?_
    by_cases hc : c = cert <;> simp [hc]
  rw [hfilter]
  exact List.length_filter_lt_length_iff_exists.2 ⟨cert, h, by simp⟩

/-- The search for an issuer of the last certificate of a chain, among those of the right name. -/
def searchIssuer (chain pool : List Certificate) (cert : Certificate) : Search :=
  search cert ((unused chain pool).filter fun c ↦ decide (c.subject = cert.issuer))

theorem mem_of_searchIssuer {cert issuer : Certificate} {chain pool : List Certificate}
    (h : (searchIssuer chain pool cert).issuer = some issuer) : issuer ∈ unused chain pool :=
  (List.mem_filter.1 (mem_of_search_issuer h)).1

/-! ## The walk -/

/-- Checks what has to hold of every certificate of a chain. -/
def checkMember (s : Setting) (cert : Certificate) : Except Error Unit := do
  checkExtensions cert
  if !s.policy.ignoreTime then checkTime cert s.now

/-- Whether a chain may end at a certificate. -/
def isAnchor (s : Setting) (cert : Certificate) : Bool :=
  s.store.contains cert && (s.policy.partialChain || decide cert.IsSelfIssued)

/-- Checks whether a walk may leave a certificate at the end of a chain of the given size. -/
def checkDeparture (s : Setting) (size : Nat) (cert : Certificate) : Except Error Unit :=
  if cert.IsSelfIssued then .error (.untrustedRoot cert.subject)
  else if s.policy.maxDepth ≤ size then .error (.chainTooDeep s.policy.maxDepth)
  else .ok ()

/-- The number of intermediates between the leaf of a chain and whoever issued its last certificate.
Self-issued ones do not count. -/
def intermediates (chain : List Certificate) : Nat :=
  (chain.drop 1).countP fun c ↦ !decide c.IsSelfIssued

/-- A walk: the certificates that it came to, what it found at each of those it tried to leave, and
how it ended. -/
structure Walk where
  path : List Certificate
  searches : List Search
  outcome : Except Error Unit

/-- A walk that ends where it is. -/
def Walk.stop (cert : Certificate) (searches : List Search) (outcome : Except Error Unit) : Walk :=
  ⟨[cert], searches, outcome⟩

/-- A walk with one more step in front. -/
def Walk.step (cert : Certificate) (s : Search) (w : Walk) : Walk :=
  ⟨cert :: w.path, s :: w.searches, w.outcome⟩

/-- Walks on from a certificate, with the ones it came by before and a pool to find issuers in. -/
def walk (s : Setting) (pool before : List Certificate) (cert : Certificate) : Walk :=
  match checkMember s cert with
  | .error e => .stop cert [] (.error e)
  | .ok () =>
    if isAnchor s cert then .stop cert [] (.ok ())
    else
      let chain := before ++ [cert]
      match checkDeparture s chain.length cert with
      | .error e => .stop cert [] (.error e)
      | .ok () =>
        let found := searchIssuer chain pool cert
        match _h : found.issuer with
        | none => .stop cert [found] (.error (found.failure cert))
        | some issuer =>
          -- whether the issuer may issue does not matter to the search: no other one is tried
          match checkIssuer issuer (intermediates chain) with
          | .error e => .stop cert [found] (.error e)
          | .ok () => .step cert found (walk s pool chain issuer)
termination_by (unused (before ++ [cert]) pool).length
decreasing_by exact length_unused_lt (mem_of_searchIssuer _h)

/-- The walk from a leaf, with some certificates that are not trusted at hand. -/
def walkFrom (s : Setting) (leaf : Certificate) (untrusted : List Certificate) : Walk :=
  walk s (s.store.certs ++ untrusted) [] leaf

/-- Checks that a leaf has the right purpose and a chain that ends in the store. The result is the
chain. -/
def verify (s : Setting) (leaf : Certificate) (untrusted : List Certificate) :
    Except Error (List Certificate) := do
  checkPurpose leaf s.policy.purpose
  let w := walkFrom s leaf untrusted
  w.outcome
  pure w.path

end Chain

end SignedFirmware.Trust
