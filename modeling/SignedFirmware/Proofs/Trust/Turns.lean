import Mathlib.Data.List.Nodup
import Mathlib.Data.List.Perm.Subperm
import Mathlib.Logic.Function.Iterate
import SignedFirmware.Proofs.Trust.Order

/-!
# Every walk ends

`Chain.walk` is a recursion, so it has a result by its form. Here a walk is taken as it goes: a
stage with the certificates so far, and a turn that is taken at each stage that is not the last. A
turn by itself says nothing about the end. The pool stays as it is, it may hold a certificate
several times and certificates that sign each other in a circle, and a policy may allow any depth.

What a turn keeps is that the certificates behind the leaf come from the pool and are different from
each other and from the leaf (`Stage.Sound.next`). As each turn but the last adds one, there is no
room for more turns than there are certificates, the leaf included (`walk_ends`). A chain that is
too deep for a policy is one of these, so its depth has the same bound.
-/

namespace SignedFirmware.Trust.Chain

open X509 (Certificate)
open Blob (Error)

variable {s : Setting} {pool before : List Certificate} {cert issuer leaf : Certificate}
  {depth : Nat}

/-! ## Failures that have nothing to do with depth -/

/-- A check does not say that a chain is too deep. -/
def NeverTooDeep {α : Type} (x : Except Error α) : Prop := ∀ depth, x ≠ .error (.chainTooDeep depth)

namespace NeverTooDeep

variable {α β : Type}

theorem ok (a : α) : NeverTooDeep (.ok a : Except Error α) := fun _ h ↦ nomatch h

theorem error {e : Error} (he : ∀ depth, e ≠ .chainTooDeep depth) :
    NeverTooDeep (.error e : Except Error α) :=
  fun depth h ↦ he depth (Except.error.inj h)

theorem bind {x : Except Error α} {f : α → Except Error β} (hx : NeverTooDeep x)
    (hf : ∀ a, NeverTooDeep (f a)) : NeverTooDeep (x >>= f) := by
  intro depth h
  rcases Checked.bind_eq_error_iff.1 h with h | ⟨a, -, h⟩
  · exact hx depth h
  · exact hf a depth h

theorem mapError {ε : Type} {wrap : ε → Error} (hwrap : ∀ e depth, wrap e ≠ .chainTooDeep depth)
    (x : Except ε α) : NeverTooDeep (x.mapError wrap) := by
  cases x with
  | ok a => exact ok a
  | error e => exact error (hwrap e)

theorem extension (c : Certificate) (id : Oid) (decode : Der.Decoder α) :
    NeverTooDeep (Trust.extension c id decode) := by
  fun_cases Trust.extension c id decode with
  | case1 => exact ok _
  | case2 => exact ok _
  | case3 => exact error (by simp)

theorem checkPurpose (c : Certificate) (purpose : Purpose) :
    NeverTooDeep (Trust.checkPurpose c purpose) := by
  rw [Trust.checkPurpose]
  split
  · exact ok ()
  · refine (extension c _ _).bind fun purposes ↦ ?_
    cases purposes with
    | none => exact ok ()
    | some purposes =>
      dsimp only
      split
      · exact ok ()
      · exact error (by simp)

theorem checkExtensions (c : Certificate) : NeverTooDeep (Trust.checkExtensions c) := by
  rw [Trust.checkExtensions]
  split
  · exact ok ()
  · exact error (by simp)

theorem checkTime (c : Certificate) (now : Instant) : NeverTooDeep (Trust.checkTime c now) := by
  fun_cases Trust.checkTime c now with
  | case1 => exact error (by simp)
  | case2 => exact error (by simp)
  | case3 => exact ok ()

theorem checkMember (s : Setting) (cert : Certificate) :
    NeverTooDeep (Chain.checkMember s cert) := by
  refine (checkExtensions cert).bind fun _ ↦ ?_
  split
  · exact checkTime cert s.now
  · exact ok ()

theorem checkKeyUsage (issuer : Certificate) (usage : Option X509.KeyUsage) :
    NeverTooDeep (Trust.checkKeyUsage issuer usage) := by
  fun_cases Trust.checkKeyUsage issuer usage with
  | case1 => exact ok ()
  | case2 => exact ok ()
  | case3 => exact error (by simp)

theorem checkConstraints (issuer : Certificate) (below : Nat)
    (constraints : Option X509.BasicConstraints) :
    NeverTooDeep (Trust.checkConstraints issuer below constraints) := by
  fun_cases Trust.checkConstraints issuer below constraints with
  | case1 => exact ok ()
  | case2 => exact error (by simp)
  | case3 => exact ok ()
  | case4 => exact ok ()
  | case5 => exact error (by simp)
  | case6 => exact error (by simp)

theorem checkIssuer (issuer : Certificate) (below : Nat) :
    NeverTooDeep (Trust.checkIssuer issuer below) :=
  (extension issuer _ _).bind fun usage ↦ (checkKeyUsage issuer usage).bind fun _ ↦
    (extension issuer _ _).bind fun constraints ↦ checkConstraints issuer below constraints

theorem encoded (part : String) (e : Der.Element) : NeverTooDeep (Blob.encoded part e) := by
  rw [Blob.encoded]
  split
  · exact ok _
  · exact error (by simp)

theorem checkSignature (cert issuer : Certificate) :
    NeverTooDeep (Trust.checkSignature cert issuer) := by
  rw [Trust.checkSignature]
  split
  · exact error (by simp)
  · refine (encoded _ _).bind fun bytes ↦ ?_
    split
    · exact error (by simp)
    · exact (mapError (by simp) _).bind fun key ↦ mapError (by simp) _

end NeverTooDeep

theorem checkSignature_of_rejected {candidates : List Certificate} {candidate : Certificate}
    {e : Error} (h : (candidate, e) ∈ (search cert candidates).rejected) :
    checkSignature cert candidate = .error e := by
  induction candidates with
  | nil => simp [search] at h
  | cons first rest ih =>
    rw [search] at h
    split at h
    · simp at h
    · rename_i e' hfirst
      rcases List.mem_cons.1 h with heq | h
      · obtain ⟨rfl, rfl⟩ := Prod.mk.inj heq
        exact hfirst
      · exact ih h

/-- A search that found nothing fails as the last candidate did, or for want of candidates. -/
theorem failure_ne_chainTooDeep (cert : Certificate) (candidates : List Certificate) (depth : Nat) :
    (search cert candidates).failure cert ≠ .chainTooDeep depth := by
  intro h
  rw [Search.failure] at h
  split at h
  · rename_i candidate e hlast
    subst h
    exact NeverTooDeep.checkSignature cert candidate depth
      (checkSignature_of_rejected (List.mem_of_getLast? hlast))
  · cases h

/-! ## Turns -/

/-- One turn of a walk: a failure, nothing more to do, or the issuer to go on to. -/
def turn (s : Setting) (pool before : List Certificate) (cert : Certificate) :
    Except Error (Option Certificate) := do
  checkMember s cert
  if isAnchor s cert then pure none
  else
    let chain := before ++ [cert]
    checkDeparture s chain.length cert
    let found := searchIssuer chain pool cert
    match found.issuer with
    | none => throw (found.failure cert)
    | some issuer =>
      checkIssuer issuer (intermediates chain)
      pure (some issuer)

theorem checkDeparture_eq_chainTooDeep {size : Nat}
    (h : checkDeparture s size cert = .error (.chainTooDeep depth)) : depth ≤ size := by
  rw [checkDeparture] at h
  split at h
  · cases h
  · split at h
    · rename_i hdeep
      cases h
      exact hdeep
    · cases h

/-- Only the depth of the policy makes a turn say that the chain is too deep. -/
theorem depth_le_of_turn (h : turn s pool before cert = .error (.chainTooDeep depth)) :
    depth ≤ before.length + 1 := by
  rw [turn] at h
  rcases Checked.bind_eq_error_iff.1 h with h | ⟨_, -, h⟩
  · exact absurd h (NeverTooDeep.checkMember s cert depth)
  split at h
  · cases h
  rcases Checked.bind_eq_error_iff.1 h with h | ⟨_, -, h⟩
  · have hle := checkDeparture_eq_chainTooDeep h
    rwa [List.length_append] at hle
  dsimp only at h
  split at h
  · exact absurd (Except.error.inj h) (failure_ne_chainTooDeep cert _ depth)
  · rename_i issuer _
    exact absurd h ((NeverTooDeep.checkIssuer issuer _).bind (fun _ ↦ .ok _) depth)

/-- An issuer that a turn goes on to is in the pool and not in the chain yet. -/
theorem new_of_turn (h : turn s pool before cert = .ok (some issuer)) :
    issuer ∈ pool ∧ issuer ∉ before ++ [cert] := by
  rw [turn] at h
  obtain ⟨_, -, h⟩ := Checked.bind_eq_ok_iff.1 h
  split at h
  · cases h
  obtain ⟨_, -, h⟩ := Checked.bind_eq_ok_iff.1 h
  dsimp only at h
  split at h
  · cases h
  · rename_i found hfound
    obtain ⟨_, -, h⟩ := Checked.bind_eq_ok_iff.1 h
    obtain rfl : found = issuer := Option.some.inj (Except.ok.inj h)
    exact ⟨(found_issuer hfound).1, (found_issuer hfound).2.1⟩

/-- What a turn does once it may leave the certificate that it is at. -/
theorem turn_of_departure (hmember : checkMember s cert = .ok ())
    (hanchor : ¬isAnchor s cert = true)
    (hdeparture : checkDeparture s (before ++ [cert]).length cert = .ok ()) :
    turn s pool before cert =
      match (searchIssuer (before ++ [cert]) pool cert).issuer with
      | none => .error ((searchIssuer (before ++ [cert]) pool cert).failure cert)
      | some issuer =>
        (checkIssuer issuer (intermediates (before ++ [cert]))).map fun _ ↦ some issuer := by
  rw [turn, hmember]
  refine (if_neg hanchor).trans ?_
  rw [hdeparture]
  simp only [bind, Except.bind]
  cases (searchIssuer (before ++ [cert]) pool cert).issuer with
  | none => rfl
  | some issuer => cases checkIssuer issuer (intermediates (before ++ [cert])) <;> rfl

/-- A walk is a turn, and the walk from the issuer if the turn goes on to one. -/
theorem walk_eq_of_turn (s : Setting) (pool before : List Certificate) (cert : Certificate) :
    match turn s pool before cert with
    | .error e => ∃ searches, walk s pool before cert = .stop cert searches (.error e)
    | .ok none => ∃ searches, walk s pool before cert = .stop cert searches (.ok ())
    | .ok (some issuer) => ∃ found,
        walk s pool before cert = .step cert found (walk s pool (before ++ [cert]) issuer) := by
  -- one case for each way out of the recursion
  fun_cases walk s pool before cert with
  | case1 e hmember =>
    have hturn : turn s pool before cert = .error e := by
      rw [turn, hmember]
      rfl
    rw [hturn]
    exact ⟨_, rfl⟩
  | case2 hmember hanchor =>
    have hturn : turn s pool before cert = .ok none := by
      rw [turn, hmember]
      exact if_pos hanchor
    rw [hturn]
    exact ⟨_, rfl⟩
  | case3 hmember hanchor chain e hdeparture =>
    have hturn : turn s pool before cert = .error e := by
      rw [turn, hmember]
      refine (if_neg hanchor).trans ?_
      rw [hdeparture]
      rfl
    rw [hturn]
    exact ⟨_, rfl⟩
  | case4 hmember hanchor chain hdeparture found hnone =>
    rw [turn_of_departure hmember hanchor hdeparture, hnone]
    exact ⟨_, rfl⟩
  | case5 hmember hanchor chain hdeparture found issuer hfound e hissuer =>
    rw [turn_of_departure hmember hanchor hdeparture, hfound]
    dsimp only
    rw [hissuer]
    exact ⟨_, rfl⟩
  | case6 hmember hanchor chain hdeparture found issuer hfound hissuer =>
    rw [turn_of_departure hmember hanchor hdeparture, hfound]
    dsimp only
    rw [hissuer]
    exact ⟨_, rfl⟩

/-- How far a walk is. -/
structure Stage where
  before : List Certificate
  cert : Certificate
  /-- How it ended, once it is over. -/
  outcome : Option (Except Error Unit)

namespace Stage

/-- The stage from which a walk begins. -/
def start (leaf : Certificate) : Stage := ⟨[], leaf, none⟩

def chain (st : Stage) : List Certificate := st.before ++ [st.cert]

/-- The stage after one more turn. There are no turns after the end. -/
def next (s : Setting) (pool : List Certificate) (st : Stage) : Stage :=
  match st.outcome with
  | some _ => st
  | none =>
    match turn s pool st.before st.cert with
    | .error e => { st with outcome := some (.error e) }
    | .ok none => { st with outcome := some (.ok ()) }
    | .ok (some issuer) => ⟨st.chain, issuer, none⟩

/-- The certificates that a walk comes to in all, and how it ends, seen from a stage of it. -/
def result (s : Setting) (pool : List Certificate) (st : Stage) :
    List Certificate × Except Error Unit :=
  match st.outcome with
  | some outcome => (st.chain, outcome)
  | none =>
    let w := walk s pool st.before st.cert
    (st.before ++ w.path, w.outcome)

/-! ## What a turn keeps -/

/-- A turn is part of the walk, whatever is still to come. -/
theorem result_next (st : Stage) : (st.next s pool).result s pool = st.result s pool := by
  obtain ⟨before, cert, outcome⟩ := st
  cases outcome with
  | some outcome => rfl
  | none =>
    have hwalk := walk_eq_of_turn s pool before cert
    cases hturn : turn s pool before cert with
    | error e =>
      rw [hturn] at hwalk
      obtain ⟨searches, hwalk⟩ := hwalk
      simp only [next, hturn, result, hwalk, Walk.path_stop, Walk.outcome_stop, chain]
    | ok found =>
      rw [hturn] at hwalk
      cases found with
      | none =>
        obtain ⟨searches, hwalk⟩ := hwalk
        simp only [next, hturn, result, hwalk, Walk.path_stop, Walk.outcome_stop, chain]
      | some issuer =>
        obtain ⟨found, hwalk⟩ := hwalk
        simp only [next, hturn, result, hwalk, Walk.path_step, Walk.outcome_step, chain,
          List.append_assoc, List.singleton_append]

/-- What holds at every stage of a walk from a leaf. -/
structure Sound (pool : List Certificate) (leaf : Certificate) (st : Stage) : Prop where
  /-- The certificates behind the leaf come from the pool, none of them comes twice, and none is the
  leaf. -/
  grown : ∃ rest, st.chain = leaf :: rest ∧ rest.Nodup ∧ leaf ∉ rest ∧ rest ⊆ pool
  /-- A chain that was said to be too deep is as deep as that. -/
  deep : ∀ depth, st.outcome = some (.error (.chainTooDeep depth)) → depth ≤ st.chain.length

theorem Sound.start (pool : List Certificate) (leaf : Certificate) :
    Sound pool leaf (start leaf) where
  grown := ⟨[], rfl, List.nodup_nil, List.not_mem_nil, List.nil_subset pool⟩
  deep := fun _ h ↦ nomatch h

/-- There is only room for as many certificates as there are, and the leaf. -/
theorem Sound.length_le {st : Stage} (h : Sound pool leaf st) :
    st.chain.length ≤ pool.length + 1 := by
  obtain ⟨rest, hchain, hnodup, -, hpool⟩ := h.grown
  rw [hchain, List.length_cons]
  exact Nat.succ_le_succ (hnodup.subperm hpool).length_le

theorem Sound.next {st : Stage} (h : Sound pool leaf st) : Sound pool leaf (st.next s pool) := by
  obtain ⟨before, cert, outcome⟩ := st
  cases outcome with
  | some outcome => exact h
  | none =>
    simp only [Stage.next]
    split
    · rename_i e hturn
      refine ⟨h.grown, fun depth hdepth ↦ ?_⟩
      obtain rfl : e = .chainTooDeep depth := Except.error.inj (Option.some.inj hdepth)
      have hle := depth_le_of_turn hturn
      rwa [chain, List.length_append]
    · exact ⟨h.grown, fun _ hdepth ↦ nomatch hdepth⟩
    · rename_i issuer hturn
      refine ⟨?_, fun _ hdepth ↦ nomatch hdepth⟩
      -- the issuer is new to the chain, which holds the leaf too
      obtain ⟨rest, hchain, hnodup, hleaf, hpool⟩ := h.grown
      obtain ⟨hmem, hnew⟩ := new_of_turn hturn
      rw [chain] at hchain
      rw [hchain, List.mem_cons, not_or] at hnew
      refine ⟨rest ++ [issuer], ?_, ?_, ?_, ?_⟩
      · rw [chain, chain, hchain, List.cons_append]
      · rw [← List.concat_eq_append]
        exact hnodup.concat hnew.2
      · simp [hleaf, Ne.symm hnew.1]
      · exact List.append_subset.2 ⟨hpool, List.cons_subset.2 ⟨hmem, List.nil_subset pool⟩⟩

theorem length_chain_next {st : Stage} (h : (st.next s pool).outcome = none) :
    st.outcome = none ∧ (st.next s pool).chain.length = st.chain.length + 1 := by
  obtain ⟨before, cert, outcome⟩ := st
  cases outcome with
  | some outcome => cases h
  | none =>
    simp only [next] at h ⊢
    split at h
    · cases h
    · cases h
    · refine ⟨trivial, ?_⟩
      rw [chain, List.length_append, List.length_singleton]

end Stage

/-! ## Runs -/

/-- The stage of a walk after a number of turns. -/
def stageAfter (s : Setting) (leaf : Certificate) (untrusted : List Certificate) (turns : Nat) :
    Stage :=
  (Stage.next s (s.store.certs ++ untrusted))^[turns] (.start leaf)

section

variable (s : Setting) (leaf : Certificate) (untrusted : List Certificate) (turns : Nat)

theorem stageAfter_succ :
    stageAfter s leaf untrusted (turns + 1) =
      (stageAfter s leaf untrusted turns).next s (s.store.certs ++ untrusted) :=
  Function.iterate_succ_apply' _ _ _

theorem result_stageAfter :
    (stageAfter s leaf untrusted turns).result s (s.store.certs ++ untrusted) =
      ((walkFrom s leaf untrusted).path, (walkFrom s leaf untrusted).outcome) := by
  induction turns with
  | zero => rfl
  | succ turns ih => rw [stageAfter_succ, Stage.result_next, ih]

theorem sound_stageAfter :
    (stageAfter s leaf untrusted turns).Sound (s.store.certs ++ untrusted) leaf := by
  induction turns with
  | zero => exact .start _ leaf
  | succ turns ih =>
    rw [stageAfter_succ]
    exact ih.next

theorem length_stageAfter (h : (stageAfter s leaf untrusted turns).outcome = none) :
    (stageAfter s leaf untrusted turns).chain.length = turns + 1 := by
  induction turns with
  | zero => rfl
  | succ turns ih =>
    rw [stageAfter_succ] at h ⊢
    obtain ⟨hbefore, hlength⟩ := Stage.length_chain_next h
    rw [hlength, ih hbefore]

/-- After as many turns as there are certificates, the leaf included, a walk is over. -/
theorem exists_outcome_stageAfter :
    ∃ outcome, (stageAfter s leaf untrusted
      (s.store.size + untrusted.length + 1)).outcome = some outcome := by
  rw [← Option.ne_none_iff_exists']
  intro hnone
  have hlength := length_stageAfter s leaf untrusted _ hnone
  -- every turn so far has added a certificate, and there are not so many
  have hroom := (sound_stageAfter s leaf untrusted (s.store.size + untrusted.length + 1)).length_le
  rw [hlength, List.length_append, Store.size] at hroom
  omega

end

/-- **Every walk ends.** After as many turns as there are certificates in the store and in the pool,
and one more for the leaf, a walk is over and has come to the certificates that `walkFrom` gives,
with the same outcome. At any time the certificates behind the leaf come from store and pool and are
different from each other and from the leaf. A chain is only said to be too deep for a depth that
does not go beyond their number. -/
theorem walk_ends (s : Setting) (leaf : Certificate) (untrusted : List Certificate) :
    let most := s.store.size + untrusted.length + 1
    let w := walkFrom s leaf untrusted
    ((stageAfter s leaf untrusted most).outcome = some w.outcome ∧
      (stageAfter s leaf untrusted most).chain = w.path) ∧
    (∀ turns, ∃ rest, (stageAfter s leaf untrusted turns).chain = leaf :: rest ∧ rest.Nodup ∧
      leaf ∉ rest ∧ rest ⊆ s.store.certs ++ untrusted) ∧
    ∀ depth, verify s leaf untrusted = .error (.chainTooDeep depth) → depth ≤ most := by
  intro most w
  obtain ⟨outcome, hover⟩ := exists_outcome_stageAfter s leaf untrusted
  have hresult := result_stageAfter s leaf untrusted most
  rw [Stage.result, hover, Prod.mk.injEq] at hresult
  obtain ⟨hpath, rfl⟩ := hresult
  refine ⟨⟨hover, hpath⟩, fun turns ↦ (sound_stageAfter s leaf untrusted turns).grown, ?_⟩
  intro depth hdepth
  have hsound := sound_stageAfter s leaf untrusted most
  have houtcome : w.outcome = .error (.chainTooDeep depth) := by
    rcases Checked.bind_eq_error_iff.1 hdepth with h | ⟨_, -, h⟩
    · exact absurd h (NeverTooDeep.checkPurpose leaf _ depth)
    · rcases Checked.bind_eq_error_iff.1 h with h | ⟨_, -, h⟩
      · exact h
      · cases h
  calc depth
    _ ≤ (stageAfter s leaf untrusted most).chain.length :=
      hsound.deep depth (by rw [hover, houtcome])
    _ ≤ (s.store.certs ++ untrusted).length + 1 := hsound.length_le
    _ = most := congrArg (· + 1) List.length_append

/-- An authority "X" below "A", signed with the sample key. Together with `sampleRival`, an
authority "A" below "X", it makes a circle. -/
def sampleCircular : Certificate := sampleCertificate .authority [6] [0x41] [0x58]
  0x5800a0a705a748a3644129b0181e2317430b2f3b9ff29e404edf69ee5eca96a8
  0xab6d72ec21e194b390d03339c0ca17437c8cb5d263eb99868255698301a30790

/-- With the circle at hand twice over, a depth of two is soon too little. With the largest depth
that a machine word can hold, the walk goes around once and then finds nobody new. -/
theorem walk_ends_circle :
    let pool := [sampleRival, sampleCircular, sampleRival, sampleCircular]
    let within depth := { sampleSetting with policy := { maxDepth := depth } }
    (verify (within 2) sampleLeaf pool = .error (.chainTooDeep 2) ∧ 2 ≤ 1 + 4 + 1) ∧
      (stageAfter (within (2 ^ 64 - 1)) sampleLeaf pool (1 + 4 + 1)).outcome =
        some (.error (.issuerNotFound (sampleName [0x58]))) := by
  intro pool within
  have hdeep : verify (within 2) sampleLeaf pool = .error (.chainTooDeep 2) := by decide +kernel
  have hlost : (walkFrom (within (2 ^ 64 - 1)) sampleLeaf pool).outcome =
      .error (.issuerNotFound (sampleName [0x58])) := by
    decide +kernel
  obtain ⟨-, -, hdepth⟩ := walk_ends (within 2) sampleLeaf pool
  obtain ⟨⟨hover, -⟩, -⟩ := walk_ends (within (2 ^ 64 - 1)) sampleLeaf pool
  exact ⟨⟨hdeep, hdepth 2 hdeep⟩, hover.trans (congrArg some hlost)⟩

end SignedFirmware.Trust.Chain
