import SignedFirmware.Proofs.Bytes
import SignedFirmware.Proofs.Der.Fields
import SignedFirmware.Rsa.Generate
import SignedFirmware.Rsa.Signature

/-!
# Signatures verify

What a sound private key signs, its public half verifies, and private keys that were read or made
are sound. Signing already checks that the public operation takes the signature back to the padded
digest, so what is left is the form: the private operation gives a number below the modulus
(`power_lt`), which therefore has a spelling of the size of the modulus.
-/

namespace SignedFirmware.Rsa

/-! ## Powers -/

theorem powMod_eq (base exponent n : Nat) : powMod base exponent n = base ^ exponent % n := by
  fun_induction powMod base exponent n with
  | case1 base => rw [Nat.pow_zero]
  | case2 base exponent h root hodd ih =>
    have hroot : root = base ^ (2 * (exponent / 2)) % n := by
      rw [show root = _ from ih, ← Nat.pow_mod, ← Nat.pow_two, ← Nat.pow_mul]
    have hsplit : (2 * (exponent / 2)).succ = exponent := by omega
    rw [hroot, Nat.mul_mod_mod, ← Nat.pow_succ', hsplit]
  | case3 base exponent h root heven ih =>
    have hsplit : 2 * (exponent / 2) = exponent := by omega
    rw [show root = _ from ih, ← Nat.pow_mod, ← Nat.pow_two, ← Nat.pow_mul, hsplit]

theorem powMod_lt {n : Nat} (h : 0 < n) (base exponent : Nat) : powMod base exponent n < n := by
  rw [powMod_eq]
  exact Nat.mod_lt _ h

namespace PrivateKey

theorem power_lt {k : PrivateKey} (hfactors : k.firstFactor * k.secondFactor = k.modulus)
    (hfirst : 1 < k.firstFactor) (hsecond : 1 < k.secondFactor) (m : Nat) :
    k.power m < k.modulus := by
  rw [power]
  split
  · exact powMod_lt (by rw [← hfactors]; exact Nat.mul_pos (by omega) (by omega)) _ _
  · rename_i inverse _
    -- a remainder of the second factor, and as many times that factor as a remainder of the first
    have hlow := powMod_lt (n := k.secondFactor) (by omega) (m % k.secondFactor)
      (k.privateExponent % (k.secondFactor - 1))
    dsimp only
    generalize powMod (m % k.secondFactor) (k.privateExponent % (k.secondFactor - 1))
      k.secondFactor = second at hlow ⊢
    generalize (powMod (m % k.firstFactor) (k.privateExponent % (k.firstFactor - 1))
      k.firstFactor + (k.firstFactor - second % k.firstFactor)) * inverse = x
    have hhigh : x % k.firstFactor < k.firstFactor := Nat.mod_lt _ (by omega)
    calc second + k.secondFactor * (x % k.firstFactor)
        < k.secondFactor + k.secondFactor * (x % k.firstFactor) := by omega
      _ = k.secondFactor * (x % k.firstFactor + 1) := by ring
      _ ≤ k.secondFactor * k.firstFactor := Nat.mul_le_mul_left _ hhigh
      _ = k.modulus := by rw [Nat.mul_comm, hfactors]

end PrivateKey

/-! ## Sound keys -/

theorem PrivateKey.isSound_of_ofElement? {e : Der.Element} {k : PrivateKey}
    (h : ofElement? e = some k) : k.IsSound := by
  obtain ⟨es, -, -, hfields⟩ := Der.sequence_eq_some_iff.1 h
  simp only [Der.Fields.bind_eq_some_iff] at hfields
  obtain ⟨_, _, -, n, _, -, e, _, -, d, _, -, p, _, -, q, _, -, _, _, -, _, _, -, _, _, -, hend⟩ :=
    hfields
  split at hend
  · rename_i hsound
    cases hend
    exact hsound
  · cases hend

theorem isSound_of_drawKey {bits tries : Nat} {stream : Stream} {k : PrivateKey}
    (h : drawKey bits tries stream = some k) : k.IsSound := by
  induction tries generalizing stream with
  | zero => cases h
  | succ tries ih =>
    simp only [drawKey, Option.bind_eq_bind, Option.bind_eq_some_iff] at h
    obtain ⟨_, -, _, -, h⟩ := h
    split at h
    · rename_i found hfound
      simp only [ofPrimes?, Option.bind_eq_bind, Option.bind_eq_some_iff,
        Option.ite_none_right_eq_some, Option.some.injEq] at hfound
      obtain ⟨_, -, ⟨-, hsound⟩, rfl⟩ := hfound
      cases h
      exact hsound
    · exact ih h

theorem isSound_of_generate? {seed : Bytes} {bits : Nat} {k : PrivateKey}
    (h : generate? seed bits = some k) : k.IsSound := by
  rw [generate?, Option.ite_none_left_eq_some] at h
  exact isSound_of_drawKey h.2

/-! ## Signing and verifying -/

theorem length_of_padded? {size : Nat} {a : Digest.Algorithm} {digest block : Bytes}
    (h : padded? size a digest = some block) : block.length = size := by
  rw [padded?, Option.ite_none_right_eq_some, Option.some.injEq] at h
  obtain ⟨hfits, rfl⟩ := h
  simp only [List.length_append, List.length_cons, List.length_nil, List.length_replicate]
  omega

theorem digestInfo_inj {a : Digest.Algorithm} {digest digest' : Bytes}
    (hlength : digest.length = digest'.length) (h : digestInfo a digest = digestInfo a digest') :
    digest = digest' := by
  simpa [digestInfo, Der.Element.ofElements, Der.ofOctets, Der.Element.encode, hlength] using h

theorem padded?_inj {size : Nat} {a : Digest.Algorithm} {digest digest' block : Bytes}
    (hlength : digest.length = digest'.length) (h : padded? size a digest = some block)
    (h' : padded? size a digest' = some block) : digest = digest' := by
  rw [padded?, Option.ite_none_right_eq_some, Option.some.injEq] at h h'
  obtain ⟨-, rfl⟩ := h
  obtain ⟨-, h'⟩ := h'
  have hinfo : (digestInfo a digest).length = (digestInfo a digest').length := by
    simp [digestInfo, Der.Element.ofElements, Der.ofOctets, Der.Element.encode, hlength]
  rw [hinfo] at h'
  exact digestInfo_inj hlength (List.cons.inj (List.append_cancel_left h')).2.symm

/-- A signature is one of a single digest. -/
theorem PublicKey.Verifies.digest_eq {k : PublicKey} {a : Digest.Algorithm}
    {digest digest' signature : Bytes} (hlength : digest.length = digest'.length)
    (h : k.Verifies a digest signature) (h' : k.Verifies a digest' signature) :
    digest = digest' :=
  padded?_inj hlength h.2.2 h'.2.2

theorem PublicKey.length_ofNat_le_size {k : PublicKey} {n : Nat} (h : n < k.modulus) :
    (Bytes.ofNat n).length ≤ k.size := by
  rw [Bytes.length_ofNat_le_iff]
  exact h.trans (Bytes.length_ofNat_le_iff.1 le_rfl)

/-- A signature that a sound key makes is one of its public half. -/
theorem PrivateKey.verifies_of_sign? {k : PrivateKey} {a : Digest.Algorithm}
    {digest signature : Bytes} (hsound : k.IsSound) (h : k.sign? a digest = some signature) :
    k.publicKey.Verifies a digest signature := by
  obtain ⟨-, hfactors, hfirst, hsecond, -⟩ := hsound
  simp only [sign?, Option.bind_eq_bind, Option.bind_eq_some_iff, Option.ite_none_right_eq_some,
    Option.some.injEq] at h
  obtain ⟨block, hblock, ⟨-, hback⟩, rfl⟩ := h
  have hpower : k.power (Bytes.toNat block) < k.publicKey.modulus :=
    power_lt hfactors hfirst hsecond _
  have hback : powMod (k.power (Bytes.toNat block)) k.publicKey.exponent k.publicKey.modulus =
      Bytes.toNat block := hback
  have hsize : k.publicKey.size = block.length := (length_of_padded? hblock).symm
  have hspelled := PublicKey.length_ofNat_le_size hpower
  refine ⟨Bytes.length_padLeft hspelled, ?_, ?_⟩
  · rwa [Bytes.toNat_padLeft, Bytes.toNat_ofNat]
  · rw [Bytes.toNat_padLeft, Bytes.toNat_ofNat, hback, hsize, Bytes.padLeft_ofNat_toNat, ← hsize]
    exact hblock

/-- A key of 512 bits, for examples. -/
def sampleKey : PrivateKey :=
  let p := 2 ^ 256 - 587
  let q := 2 ^ 256 - 617
  { modulus := p * q
    exponent := 3
    privateExponent := (2 * ((p - 1) * (q - 1)) + 1) / 3
    firstFactor := p
    secondFactor := q }

theorem isSound_sampleKey : sampleKey.IsSound := by
  decide +kernel

end SignedFirmware.Rsa
