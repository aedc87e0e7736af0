/-!
# Arithmetic modulo a number

Powers by repeated squaring, and inverses by Euclid's algorithm.
-/

namespace SignedFirmware.Rsa

/-- The power of a number modulo `n`. -/
def powMod (base exponent n : Nat) : Nat :=
  if _h : exponent = 0 then 1 % n
  else
    let root := powMod (base * base % n) (exponent / 2) n
    if exponent % 2 = 1 then base * root % n else root
termination_by exponent
decreasing_by omega

/-- Euclid's algorithm on `r` and `s`, which are `a` and `b` times a fixed number up to multiples of
another one. The result is their greatest common divisor with its factor. -/
def euclid (r s : Nat) (a b : Int) : Nat × Int :=
  if _h : s = 0 then (r, a) else euclid s (r % s) b (a - (r / s : Nat) * b)
termination_by s
decreasing_by exact Nat.mod_lt _ (Nat.pos_of_ne_zero _h)

/-- The inverse of a number modulo `n`, if there is one. -/
def inverseMod? (x n : Nat) : Option Nat :=
  let (divisor, factor) := euclid n (x % n) 0 1
  if divisor = 1 then some (factor % n).toNat else none

end SignedFirmware.Rsa
