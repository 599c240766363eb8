import Mathlib.Data.List.Basic

/-!
# `nacl/sign.go`: detached signatures

`CryptoSignDetached(msg, sk)` and `CryptoSignFucky(msg, sk)` both return the
detached signature of `msg` under the secret key `sk`, or `nil`.  The first
calls libsodium's `crypto_sign_detached`; the second calls `crypto_sign`,
which writes the signed message, and keeps its first `crypto_sign_bytes()`
bytes.

libsodium is not in the sources.  `Sodium` holds `crypto_sign_bytes()` and
what the two calls return and leave in their output buffer; the buffers are
the ones `sign.go` allocates, so their lengths are fields.  `Sodium.Combined`
is what libsodium documents of the two calls: `crypto_sign` returns what
`crypto_sign_detached` returns and writes its signature followed by the
message, and `crypto_sign_detached` sets `siglen` to `crypto_sign_bytes()`.
Under it the two functions agree on every message and key
(`cryptoSignFucky_eq_cryptoSignDetached`).

Both functions compare the length of the secret key with
`crypto_sign_bytes()`, the length of a signature, not with
`crypto_sign_secretkeybytes()`; for Ed25519 both are 64.
-/

namespace Srnd.Nacl

/-- The libsodium calls of `sign.go`. -/
structure Sodium where
  /-- `crypto_sign_bytes()`. -/
  signBytes : Nat
  /-- `crypto_sign_detached(sig, &siglen, m, mlen, sk)`: its result, the
  buffer `sig` after the call, and `siglen`. -/
  signDetached : List UInt8 → List UInt8 → Int × List UInt8 × Nat
  /-- `crypto_sign(sm, &smlen, m, mlen, sk)`: its result, the buffer `sm`
  after the call, and `smlen`. -/
  sign : List UInt8 → List UInt8 → Int × List UInt8 × Nat
  /-- `sig` is `malloc(crypto_sign_bytes())`. -/
  signDetached_length : ∀ m sk, (signDetached m sk).2.1.length = signBytes
  /-- `sm` is `malloc(crypto_sign_bytes() + msgbuff.size)`. -/
  sign_length : ∀ m sk, (sign m sk).2.1.length = signBytes + m.length

/-- What libsodium documents of the two calls. -/
structure Sodium.Combined (S : Sodium) : Prop where
  siglen : ∀ m sk, (S.signDetached m sk).2.2 = S.signBytes
  result : ∀ m sk, (S.sign m sk).1 = (S.signDetached m sk).1
  signed : ∀ m sk, (S.sign m sk).2.1 = (S.signDetached m sk).2.1 ++ m

variable (S : Sodium)

/-- `CryptoSignDetached(msg, sk)`; `none` is `nil`. -/
def cryptoSignDetached (msg sk : List UInt8) : Option (List UInt8) :=
  if sk.length ≠ S.signBytes then none
  else
    let (res, sig, siglen) := S.signDetached msg sk
    if res = 0 ∧ siglen = S.signBytes then some sig else none

/-- `CryptoSignFucky(msg, sk)`.  `sig.Bytes()[:offset]` is in range: the
buffer holds `crypto_sign_bytes()` bytes and the message. -/
def cryptoSignFucky (msg sk : List UInt8) : Option (List UInt8) :=
  if sk.length ≠ S.signBytes then none
  else
    let (res, sig, _) := S.sign msg sk
    if res = 0 then some (sig.take S.signBytes) else none

theorem signBytes_le_sign_length (msg sk : List UInt8) :
    S.signBytes ≤ (S.sign msg sk).2.1.length := by
  rw [S.sign_length]
  exact Nat.le_add_right _ _

variable {S}

/-- Under what libsodium documents, `CryptoSignFucky` returns what
`CryptoSignDetached` returns, on every message and key. -/
theorem cryptoSignFucky_eq_cryptoSignDetached (h : S.Combined) (msg sk : List UInt8) :
    cryptoSignFucky S msg sk = cryptoSignDetached S msg sk := by
  have htake : ((S.signDetached msg sk).2.1 ++ msg).take S.signBytes =
      (S.signDetached msg sk).2.1 := by
    rw [List.take_append_of_le_length (S.signDetached_length msg sk).ge,
      ← S.signDetached_length msg sk, List.take_length]
  unfold cryptoSignFucky cryptoSignDetached
  split_ifs
  · rfl
  · simp only [h.result, h.signed, htake, h.siglen, and_true]

/-- A scheme whose signature is the one byte `0`, and which meets the
documented relation. -/
def Sodium.oneByte : Sodium where
  signBytes := 1
  signDetached _ _ := (0, [0], 1)
  sign m _ := (0, 0 :: m, 1 + m.length)
  signDetached_length _ _ := rfl
  sign_length _ _ := Nat.add_comm _ _

theorem cryptoSignFucky_eq_cryptoSignDetached_oneByte :
    Sodium.oneByte.Combined ∧
      cryptoSignFucky Sodium.oneByte [1, 2, 3] [7] =
        cryptoSignDetached Sodium.oneByte [1, 2, 3] [7] :=
  have h : Sodium.oneByte.Combined := ⟨fun _ _ => rfl, fun _ _ => rfl, fun _ _ => rfl⟩
  ⟨h, cryptoSignFucky_eq_cryptoSignDetached h _ _⟩

end Srnd.Nacl
