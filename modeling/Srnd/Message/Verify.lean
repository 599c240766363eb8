import Srnd.Message.Wire

/-!
# `NNTPMessage.Verify`

`Verify` checks the header signature of an article when `Signature`, `Key`
and `Signed` are all set.  It replaces every LF (byte 10) of `Signed` by CRLF
with `strings.Replace`, converts the result to `[]byte`, cuts the last two
bytes off, and checks the signature over the SHA-512 of what is left; a
field that is not valid hex makes it false.  As everywhere in
`Srnd.Message`, the strings are bytes, so the lengths are byte counts.

SHA-512, `hex.DecodeString` and `nacl.CryptoVerify` are not in the sources;
they are the fields of `VerifyLib`.  A runtime panic is `none`.

The cut `buff[:len(buff)-2]` panics when the replaced text is shorter than
two bytes, which happens exactly for a `Signed` of one byte other than LF
(`verify_eq_none_iff`); a one-character text of two or more bytes does not
panic.  `strings.Replace` also turns an existing CRLF into CR CR LF; on a
`Signed` without CR (byte 13) it gives the canonical form `canonCRLF`
(`verifyBuffer_of_no_cr`).
-/

namespace Srnd.Message

/-- The functions `Verify` calls that the sources do not contain. -/
structure VerifyLib where
  /-- `sha512.Sum512`. -/
  sha512 : List UInt8 → List UInt8
  /-- `hex.DecodeString`, `none` on its error. -/
  decodeHex : List UInt8 → Option (List UInt8)
  /-- `nacl.CryptoVerify(smsg, pk)`. -/
  cryptoVerify : List UInt8 → List UInt8 → Bool

/-- `strings.Replace(s, old, new, -1)` for a one-byte `old`. -/
def strReplace (s : List UInt8) (old : UInt8) (new : List UInt8) : List UInt8 :=
  s.flatMap fun c => if c = old then new else [c]

/-- The bytes `Verify` hashes: `Signed` with every LF replaced by CRLF, less
its last two bytes; `none` where `buff[:len(buff)-2]` panics. -/
def verifyBuffer (signed : List UInt8) : Option (List UInt8) :=
  let buff := strReplace signed 10 (utf8 "\r\n")
  if buff.length < 2 then none else some (buff.take (buff.length - 2))

/-- `Verify()`; `none` is a runtime panic. -/
def verify (lib : VerifyLib) (self : NNTPMessage) : Option Bool :=
  if 0 < self.signature.length ∧ 0 < self.key.length ∧ 0 < self.signed.length then
    (verifyBuffer self.signed).map fun buff =>
      let msgHash := lib.sha512 buff
      match lib.decodeHex self.signature with
      | none => false
      | some sigBytes =>
        match lib.decodeHex self.key with
        | none => false
        | some pkBytes => lib.cryptoVerify (sigBytes ++ msgHash) pkBytes
  else some true

/-- Modelled from the spec: the canonical form, in which each LF not preceded
by CR becomes CRLF and each CRLF stays. -/
def canonCRLF : List UInt8 → List UInt8
  | [] => []
  | 13 :: 10 :: s => 13 :: 10 :: canonCRLF s
  | 10 :: s => 13 :: 10 :: canonCRLF s
  | c :: s => c :: canonCRLF s

/-! ## When `Verify` panics -/

theorem length_le_strReplace (s : List UInt8) (old : UInt8) (new : List UInt8) (hnew : new ≠ []) :
    s.length ≤ (strReplace s old new).length := by
  induction s with
  | nil => simp [strReplace]
  | cons c s ih =>
    have : 1 ≤ (if c = old then new else [c]).length := by
      split_ifs
      · exact List.length_pos.2 hnew
      · rfl
    simp only [strReplace, List.flatMap_cons, List.length_append, List.length_cons] at ih ⊢
    omega

/-- The replaced text is shorter than two bytes exactly for one byte other
than LF. -/
theorem verifyBuffer_eq_none_iff (signed : List UInt8) (hne : 0 < signed.length) :
    verifyBuffer signed = none ↔ ∃ b, b ≠ 10 ∧ signed = [b] := by
  have hcrlf : utf8 "\r\n" = [13, 10] := rfl
  unfold verifyBuffer
  rw [hcrlf]
  match signed, hne with
  | [b], _ =>
    by_cases hb : b = 10
    · subst hb
      simp [strReplace]
    · simp [strReplace, hb]
  | b :: c :: t, _ =>
    have := length_le_strReplace (b :: c :: t) 10 [13, 10] (by simp)
    simp only [List.length_cons] at this
    simp only [if_neg (show ¬ (strReplace (b :: c :: t) 10 [13, 10]).length < 2 by omega)]
    simp

/-- `Verify` panics exactly when `Signature` and `Key` are set and `Signed` is
one byte other than LF. -/
theorem verify_eq_none_iff (lib : VerifyLib) (self : NNTPMessage) :
    verify lib self = none ↔ 0 < self.signature.length ∧ 0 < self.key.length ∧
      ∃ b, b ≠ 10 ∧ self.signed = [b] := by
  unfold verify
  split_ifs with h
  · rw [Option.map_eq_none', verifyBuffer_eq_none_iff _ h.2.2]
    exact ⟨fun hc => ⟨h.1, h.2.1, hc⟩, fun hc => hc.2.2⟩
  · simp only [reduceCtorEq, false_iff]
    rintro ⟨h1, h2, b, -, hb⟩
    exact h ⟨h1, h2, hb ▸ Nat.one_pos⟩

/-- A one-byte `Signed` makes `Verify` panic, and a `Signed` with CRLF line
ends is hashed with CR CR LF, not as its canonical form. -/
theorem verify_panics_and_doubles_cr :
    (∀ lib : VerifyLib,
        verify lib { signature := utf8 "00", key := utf8 "00", signed := utf8 "a" } = none) ∧
      verifyBuffer (utf8 "x\r\ny\r\n") = some (utf8 "x\r\r\ny\r") ∧
      (canonCRLF (utf8 "x\r\ny\r\n")).dropLast.dropLast = utf8 "x\r\ny" :=
  ⟨fun _ => rfl, by decide, by decide⟩

/-! ## What `Verify` hashes -/

/-- On a text without CR, `strings.Replace` of LF by CRLF is the canonical
form. -/
theorem strReplace_of_no_cr (s : List UInt8) (h : 13 ∉ s) :
    strReplace s 10 [13, 10] = canonCRLF s := by
  induction s with
  | nil => rfl
  | cons c s ih =>
    rw [List.mem_cons, not_or] at h
    have hs := ih h.2
    simp only [strReplace, List.flatMap_cons] at hs ⊢
    by_cases hc : c = 10
    · subst hc
      simp [canonCRLF, hs]
    · rw [if_neg hc, List.singleton_append, hs,
        canonCRLF.eq_4 c s (fun _ hr _ => h.1 hr.symm) hc]

theorem dropLast_dropLast (l : List UInt8) : l.dropLast.dropLast = l.take (l.length - 2) := by
  rw [List.dropLast_eq_take, List.dropLast_eq_take, List.take_take, List.length_take]
  congr 1
  omega

/-- On a `Signed` without CR, `Verify` hashes its canonical form less the last
two bytes, and panics where that form is shorter than two bytes. -/
theorem verifyBuffer_of_no_cr (signed : List UInt8) (h : 13 ∉ signed) :
    verifyBuffer signed = if (canonCRLF signed).length < 2 then none
      else some (canonCRLF signed).dropLast.dropLast := by
  have hcrlf : utf8 "\r\n" = [13, 10] := rfl
  simp only [verifyBuffer, hcrlf, strReplace_of_no_cr _ h, dropLast_dropLast]

theorem verifyBuffer_of_no_cr_two_lines :
    13 ∉ utf8 "a\nb\n" ∧
      verifyBuffer (utf8 "a\nb\n") = some ((canonCRLF (utf8 "a\nb\n")).dropLast.dropLast) :=
  ⟨by decide, (verifyBuffer_of_no_cr (utf8 "a\nb\n") (by decide)).trans (by decide)⟩

end Srnd.Message
