import Mathlib.Data.String.Basic
import Srnd.Message.PartLimit
import Srnd.Message.Verify

/-!
# Signed messages through `WriteTo` and `Load`

A message with an `X-pubkey-ed25519` and an `X-signature-ed25519-sha512`
header carries its body in `Signed`.  `WriteTo` writes that text alone as
the body, whatever attachments the message has, and `Load` reads the whole
body back into `Signed` and returns false: signed posts are not parsed
further.  The delimiter `NewLineWriter` puts after the text comes back with
it.

Two functions read `Signed` afterwards.  `Verify` turns every LF into CRLF
and cuts the last two bytes, which on a loaded message are exactly the
delimiter, so it checks the signature over the text that was written;
`DoModeration` feeds the lines of the text, and the delimiter only adds an
empty line, which it skips.  `load_writeTo_signed` follows a message through
all of it.  `SignedPost` lists what the message must satisfy; the
attachments are free, and lost.
-/

namespace Srnd.Message

/-- `DoModeration(mod)`: the lines it sends on `mod.feed`, in order, each a
non-empty piece of `strings.Split(self.Signed, "\n")`.  `Moderation` is not in
the sources; `allowPubkey` is its `AllowPubkey`. -/
def doModeration (allowPubkey : List UInt8 → Bool) (self : NNTPMessage) : List (List UInt8) :=
  if self.newsgroup ≠ utf8 "ctl" then []
  else if self.key.length = 0 ∨ self.signature.length = 0 then []
  else if 0 < self.signed.length ∧ allowPubkey self.key = true then
    (self.signed.splitOn 10).filter fun line => 0 < line.length
  else []

/-! ## The bytes `WriteTo` writes -/

theorem hexDigit_ne_newline : ∀ n < 16, hexDigit n ≠ 10 := by decide

/-- The boundary is hex digits. -/
theorem newline_not_mem_hexBytes (r : List UInt8) : 10 ∉ hexBytes r := by
  simp only [hexBytes, List.mem_flatMap, List.mem_cons, List.not_mem_nil, or_false, not_exists,
    not_and]
  intro b _ h
  have hb := b.toNat_lt
  rcases h with h | h
  · exact hexDigit_ne_newline _ (by omega) h.symm
  · exact hexDigit_ne_newline _ (Nat.mod_lt _ (by omega)) h.symm

variable (lib : Stdlib)

/-- For a message with a signed text, `WriteTo(w, "\n")` writes the header
lines, an empty line and the text, each ended by the delimiter. -/
theorem writeTo_signed (r : List UInt8) (A : NNTPMessage) (hsigned : A.signed ≠ []) :
    (writeTo lib r A (utf8 "\n")).1 =
      ((headerWrites lib (writeTo lib r A (utf8 "\n")).2).map (· ++ [10])).flatten ++
        10 :: (A.signed ++ [10]) := by
  have hnl : utf8 "\n" = [10] := rfl
  by_cases ha : A.attachments = [] <;> simp [writeTo, lineWrite, bodyWrites, ha, hsigned, hnl]

/-! ## The readers of `Signed` -/

/-- The delimiter `Load` reads after a text is one more separator for
`strings.Split`. -/
theorem splitOn_append_newline (l : List UInt8) :
    (l ++ [10]).splitOn 10 = l.splitOn 10 ++ [[]] := by
  induction l with
  | nil => rfl
  | cons c l ih =>
    simp only [List.splitOn, List.cons_append] at ih ⊢
    rw [List.splitOnP_cons, List.splitOnP_cons, ih]
    obtain ⟨x, t, hxt⟩ := List.exists_cons_of_ne_nil (List.splitOnP_ne_nil (· == 10) l)
    split <;> simp only [hxt, List.cons_append, List.modifyHead]

/-- `Verify` on a text followed by a newline hashes the text with every LF
turned into CRLF: the cut takes off the CRLF the newline became. -/
theorem verifyBuffer_append_newline (s : List UInt8) :
    verifyBuffer (s ++ [10]) = some (strReplace s 10 (utf8 "\r\n")) := by
  have h : strReplace (s ++ [10]) 10 (utf8 "\r\n") = strReplace s 10 (utf8 "\r\n") ++ [13, 10] := by
    simp [strReplace]
    rfl
  simp only [verifyBuffer, h, List.length_append, List.length_cons, List.length_nil]
  rw [if_neg (by omega), Nat.add_sub_cancel, List.take_left]

/-- `DoModeration` feeds the same lines from a text followed by a newline. -/
theorem doModeration_of_append_newline (allowPubkey : List UInt8 → Bool) {M M' : NNTPMessage}
    (hng : M'.newsgroup = M.newsgroup) (hkey : M'.key = M.key)
    (hsig : M'.signature = M.signature) (hsigned : M'.signed = M.signed ++ [10]) :
    doModeration allowPubkey M' = doModeration allowPubkey M := by
  have hlines : ((M'.signed.splitOn 10).filter fun line => 0 < line.length) =
      (M.signed.splitOn 10).filter fun line => 0 < line.length := by
    rw [hsigned, splitOn_append_newline, List.filter_append]
    simp
  unfold doModeration
  rw [hng, hkey, hsig, hlines]
  by_cases h0 : M.signed.length = 0
  · rw [List.length_eq_zero.1 h0]
    simp
  · have h1 : 0 < M'.signed.length := by rw [hsigned, List.length_append]; omega
    simp only [h1, Nat.pos_of_ne_zero h0, true_and]

/-! ## The round trip -/

/-- The message `WriteTo` writes differs from `A` at most in its content
type, which is one line. -/
theorem writeTo_snd_eq (r : List UInt8) (A : NNTPMessage) :
    (writeTo lib r A (utf8 "\n")).2 =
      { A with contentType := (writeTo lib r A (utf8 "\n")).2.contentType } := by
  unfold writeTo
  dsimp only
  split <;> rfl

theorem newline_not_mem_writeTo_contentType (r : List UInt8) {A : NNTPMessage}
    (h : A.attachments = [] → 10 ∉ A.contentType) :
    10 ∉ (writeTo lib r A (utf8 "\n")).2.contentType := by
  by_cases ha : A.attachments = []
  · simpa [writeTo, ha] using h ha
  · have hb := newline_not_mem_hexBytes r
    simp only [writeTo, ha, ne_eq, not_false_eq_true, if_true, multipartContentType,
      List.mem_append, not_or]
    exact ⟨⟨by decide, hb⟩, by decide⟩

/-- What the signed round trip asks of a message: a key, a signature and a
signed text; header values on one line (the content type only where
`WriteTo` writes it, without attachments); a newsgroup without a comma other
than `ano.paste`; extra headers that `Load` does not take for its own; and a
date that the standard library parses back. -/
structure SignedPost (A : NNTPMessage) : Prop where
  key : A.key ≠ []
  signature : A.signature ≠ []
  signed : A.signed ≠ []
  contentType : A.attachments = [] → 10 ∉ A.contentType
  oneLine : ∀ s ∈ [A.name, A.email, lib.formatRFC1123Z A.posted, A.key, A.signature,
    A.newsgroup, A.subject, A.messageID, A.reference, A.path], 10 ∉ s
  extraOneLine : ∀ kv ∈ A.extraHeaders, 10 ∉ kv.1 ∧ 10 ∉ kv.2
  newsgroupComma : 44 ∉ A.newsgroup
  newsgroupPaste : A.newsgroup ≠ utf8 "ano.paste"
  extraUnrecognised : ∀ kv ∈ A.extraHeaders,
    recognised lib (kv.1 ++ utf8 ": " ++ kv.2 ++ [10]) = false
  date : lib.parseRFC1123Z (lib.formatRFC1123Z A.posted) = some A.posted

/-- A signed message that `WriteTo(w, "\n")` writes and `Load(r, true)` reads
back into a zero `NNTPMessage`: `Load` returns false, the header fields are
those of the message written (with attachments, the content type is the
multipart one `WriteTo` set), the attachments are gone, and `Signed` comes
back with the delimiter.  `Verify` of the loaded message never panics and
hashes exactly the text written, with every LF as CRLF, and `DoModeration`
feeds the same lines as from the message written. -/
theorem load_writeTo_signed (allowPubkey : List UInt8 → Bool) (r : List UInt8) (A : NNTPMessage)
    (h : SignedPost lib A) :
    let W := writeTo lib r A (utf8 "\n")
    let A' := load lib {} W.1 true
    A'.1 = false ∧ A'.2.headerFields = { A.headerFields with contentType := W.2.contentType } ∧
      A'.2.signed = A.signed ++ utf8 "\n" ∧ A'.2.attachments = [] ∧
      verifyBuffer A'.2.signed = some (strReplace A.signed 10 (utf8 "\r\n")) ∧
      doModeration allowPubkey A'.2 = doModeration allowPubkey A := by
  intro W A'
  have hbytes : A' = load lib {} (((headerWrites lib W.2).map (· ++ [10])).flatten ++
      10 :: (A.signed ++ [10])) true := by
    rw [← writeTo_signed lib r A h.signed]
  have hct := newline_not_mem_writeTo_contentType lib r h.contentType
  have hM := writeTo_snd_eq lib r A
  rw [hbytes]
  generalize W.2 = M at hM hct ⊢
  generalize hc : M.contentType = ct at hM hct ⊢
  subst hM
  have hl := headerLoop_lines lib (headerWrites lib { A with contentType := ct })
    (A.signed ++ [10]) ⟨{}, 0⟩
    (headerWrites_oneLine (List.forall_mem_cons.2 ⟨hct, h.oneLine⟩) h.extraOneLine)
  have hf := @headerFields_headerWrites lib { A with contentType := ct } h.newsgroupComma h.date
    h.extraUnrecognised
  have hks : A.key ≠ [] ∧ A.signature ≠ [] := ⟨h.key, h.signature⟩
  rw [if_pos hks, if_pos hks] at hf
  have hatt := (body_foldl_loadHeaderLine lib ⟨{}, 0⟩
    (headerWrites lib { A with contentType := ct })).2
  generalize List.foldl _ _ _ = st at hl hf hatt
  obtain ⟨m, i⟩ := st
  simp only [NNTPMessage.headerFields, HeaderFields.mk.injEq] at hf
  obtain ⟨hmid, hng', href, hsubj, hpath, hposted, hkey, hsig, hct'⟩ := hf
  have h0 : ({ ({} : NNTPMessage) with extraHeaders := [] } : NNTPMessage) = {} := rfl
  simp only [load, h0, hl]
  rw [if_neg (by simp [hng', h.newsgroupPaste]), if_pos ⟨hkey ▸ h.key, hsig ▸ h.signature⟩]
  refine ⟨rfl, ?_, rfl, hatt, verifyBuffer_append_newline A.signed,
    doModeration_of_append_newline allowPubkey hng' hkey hsig rfl⟩
  simp only [NNTPMessage.headerFields, hmid, hng', href, hsubj, hpath, hposted, hkey, hsig, hct']

/-- A moderation message with an attachment goes through: `DoModeration` of
the loaded message feeds its two lines. -/
theorem load_writeTo_signed_mod_message :
    let lib : Stdlib := ⟨List.map asciiLower, fun _ _ _ => rfl,
      fun _ => utf8 "Thu, 01 Jan 1970 00:00:00 +0000",
      fun s => if s = utf8 "Thu, 01 Jan 1970 00:00:00 +0000" then some 0 else none,
      fun _ => none, fun _ _ => []⟩
    let A : NNTPMessage :=
      { messageID := utf8 "<m@x>", newsgroup := utf8 "ctl", key := utf8 "ab",
        signature := utf8 "cd", signed := utf8 "delete <a@x>\nsticky <b@x>",
        attachments := [{ name := utf8 "f.png" }] }
    SignedPost lib A ∧
      doModeration (fun _ => true)
          (load lib {} (writeTo lib (List.replicate 30 0) A (utf8 "\n")).1 true).2 =
        [utf8 "delete <a@x>", utf8 "sticky <b@x>"] := by
  intro lib A
  have h : SignedPost lib A := ⟨by decide, by decide, by decide, by decide, by decide, by decide,
    by decide, by decide, by decide, by decide⟩
  exact ⟨h, (load_writeTo_signed lib (fun _ => true) (List.replicate 30 0) A h).2.2.2.2.2.trans
    (by decide)⟩

end Srnd.Message
