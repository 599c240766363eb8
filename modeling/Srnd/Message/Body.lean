import Mathlib

/-!
# `read_message_body`

`read_message_body` parses the body of an article whose header block has
already been read.  The content type picks one of three branches:

* with a `boundary` parameter, the multipart loop over `NextPart`: a
  `text/plain` part becomes the message, any other part an attachment;
* `message/rfc822` without one, a signed envelope: both signature headers
  must be set, the whole body is read through one `io.MultiWriter` into the
  SHA-512 hasher and a buffer, the signature is checked over the hash, and
  the header block and body of the inner article are parsed from the buffer
  by a recursive call;
* anything else, a single part read whole into the message.

Readers are lists of `Read` results (`Reader`), so a finite stream comes
with every way of splitting it into reads.  Both read loops are one loop,
`readLoop`, with the sink as a parameter: `multiWrite` for the envelope and
appending for the single part.  `readLoop_eq` says what it computes: the
bytes of the reads before the first error (`Reader.kept`), unless that error
is not `io.EOF` (`Reader.failure`).  The `io.Reader` contract lets the read
that returns `io.EOF` bring bytes too: the stream a reader delivers is
`Reader.stream`, and the loops lose the bytes of that last read,
`Reader.dropped` (`readLoops_whole_stream_iff`).

The functions the sources do not contain are the fields of `Codec`.
`readMIMEHeader` on success consumes at least the blank line that ends the
header block, so the recursion is on a strictly smaller reader.

`io.TeeReader(body, wr)` copies into `wr` the bytes of every `Read` the
branch makes, those that come with an error too.  `readLoop` reads through
it and returns what `wr` holds besides its result; the loop reads to the
first error, so the tee gets the whole stream (`readLoop_tee`), and without
a `boundary` parameter a successful parse leaves exactly that stream in `wr`
(`teeOutput_of_readMessageBody`).  The multipart reader stops reading at the
closing delimiter, so an epilogue it has not read is missing from `wr`
(`teeOutput_misses_epilogue`).

`unwraps_of_readMessageBody` is the soundness of the envelope branch: a
successful parse is reached through a chain of envelopes, each with both
headers set, its exact buffered bytes hashed and checked, and the next level
parsed from those bytes alone (`Unwraps`).
-/

namespace Srnd.Message

/-- A `Read` error other than `nil`. -/
inductive ReadErr where
  | eof
  | other (msg : String)
  deriving DecidableEq, Repr

/-- One `Read` call: the bytes it filled and its error, `none` for `nil`. -/
structure ReadResult where
  data : List UInt8
  err : Option ReadErr
  deriving DecidableEq, Repr

/-- An `io.Reader` over a finite stream: the results of its `Read` calls.
When they are used up every `Read` returns `0, io.EOF`. -/
abbrev Reader := List ReadResult

/-- The number of bytes a reader delivers, errors included. -/
def Reader.total (r : Reader) : Nat := (r.map fun x => x.data.length).sum

/-- The bytes of the reads before the first error. -/
def Reader.kept : Reader → List UInt8
  | [] => []
  | ⟨d, none⟩ :: r => d ++ kept r
  | ⟨_, some _⟩ :: _ => []

/-- The first error, unless it is `io.EOF`. -/
def Reader.failure : Reader → Option String
  | [] => none
  | ⟨_, none⟩ :: r => failure r
  | ⟨_, some .eof⟩ :: _ => none
  | ⟨_, some (.other e)⟩ :: _ => some e

/-- `bufio.NewReader` over a byte buffer: its bytes, then `io.EOF`. -/
def ofBytes (bs : List UInt8) : Reader := [⟨bs, none⟩]

/-- The stream a reader delivers under the `io.Reader` contract, which lets
the read that returns an error return bytes too: the bytes of every read up
to and including the first one with an error. -/
def Reader.stream : Reader → List UInt8
  | [] => []
  | ⟨d, none⟩ :: r => d ++ stream r
  | ⟨d, some _⟩ :: _ => d

/-- The bytes of the first `k` reads, the bytes that come with an error
included. -/
def Reader.pulled (r : Reader) (k : Nat) : List UInt8 := ((r.take k).map ReadResult.data).flatten

/-- The bytes delivered together with the first error. -/
def Reader.dropped : Reader → List UInt8
  | [] => []
  | ⟨_, none⟩ :: r => dropped r
  | ⟨d, some _⟩ :: _ => d

theorem stream_eq_kept_append_dropped (r : Reader) : r.stream = r.kept ++ r.dropped := by
  induction r with
  | nil => rfl
  | cons x r ih =>
    obtain ⟨d, _ | _⟩ := x
    · simp [Reader.stream, Reader.kept, Reader.dropped, ih]
    · rfl

/-! ## The read loops -/

/-- The read loop of both branches, reading `body` through
`io.TeeReader(body, wr)`: every `Read` copies its bytes to `wr`, those that
come with an error too; a `Read` without error hands its bytes to `write`,
`io.EOF` ends the loop and any other error is returned.  The loop's result,
and what `wr` holds after it. -/
def readLoop {σ : Type} (write : List UInt8 → σ → σ) :
    Reader → σ → List UInt8 → Except String σ × List UInt8
  | [], w, wr => (.ok w, wr)
  | ⟨d, none⟩ :: r, w, wr => readLoop write r (write d w) (wr ++ d)
  | ⟨d, some .eof⟩ :: _, w, wr => (.ok w, wr ++ d)
  | ⟨d, some (.other e)⟩ :: _, _, wr => (.error e, wr ++ d)

/-- `io.MultiWriter(h, buff)`: a write goes to the SHA-512 hasher and then to
the buffer; neither fails, so it reaches both. -/
def multiWrite (p : List UInt8) (w : List UInt8 × List UInt8) : List UInt8 × List UInt8 :=
  (w.1 ++ p, w.2 ++ p)

/-- The loop of the envelope branch: the bytes hashed and the bytes buffered. -/
def readSigned (body : Reader) : Except String (List UInt8 × List UInt8) :=
  (readLoop multiWrite body ([], []) []).1

/-- The loop of the single-part branch: the bytes appended to `str`. -/
def readPlain (body : Reader) : Except String (List UInt8) :=
  (readLoop (fun d str => str ++ d) body [] []).1

/-- What a read loop computes: the sink after the writes of `Reader.kept`, or
the first error that is not `io.EOF`. -/
theorem readLoop_eq {σ : Type} (write : List UInt8 → σ → σ)
    (hwrite : ∀ p q w, write q (write p w) = write (p ++ q) w) (hnil : ∀ w, write [] w = w)
    (r : Reader) (w : σ) (wr : List UInt8) :
    (readLoop write r w wr).1 = match r.failure with
      | some e => .error e
      | none => .ok (write r.kept w) := by
  induction r generalizing w wr with
  | nil => simp [readLoop, Reader.failure, Reader.kept, hnil]
  | cons x r ih =>
    obtain ⟨d, _ | _ | e⟩ := x
    · simp only [readLoop, Reader.failure, Reader.kept, ih, hwrite]
    · simp [readLoop, Reader.failure, Reader.kept, hnil]
    · simp [readLoop, Reader.failure]

/-- What the tee copies during a read loop: the whole stream the reader
delivers, up to the first error and the bytes that come with it, whatever
the loop does with them. -/
theorem readLoop_tee {σ : Type} (write : List UInt8 → σ → σ) (r : Reader) (w : σ)
    (wr : List UInt8) : (readLoop write r w wr).2 = wr ++ r.stream := by
  induction r generalizing w wr with
  | nil => simp [readLoop, Reader.stream]
  | cons x r ih =>
    obtain ⟨d, _ | _ | e⟩ := x
    · simp only [readLoop, Reader.stream, ih, List.append_assoc]
    · rfl
    · rfl

/-- The hasher and the buffer get the same bytes: those of `Reader.kept`. -/
theorem readSigned_eq (body : Reader) :
    readSigned body = match body.failure with
      | some e => .error e
      | none => .ok (body.kept, body.kept) :=
  readLoop_eq multiWrite (fun _ _ _ => by simp [multiWrite]) (fun _ => by simp [multiWrite])
    body ([], []) []

theorem readPlain_eq (body : Reader) :
    readPlain body = match body.failure with
      | some e => .error e
      | none => .ok body.kept :=
  readLoop_eq _ (fun _ _ _ => by simp) (fun _ => by simp) body [] []

theorem length_kept_le (r : Reader) : r.kept.length ≤ r.total := by
  induction r with
  | nil => simp [Reader.kept]
  | cons x r ih =>
    obtain ⟨d, _ | _⟩ := x
    · simp only [Reader.kept, Reader.total, List.map_cons, List.sum_cons, List.length_append] at *
      omega
    · simp [Reader.kept]

/-- A successful envelope loop hashed and buffered the same bytes. -/
theorem readSigned_ok {body : Reader} {hashed buff : List UInt8}
    (h : readSigned body = .ok (hashed, buff)) : hashed = body.kept ∧ buff = body.kept := by
  rw [readSigned_eq] at h
  split at h
  · cases h
  · cases h; exact ⟨rfl, rfl⟩

theorem readSigned_length_le {body : Reader} {hashed buff : List UInt8}
    (h : readSigned body = .ok (hashed, buff)) : buff.length ≤ body.total :=
  (readSigned_ok h).2 ▸ length_kept_le body

/-- Under the `io.Reader` contract both loops get the whole stream exactly
when the read that returns `io.EOF` brings no bytes. -/
theorem readLoops_whole_stream_iff (r : Reader) (h : r.failure = none) :
    (readSigned r = .ok (r.stream, r.stream) ↔ r.dropped = []) ∧
      (readPlain r = .ok r.stream ↔ r.dropped = []) := by
  rw [readSigned_eq, readPlain_eq, h, stream_eq_kept_append_dropped]
  simp

/-- A reader that ends with `0, io.EOF`, as `bytes.Buffer` does. -/
theorem readLoops_whole_stream_iff_buffer :
    Reader.failure [⟨[1], none⟩, ⟨[], some .eof⟩] = none ∧
      readPlain [⟨[1], none⟩, ⟨[], some .eof⟩] = .ok [1] :=
  ⟨rfl, (readLoops_whole_stream_iff [⟨[1], none⟩, ⟨[], some .eof⟩] rfl).2.2 rfl⟩

/-! ## The parser -/

/-- The functions `read_message_body` calls that the sources do not contain:
the header accessors of the article type, the standard library's media-type,
header and multipart parsing, `unhex`, SHA-512 and `CryptoVerifyFucky`. -/
structure Codec (Hdr Att : Type) where
  /-- `nntp.ContentType()`. -/
  contentType : Hdr → String
  /-- `nntp.headers.Get("X-Signature-Ed25519-Sha512", "")`. -/
  signature : Hdr → String
  /-- `nntp.Pubkey()`. -/
  pubkey : Hdr → String
  /-- `part.Header.Get("Content-Type")`. -/
  partContentType : Hdr → String
  /-- `mime.ParseMediaType`: the media type and its parameters. -/
  parseMediaType : String → Except String (String × List (String × String))
  /-- `readMIMEHeader` on a buffer: the header and the bytes after it.  It
  consumes at least the blank line that ends the header block. -/
  readMIMEHeader : (bs : List UInt8) →
    Except String {p : Hdr × List UInt8 // p.2.length < bs.length}
  /-- The results of `NextPart` on `multipart.NewReader(body, boundary)` up to
  `io.EOF`: the header and the body of each part. -/
  nextParts : Reader → String → List (Except String (Hdr × Reader))
  /-- `readAttachmentFromMimePartAndStore(part, store)`, told whether the
  store is given. -/
  readAttachment : Hdr → Reader → Bool → Option Att
  createPlaintextAttachment : List UInt8 → Att
  unhex : String → List UInt8
  sha512 : List UInt8 → List UInt8
  /-- `nacl.CryptoVerifyFucky(hash, sig, pk)`. -/
  cryptoVerifyFucky : List UInt8 → List UInt8 → List UInt8 → Bool

/-- The fields of the article that `read_message_body` fills. -/
structure Parsed (Hdr Att : Type) where
  headers : Hdr
  message : Option Att
  attachments : List Att

variable {Hdr Att : Type} (c : Codec Hdr Att)

/-- The part loop of the multipart branch, over the results of `NextPart`.  A
part whose content type does not parse is skipped; `nntp.Attach` appends. -/
def readParts (store : Bool) :
    List (Except String (Hdr × Reader)) → Parsed Hdr Att → Except String (Parsed Hdr Att)
  | [], nntp => .ok nntp
  | .error e :: _, _ => .error e
  | .ok (phdr, part) :: parts, nntp =>
    match c.parseMediaType (c.partContentType phdr) with
    | .ok (mediaType, _) =>
      if mediaType = "text/plain" then
        match c.readAttachment phdr part false with
        | none => readParts store parts nntp
        | some att => readParts store parts { nntp with message := some att }
      else
        match c.readAttachment phdr part store with
        | some att => readParts store parts { nntp with attachments := nntp.attachments ++ [att] }
        | none => readParts store parts nntp
    | .error _ => readParts store parts nntp

/-- `read_message_body(body, hdr, store, wr, false)`.  The copy of the body
into `wr` does not change what is read; it is `teeOutput`. -/
def readMessageBody (body : Reader) (hdr : Hdr) (store : Bool) : Except String (Parsed Hdr Att) :=
  match c.parseMediaType (c.contentType hdr) with
  | .error e => .error e
  | .ok (mediaType, params) =>
    match params.lookup "boundary" with
    | some boundary => readParts c store (c.nextParts body boundary) ⟨hdr, none, []⟩
    | none =>
      if mediaType = "message/rfc822" then
        if c.pubkey hdr = "" ∨ c.signature hdr = "" then .error "invalid headers"
        else
          match _hr : readSigned body with
          | .error e => .error e
          | .ok (hashed, buff) =>
            if c.cryptoVerifyFucky (c.sha512 hashed) (c.unhex (c.signature hdr))
                (c.unhex (c.pubkey hdr)) then
              match c.readMIMEHeader buff with
              | .error e => .error e
              | .ok ⟨(inner, rest), _hlt⟩ => readMessageBody (ofBytes rest) inner store
            else .error "invalid signature"
      else
        match readPlain body with
        | .error e => .error e
        | .ok str => .ok ⟨hdr, some (c.createPlaintextAttachment str), []⟩
termination_by body.total
decreasing_by
  exact lt_of_lt_of_le (by simpa [ofBytes, Reader.total] using _hlt) (readSigned_length_le _hr)

/-- A stream whose last bytes come with `io.EOF`, as textproto's dot reader
and gzip readers deliver them: the single-part branch keeps none of them,
and the envelope branch hashes and buffers none of them, so the inner header
block is missing. -/
theorem readMessageBody_drops_eof_bytes :
    let c : Codec String (List UInt8) :=
      { contentType := id, signature := fun _ => "sig", pubkey := fun _ => "pk",
        partContentType := id, parseMediaType := fun t => .ok (t, []),
        readMIMEHeader := fun
          | [] => .error "EOF"
          | _ :: rest => .ok ⟨("text/plain", rest), by simp⟩,
        nextParts := fun _ _ => [], readAttachment := fun _ _ _ => none,
        createPlaintextAttachment := id, unhex := fun _ => [], sha512 := id,
        cryptoVerifyFucky := fun _ _ _ => true }
    let body : Reader := [⟨[13, 7], some .eof⟩]
    body.failure = none ∧ body.stream = [13, 7] ∧ readSigned body = .ok ([], []) ∧
      readMessageBody c body "text/plain" true = .ok ⟨"text/plain", some [], []⟩ ∧
      readMessageBody c body "message/rfc822" true = .error "EOF" := by
  intro c body
  refine ⟨rfl, rfl, rfl, ?_, ?_⟩ <;> rw [readMessageBody] <;> rfl

/-! ## The copy into `wr` -/

/-- What `read_message_body(body, hdr, store, wr, false)` copies into `wr`
through `io.TeeReader(body, wr)`, which copies the bytes of every `Read` on
`body`, those that come with an error too.  Without a `boundary` parameter it
is what `wr` holds after the read loop of the branch; an envelope without
both signature headers is rejected before any read.  `multipartReads body
boundary` is the number of `Read` calls that `multipart.NewReader(body,
boundary)` makes until `NextPart` returns `io.EOF` or an error. -/
def teeOutput (multipartReads : Reader → String → Nat) (body : Reader) (hdr : Hdr) :
    List UInt8 :=
  match c.parseMediaType (c.contentType hdr) with
  | .error _ => []
  | .ok (mediaType, params) =>
    match params.lookup "boundary" with
    | some boundary => body.pulled (multipartReads body boundary)
    | none =>
      if mediaType = "message/rfc822" then
        if c.pubkey hdr = "" ∨ c.signature hdr = "" then []
        else (readLoop multiWrite body ([], []) []).2
      else (readLoop (fun d str => str ++ d) body [] []).2

theorem failure_eq_none_of_readSigned {body : Reader} {p : List UInt8 × List UInt8}
    (h : readSigned body = .ok p) : body.failure = none := by
  rw [readSigned_eq] at h
  split at h
  · cases h
  · assumption

theorem failure_eq_none_of_readPlain {body : Reader} {str : List UInt8}
    (h : readPlain body = .ok str) : body.failure = none := by
  rw [readPlain_eq] at h
  split at h
  · cases h
  · assumption

/-- Without a `boundary` parameter, a successful `read_message_body` has read
a reader that kept the `io.Reader` contract, and `wr` holds exactly the
stream it delivered, the bytes that come with `io.EOF` included. -/
theorem teeOutput_of_readMessageBody (multipartReads : Reader → String → Nat) {body : Reader}
    {hdr : Hdr} {store : Bool} {art : Parsed Hdr Att}
    (h : readMessageBody c body hdr store = .ok art)
    (hb : ∀ mediaType params, c.parseMediaType (c.contentType hdr) = .ok (mediaType, params) →
      params.lookup "boundary" = none) :
    body.failure = none ∧ teeOutput c multipartReads body hdr = body.stream := by
  rw [readMessageBody] at h
  unfold teeOutput
  cases hp : c.parseMediaType (c.contentType hdr) with
  | error e => rw [hp] at h; cases h
  | ok p =>
    obtain ⟨mediaType, params⟩ := p
    simp only [hp, hb _ _ hp] at h ⊢
    split_ifs at h ⊢
    · refine ⟨?_, readLoop_tee _ _ _ _⟩
      split at h
      · cases h
      · exact failure_eq_none_of_readSigned (by assumption)
    · refine ⟨?_, readLoop_tee _ _ _ _⟩
      split at h
      · cases h
      · exact failure_eq_none_of_readPlain (by assumption)

/-- A single part whose last byte comes with `io.EOF`: the message loses it,
`wr` does not. -/
theorem teeOutput_of_readMessageBody_plain :
    let c : Codec String (List UInt8) :=
      { contentType := id, signature := fun _ => "", pubkey := fun _ => "",
        partContentType := id, parseMediaType := fun t => .ok (t, []),
        readMIMEHeader := fun _ => .error "EOF", nextParts := fun _ _ => [],
        readAttachment := fun _ _ _ => none, createPlaintextAttachment := id,
        unhex := fun _ => [], sha512 := id, cryptoVerifyFucky := fun _ _ _ => false }
    readMessageBody c [⟨[1], none⟩, ⟨[2], some .eof⟩] "text/plain" false =
        .ok ⟨"text/plain", some [1], []⟩ ∧
      teeOutput c (fun _ _ => 0) [⟨[1], none⟩, ⟨[2], some .eof⟩] "text/plain" = [1, 2] := by
  intro c
  have h : readMessageBody c [⟨[1], none⟩, ⟨[2], some .eof⟩] "text/plain" false =
      .ok ⟨"text/plain", some [1], []⟩ := by
    rw [readMessageBody]; rfl
  exact ⟨h, (teeOutput_of_readMessageBody c (fun _ _ => 0) h fun _ _ hp => by cases hp; rfl).2⟩

/-- A multipart body whose first `Read` brings the whole message up to its
closing delimiter line and whose second brings an epilogue: the parse
succeeds, and a multipart reader that makes no second `Read` once it has the
closing delimiter, as `mime/multipart` does, leaves the epilogue out of
`wr`. -/
theorem teeOutput_misses_epilogue :
    let c : Codec String (List UInt8) :=
      { contentType := id, signature := fun _ => "", pubkey := fun _ => "",
        partContentType := id,
        parseMediaType := fun t =>
          if t = "multipart/mixed; boundary=b" then .ok ("multipart/mixed", [("boundary", "b")])
          else .ok (t, []),
        readMIMEHeader := fun _ => .error "EOF",
        nextParts := fun _ _ => [.ok ("text/plain", [⟨[104, 105], some .eof⟩])],
        readAttachment := fun _ part _ => some part.stream,
        createPlaintextAttachment := id, unhex := fun _ => [], sha512 := id,
        cryptoVerifyFucky := fun _ _ _ => false }
    let msg : List UInt8 := "--b\r\n\r\nhi\r\n--b--\r\n".toList.map (·.toNat.toUInt8)
    let body : Reader := [⟨msg, none⟩, ⟨[120], none⟩]
    ∀ multipartReads : Reader → String → Nat, multipartReads body "b" ≤ 1 →
      (readMessageBody c body "multipart/mixed; boundary=b" false).toOption =
          some ⟨"multipart/mixed; boundary=b", some [104, 105], []⟩ ∧
        body.failure = none ∧ body.stream = msg ++ [120] ∧
        teeOutput c multipartReads body "multipart/mixed; boundary=b" ≠ body.stream := by
  intro c msg body mr hmr
  refine ⟨by rw [readMessageBody]; rfl, rfl, rfl, ?_⟩
  change body.pulled (mr body "b") ≠ _
  rcases Nat.le_one_iff_eq_zero_or_eq_one.1 hmr with h | h <;> rw [h] <;> decide

theorem teeOutput_misses_epilogue_one_read :
    let c : Codec String (List UInt8) :=
      { contentType := id, signature := fun _ => "", pubkey := fun _ => "",
        partContentType := id,
        parseMediaType := fun t =>
          if t = "multipart/mixed; boundary=b" then .ok ("multipart/mixed", [("boundary", "b")])
          else .ok (t, []),
        readMIMEHeader := fun _ => .error "EOF",
        nextParts := fun _ _ => [.ok ("text/plain", [⟨[104, 105], some .eof⟩])],
        readAttachment := fun _ part _ => some part.stream,
        createPlaintextAttachment := id, unhex := fun _ => [], sha512 := id,
        cryptoVerifyFucky := fun _ _ _ => false }
    let msg : List UInt8 := "--b\r\n\r\nhi\r\n--b--\r\n".toList.map (·.toNat.toUInt8)
    let body : Reader := [⟨msg, none⟩, ⟨[120], none⟩]
    (fun _ _ => 1 : Reader → String → Nat) body "b" ≤ 1 ∧
      teeOutput c (fun _ _ => 1) body "multipart/mixed; boundary=b" ≠ body.stream :=
  ⟨le_rfl, (teeOutput_misses_epilogue _ le_rfl).2.2.2⟩

/-! ## Envelopes -/

/-- The test that sends `read_message_body` into the envelope branch: the
content type parses to `message/rfc822` without a `boundary` parameter. -/
def Codec.IsEnvelope (hdr : Hdr) : Prop :=
  ∃ params, c.parseMediaType (c.contentType hdr) = .ok ("message/rfc822", params) ∧
    params.lookup "boundary" = none

/-- How `read_message_body` reaches the article `art` from `body`: through
envelopes, each with both signature headers set, its body read to the bytes
`B` that are both hashed and buffered, `CryptoVerifyFucky` true over
`SHA-512(B)`, and the next level parsed from `B` alone; then a level that is
not an envelope. -/
inductive Unwraps (store : Bool) : Reader → Hdr → Parsed Hdr Att → Prop
  | inner {body : Reader} {hdr : Hdr} {art : Parsed Hdr Att} :
      ¬ c.IsEnvelope hdr → readMessageBody c body hdr store = .ok art →
      Unwraps store body hdr art
  | envelope {body : Reader} {hdr inner : Hdr} {art : Parsed Hdr Att} {B rest : List UInt8} :
      c.IsEnvelope hdr → c.pubkey hdr ≠ "" → c.signature hdr ≠ "" →
      readSigned body = .ok (B, B) →
      c.cryptoVerifyFucky (c.sha512 B) (c.unhex (c.signature hdr)) (c.unhex (c.pubkey hdr)) →
      (c.readMIMEHeader B).map Subtype.val = .ok (inner, rest) →
      Unwraps store (ofBytes rest) inner art → Unwraps store body hdr art

/-- Every article `read_message_body` returns is reached through verified
envelopes: at every level the signature headers were set and the check
passed over the exact bytes buffered there, and each level is parsed from
the bytes of the level above alone. -/
theorem unwraps_of_readMessageBody (store : Bool) (body : Reader) (hdr : Hdr)
    (art : Parsed Hdr Att) (h : readMessageBody c body hdr store = .ok art) :
    Unwraps c store body hdr art := by
  induction' hn : body.total using Nat.strong_induction_on with n ih generalizing body hdr
  by_cases he : c.IsEnvelope hdr
  · obtain ⟨params, hp, hb⟩ := he
    rw [readMessageBody] at h
    simp only [hp, hb, if_true] at h
    split_ifs at h with hhdr
    split at h
    · cases h
    · rename_i hashed buff hr
      split_ifs at h with hverify
      split at h
      · cases h
      · rename_i inner rest hlt hrm
        obtain ⟨rfl, rfl⟩ := readSigned_ok hr
        refine .envelope ⟨params, hp, hb⟩ (fun h => hhdr (.inl h)) (fun h => hhdr (.inr h)) hr
          hverify (by rw [hrm]; rfl) (ih _ ?_ _ _ h rfl)
        exact hn ▸ lt_of_lt_of_le (by simpa [ofBytes, Reader.total] using hlt)
          (readSigned_length_le hr)
  · exact .inner he h

/-- One envelope around a plain article, under a codec whose header block is
the first byte and whose check passes. -/
theorem unwraps_of_readMessageBody_one_envelope :
    let c : Codec String (List UInt8) :=
      { contentType := id, signature := fun _ => "sig", pubkey := fun _ => "pk",
        partContentType := id, parseMediaType := fun t => .ok (t, []),
        readMIMEHeader := fun
          | [] => .error "EOF"
          | _ :: rest => .ok ⟨("text/plain", rest), by simp⟩,
        nextParts := fun _ _ => [], readAttachment := fun _ _ _ => none,
        createPlaintextAttachment := id, unhex := fun _ => [], sha512 := id,
        cryptoVerifyFucky := fun _ _ _ => true }
    readMessageBody c [⟨[13, 7], none⟩] "message/rfc822" true =
        .ok ⟨"text/plain", some [7], []⟩ ∧
      Unwraps c true [⟨[13, 7], none⟩] "message/rfc822" ⟨"text/plain", some [7], []⟩ := by
  intro c
  have h : readMessageBody c [⟨[13, 7], none⟩] "message/rfc822" true =
      .ok ⟨"text/plain", some [7], []⟩ := by
    have hinner : readMessageBody c (ofBytes [7]) "text/plain" true =
        .ok ⟨"text/plain", some [7], []⟩ := by
      rw [readMessageBody]; rfl
    rw [readMessageBody]
    exact hinner
  exact ⟨h, unwraps_of_readMessageBody c true _ _ _ h⟩

end Srnd.Message
