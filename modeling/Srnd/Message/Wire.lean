import Mathlib.Data.List.Basic

/-!
# The wire form of an `NNTPMessage`: `WriteTo` and `Load`

`WriteTo(w, delim)` writes the header lines, an empty line and the body
through `NewLineWriter`, which ends every write with `delim`.  `Load(r, true)`
reads the header lines back with `ReadString('\n')`, recognises a header by
the prefix of the line in lower case, slices the value out of the line, then
reads the rest of the stream as the body.

A Go `string` is a byte string, and so is every string here: the fields of
`NNTPMessage`, the lines and the stream are `List UInt8`, and `len`,
`strings.Index`, `strings.LastIndex` and the slices `line[i:j]` count bytes.
A string literal of the source is `utf8 "..."`, its UTF-8 encoding; the
literals of the two methods are ASCII, one byte per character.  `Load` tests
the prefix on `strings.ToLower(line)` and slices `line` itself.  `ToLower`
works rune by rune, and the lower case of a rune can take fewer or more bytes
than the rune (`U+0130`, two bytes, lowers to `i`), so the slice is at the
byte offset the prefix has in the lowered line.

The standard library functions the two methods call (`strings.ToLower`, date
formatting and parsing, `mime.ParseMediaType`, the parts of a
`multipart.Reader`) are the fields of `Stdlib`.  Of `ToLower` the model keeps
the one fact the proofs use: an ASCII byte is a rune of its own and is
lowered as ASCII (`Stdlib.toLower_ascii`).  `multipart.Writer` is modelled:
what `CreatePart` and `Close` write is fixed.

`Srnd.Message.RoundTrip` reads back what `writeTo` writes.
-/

namespace Srnd.Message

/-- The bytes of a Go string literal: its UTF-8 encoding. -/
def utf8 (s : String) : List UInt8 := s.toList.flatMap String.utf8EncodeChar

/-- `unicode.ToLower` on an ASCII byte: `A`-`Z` move to `a`-`z`. -/
def asciiLower (b : UInt8) : UInt8 := if 65 ≤ b ∧ b ≤ 90 then b + 32 else b

/-- `NNTPAttachment`. -/
structure NNTPAttachment where
  mime : List UInt8 := []
  name : List UInt8 := []
  extension : List UInt8 := []
  data : List UInt8 := []
  deriving DecidableEq, Repr

/-- `NNTPMessage`, with the fields `WriteTo` and `Load` read or set
(`Please` and `OP` are neither).  The defaults are Go's zero values;
`extraHeaders` is the Go map as its entries in iteration order. -/
structure NNTPMessage where
  messageID : List UInt8 := []
  reference : List UInt8 := []
  newsgroup : List UInt8 := []
  name : List UInt8 := []
  email : List UInt8 := []
  subject : List UInt8 := []
  key : List UInt8 := []
  signature : List UInt8 := []
  posted : Int := 0
  message : List UInt8 := []
  path : List UInt8 := []
  contentType : List UInt8 := []
  sage : Bool := false
  extraHeaders : List (List UInt8 × List UInt8) := []
  attachments : List NNTPAttachment := []
  signed : List UInt8 := []
  deriving DecidableEq, Repr

/-- A part as `multipart.Reader.NextPart` returns it: its header, with
canonical keys, and what reading it to the end gives. -/
structure MultipartPart where
  header : List (List UInt8 × List (List UInt8))
  body : Except String (List UInt8)

/-- The standard library functions `WriteTo` and `Load` call. -/
structure Stdlib where
  /-- `strings.ToLower`: `unicode.ToLower` on every rune. -/
  toLower : List UInt8 → List UInt8
  /-- A byte below `0x80` is a rune of its own whatever follows, and
  `unicode.ToLower` lowers it as ASCII. -/
  toLower_ascii : ∀ b s, b < 0x80 → toLower (b :: s) = asciiLower b :: toLower s
  /-- `time.Unix(t, 0).UTC().Format(time.RFC1123Z)`. -/
  formatRFC1123Z : Int → List UInt8
  /-- `time.Parse(time.RFC1123Z, s)`, then `Unix()`. -/
  parseRFC1123Z : List UInt8 → Option Int
  /-- `mime.ParseMediaType`: the media type and its parameters. -/
  parseMediaType : List UInt8 → Option (List UInt8 × List (List UInt8 × List UInt8))
  /-- What `NextPart` returns on `multipart.NewReader(body, boundary)`, call
  after call, up to the call that returns `io.EOF`. -/
  nextParts : List UInt8 → List UInt8 → List (Except String MultipartPart)

/-! ## `WriteTo` -/

/-- A hex digit as `fmt` writes it, in lower case. -/
def hexDigit (n : Nat) : UInt8 := if n < 10 then (48 + n).toUInt8 else (87 + n).toUInt8

/-- `fmt.Sprintf("%x", r[:])`: two hex digits per byte. -/
def hexBytes (r : List UInt8) : List UInt8 :=
  r.flatMap fun b => [hexDigit (b.toNat / 16), hexDigit (b.toNat % 16)]

/-- `NewLineWriter(w, delim)` (not in the sources): every `Write` passes its
bytes on and ends them with `delim`, which makes each string `WriteTo` writes
one line. -/
def lineWrite (delim : List UInt8) (writes : List (List UInt8)) : List UInt8 :=
  (writes.map (· ++ delim)).flatten

/-- What `multipart.Writer.CreatePart` writes: the boundary line, after a
CRLF unless it opens the first part, the header lines in key order, and a
CRLF. -/
def createPart (boundary : List UInt8) (first : Bool)
    (hdr : List (List UInt8 × List (List UInt8))) : List UInt8 :=
  (if first then [] else utf8 "\r\n") ++ utf8 "--" ++ boundary ++ utf8 "\r\n" ++
    (hdr.flatMap fun kv => kv.2.flatMap fun v => kv.1 ++ utf8 ": " ++ v ++ utf8 "\r\n") ++
    utf8 "\r\n"

/-- `fmt.Sprintf("multipart/mixed; boundary=\"%s\"", boundary)`. -/
def multipartContentType (boundary : List UInt8) : List UInt8 :=
  utf8 "multipart/mixed; boundary=\"" ++ boundary ++ utf8 "\""

/-- The header lines `WriteTo` writes, after it has set `ContentType`. -/
def headerWrites (lib : Stdlib) (self : NNTPMessage) : List (List UInt8) :=
  (if self.attachments ≠ [] then [utf8 "Mime-Version: 1.0"] else []) ++
  [utf8 "Content-Type: " ++ self.contentType,
    utf8 "From: " ++ self.name ++ utf8 " <" ++ self.email ++ utf8 ">",
    utf8 "Date: " ++ lib.formatRFC1123Z self.posted] ++
  (if self.key ≠ [] ∧ self.signature ≠ [] then
    [utf8 "X-pubkey-ed25519: " ++ self.key,
      utf8 "X-signature-ed25519-sha512: " ++ self.signature]
  else []) ++
  [utf8 "Newsgroups: " ++ self.newsgroup, utf8 "Subject: " ++ self.subject,
    utf8 "Message-ID: " ++ self.messageID] ++
  (if self.reference ≠ [] then [utf8 "References: " ++ self.reference] else []) ++
  [utf8 "Path: " ++ self.path] ++
  self.extraHeaders.map fun kv => kv.1 ++ utf8 ": " ++ kv.2

/-- The header of the text part: `Set` keeps one value per key, and
`CreatePart` writes the keys in order. -/
def textPartHeader : List (List UInt8 × List (List UInt8)) :=
  [(utf8 "Content-Transfer-Encoding", [utf8 "8bit"]),
    (utf8 "Content-Type", [utf8 "text/plain; charset=UTF-8"])]

/-- The header of an attachment part: `Content-Disposition` is `Set` to
`attachment` and the file name is `Add`ed as its second value. -/
def attachmentPartHeader (att : NNTPAttachment) : List (List UInt8 × List (List UInt8)) :=
  [(utf8 "Content-Disposition", [utf8 "attachment", utf8 "filename=\"" ++ att.name ++ utf8 "\""]),
    (utf8 "Content-Transfer-Encoding", [utf8 "base64"]), (utf8 "Content-Type", [att.mime])]

/-- The writes of the body: `Signed` alone, or the multipart form with the
message as a `text/plain` part and one part per attachment, or the message. -/
def bodyWrites (boundary : List UInt8) (self : NNTPMessage) : List (List UInt8) :=
  if self.signed ≠ [] then [self.signed]
  else if self.attachments ≠ [] then
    [utf8 "SRNDv2 Multipart UGUU", createPart boundary true textPartHeader, self.message] ++
    self.attachments.flatMap (fun att =>
      [createPart boundary false (attachmentPartHeader att), att.data]) ++
    [utf8 "\r\n--" ++ boundary ++ utf8 "--\r\n"]
  else [self.message]

/-- `WriteTo(w, delim)` with the random bytes `r`: the bytes written, and the
message, whose `ContentType` it overwrites when there are attachments. -/
def writeTo (lib : Stdlib) (r : List UInt8) (self : NNTPMessage) (delim : List UInt8) :
    List UInt8 × NNTPMessage :=
  let boundary := hexBytes r
  let self := if self.attachments ≠ [] then
      { self with contentType := multipartContentType boundary }
    else self
  (lineWrite delim (headerWrites lib self ++ [[]] ++ bodyWrites boundary self), self)

/-! ## `Load` -/

/-- `strings.HasPrefix(s, p)`. -/
def hasPrefix (s p : List UInt8) : Bool := p.isPrefixOf s

/-- `s[i:j]`. -/
def slice (s : List UInt8) (i j : Nat) : List UInt8 := (s.drop i).take (j - i)

/-- `strings.Index(s, sep)`: the first position of `sep` in `s`, or -1. -/
def strIndex (s sep : List UInt8) : Int :=
  match (List.range (s.length + 1)).find? fun i => sep.isPrefixOf (s.drop i) with
  | some i => i
  | none => -1

/-- `strings.LastIndex(s, sep)`: the last position of `sep` in `s`, or -1. -/
def strLastIndex (s sep : List UInt8) : Int :=
  match (List.range (s.length + 1)).reverse.find? fun i => sep.isPrefixOf (s.drop i) with
  | some i => i
  | none => -1

/-- Go's `m[k] = v` on a map kept as its entries. -/
def mapSet {κ ν : Type} [DecidableEq κ] (k : κ) (v : ν) (m : List (κ × ν)) : List (κ × ν) :=
  if m.any (·.1 = k) then m.map fun e => if e.1 = k then (k, v) else e else m ++ [(k, v)]

/-- `line[k:llen-1]`: the value of a header line whose name and separator
take `k` bytes, without the newline. -/
def headerValue (k : Nat) (line : List UInt8) : List UInt8 := slice line k (line.length - 1)

/-- What `Load`'s header loop carries: the message and its variable `idx`. -/
structure LoadState where
  msg : NNTPMessage
  idx : Int

/-- The `from: ` branch, on the line already cut to `line[6:llen-1]`. -/
def loadFrom (line : List UInt8) (st : LoadState) : LoadState :=
  let llen := line.length
  let idx := strLastIndex line (utf8 " ")
  if idx + 2 < llen ∧ idx > 0 then
    ⟨{ st.msg with name := line.take idx.toNat, email := slice line (idx.toNat + 2) (llen - 1) },
      idx⟩
  else ⟨{ st.msg with name := line }, idx⟩

/-- The last branch, for a header line `Load` does not recognise: the map key
is the line from `": "` on, the value the line from the space on. -/
def loadExtraHeader (line : List UInt8) (st : LoadState) : LoadState :=
  let idx := strIndex line (utf8 ": ")
  if idx > 0 ∧ line.length > idx then
    ⟨{ st.msg with
        extraHeaders := mapSet (line.drop idx.toNat) (slice line (1 + idx.toNat) (line.length - 1))
          st.msg.extraHeaders }, idx⟩
  else { st with idx := idx }

/-- One header line of `Load`, with its newline. -/
def loadHeaderLine (lib : Stdlib) (line : List UInt8) (st : LoadState) : LoadState :=
  let lowline := lib.toLower line
  let m := st.msg
  if hasPrefix lowline (utf8 "newsgroups: ") then
    let newsgroups := headerValue 12 line
    let idx := strIndex newsgroups (utf8 ",")
    ⟨{ m with newsgroup := if idx ≠ -1 then newsgroups.take idx.toNat else newsgroups }, idx⟩
  else if hasPrefix lowline (utf8 "x-sage: ") then ⟨{ m with sage := true }, st.idx⟩
  else if hasPrefix lowline (utf8 "message-id: ") then
    ⟨{ m with messageID := headerValue 12 line }, st.idx⟩
  else if hasPrefix lowline (utf8 "subject: ") then
    ⟨{ m with subject := headerValue 9 line }, st.idx⟩
  else if hasPrefix lowline (utf8 "path: ") then ⟨{ m with path := headerValue 6 line }, st.idx⟩
  else if hasPrefix lowline (utf8 "references: ") then
    ⟨{ m with reference := headerValue 12 line }, st.idx⟩
  else if hasPrefix lowline (utf8 "from: ") then loadFrom (headerValue 6 line) st
  else if hasPrefix lowline (utf8 "x-pubkey-ed25519: ") then
    ⟨{ m with key := headerValue 18 line }, st.idx⟩
  else if hasPrefix lowline (utf8 "x-signature-ed25519-sha512: ") then
    ⟨{ m with signature := headerValue 28 line }, st.idx⟩
  else if hasPrefix lowline (utf8 "date: ") then
    match lib.parseRFC1123Z (headerValue 6 line) with
    | some t => ⟨{ m with posted := t }, st.idx⟩
    | none => st
  else if hasPrefix lowline (utf8 "content-type: ") then
    ⟨{ m with contentType := headerValue 14 line }, st.idx⟩
  else loadExtraHeader line st

/-- The header loop: `ReadString('\n')` line after line, each handled by
`loadHeaderLine`, up to a line that is only a newline (byte 10).  `line` is
what has been read of the current line.  The state, and the rest of the
stream or `none` when the stream ends inside a line. -/
def headerLoop (lib : Stdlib) (line : List UInt8) :
    List UInt8 → LoadState → LoadState × Option (List UInt8)
  | [], st => (st, none)
  | c :: rest, st =>
    if c = 10 then
      if line = [] then (st, some rest)
      else headerLoop lib [] rest (loadHeaderLine lib (line ++ [10]) st)
    else headerLoop lib (line ++ [c]) rest st

/-- `textproto.MIMEHeader.Get`: the first value of the key. -/
def headerGet (h : List (List UInt8 × List (List UInt8))) (key : List UInt8) : List UInt8 :=
  ((h.lookup key).bind List.head?).getD []

/-- `Part.FileName()`: the `filename` parameter of the first
`Content-Disposition` value. -/
def fileName (lib : Stdlib) (part : MultipartPart) : List UInt8 :=
  match lib.parseMediaType (headerGet part.header (utf8 "Content-Disposition")) with
  | some (_, params) => (params.lookup (utf8 "filename")).getD []
  | none => []

/-- `filepath.Ext`: the suffix from the last dot (46) of the last path
element, which starts after the last slash (47). -/
def filepathExt (path : List UInt8) : List UInt8 :=
  let tail := path.reverse.takeWhile fun c => c ≠ 46 ∧ c ≠ 47
  if (path.reverse.drop tail.length).head? = some 46 then 46 :: tail.reverse else []

/-- `s[:i]` for `i = strings.Index(s, ";")` when `i > 0`. -/
def cutAtSemicolon (s : List UInt8) : List UInt8 :=
  let i := strIndex s (utf8 ";")
  if i > 0 then s.take i.toNat else s

/-- The attachment the part loop makes of a part that read `data`: the
`Content-Type` cut at its first semicolon, `FileName()`, and the extension of
that name. -/
def partAttachment (lib : Stdlib) (part : MultipartPart) (data : List UInt8) : NNTPAttachment :=
  let fname := fileName lib part
  ⟨cutAtSemicolon (headerGet part.header (utf8 "Content-Type")), fname, filepathExt fname, data⟩

/-- The multipart loop of `Load`, over what `NextPart` returns.  `idx` is the
header loop's variable, which the loop tests and never changes. -/
def loadParts (lib : Stdlib) (idx : Int) :
    NNTPMessage → List (Except String MultipartPart) → Bool × NNTPMessage
  | self, parts =>
    if idx ≥ 32 then (false, self)
    else match parts with
      | [] => (true, self)
      | .error _ :: _ => (true, self)
      | .ok part :: rest =>
        match part.body with
        | .error _ => (false, self)
        | .ok data =>
          let np := partAttachment lib part data
          let self :=
            if np.mime = utf8 "text/plain" then { self with message := self.message ++ np.data }
            else self
          loadParts lib idx { self with attachments := self.attachments ++ [np] } rest

/-- `Load(file, loadBody)` on `self`: whether it succeeded, and `self` as
`Load` leaves it. -/
def load (lib : Stdlib) (self : NNTPMessage) (file : List UInt8) (loadBody : Bool) :
    Bool × NNTPMessage :=
  match headerLoop lib [] file ⟨{ self with extraHeaders := [] }, 0⟩ with
  | (st, none) => (false, st.msg)
  | (⟨self, idx⟩, some body) =>
    if !loadBody ∨ self.newsgroup = utf8 "ano.paste" then (true, self)
    else if self.key ≠ [] ∧ self.signature ≠ [] then (false, { self with signed := body })
    else if self.contentType = [] then (true, { self with message := body })
    else match lib.parseMediaType self.contentType with
      | none => (false, self)
      | some (mediaType, params) =>
        let self := { self with contentType := cutAtSemicolon self.contentType }
        if hasPrefix mediaType (utf8 "multipart/") then
          loadParts lib idx self (lib.nextParts ((params.lookup (utf8 "boundary")).getD []) body)
        else (true, { self with message := body })

end Srnd.Message
