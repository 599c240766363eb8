import Srnd.Message.Signed

/-!
# Messages with attachments through `WriteTo` and `Load`

With attachments and no signed text, `WriteTo` writes a multipart body: the
line `SRNDv2 Multipart UGUU`, then, through a `multipart.Writer` on the same
`NewLineWriter`, a `text/plain` part with the message and one part per
attachment.  The multipart writer's own writes get the delimiter too, so the
bytes of each part, between its header and the next boundary, are its data
with a newline before and after (`lineWrite_bodyWrites`).

`Load(r, true)` reads the parts back into a zero message
(`load_writeTo_attachments`), and what it makes of them is not what was
written:

* the text part comes back as the first attachment, and the data of every
  `text/plain` part, the text part's and any attachment's of that type, is
  appended to the message;
* every part's data carries the two newlines;
* every file name is lost: `WriteTo` adds it as a second
  `Content-Disposition` value, and `FileName()` parses the first one alone,
  `attachment`;
* the types are cut at their first semicolon.

The part loop itself is `loadParts_of_ok`, over any parts that read.  The
multipart reader and `mime.ParseMediaType` are the standard library's:
`Attached` lists what the theorem needs of them, at the inputs `Load` gives
them.
-/

namespace Srnd.Message

variable (lib : Stdlib)

/-! ## The part loop -/

/-- Below 32, the part loop over parts that all read appends one attachment
per part, in order, and the data of the `text/plain` ones to the message. -/
theorem loadParts_of_ok {idx : Int} (hidx : idx < 32) (self : NNTPMessage)
    (parts : List (List (List UInt8 × List (List UInt8)) × List UInt8)) :
    let atts := parts.map fun p => partAttachment lib ⟨p.1, .ok p.2⟩ p.2
    loadParts lib idx self (parts.map fun p => .ok ⟨p.1, .ok p.2⟩) =
      (true, { self with
        message := self.message ++ (atts.filter (·.mime = utf8 "text/plain")).flatMap (·.data),
        attachments := self.attachments ++ atts }) := by
  have hn : ¬ 32 ≤ idx := Int.not_le.2 hidx
  dsimp only
  induction parts generalizing self with
  | nil => simp [loadParts, hn]
  | cons p ps ih =>
    rw [List.map_cons, loadParts]
    simp only [hn, if_false]
    rw [ih]
    split_ifs with ht <;> simp [ht]

/-- The text part has no `Content-Disposition`, which `mime.ParseMediaType`
rejects, and its type is `text/plain`. -/
theorem partAttachment_textPart (h : lib.parseMediaType [] = none) (d : List UInt8) :
    partAttachment lib ⟨textPartHeader, .ok d⟩ d = ⟨utf8 "text/plain", [], [], d⟩ := by
  have hget : headerGet textPartHeader (utf8 "Content-Disposition") = [] := by decide
  have hct : cutAtSemicolon (headerGet textPartHeader (utf8 "Content-Type")) =
      utf8 "text/plain" := by decide
  simp only [partAttachment, fileName, hget, hct, h]
  rfl

/-- `Get` returns the first value of a key: `attachment` for the disposition,
and the type of the attachment. -/
theorem headerGet_attachmentPartHeader (att : NNTPAttachment) :
    headerGet (attachmentPartHeader att) (utf8 "Content-Disposition") = utf8 "attachment" ∧
      headerGet (attachmentPartHeader att) (utf8 "Content-Type") = att.mime := by
  have h1 : (utf8 "Content-Disposition" == utf8 "Content-Disposition") = true := by decide
  have h2 : (utf8 "Content-Type" == utf8 "Content-Disposition") = false := by decide
  have h3 : (utf8 "Content-Type" == utf8 "Content-Transfer-Encoding") = false := by decide
  have h4 : (utf8 "Content-Type" == utf8 "Content-Type") = true := by decide
  simp only [headerGet, attachmentPartHeader, List.lookup_cons, h1, h2, h3, h4]
  exact ⟨rfl, rfl⟩

/-- An attachment part loses its file name: `FileName()` parses the first
`Content-Disposition` value, `attachment`, which has no parameters. -/
theorem partAttachment_attachmentPart
    (h : lib.parseMediaType (utf8 "attachment") = some (utf8 "attachment", []))
    (att : NNTPAttachment) (d : List UInt8) :
    partAttachment lib ⟨attachmentPartHeader att, .ok d⟩ d =
      ⟨cutAtSemicolon att.mime, [], [], d⟩ := by
  obtain ⟨hcd, hct⟩ := headerGet_attachmentPartHeader att
  simp only [partAttachment, fileName, hcd, hct, h]
  rfl

/-! ## The body on the wire -/

/-- What `multipart.Writer` writes after `SetBoundary(boundary)` for the
parts `first :: rest`, each created with the header `p.1` and then written
`p.2`, up to `Close`. -/
def multipartWrite (boundary : List UInt8)
    (first : List (List UInt8 × List (List UInt8)) × List UInt8)
    (rest : List (List (List UInt8 × List (List UInt8)) × List UInt8)) : List UInt8 :=
  createPart boundary true first.1 ++ first.2 ++
    rest.flatMap (fun p => createPart boundary false p.1 ++ p.2) ++
    (utf8 "\r\n--" ++ boundary ++ utf8 "--\r\n")

/-- A part as it reaches the wire through `NewLineWriter`: the header, and
the data between the newline written after the header and the one written
after the data. -/
def framedPart (hdr : List (List UInt8 × List (List UInt8))) (data : List UInt8) :
    List (List UInt8 × List (List UInt8)) × List UInt8 :=
  (hdr, 10 :: data ++ [10])

/-- The multipart body `WriteTo(w, "\n")` writes: the preamble line, then
what the multipart writer writes for the text part and the attachments, the
data of each framed by newlines, and the newline after `Close`. -/
theorem lineWrite_bodyWrites (boundary : List UInt8) {A : NNTPMessage} (hs : A.signed = [])
    (ha : A.attachments ≠ []) :
    lineWrite (utf8 "\n") (bodyWrites boundary A) =
      utf8 "SRNDv2 Multipart UGUU\n" ++
        multipartWrite boundary (framedPart textPartHeader A.message)
          (A.attachments.map fun att => framedPart (attachmentPartHeader att) att.data) ++
        [10] := by
  have hnl : utf8 "\n" = [10] := rfl
  have hpre : utf8 "SRNDv2 Multipart UGUU\n" = utf8 "SRNDv2 Multipart UGUU" ++ [10] := by decide
  simp only [lineWrite, bodyWrites, multipartWrite, framedPart, hs, ha, hnl, hpre, ne_eq,
    not_true_eq_false, not_false_eq_true, if_false, if_true, List.map_append, List.map_cons,
    List.map_nil, List.map_flatMap, List.flatten_append, List.flatten_cons, List.flatten_nil,
    List.flatMap_map]
  rw [List.flatten_eq_flatMap, List.flatMap_assoc]
  simp

/-- With attachments and no signed text, `WriteTo(w, "\n")` writes the header
lines of the message with the multipart content type, an empty line, and the
multipart body. -/
theorem writeTo_attachments (r : List UInt8) {A : NNTPMessage} (ha : A.attachments ≠ []) :
    (writeTo lib r A (utf8 "\n")).1 =
      ((headerWrites lib { A with contentType := multipartContentType (hexBytes r) }).map
        (· ++ [10])).flatten ++ 10 :: lineWrite (utf8 "\n") (bodyWrites (hexBytes r) A) := by
  have hnl : utf8 "\n" = [10] := rfl
  have hb : bodyWrites (hexBytes r) { A with contentType := multipartContentType (hexBytes r) } =
      bodyWrites (hexBytes r) A := rfl
  simp only [writeTo, ha, ne_eq, not_false_eq_true, if_true, hb, lineWrite, List.map_append,
    List.flatten_append, hnl, List.map_cons, List.map_nil, List.flatten_cons, List.flatten_nil,
    List.nil_append, List.append_nil, List.singleton_append, List.append_assoc]

/-! ## The multipart content type -/

/-- `strings.Index(k + string(c) + t, string(c))` is `len(k)` when `k` has no
`c`. -/
theorem strIndex_singleton_append {c : UInt8} {k : List UInt8} (hk : c ∉ k) (t : List UInt8) :
    strIndex (k ++ c :: t) [c] = k.length := by
  unfold strIndex
  rw [(@List.find?_range_eq_some _ k.length _).2 ⟨by simp, by simp; omega, fun j hj => ?_⟩]
  rw [List.drop_append_of_le_length hj.le]
  cases hd : k.drop j with
  | nil => simp at hd; omega
  | cons d s =>
    simp only [List.cons_append, List.isPrefixOf, List.isPrefixOf_nil_left, Bool.and_true,
      Bool.not_eq_true', beq_eq_false_iff_ne, ne_eq]
    rintro rfl
    exact hk (List.mem_of_mem_drop (hd ▸ List.mem_cons_self _ _))

theorem cutAtSemicolon_multipartContentType (boundary : List UInt8) :
    cutAtSemicolon (multipartContentType boundary) = utf8 "multipart/mixed" := by
  have hl : utf8 "multipart/mixed; boundary=\"" =
      utf8 "multipart/mixed" ++ 59 :: utf8 " boundary=\"" := by decide
  have hs : utf8 ";" = [59] := rfl
  have hne : utf8 "multipart/mixed" ≠ [] := by decide
  rw [cutAtSemicolon, multipartContentType, hl, hs, List.append_assoc, List.append_assoc,
    List.cons_append, strIndex_singleton_append (by decide)]
  simp [hne]

theorem newline_not_mem_multipartContentType (r : List UInt8) :
    10 ∉ multipartContentType (hexBytes r) := by
  simp only [multipartContentType, List.mem_append, not_or]
  exact ⟨⟨by decide, newline_not_mem_hexBytes r⟩, by decide⟩

/-! ## The round trip -/

/-- `multipart.Reader` on the bytes `multipart.Writer` wrote after the
preamble `pre` and before `epi`: every part, with the header it was created
with and the bytes written to it.  The standard reader does so when the
preamble has no boundary line, no header value breaks a line, and no part's
bytes hold a CRLF followed by `--` and the boundary. -/
def ReadsBack (boundary pre : List UInt8)
    (first : List (List UInt8 × List (List UInt8)) × List UInt8)
    (rest : List (List (List UInt8 × List (List UInt8)) × List UInt8)) (epi : List UInt8) : Prop :=
  lib.nextParts boundary (pre ++ multipartWrite boundary first rest ++ epi) =
    (first :: rest).map fun p => .ok ⟨p.1, .ok p.2⟩

/-- What the attachment round trip asks of a message: attachments and no
signed text; not both a key and a signature; header values on one line; a
newsgroup without a comma other than `ano.paste`; extra headers that `Load`
does not take for its own, with names shorter than 32 bytes; a date that the
standard library parses back.  And of the standard library, with the
boundary `WriteTo` draws: `mime.ParseMediaType` of the multipart type, of an
empty value and of `attachment`, and the multipart reader reading back the
parts as they reach the wire. -/
structure Attached (boundary : List UInt8) (A : NNTPMessage) : Prop where
  attachments : A.attachments ≠ []
  signed : A.signed = []
  unsigned : ¬ (A.key ≠ [] ∧ A.signature ≠ [])
  oneLine : ∀ s ∈ [A.name, A.email, lib.formatRFC1123Z A.posted, A.key, A.signature,
    A.newsgroup, A.subject, A.messageID, A.reference, A.path], 10 ∉ s
  extraOneLine : ∀ kv ∈ A.extraHeaders, 10 ∉ kv.1 ∧ 10 ∉ kv.2
  newsgroupComma : 44 ∉ A.newsgroup
  newsgroupPaste : A.newsgroup ≠ utf8 "ano.paste"
  extraUnrecognised : ∀ kv ∈ A.extraHeaders,
    recognised lib (kv.1 ++ utf8 ": " ++ kv.2 ++ [10]) = false ∧ kv.1.length < 32
  date : lib.parseRFC1123Z (lib.formatRFC1123Z A.posted) = some A.posted
  mediaType : lib.parseMediaType (multipartContentType boundary) =
    some (utf8 "multipart/mixed", [(utf8 "boundary", boundary)])
  noDisposition : lib.parseMediaType [] = none
  disposition : lib.parseMediaType (utf8 "attachment") = some (utf8 "attachment", [])
  reads : ReadsBack lib boundary (utf8 "SRNDv2 Multipart UGUU\n")
    (framedPart textPartHeader A.message)
    (A.attachments.map fun att => framedPart (attachmentPartHeader att) att.data) [10]

/-- A message with attachments that `WriteTo(w, "\n")` writes and
`Load(r, true)` reads back into a zero `NNTPMessage`: `Load` accepts; the
header fields are the message's, with no key or signature and the content
type cut to `multipart/mixed`; the attachments are the text part followed by
one per attachment, every name lost and every part's data between two
newlines; and the message is the data of the text part followed by that of
the `text/plain` attachments. -/
theorem load_writeTo_attachments (r : List UInt8) (A : NNTPMessage)
    (h : Attached lib (hexBytes r) A) :
    let A' := load lib {} (writeTo lib r A (utf8 "\n")).1 true
    A'.1 = true ∧
      A'.2.headerFields =
        { A.headerFields with key := [], signature := [], contentType := utf8 "multipart/mixed" } ∧
      A'.2.attachments = ⟨utf8 "text/plain", [], [], 10 :: A.message ++ [10]⟩ ::
        A.attachments.map (fun att => ⟨cutAtSemicolon att.mime, [], [], 10 :: att.data ++ [10]⟩) ∧
      A'.2.message = (10 :: A.message ++ [10]) ++
        (A.attachments.filter (cutAtSemicolon ·.mime = utf8 "text/plain")).flatMap
          (fun att => 10 :: att.data ++ [10]) := by
  let M : NNTPMessage := { A with contentType := multipartContentType (hexBytes r) }
  have hL : ∀ l ∈ headerWrites lib M, l ≠ [] ∧ 10 ∉ l :=
    headerWrites_oneLine (List.forall_mem_cons.2 ⟨newline_not_mem_multipartContentType r,
      h.oneLine⟩) h.extraOneLine
  have hf := @headerFields_headerWrites lib M h.newsgroupComma h.date
    fun kv hkv => (h.extraUnrecognised kv hkv).1
  rw [if_neg h.unsigned, if_neg h.unsigned] at hf
  have hidx := @idx_headerWrites_lt lib M h.newsgroupComma h.extraUnrecognised ⟨{}, 0⟩
  have hbody := body_foldl_loadHeaderLine lib ⟨{}, 0⟩ (headerWrites lib M)
  generalize hst : List.foldl _ _ _ = st at hf hidx hbody
  simp only [NNTPMessage.headerFields, HeaderFields.mk.injEq] at hf
  obtain ⟨hmid, hng, href, hsubj, hpath, hposted, hkey, hsig, hct⟩ := hf
  have hb : ([(utf8 "boundary", hexBytes r)].lookup (utf8 "boundary")).getD [] = hexBytes r := by
    have h1 : (utf8 "boundary" == utf8 "boundary") = true := by decide
    simp only [List.lookup_cons, h1]
    rfl
  dsimp only
  rw [writeTo_attachments lib r h.attachments, lineWrite_bodyWrites _ h.signed h.attachments,
    load_multipart lib (headerWrites lib M) hL _ st hst (hng ▸ h.newsgroupPaste) (by simp [hkey])
      (hct ▸ List.append_ne_nil_of_right_ne_nil _ (by decide)) (hct ▸ h.mediaType) (by decide),
    hb, h.reads, loadParts_of_ok lib hidx]
  simp [hmid, hng, href, hsubj, hpath, hposted, hkey, hsig, hct, hbody,
    cutAtSemicolon_multipartContentType, partAttachment_textPart lib h.noDisposition,
    partAttachment_attachmentPart lib h.disposition, NNTPMessage.headerFields, List.filter_map,
    framedPart, Function.comp_def, List.flatMap_map]

/-- An image attached to a post comes back without its name, and the text
part comes back as an attachment, both between newlines. -/
theorem load_writeTo_attachments_image :
    let b := hexBytes (List.replicate 30 0)
    let A : NNTPMessage :=
      { messageID := utf8 "<a@x>", newsgroup := utf8 "overchan.test", message := utf8 "hi",
        attachments := [{ mime := utf8 "image/png", name := utf8 "f.png", data := utf8 "iVBO" }] }
    let lib : Stdlib := ⟨List.map asciiLower, fun _ _ _ => rfl,
      fun _ => utf8 "Thu, 01 Jan 1970 00:00:00 +0000",
      fun s => if s = utf8 "Thu, 01 Jan 1970 00:00:00 +0000" then some 0 else none,
      fun t => if t = utf8 "attachment" then some (utf8 "attachment", [])
        else if t = [] then none else some (utf8 "multipart/mixed", [(utf8 "boundary", b)]),
      fun _ body =>
        let first := framedPart textPartHeader A.message
        let rest := A.attachments.map fun att => framedPart (attachmentPartHeader att) att.data
        if body = utf8 "SRNDv2 Multipart UGUU\n" ++ multipartWrite b first rest ++ [10]
        then (first :: rest).map fun p => .ok ⟨p.1, .ok p.2⟩ else []⟩
    Attached lib b A ∧
      (load lib {} (writeTo lib (List.replicate 30 0) A (utf8 "\n")).1 true).2.attachments =
        [⟨utf8 "text/plain", [], [], utf8 "\nhi\n"⟩,
          ⟨utf8 "image/png", [], [], utf8 "\niVBO\n"⟩] := by
  intro b A lib
  have h : Attached lib b A := by
    refine ⟨by decide, rfl, by decide, by decide, by decide, by decide, by decide, by decide,
      by decide, ?_, ?_, ?_, ?_⟩ <;> dsimp only [ReadsBack, lib]
    · exact (if_neg (by decide)).trans (if_neg (List.append_ne_nil_of_right_ne_nil _ (by decide)))
    · exact (if_neg (by decide)).trans (if_pos rfl)
    · exact if_pos rfl
    · exact if_pos rfl
  exact ⟨h, (load_writeTo_attachments lib _ A h).2.2.1.trans (by decide)⟩

end Srnd.Message
