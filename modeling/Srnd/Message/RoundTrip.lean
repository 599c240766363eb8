import Srnd.Message.Wire

/-!
# Reading back what `WriteTo` writes

`load_writeTo`: a message without attachments that `WriteTo(w, "\n")` writes
and `Load(r, true)` reads back into a zero `NNTPMessage` keeps its
message-id, newsgroup, reference, subject, path and date, and its text comes
back with the delimiter `NewLineWriter` put after it.  `Plain` lists what the
message must satisfy; whether an extra header is one that `Load` takes for
its own is decided with the library's `strings.ToLower` (`recognised`).  An
extra header that `Load` takes for one of its own overrides the field
(`load_writeTo_extra_subject`).

The proof follows the bytes.  `headerLoop_lines` runs the header loop over a
block of whole lines.  A line `WriteTo` writes starts with an ASCII header
name, so its lower case starts with the name in lower case
(`Stdlib.toLower_append_ascii`), and that alone decides every prefix test of
`loadHeaderLine`; the lemmas `headerFields_*` say what each line does to the
fields `Load` sets (`HeaderFields`).  The rest is the body branch of `Load`.
-/

namespace Srnd.Message

variable (lib : Stdlib)

/-! ## The header loop over whole lines -/

theorem headerLoop_line (line l rest : List UInt8) (st : LoadState) (hl : 10 ∉ l) :
    headerLoop lib line (l ++ 10 :: rest) st =
      if line ++ l = [] then (st, some rest)
      else headerLoop lib [] rest (loadHeaderLine lib (line ++ l ++ [10]) st) := by
  induction l generalizing line with
  | nil => simp [headerLoop]
  | cons c l ih =>
    have hc : c ≠ 10 := fun h => hl (h ▸ List.mem_cons_self _ _)
    rw [List.cons_append, headerLoop, if_neg hc, ih _ (fun h => hl (List.mem_cons_of_mem _ h))]
    simp

/-- A block of non-empty lines and an empty line: the loop handles each line
in turn and stops after the empty one. -/
theorem headerLoop_lines (L : List (List UInt8)) (rest : List UInt8) (st : LoadState)
    (hL : ∀ l ∈ L, l ≠ [] ∧ 10 ∉ l) :
    headerLoop lib [] ((L.map (· ++ [10])).flatten ++ 10 :: rest) st =
      (L.foldl (fun st l => loadHeaderLine lib (l ++ [10]) st) st, some rest) := by
  induction L generalizing st with
  | nil => simp [headerLoop]
  | cons l L ih =>
    obtain ⟨hne, hl⟩ := hL l (List.mem_cons_self _ _)
    simp only [List.map_cons, List.flatten_cons, List.append_assoc, List.singleton_append,
      List.cons_append]
    rw [headerLoop_line lib [] l _ st hl, if_neg (by simpa using hne)]
    simp only [List.nil_append]
    rw [ih _ fun l' h => hL l' (List.mem_cons_of_mem _ h), List.foldl_cons]

/-! ## The prefix tests -/

/-- `ToLower` of a string that starts with ASCII bytes starts with their
ASCII lower case. -/
theorem Stdlib.toLower_append_ascii {p : List UInt8} (hp : ∀ b ∈ p, b < 0x80)
    (s : List UInt8) : lib.toLower (p ++ s) = p.map asciiLower ++ lib.toLower s := by
  induction p with
  | nil => rfl
  | cons b p ih =>
    rw [List.forall_mem_cons] at hp
    rw [List.cons_append, lib.toLower_ascii _ _ hp.1, ih hp.2, List.map_cons, List.cons_append]

theorem hasPrefix_append_of_prefix {a p : List UInt8} (t : List UInt8)
    (h : p.isPrefixOf a = true) : hasPrefix (a ++ t) p = true := by
  rw [hasPrefix, List.isPrefixOf_iff_prefix] at *
  exact h.trans (List.prefix_append a t)

/-- A prefix test on `a ++ t` is false when `p` and `a` differ at a position
both have. -/
theorem hasPrefix_append_of_diverge {a p : List UInt8} (t : List UInt8)
    (h₁ : p.isPrefixOf a = false) (h₂ : a.isPrefixOf p = false) :
    hasPrefix (a ++ t) p = false := by
  rw [hasPrefix, Bool.eq_false_iff] at *
  simp only [ne_eq, List.isPrefixOf_iff_prefix] at *
  exact fun h => (List.prefix_or_prefix_of_prefix h (List.prefix_append a t)).elim h₁ h₂

/-! ## One header line -/

/-- The fields the header loop sets that the round trip compares, and the
ones the body part of `Load` reads. -/
structure HeaderFields where
  messageID : List UInt8
  newsgroup : List UInt8
  reference : List UInt8
  subject : List UInt8
  path : List UInt8
  posted : Int
  key : List UInt8
  signature : List UInt8
  contentType : List UInt8

/-- The `HeaderFields` of a message. -/
def NNTPMessage.headerFields (m : NNTPMessage) : HeaderFields :=
  ⟨m.messageID, m.newsgroup, m.reference, m.subject, m.path, m.posted, m.key, m.signature,
    m.contentType⟩

theorem headerValue_header (k v : List UInt8) (n : Nat) (hn : k.length = n) :
    headerValue n (k ++ (v ++ [10])) = v := by
  subst hn
  simp [headerValue, slice]

theorem strIndex_singleton_of_not_mem {c : UInt8} {s : List UInt8} (h : c ∉ s) :
    strIndex s [c] = -1 := by
  unfold strIndex
  rw [List.find?_eq_none.2]
  intro i _
  cases hd : s.drop i with
  | nil => simp
  | cons d t =>
    simp only [List.isPrefixOf, List.isPrefixOf_nil_left, Bool.and_true, beq_iff_eq]
    rintro rfl
    exact h (List.mem_of_mem_drop (hd ▸ List.mem_cons_self c t))

/-! Which branch of `loadHeaderLine` a line `k ++ v` takes is decided by the
name `k` alone: the lower case of the line starts with `k` in ASCII lower
case, and each prefix test against it is closed, for `decide`.  One lemma
per header line `WriteTo` writes gives the state the line leaves. -/

section Lines

variable (st : LoadState)

theorem loadHeaderLine_contentType (v : List UInt8) :
    loadHeaderLine lib (utf8 "Content-Type: " ++ (v ++ [10])) st =
      ⟨{ st.msg with contentType := v }, st.idx⟩ := by
  simp (disch := decide) only [loadHeaderLine, lib.toLower_append_ascii,
    hasPrefix_append_of_prefix, hasPrefix_append_of_diverge, Bool.false_eq_true, if_false,
    if_true, headerValue_header]

/-- The `From` line, whatever its value: `WriteTo` writes the name and the
address with separators between them. -/
theorem loadHeaderLine_from (v : List UInt8) :
    loadHeaderLine lib (utf8 "From: " ++ v) st =
      loadFrom (headerValue 6 (utf8 "From: " ++ v)) st := by
  simp (disch := decide) only [loadHeaderLine, lib.toLower_append_ascii,
    hasPrefix_append_of_prefix, hasPrefix_append_of_diverge, Bool.false_eq_true, if_false,
    if_true]

theorem loadHeaderLine_date (v : List UInt8) (t : Int) (ht : lib.parseRFC1123Z v = some t) :
    loadHeaderLine lib (utf8 "Date: " ++ (v ++ [10])) st =
      ⟨{ st.msg with posted := t }, st.idx⟩ := by
  simp (disch := decide) only [loadHeaderLine, lib.toLower_append_ascii,
    hasPrefix_append_of_prefix, hasPrefix_append_of_diverge, Bool.false_eq_true, if_false,
    if_true, headerValue_header, ht]

theorem loadHeaderLine_key (v : List UInt8) :
    loadHeaderLine lib (utf8 "X-pubkey-ed25519: " ++ (v ++ [10])) st =
      ⟨{ st.msg with key := v }, st.idx⟩ := by
  simp (disch := decide) only [loadHeaderLine, lib.toLower_append_ascii,
    hasPrefix_append_of_prefix, hasPrefix_append_of_diverge, Bool.false_eq_true, if_false,
    if_true, headerValue_header]

theorem loadHeaderLine_signature (v : List UInt8) :
    loadHeaderLine lib (utf8 "X-signature-ed25519-sha512: " ++ (v ++ [10])) st =
      ⟨{ st.msg with signature := v }, st.idx⟩ := by
  simp (disch := decide) only [loadHeaderLine, lib.toLower_append_ascii,
    hasPrefix_append_of_prefix, hasPrefix_append_of_diverge, Bool.false_eq_true, if_false,
    if_true, headerValue_header]

/-- A newsgroup without a comma is read whole, and `idx` becomes -1. -/
theorem loadHeaderLine_newsgroups (v : List UInt8) (hv : 44 ∉ v) :
    loadHeaderLine lib (utf8 "Newsgroups: " ++ (v ++ [10])) st =
      ⟨{ st.msg with newsgroup := v }, -1⟩ := by
  have hc : utf8 "," = [44] := rfl
  simp (disch := decide) only [loadHeaderLine, lib.toLower_append_ascii,
    hasPrefix_append_of_prefix, hasPrefix_append_of_diverge, Bool.false_eq_true, if_false,
    if_true, headerValue_header, hc, strIndex_singleton_of_not_mem hv, ne_eq, not_true_eq_false]

theorem loadHeaderLine_subject (v : List UInt8) :
    loadHeaderLine lib (utf8 "Subject: " ++ (v ++ [10])) st =
      ⟨{ st.msg with subject := v }, st.idx⟩ := by
  simp (disch := decide) only [loadHeaderLine, lib.toLower_append_ascii,
    hasPrefix_append_of_prefix, hasPrefix_append_of_diverge, Bool.false_eq_true, if_false,
    if_true, headerValue_header]

theorem loadHeaderLine_messageID (v : List UInt8) :
    loadHeaderLine lib (utf8 "Message-ID: " ++ (v ++ [10])) st =
      ⟨{ st.msg with messageID := v }, st.idx⟩ := by
  simp (disch := decide) only [loadHeaderLine, lib.toLower_append_ascii,
    hasPrefix_append_of_prefix, hasPrefix_append_of_diverge, Bool.false_eq_true, if_false,
    if_true, headerValue_header]

theorem loadHeaderLine_references (v : List UInt8) :
    loadHeaderLine lib (utf8 "References: " ++ (v ++ [10])) st =
      ⟨{ st.msg with reference := v }, st.idx⟩ := by
  simp (disch := decide) only [loadHeaderLine, lib.toLower_append_ascii,
    hasPrefix_append_of_prefix, hasPrefix_append_of_diverge, Bool.false_eq_true, if_false,
    if_true, headerValue_header]

theorem loadHeaderLine_path (v : List UInt8) :
    loadHeaderLine lib (utf8 "Path: " ++ (v ++ [10])) st =
      ⟨{ st.msg with path := v }, st.idx⟩ := by
  simp (disch := decide) only [loadHeaderLine, lib.toLower_append_ascii,
    hasPrefix_append_of_prefix, hasPrefix_append_of_diverge, Bool.false_eq_true, if_false,
    if_true, headerValue_header]

/-- The `From` branch, with its test pushed into the fields it sets. -/
theorem loadFrom_eq (line : List UInt8) :
    loadFrom line st =
      let idx := strLastIndex line (utf8 " ")
      ⟨{ st.msg with
          name := if idx + 2 < line.length ∧ idx > 0 then line.take idx.toNat else line,
          email := if idx + 2 < line.length ∧ idx > 0 then
            slice line (idx.toNat + 2) (line.length - 1) else st.msg.email }, idx⟩ := by
  unfold loadFrom
  dsimp only
  split_ifs <;> rfl

/-- The last branch, with its test pushed into the map it sets. -/
theorem loadExtraHeader_eq (line : List UInt8) :
    loadExtraHeader line st =
      let idx := strIndex line (utf8 ": ")
      ⟨{ st.msg with
          extraHeaders := if idx > 0 ∧ line.length > idx then
            mapSet (line.drop idx.toNat) (slice line (1 + idx.toNat) (line.length - 1))
              st.msg.extraHeaders
          else st.msg.extraHeaders }, idx⟩ := by
  unfold loadExtraHeader
  dsimp only
  split_ifs <;> rfl

/-- The prefixes `Load`'s header loop recognises, in its order. -/
def loadPrefixes : List (List UInt8) :=
  [utf8 "newsgroups: ", utf8 "x-sage: ", utf8 "message-id: ", utf8 "subject: ", utf8 "path: ",
    utf8 "references: ", utf8 "from: ", utf8 "x-pubkey-ed25519: ",
    utf8 "x-signature-ed25519-sha512: ", utf8 "date: ", utf8 "content-type: "]

/-- `Load` takes the line for one of the headers it recognises: its lower
case under the library's `strings.ToLower` starts with one of the prefixes. -/
def recognised (line : List UInt8) : Bool := loadPrefixes.any (hasPrefix (lib.toLower line))

theorem loadHeaderLine_of_not_recognised (line : List UInt8) (h : recognised lib line = false) :
    loadHeaderLine lib line st = loadExtraHeader line st := by
  simp only [recognised, loadPrefixes, List.any_cons, List.any_nil, Bool.or_false,
    Bool.or_eq_false_iff] at h
  simp [loadHeaderLine, h]

/-- A line that starts with an ASCII header name whose lower case diverges
from every prefix is not recognised, whatever follows the name. -/
theorem recognised_append_ascii {k : List UInt8} (hk : ∀ b ∈ k, b < 0x80)
    (hp : ∀ p ∈ loadPrefixes, p.isPrefixOf (k.map asciiLower) = false ∧
      (k.map asciiLower).isPrefixOf p = false) (s : List UInt8) :
    recognised lib (k ++ s) = false := by
  rw [recognised, lib.toLower_append_ascii hk, List.any_eq_false]
  intro p hmem
  simp only [hasPrefix_append_of_diverge _ (hp p hmem).1 (hp p hmem).2, Bool.false_eq_true,
    not_false_eq_true]

theorem headerFields_unrecognised (line : List UInt8) (h : recognised lib line = false) :
    (loadHeaderLine lib line st).msg.headerFields = st.msg.headerFields := by
  rw [loadHeaderLine_of_not_recognised lib st line h, loadExtraHeader_eq]
  rfl

end Lines

/-- Lines `Load` does not recognise leave its `HeaderFields` alone. -/
theorem headerFields_foldl_unrecognised (L : List (List UInt8))
    (hL : ∀ l ∈ L, recognised lib (l ++ [10]) = false) (st : LoadState) :
    (L.foldl (fun st l => loadHeaderLine lib (l ++ [10]) st) st).msg.headerFields =
      st.msg.headerFields := by
  induction L generalizing st with
  | nil => rfl
  | cons l L ih =>
    rw [List.foldl_cons, ih (fun l' h => hL l' (List.mem_cons_of_mem _ h)),
      headerFields_unrecognised lib st _ (hL l (List.mem_cons_self _ _))]

/-- `strings.Index` is at most a position where `sep` occurs. -/
theorem strIndex_le {s sep : List UInt8} {n : Nat} (h : sep.isPrefixOf (s.drop n) = true) :
    strIndex s sep ≤ n := by
  unfold strIndex
  split
  · rename_i i hi
    rw [List.find?_range_eq_some] at hi
    by_contra hlt
    have := hi.2.2 n (by omega)
    rw [h] at this
    exact Bool.false_ne_true this
  · omega

/-- An unrecognised header line `k: v` sets `idx` to where `": "` first
occurs, at most the length of `k`: short names keep `idx` below the part
limit. -/
theorem idx_foldl_unrecognised_lt (L : List (List UInt8 × List UInt8))
    (hL : ∀ kv ∈ L, recognised lib (kv.1 ++ utf8 ": " ++ kv.2 ++ [10]) = false ∧
      kv.1.length < 32) (st : LoadState) (hst : st.idx < 32) :
    ((L.map fun kv => kv.1 ++ utf8 ": " ++ kv.2).foldl
      (fun st l => loadHeaderLine lib (l ++ [10]) st) st).idx < 32 := by
  induction L generalizing st with
  | nil => exact hst
  | cons kv L ih =>
    obtain ⟨hr, hk⟩ := hL kv (List.mem_cons_self _ _)
    refine ih (fun kv' h => hL kv' (List.mem_cons_of_mem _ h)) _ ?_
    have hle : strIndex (kv.1 ++ utf8 ": " ++ kv.2 ++ [10]) (utf8 ": ") ≤ kv.1.length :=
      strIndex_le (by simp [List.append_assoc])
    dsimp only
    rw [loadHeaderLine_of_not_recognised lib _ _ hr, loadExtraHeader_eq]
    dsimp only
    omega

/-! ## The header block `WriteTo` writes -/

variable {lib}

/-- A line `k ++ v` is non-empty and on one line when `k` is non-empty and
neither part holds a newline. -/
theorem line_append_of_left {k v : List UInt8} (hk : k ≠ [] ∧ 10 ∉ k) (hv : 10 ∉ v) :
    k ++ v ≠ [] ∧ 10 ∉ k ++ v := by
  simp only [List.mem_append, ne_eq, List.append_eq_nil, not_or] at hk ⊢
  exact ⟨fun h => hk.1 h.1, hk.2, hv⟩

theorem line_append_of_right {k v : List UInt8} (hk : 10 ∉ k) (hv : v ≠ [] ∧ 10 ∉ v) :
    k ++ v ≠ [] ∧ 10 ∉ k ++ v := by
  simp only [List.mem_append, ne_eq, List.append_eq_nil, not_or] at hv ⊢
  exact ⟨fun h => hv.1 h.2, hk, hv.2⟩

/-- Every header line is non-empty and on one line when every value is. -/
theorem headerWrites_oneLine {M : NNTPMessage}
    (hv : ∀ s ∈ [M.contentType, M.name, M.email, lib.formatRFC1123Z M.posted, M.key,
      M.signature, M.newsgroup, M.subject, M.messageID, M.reference, M.path], 10 ∉ s)
    (hx : ∀ kv ∈ M.extraHeaders, 10 ∉ kv.1 ∧ 10 ∉ kv.2) :
    ∀ l ∈ headerWrites lib M, l ≠ [] ∧ 10 ∉ l := by
  obtain ⟨hct, hn, he, hd, hk, hs, hng, hsub, hm, hr, hp⟩ :
      _ ∧ _ ∧ _ ∧ _ ∧ _ ∧ _ ∧ _ ∧ _ ∧ _ ∧ _ ∧ _ := by
    simpa only [List.mem_cons, List.not_mem_nil, or_false, forall_eq_or_imp, forall_eq] using hv
  intro w hw
  simp only [headerWrites, List.mem_append, List.mem_cons, List.mem_ite_nil_right,
    List.not_mem_nil, or_false, List.mem_map] at hw
  rcases hw with (((((⟨-, rfl⟩ | rfl | rfl | rfl) | ⟨-, rfl | rfl⟩) | rfl | rfl | rfl) | ⟨-, rfl⟩) |
    rfl) | ⟨kv, hkv, rfl⟩
  all_goals first
    | decide
    | exact line_append_of_left (by decide) (by assumption)
    | exact line_append_of_left (line_append_of_left (line_append_of_left
        (line_append_of_left (by decide) hn) (by decide)) he) (by decide)
    | exact line_append_of_left (line_append_of_right (hx kv hkv).1 (by decide)) (hx kv hkv).2

/-- The header loop over the lines `WriteTo` writes: the fields `Load` sets
are the message's, the key and the signature when both were written and
empty otherwise. -/
theorem headerFields_headerWrites {M : NNTPMessage} (hcomma : 44 ∉ M.newsgroup)
    (hdate : lib.parseRFC1123Z (lib.formatRFC1123Z M.posted) = some M.posted)
    (hextra : ∀ kv ∈ M.extraHeaders, recognised lib (kv.1 ++ utf8 ": " ++ kv.2 ++ [10]) = false) :
    ((headerWrites lib M).foldl
      (fun st l => loadHeaderLine lib (l ++ [10]) st) ⟨{}, 0⟩).msg.headerFields =
      { M.headerFields with
        key := if M.key ≠ [] ∧ M.signature ≠ [] then M.key else [],
        signature := if M.key ≠ [] ∧ M.signature ≠ [] then M.signature else [] } := by
  have hx := headerFields_foldl_unrecognised lib
    (M.extraHeaders.map fun kv => kv.1 ++ utf8 ": " ++ kv.2) (by
      simp only [List.mem_map]
      rintro _ ⟨kv, hkv, rfl⟩
      exact hextra kv hkv)
  have hmime : recognised lib (utf8 "Mime-Version: 1.0" ++ [10]) = false :=
    recognised_append_ascii lib (by decide) (by decide) _
  -- The fold is unrolled over an opaque step: unrolled over `loadHeaderLine`
  -- itself, the kernel compares the two forms by unfolding the header tests.
  generalize hF : (fun st l => loadHeaderLine lib (l ++ [10]) st) = F at hx ⊢
  by_cases ha : M.attachments = [] <;> by_cases hs : M.key ≠ [] ∧ M.signature ≠ [] <;>
    by_cases hr : M.reference = [] <;>
  · simp only [headerWrites, ha, hs, hr, ne_eq, not_true_eq_false, not_false_eq_true, and_self,
      if_true, if_false, List.nil_append, List.singleton_append, List.cons_append,
      List.foldl_append, List.foldl_cons, List.foldl_nil]
    rw [hx]
    subst hF
    simp only [List.append_assoc, loadHeaderLine_path, loadHeaderLine_references,
      loadHeaderLine_messageID, loadHeaderLine_subject, loadHeaderLine_newsgroups _ _ _ hcomma,
      loadHeaderLine_signature, loadHeaderLine_key, loadHeaderLine_date _ _ _ _ hdate,
      loadHeaderLine_from, loadFrom_eq, loadHeaderLine_contentType,
      loadHeaderLine_of_not_recognised _ _ _ hmime, loadExtraHeader_eq]
    simp only [NNTPMessage.headerFields, hr]

/-- After the header lines `WriteTo` writes, `idx` is below the part limit
when the newsgroup has no comma and every extra header has a short name:
the `Newsgroups` line sets it to -1 and each extra header line to where its
`": "` is. -/
theorem idx_headerWrites_lt {M : NNTPMessage} (hcomma : 44 ∉ M.newsgroup)
    (hextra : ∀ kv ∈ M.extraHeaders, recognised lib (kv.1 ++ utf8 ": " ++ kv.2 ++ [10]) = false ∧
      kv.1.length < 32) (st : LoadState) :
    ((headerWrites lib M).foldl (fun st l => loadHeaderLine lib (l ++ [10]) st) st).idx < 32 := by
  by_cases hr : M.reference = [] <;>
  · simp only [headerWrites, hr, ne_eq, not_true_eq_false, not_false_eq_true, if_true, if_false,
      List.nil_append, List.singleton_append, List.cons_append, List.foldl_append,
      List.foldl_cons, List.foldl_nil]
    refine idx_foldl_unrecognised_lt lib _ hextra _ ?_
    simp only [List.append_assoc, loadHeaderLine_path, loadHeaderLine_references,
      loadHeaderLine_messageID, loadHeaderLine_subject, loadHeaderLine_newsgroups _ _ _ hcomma]
    decide

/-! ## The round trip -/

/-- What the round trip asks of a message: no attachments; no key,
signature or signed text; header values on one line (no byte 10); a
newsgroup without a comma (byte 44) other than `ano.paste`; a content type
that is empty or not multipart; extra headers that `Load` does not take for
its own; and a date that the standard library parses back. -/
structure Plain (lib : Stdlib) (A : NNTPMessage) : Prop where
  attachments : A.attachments = []
  key : A.key = []
  signature : A.signature = []
  signed : A.signed = []
  oneLine : ∀ s ∈ [A.contentType, A.name, A.email, lib.formatRFC1123Z A.posted, A.newsgroup,
    A.subject, A.messageID, A.reference, A.path], 10 ∉ s
  extraOneLine : ∀ kv ∈ A.extraHeaders, 10 ∉ kv.1 ∧ 10 ∉ kv.2
  newsgroupComma : 44 ∉ A.newsgroup
  newsgroupPaste : A.newsgroup ≠ utf8 "ano.paste"
  contentType : A.contentType = [] ∨
    ∃ mt ps, lib.parseMediaType A.contentType = some (mt, ps) ∧
      hasPrefix mt (utf8 "multipart/") = false
  extraUnrecognised : ∀ kv ∈ A.extraHeaders,
    recognised lib (kv.1 ++ utf8 ": " ++ kv.2 ++ [10]) = false
  date : lib.parseRFC1123Z (lib.formatRFC1123Z A.posted) = some A.posted

/-- Without attachments and signed text, `WriteTo(w, "\n")` writes the header
lines, an empty line and the message, each ended by the delimiter. -/
theorem writeTo_plain (r : List UInt8) (A : NNTPMessage) (hatt : A.attachments = [])
    (hsigned : A.signed = []) :
    (writeTo lib r A (utf8 "\n")).1 =
      ((headerWrites lib A).map (· ++ [10])).flatten ++ 10 :: (A.message ++ [10]) := by
  have hnl : utf8 "\n" = [10] := rfl
  simp [writeTo, lineWrite, bodyWrites, hatt, hsigned, hnl]

/-- `Load(r, true)` on a zero message reads back what `WriteTo(w, "\n")`
writes for a `Plain` message: the same message-id, newsgroup, reference,
subject, path and date, and the text followed by the delimiter. -/
theorem load_writeTo (r : List UInt8) (A : NNTPMessage) (h : Plain lib A) :
    let A' := load lib {} (writeTo lib r A (utf8 "\n")).1 true
    A'.1 = true ∧ A'.2.messageID = A.messageID ∧ A'.2.newsgroup = A.newsgroup ∧
      A'.2.reference = A.reference ∧ A'.2.subject = A.subject ∧ A'.2.path = A.path ∧
      A'.2.posted = A.posted ∧ A'.2.message = A.message ++ utf8 "\n" := by
  intro A'
  have hone : ∀ s ∈ [A.contentType, A.name, A.email, lib.formatRFC1123Z A.posted, A.key,
      A.signature, A.newsgroup, A.subject, A.messageID, A.reference, A.path], 10 ∉ s := by
    have h1 := h.oneLine
    simp only [List.mem_cons, List.not_mem_nil, or_false, forall_eq_or_imp, forall_eq] at h1 ⊢
    obtain ⟨hct, hn, he, hd, hng, hs, hm, hr, hp⟩ := h1
    exact ⟨hct, hn, he, hd, h.key ▸ List.not_mem_nil _, h.signature ▸ List.not_mem_nil _, hng,
      hs, hm, hr, hp⟩
  have hl := headerLoop_lines lib (headerWrites lib A) (A.message ++ [10]) ⟨{}, 0⟩
    (headerWrites_oneLine hone h.extraOneLine)
  have hf := headerFields_headerWrites h.newsgroupComma h.date h.extraUnrecognised
  generalize List.foldl _ _ _ = st at hl hf
  obtain ⟨m, i⟩ := st
  simp only [NNTPMessage.headerFields, HeaderFields.mk.injEq, h.key, ne_eq, not_true_eq_false,
    false_and, if_false] at hf
  obtain ⟨hmid, hng, href, hsubj, hpath, hposted, hkey, -, hct⟩ := hf
  have hload : A' = load lib {} (((headerWrites lib A).map (· ++ [10])).flatten ++
      10 :: (A.message ++ [10])) true := by
    rw [← writeTo_plain r A h.attachments h.signed]
  rw [hload]
  have h0 : ({ ({} : NNTPMessage) with extraHeaders := [] } : NNTPMessage) = {} := rfl
  have hnl : utf8 "\n" = [10] := rfl
  simp only [load, h0, hl]
  by_cases hc : A.contentType = []
  · simp [hng, h.newsgroupPaste, hkey, hct, hc, hmid, href, hsubj, hpath, hposted, hnl]
  · obtain ⟨mt, ps, hp, hm⟩ := h.contentType.resolve_left hc
    simp [hng, h.newsgroupPaste, hkey, hct, hc, hp, hm, hmid, href, hsubj, hpath, hposted, hnl]

/-- The round trip at the epoch, with a reference and an extra header. -/
theorem load_writeTo_epoch :
    let lib : Stdlib := ⟨List.map asciiLower, fun _ _ _ => rfl,
      fun _ => utf8 "Thu, 01 Jan 1970 00:00:00 +0000",
      fun s => if s = utf8 "Thu, 01 Jan 1970 00:00:00 +0000" then some 0 else none,
      fun _ => none, fun _ _ => []⟩
    let A : NNTPMessage :=
      { messageID := utf8 "<a@x>", newsgroup := utf8 "overchan.test",
        reference := utf8 "<r@x>", subject := utf8 "hi", path := utf8 "x",
        message := utf8 "text", extraHeaders := [(utf8 "X-Frontend", utf8 "web")] }
    Plain lib A ∧
      (load lib {} (writeTo lib (List.replicate 30 0) A (utf8 "\n")).1 true).1 = true := by
  intro lib A
  have h : Plain lib A := ⟨rfl, rfl, rfl, rfl, by decide, by decide, by decide, by decide,
    .inl rfl, by decide, by decide⟩
  exact ⟨h, (load_writeTo (List.replicate 30 0) A h).1⟩

/-- An extra `Subject` header overrides the subject, and the text comes back
with the newline `NewLineWriter` wrote after it. -/
theorem load_writeTo_extra_subject :
    let lib : Stdlib := ⟨List.map asciiLower, fun _ _ _ => rfl,
      fun _ => utf8 "Thu, 01 Jan 1970 00:00:00 +0000",
      fun s => if s = utf8 "Thu, 01 Jan 1970 00:00:00 +0000" then some 0 else none,
      fun _ => none, fun _ _ => []⟩
    let A : NNTPMessage :=
      { messageID := utf8 "<a@x>", newsgroup := utf8 "g", subject := utf8 "s",
        message := utf8 "hi", extraHeaders := [(utf8 "Subject", utf8 "x")] }
    let A' := load lib {} (writeTo lib (List.replicate 30 0) A (utf8 "\n")).1 true
    A'.1 = true ∧ A'.2.subject = utf8 "x" ∧ A'.2.subject ≠ A.subject ∧
      A'.2.message = utf8 "hi\n" := by
  decide

end Srnd.Message
