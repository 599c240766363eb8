import Srnd.Message.RoundTrip

/-!
# The part limit of `Load`

`Load` rejects a multipart body for "too many parts" when `idx ≥ 32`, but
`idx` is the variable of the header loop: the `Newsgroups`, `From` and
unrecognised-header branches set it, and the part loop tests it and never
changes it.  So the verdict is taken before the first part, from the last of
those header lines, and when it passes every part is loaded, however many
(`load_multipart_verdict`).  With a `From` line, the verdict is whether the
last space of its value comes before byte 32 (`load_verdict_reads_from`).
-/

namespace Srnd.Message

variable (lib : Stdlib)

/-! ## The part loop -/

/-- Below 32, the part loop loads every part that `NextPart` returns and that
reads without error, however many there are. -/
theorem loadParts_loads_every_part {idx : Int} (hidx : idx < 32) (self : NNTPMessage)
    (parts : List MultipartPart) (hbody : ∀ p ∈ parts, ∃ d, p.body = .ok d) :
    (loadParts lib idx self (parts.map .ok)).1 = true ∧
      (loadParts lib idx self (parts.map .ok)).2.attachments.length =
        self.attachments.length + parts.length := by
  have hn : ¬ 32 ≤ idx := Int.not_le.2 hidx
  induction parts generalizing self with
  | nil => simp [loadParts, hn]
  | cons p ps ih =>
    obtain ⟨d, hd⟩ := hbody p (List.mem_cons_self _ _)
    have ih' := fun self => ih self fun q hq => hbody q (List.mem_cons_of_mem _ hq)
    rw [List.map_cons, loadParts]
    simp only [hn, if_false, hd]
    refine ⟨(ih' _).1, ?_⟩
    rw [(ih' _).2]
    split_ifs <;> simp only [List.length_append, List.length_cons, List.length_nil] <;> omega

theorem loadParts_of_le {idx : Int} (hidx : 32 ≤ idx) (self : NNTPMessage)
    (parts : List (Except String MultipartPart)) :
    loadParts lib idx self parts = (false, self) := by
  unfold loadParts
  rw [if_pos hidx]

/-- The verdict of the part loop is `idx < 32` alone, and when it accepts it
has loaded every part. -/
theorem loadParts_verdict (idx : Int) (self : NNTPMessage) (parts : List MultipartPart)
    (hbody : ∀ p ∈ parts, ∃ d, p.body = .ok d) :
    (loadParts lib idx self (parts.map .ok)).1 = decide (idx < 32) ∧
      ((loadParts lib idx self (parts.map .ok)).1 = true →
        (loadParts lib idx self (parts.map .ok)).2.attachments.length =
          self.attachments.length + parts.length) := by
  by_cases hidx : idx < 32
  · obtain ⟨h1, h2⟩ := loadParts_loads_every_part lib hidx self parts hbody
    exact ⟨h1.trans (decide_eq_true hidx).symm, fun _ => h2⟩
  · rw [loadParts_of_le lib (Int.not_lt.1 hidx), decide_eq_false hidx]
    exact ⟨rfl, fun h => absurd h Bool.false_ne_true⟩

/-! ## The header lines -/

section Lines

variable (st : LoadState)

private theorem body_ite {c : Prop} [Decidable c] {a b : LoadState} {m : List UInt8}
    {s : List NNTPAttachment} (ha : a.msg.message = m ∧ a.msg.attachments = s)
    (hb : b.msg.message = m ∧ b.msg.attachments = s) :
    (if c then a else b).msg.message = m ∧ (if c then a else b).msg.attachments = s := by
  split <;> assumption

/-- The header branches leave the text and the attachments alone. -/
theorem body_loadHeaderLine (line : List UInt8) :
    (loadHeaderLine lib line st).msg.message = st.msg.message ∧
      (loadHeaderLine lib line st).msg.attachments = st.msg.attachments := by
  have hfrom : ∀ l, (loadFrom l st).msg.message = st.msg.message ∧
      (loadFrom l st).msg.attachments = st.msg.attachments := fun l => by
    unfold loadFrom
    dsimp only
    split_ifs <;> exact ⟨rfl, rfl⟩
  have hextra : (loadExtraHeader line st).msg.message = st.msg.message ∧
      (loadExtraHeader line st).msg.attachments = st.msg.attachments := by
    unfold loadExtraHeader
    dsimp only
    split_ifs <;> exact ⟨rfl, rfl⟩
  unfold loadHeaderLine
  dsimp only
  repeat' apply body_ite
  all_goals first | exact ⟨rfl, rfl⟩ | exact hfrom _ | exact hextra | (split <;> exact ⟨rfl, rfl⟩)

theorem body_foldl_loadHeaderLine (L : List (List UInt8)) :
    (L.foldl (fun st l => loadHeaderLine lib (l ++ [10]) st) st).msg.message = st.msg.message ∧
      (L.foldl (fun st l => loadHeaderLine lib (l ++ [10]) st) st).msg.attachments =
        st.msg.attachments := by
  induction L generalizing st with
  | nil => exact ⟨rfl, rfl⟩
  | cons l L ih =>
    rw [List.foldl_cons, (ih _).1, (ih _).2]
    exact body_loadHeaderLine lib st _

/-- The `From` branch sets the name and the e-mail address alone. -/
theorem loadFrom_msg (line : List UInt8) :
    ∃ n e, (loadFrom line st).msg = { st.msg with name := n, email := e } := by
  unfold loadFrom
  dsimp only
  split_ifs
  exacts [⟨_, _, rfl⟩, ⟨_, _, rfl⟩]

theorem idx_loadFrom (line : List UInt8) :
    (loadFrom line st).idx = strLastIndex line (utf8 " ") := by
  unfold loadFrom
  dsimp only
  split_ifs <;> rfl

end Lines

/-! ## The verdict -/

/-- `Load` of a header block and a multipart body: the part loop, from the
`idx` the header loop leaves. -/
theorem load_multipart (L : List (List UInt8)) (hL : ∀ l ∈ L, l ≠ [] ∧ 10 ∉ l)
    (body : List UInt8) {mt : List UInt8} {params : List (List UInt8 × List UInt8)}
    (st : LoadState) (hst : L.foldl (fun st l => loadHeaderLine lib (l ++ [10]) st) ⟨{}, 0⟩ = st)
    (hng : st.msg.newsgroup ≠ utf8 "ano.paste")
    (hsigned : ¬ (st.msg.key ≠ [] ∧ st.msg.signature ≠ [])) (hct : st.msg.contentType ≠ [])
    (hp : lib.parseMediaType st.msg.contentType = some (mt, params))
    (hmt : hasPrefix mt (utf8 "multipart/") = true) :
    load lib {} ((L.map (· ++ [10])).flatten ++ 10 :: body) true =
      loadParts lib st.idx { st.msg with contentType := cutAtSemicolon st.msg.contentType }
        (lib.nextParts ((params.lookup (utf8 "boundary")).getD []) body) := by
  have hst' : L.foldl (fun st l => loadHeaderLine lib (l ++ [10]) st)
      ⟨{ ({} : NNTPMessage) with extraHeaders := [] }, 0⟩ = st := hst
  unfold load
  rw [headerLoop_lines lib L body _ hL, hst']
  simp only [hng, hsigned, hct, hp, hmt, Bool.not_true, Bool.false_eq_true, false_or, ne_eq,
    not_false_eq_true, if_false, if_true]

variable {lib}

/-- The verdict of `Load` on a multipart body whose parts all read is
`idx < 32`, for the `idx` the header lines leave, and when it accepts it has
loaded every part, however many. -/
theorem load_multipart_verdict (L : List (List UInt8)) (hL : ∀ l ∈ L, l ≠ [] ∧ 10 ∉ l)
    (body : List UInt8) {mt : List UInt8} {params : List (List UInt8 × List UInt8)}
    {parts : List MultipartPart} (st : LoadState)
    (hst : L.foldl (fun st l => loadHeaderLine lib (l ++ [10]) st) ⟨{}, 0⟩ = st)
    (hng : st.msg.newsgroup ≠ utf8 "ano.paste")
    (hsigned : ¬ (st.msg.key ≠ [] ∧ st.msg.signature ≠ [])) (hct : st.msg.contentType ≠ [])
    (hp : lib.parseMediaType st.msg.contentType = some (mt, params))
    (hmt : hasPrefix mt (utf8 "multipart/") = true)
    (hparts : lib.nextParts ((params.lookup (utf8 "boundary")).getD []) body = parts.map .ok)
    (hbody : ∀ p ∈ parts, ∃ d, p.body = .ok d) :
    let r := load lib {} ((L.map (· ++ [10])).flatten ++ 10 :: body) true
    r.1 = decide (st.idx < 32) ∧ (r.1 = true → r.2.attachments.length = parts.length) := by
  intro r
  have hr : r = loadParts lib st.idx
      { st.msg with contentType := cutAtSemicolon st.msg.contentType } (parts.map .ok) := by
    rw [← hparts]
    exact load_multipart lib L hL body st hst hng hsigned hct hp hmt
  have hatt : st.msg.attachments = [] := hst ▸ (body_foldl_loadHeaderLine lib _ L).2
  have hv := loadParts_verdict lib st.idx
    { st.msg with contentType := cutAtSemicolon st.msg.contentType } parts hbody
  rw [hr]
  exact ⟨hv.1, fun h => by simpa [hatt] using hv.2 h⟩

/-- A `Content-Type` line alone leaves `idx` at 0: 33 parts, one over the
limit, are all loaded. -/
theorem load_multipart_verdict_thirty_three_parts :
    let lib : Stdlib := ⟨List.map asciiLower, fun _ _ _ => rfl, fun _ => [], fun _ => none,
      fun t => if t = utf8 "multipart/mixed; boundary=b" then
        some (utf8 "multipart/mixed", [(utf8 "boundary", utf8 "b")]) else none,
      fun _ body => body.map fun _ => .ok ⟨[], .ok [120]⟩⟩
    let L := [utf8 "Content-Type: " ++ utf8 "multipart/mixed; boundary=b"]
    let st : LoadState := ⟨{ contentType := utf8 "multipart/mixed; boundary=b" }, 0⟩
    L.foldl (fun st l => loadHeaderLine lib (l ++ [10]) st) ⟨{}, 0⟩ = st ∧
      (load lib {} ((L.map (· ++ [10])).flatten ++ 10 :: List.replicate 33 120)
        true).2.attachments.length = 33 := by
  intro lib L st
  have hst : L.foldl (fun st l => loadHeaderLine lib (l ++ [10]) st) ⟨{}, 0⟩ = st := by
    simp only [L, List.foldl_cons, List.foldl_nil, List.append_assoc, loadHeaderLine_contentType]
  have hp : lib.parseMediaType (utf8 "multipart/mixed; boundary=b") =
      some (utf8 "multipart/mixed", [(utf8 "boundary", utf8 "b")]) := by simp [lib]
  have hb : ∀ p ∈ List.replicate 33 (⟨[], .ok [120]⟩ : MultipartPart),
      ∃ d, p.body = .ok d :=
    fun p hp => ⟨[120], by rw [List.eq_of_mem_replicate hp]⟩
  have h := load_multipart_verdict L (by decide) (List.replicate 33 120) st hst (by decide)
    (by decide) (by decide) hp (by decide) (List.map_replicate.trans List.map_replicate.symm) hb
  exact ⟨hst, h.2 (h.1.trans (decide_eq_true (by decide)))⟩

/-- With a `From` line and a multipart `Content-Type`, `Load` accepts exactly
when the last space of the `From` value comes before byte 32, whatever the
number of parts, and then it has loaded all of them. -/
theorem load_verdict_reads_from (v : List UInt8) (hv : 10 ∉ v) (k : Nat) :
    let lib : Stdlib := ⟨List.map asciiLower, fun _ _ _ => rfl, fun _ => [], fun _ => none,
      fun t => if t = utf8 "multipart/mixed; boundary=b" then
        some (utf8 "multipart/mixed", [(utf8 "boundary", utf8 "b")]) else none,
      fun _ body => body.map fun _ => .ok ⟨[], .ok [120]⟩⟩
    let r := load lib {} (utf8 "From: " ++ v ++ 10 ::
      (utf8 "Content-Type: multipart/mixed; boundary=b" ++ 10 :: 10 :: List.replicate k 120))
      true
    r.1 = decide (strLastIndex v (utf8 " ") < 32) ∧
      (r.1 = true → r.2.attachments.length = k) := by
  intro lib r
  let L := [utf8 "From: " ++ v, utf8 "Content-Type: " ++ utf8 "multipart/mixed; boundary=b"]
  obtain ⟨n, e, hmsg⟩ := loadFrom_msg ⟨{}, 0⟩ v
  have hng : (loadFrom v ⟨{}, 0⟩).msg.newsgroup = [] := by rw [hmsg]
  have hkey : (loadFrom v ⟨{}, 0⟩).msg.key = [] := by rw [hmsg]
  have hatt : (loadFrom v ⟨{}, 0⟩).msg.attachments = [] := by rw [hmsg]
  have hr : r = load lib {} ((L.map (· ++ [10])).flatten ++ 10 :: List.replicate k 120) true := by
    have hct : utf8 "Content-Type: multipart/mixed; boundary=b" =
        utf8 "Content-Type: " ++ utf8 "multipart/mixed; boundary=b" := by decide
    simp [r, L, hct]
  have hst : L.foldl (fun st l => loadHeaderLine lib (l ++ [10]) st) ⟨{}, 0⟩ =
      ⟨{ (loadFrom v ⟨{}, 0⟩).msg with contentType := utf8 "multipart/mixed; boundary=b" },
        strLastIndex v (utf8 " ")⟩ := by
    simp (disch := decide) only [L, List.foldl_cons, List.foldl_nil, List.append_assoc,
      loadHeaderLine_from, headerValue_header, loadHeaderLine_contentType, idx_loadFrom]
  have hL : ∀ l ∈ L, l ≠ [] ∧ 10 ∉ l := by
    simp only [L, List.mem_cons, List.mem_singleton, forall_eq_or_imp, forall_eq]
    exact ⟨line_append_of_left (by decide) hv, by decide⟩
  have hp : lib.parseMediaType (utf8 "multipart/mixed; boundary=b") =
      some (utf8 "multipart/mixed", [(utf8 "boundary", utf8 "b")]) := by simp [lib]
  have hparts : lib.nextParts (utf8 "b") (List.replicate k 120) =
      (List.replicate k (⟨[], .ok [120]⟩ : MultipartPart)).map .ok :=
    List.map_replicate.trans List.map_replicate.symm
  have hb : ∀ p ∈ List.replicate k (⟨[], .ok [120]⟩ : MultipartPart),
      ∃ d, p.body = .ok d :=
    fun p hp => ⟨[120], by rw [List.eq_of_mem_replicate hp]⟩
  have hv' := loadParts_verdict lib (strLastIndex v (utf8 " "))
    { (loadFrom v ⟨{}, 0⟩).msg with
      contentType := cutAtSemicolon (utf8 "multipart/mixed; boundary=b") } _ hb
  rw [← hparts] at hv'
  rw [hr, load_multipart lib L hL _ _ hst (fun h => absurd (hng.symm.trans h) (by decide))
    (fun h => h.1 hkey) (by show utf8 "multipart/mixed; boundary=b" ≠ []; decide) hp
    (by decide)]
  exact ⟨hv'.1, fun h => (hv'.2 h).trans
    (by rw [hatt, List.length_nil, List.length_replicate, Nat.zero_add])⟩

/-- Behind "From: a b", 33 parts are all loaded; behind a `From` value whose
last space is at byte 32, a body of one part is rejected. -/
theorem load_verdict_reads_from_two_names :
    let lib : Stdlib := ⟨List.map asciiLower, fun _ _ _ => rfl, fun _ => [], fun _ => none,
      fun t => if t = utf8 "multipart/mixed; boundary=b" then
        some (utf8 "multipart/mixed", [(utf8 "boundary", utf8 "b")]) else none,
      fun _ body => body.map fun _ => .ok ⟨[], .ok [120]⟩⟩
    let file : List UInt8 → Nat → List UInt8 := fun v k => utf8 "From: " ++ v ++ 10 ::
      (utf8 "Content-Type: multipart/mixed; boundary=b" ++ 10 :: 10 :: List.replicate k 120)
    10 ∉ utf8 "a b" ∧ (load lib {} (file (utf8 "a b") 1) true).1 = true ∧
      (load lib {} (file (utf8 "a b") 33) true).2.attachments.length = 33 ∧
      10 ∉ utf8 "aaaaaaaaaaaaaaaaaaaaaaaaaaaaaaaa b" ∧
      (load lib {} (file (utf8 "aaaaaaaaaaaaaaaaaaaaaaaaaaaaaaaa b") 1) true).1 = false := by
  have h₁ := load_verdict_reads_from (utf8 "a b") (by decide) 1
  have h₃₃ := load_verdict_reads_from (utf8 "a b") (by decide) 33
  have hlong := load_verdict_reads_from (utf8 "aaaaaaaaaaaaaaaaaaaaaaaaaaaaaaaa b") (by decide) 1
  -- Unfold the local `file` first: matched against an unreduced application,
  -- the part count is compared by evaluating `load`.
  dsimp only
  exact ⟨by decide, h₁.1.trans (by decide), h₃₃.2 (h₃₃.1.trans (by decide)), by decide,
    hlong.1.trans (by decide)⟩

end Srnd.Message
