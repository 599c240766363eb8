import Srnd.Redis.Run

/-!
# The links between articles, headers, attachments and hashes

Four pairs of keys point at each other.  `HeaderKR::h` and
`MessageIDHeaderKR::m` are the two directions of one relation between
articles and header values; `AttachmentArticlesKR::a` and
`ArticleAttachmentsKR::m` are the two directions of the relation between
articles and attachment hashes; `Attachment::a` exists while some article
links `a`; and `HashMessageID::h` names the article whose record carries the
hash `h`.  `Links` states the four, and `links_of_run` shows that every run
keeps them, when `HashMessageID` is injective and never empty.

`DeleteArticle` skips the hash mapping when the hash it reads is empty, so an
article whose hash is the empty string leaves `HashMessageID::` behind:
`hashMessageID_stale_of_empty_hash`.

The index is an index of the articles that are live, with the content they
were registered with.  `contents` is that content, kept as ghost state next to
the run: a registration that makes an article live adds it, and every other
call keeps the articles that stay live.  `Indexes s c` says that `s` is an
index of `c`; with it `GetMessageIDByHeader` answers for the content of the
live articles.

`DeleteThread` and the index part of `NukeNewsgroup` are `DeleteArticle`s and
writes that leave every linked key alone (`LinkView`), so their proofs are a
fold of the `DeleteArticle` step.
-/

namespace Srnd.Redis

open Function Index

/-- The keys the links are made of. -/
structure LinkView where
  article : String → Option ArticleRecord
  hashMessageID : String → Option String
  attachment : String → Option AttachmentRecord
  headerKR : String → Finset String
  messageIDHeaderKR : String → Finset String
  articleAttachments : String → Finset String
  attachmentArticles : String → Finset String

/-- The linked keys of an index. -/
def Index.linkView (s : Index) : LinkView :=
  ⟨s.article, s.hashMessageID, s.attachment, s.headerKR, s.messageIDHeaderKR,
    s.articleAttachments, s.attachmentArticles⟩

theorem linkView_ensureNewsgroup (now : Int) (group : String) (s : Index) :
    (ensureNewsgroup now group s).linkView = s.linkView := by
  rw [ensureNewsgroup_eq]; rfl

theorem linkView_dropThread (msgid : String) (s : Index) :
    (dropThread msgid s).linkView = s.linkView := rfl

/-- The index part of `NukeNewsgroup` touches no linked key after its
`DeleteThread` loop. -/
theorem linkView_nukeNewsgroupIndex (group : String) (s : Index) :
    (nukeNewsgroupIndex group s).linkView =
      (((s.groupThreadBumpTime group).range 0 (-1)).foldl
        (fun s t => deleteThread t s) s).linkView :=
  rfl

variable (hashMessageID : String → String)

/-- The four links.  `ownHash` is the fact about records that the hash
mapping rests on. -/
structure Links (s : Index) : Prop where
  /-- `m ∈ HeaderKR::h` iff `h ∈ MessageIDHeaderKR::m`. -/
  headers : ∀ m h, m ∈ s.headerKR h ↔ h ∈ s.messageIDHeaderKR m
  headers_live : ∀ m h, h ∈ s.messageIDHeaderKR m → s.Live m
  /-- `m ∈ AttachmentArticlesKR::a` iff `a ∈ ArticleAttachmentsKR::m`. -/
  attachments : ∀ m a, m ∈ s.attachmentArticles a ↔ a ∈ s.articleAttachments m
  attachments_live : ∀ m a, a ∈ s.articleAttachments m → s.Live m
  /-- `Attachment::a` exists iff `AttachmentArticlesKR::a` is not empty. -/
  record : ∀ a, (s.attachment a).isSome ↔ s.attachmentArticles a ≠ ∅
  /-- `HashMessageID::h` holds `m` iff `m` is live with hash `h`. -/
  hash : ∀ h m, s.hashMessageID h = some m ↔
    (s.article m).map ArticleRecord.messageIdHash = some h
  ownHash : ∀ m r, s.article m = some r → r.messageIdHash = hashMessageID m

/-- The empty index has no links. -/
theorem links_empty : Links hashMessageID Index.empty where
  headers _ _ := by simp [Index.empty]
  headers_live _ _ := by simp [Index.empty]
  attachments _ _ := by simp [Index.empty]
  attachments_live _ _ := by simp [Index.empty]
  record _ := by simp [Index.empty]
  hash _ _ := by simp [Index.empty]
  ownHash _ _ := by simp [Index.empty]

variable {hashMessageID}

theorem Links.of_linkView_eq {s s' : Index} (h : s'.linkView = s.linkView)
    (hs : Links hashMessageID s) : Links hashMessageID s' := by
  obtain ⟨⟩ := s; obtain ⟨⟩ := s'
  simp only [linkView, LinkView.mk.injEq] at h
  obtain ⟨rfl, rfl, rfl, rfl, rfl, rfl, rfl⟩ := h
  exact ⟨hs.1, hs.2, hs.3, hs.4, hs.5, hs.6, hs.7⟩

theorem Links.messageIDHeaderKR_eq_empty {s : Index} (hs : Links hashMessageID s) {m : String}
    (hm : s.article m = none) : s.messageIDHeaderKR m = ∅ :=
  Finset.eq_empty_of_forall_not_mem fun h h' => by
    simpa [Live, hm] using hs.headers_live m h h'

theorem Links.articleAttachments_eq_empty {s : Index} (hs : Links hashMessageID s) {m : String}
    (hm : s.article m = none) : s.articleAttachments m = ∅ :=
  Finset.eq_empty_of_forall_not_mem fun a h => by
    simpa [Live, hm] using hs.attachments_live m a h

/-- Under an injective hash, the hash of `x` is on no other record. -/
theorem Links.map_hash_ne {s : Index} (hs : Links hashMessageID s)
    (hinj : Injective hashMessageID) {m x : String} (hm : m ≠ x) :
    (s.article m).map ArticleRecord.messageIdHash ≠ some (hashMessageID x) := fun h => by
  obtain ⟨r, hr, hrh⟩ := Option.map_eq_some'.1 h
  exact hm (hinj (hs.ownHash m r hr ▸ hrh))

/-! ## Registration -/

section Register

variable {s : Index} {now : Int} {msg : Article}

@[simp] theorem live_registerPipeline {m : String} :
    (registerPipeline hashMessageID now msg s).Live m ↔ m = msg.messageID ∨ s.Live m := by
  by_cases hm : m = msg.messageID <;> simp [Live, hm]

theorem Links.registerPipeline (hs : Links hashMessageID s) (hinj : Injective hashMessageID)
    (hfresh : s.article msg.messageID = none) :
    Links hashMessageID (registerPipeline hashMessageID now msg s) where
  headers m h := by
    simp only [registerPipeline_headerKR, registerPipeline_messageIDHeaderKR, update_apply]
    by_cases hm : m = msg.messageID
    · subst hm
      have h0 := hs.messageIDHeaderKR_eq_empty hfresh
      have h1 : msg.messageID ∉ s.headerKR h := by simp [hs.headers, h0]
      by_cases hh : h ∈ msg.headerKeys <;> simp [hh, h0, h1]
    · by_cases hh : h ∈ msg.headerKeys <;> simp [hh, hm, hs.headers m h]
  headers_live m h := by
    simp only [registerPipeline_messageIDHeaderKR, update_apply, live_registerPipeline]
    split_ifs with hm
    · exact fun _ => Or.inl hm
    · exact fun h' => Or.inr (hs.headers_live m h h')
  attachments m a := by
    simp only [registerPipeline_attachmentArticles, registerPipeline_articleAttachments,
      update_apply]
    by_cases hm : m = msg.messageID
    · subst hm
      have h0 := hs.articleAttachments_eq_empty hfresh
      have h1 : msg.messageID ∉ s.attachmentArticles a := by simp [hs.attachments, h0]
      by_cases ha : a ∈ msg.attachmentHashes <;> simp [ha, h0, h1]
    · by_cases ha : a ∈ msg.attachmentHashes <;> simp [ha, hm, hs.attachments m a]
  attachments_live m a := by
    simp only [registerPipeline_articleAttachments, update_apply, live_registerPipeline]
    split_ifs with hm
    · exact fun _ => Or.inl hm
    · exact fun h' => Or.inr (hs.attachments_live m a h')
  record a := by
    have hfind : (msg.attachments.find? (·.hash = a)).isSome ↔ a ∈ msg.attachmentHashes := by
      simp [Article.attachmentHashes, List.find?_isSome]
    have := hs.record a
    simp only [registerPipeline_attachment, registerPipeline_attachmentArticles]
    by_cases ha : a ∈ msg.attachmentHashes <;> cases h : s.attachment a <;> simp_all
  hash h m := by
    simp only [registerPipeline_hashMessageID, registerPipeline_article, update_apply]
    by_cases hh : h = hashMessageID msg.messageID
    · subst hh
      by_cases hm : m = msg.messageID
      · simp [hm]
      · simpa [hm, Ne.symm hm] using hs.map_hash_ne hinj hm
    · rw [if_neg hh, hs.hash]
      by_cases hm : m = msg.messageID
      · subst hm; simp [hfresh, Ne.symm hh]
      · rw [if_neg hm]
  ownHash m r := by
    simp only [registerPipeline_article, update_apply]
    split_ifs with hm
    · rintro ⟨⟩; rw [hm]
    · exact hs.ownHash m r

end Register

/-! ## Deletion -/

section Delete

variable {s : Index}

@[simp] theorem live_deleteArticle {x m : String} :
    (deleteArticle x s).Live m ↔ m ≠ x ∧ s.Live m := by
  by_cases hm : m = x <;> simp [Live, hm]

theorem Links.deleteArticle (hs : Links hashMessageID s) (hinj : Injective hashMessageID)
    (hne : ∀ m, hashMessageID m ≠ "") (x : String) :
    Links hashMessageID (deleteArticle x s) where
  headers m h := by
    simp only [deleteArticle_headerKR, deleteArticle_messageIDHeaderKR, update_apply]
    by_cases hm : m = x
    · subst hm
      by_cases hh : h ∈ s.messageIDHeaderKR m <;> simp [hh, hs.headers]
    · by_cases hh : h ∈ s.messageIDHeaderKR x <;> simp [hh, hm, hs.headers m h]
  headers_live m h := by
    simp only [deleteArticle_messageIDHeaderKR, update_apply, live_deleteArticle]
    split_ifs with hm
    · simp
    · exact fun h' => ⟨hm, hs.headers_live m h h'⟩
  attachments m a := by
    simp only [deleteArticle_attachmentArticles, deleteArticle_articleAttachments, update_apply]
    by_cases hm : m = x
    · subst hm
      by_cases ha : a ∈ s.articleAttachments m <;> simp [ha, hs.attachments]
    · by_cases ha : a ∈ s.articleAttachments x <;> simp [ha, hm, hs.attachments m a]
  attachments_live m a := by
    simp only [deleteArticle_articleAttachments, update_apply, live_deleteArticle]
    split_ifs with hm
    · simp
    · exact fun h' => ⟨hm, hs.attachments_live m a h'⟩
  record a := by
    simp only [deleteArticle_attachment, deleteArticle_attachmentArticles]
    by_cases ha : a ∈ s.articleAttachments x
    · by_cases he : (s.attachmentArticles a).erase x = ∅
      · simp [ha, he]
      · have : s.attachmentArticles a ≠ ∅ := fun h => he (by simp [h])
        simp [ha, he, hs.record a, this]
    · simp [ha, hs.record a]
  hash h m := by
    simp only [deleteArticle_hashMessageID, deleteArticle_article, update_apply]
    cases hx : s.article x with
    | none =>
      by_cases hm : m = x
      · subst hm; simp [hs.hash, hx]
      · simp [hm, hs.hash]
    | some r =>
      simp only [Option.map_some', Option.getD_some, hs.ownHash x r hx, ne_eq, hne,
        not_false_eq_true, if_true]
      by_cases hh : h = hashMessageID x
      · subst hh
        by_cases hm : m = x
        · simp [hm]
        · simpa [hm] using hs.map_hash_ne hinj hm
      · rw [update_apply, if_neg hh, hs.hash]
        by_cases hm : m = x
        · subst hm; simp [hx, hs.ownHash m r hx, Ne.symm hh]
        · rw [if_neg hm]
  ownHash m r := by
    simp only [deleteArticle_article, update_apply]
    split_ifs
    · simp
    · exact hs.ownHash m r

end Delete

/-! ## The content of the live articles -/

/-- The content of the articles that are live in `s`. -/
def restrict (s : Index) (c : String → Option Article) : String → Option Article :=
  fun m => if s.Live m then c m else none

/-- `s` indexes the content `c`: the articles of `c` are the live ones, and
the header and attachment sets of each are those of its content. -/
structure Indexes (s : Index) (c : String → Option Article) : Prop where
  live : ∀ m, (c m).isSome ↔ s.Live m
  headers : ∀ m a, c m = some a → s.messageIDHeaderKR m = a.headerKeys.toFinset
  attachments : ∀ m a, c m = some a → s.articleAttachments m = a.attachmentHashes.toFinset

theorem indexes_empty : Indexes Index.empty fun _ => none where
  live _ := by simp [Index.empty, Live]
  headers _ _ := by simp
  attachments _ _ := by simp

section Indexes

variable {s : Index} {c : String → Option Article}

theorem Indexes.of_linkView_eq {s' : Index} (h : s'.linkView = s.linkView) (hc : Indexes s c) :
    Indexes s' c := by
  have ha : s'.article = s.article := congrArg LinkView.article h
  have hh : s'.messageIDHeaderKR = s.messageIDHeaderKR := congrArg LinkView.messageIDHeaderKR h
  have hat : s'.articleAttachments = s.articleAttachments :=
    congrArg LinkView.articleAttachments h
  exact ⟨by simpa [Live, ha] using hc.live, by simpa [hh] using hc.headers,
    by simpa [hat] using hc.attachments⟩

theorem Indexes.restrict_eq (hc : Indexes s c) : restrict s c = c := funext fun m => by
  unfold restrict
  split_ifs with h
  · rfl
  · exact (Option.not_isSome_iff_eq_none.1 (mt (hc.live m).1 h)).symm

theorem Indexes.registerPipeline {now : Int} {msg : Article} (hc : Indexes s c)
    (hs : Links hashMessageID s) (hfresh : s.article msg.messageID = none) :
    Indexes (registerPipeline hashMessageID now msg s) (update c msg.messageID (some msg)) where
  live m := by
    by_cases hm : m = msg.messageID
    · subst hm; simp
    · simp [hm, hc.live m]
  headers m a := by
    by_cases hm : m = msg.messageID
    · subst hm
      simp only [update_same, Option.some.injEq, registerPipeline_messageIDHeaderKR,
        hs.messageIDHeaderKR_eq_empty hfresh, Finset.empty_union]
      rintro rfl; rfl
    · rw [update_noteq hm, registerPipeline_messageIDHeaderKR, update_noteq hm]
      exact hc.headers m a
  attachments m a := by
    by_cases hm : m = msg.messageID
    · subst hm
      simp only [update_same, Option.some.injEq, registerPipeline_articleAttachments,
        hs.articleAttachments_eq_empty hfresh, Finset.empty_union]
      rintro rfl; rfl
    · rw [update_noteq hm, registerPipeline_articleAttachments, update_noteq hm]
      exact hc.attachments m a

/-- The content of the live articles stays indexed by a call after which
articles only leave and every article that stays keeps its sets. -/
theorem Indexes.restrict_of_shrink {s' : Index} (hc : Indexes s (restrict s c))
    (hlive : ∀ m, s'.Live m → s.Live m ∧ s'.messageIDHeaderKR m = s.messageIDHeaderKR m ∧
      s'.articleAttachments m = s.articleAttachments m) :
    Indexes s' (restrict s' c) where
  live m := by
    unfold restrict
    split_ifs with h
    · simpa [restrict, (hlive m h).1, h] using hc.live m
    · simpa using h
  headers m a := by
    unfold restrict
    split_ifs with h
    · intro ha
      rw [(hlive m h).2.1]
      exact hc.headers m a (by simp [restrict, (hlive m h).1, ha])
    · simp
  attachments m a := by
    unfold restrict
    split_ifs with h
    · intro ha
      rw [(hlive m h).2.2]
      exact hc.attachments m a (by simp [restrict, (hlive m h).1, ha])
    · simp

end Indexes

/-! ## The deleting calls -/

variable (hashMessageID) in
/-- What a deleting call keeps: the links, and the index of the content of
the articles that are still live. -/
def Kept (c : String → Option Article) (s : Index) : Prop :=
  Links hashMessageID s ∧ Indexes s (restrict s c)

section Kept

variable {c : String → Option Article} {s : Index}

theorem Kept.of_linkView_eq {s' : Index} (h : s'.linkView = s.linkView)
    (hk : Kept hashMessageID c s) : Kept hashMessageID c s' := by
  have ha : s'.article = s.article := congrArg LinkView.article h
  refine ⟨hk.1.of_linkView_eq h, hk.2.restrict_of_shrink fun m hm =>
    ⟨by simpa [Live, ha] using hm, ?_, ?_⟩⟩
  · exact congrFun (congrArg LinkView.messageIDHeaderKR h) m
  · exact congrFun (congrArg LinkView.articleAttachments h) m

section Hash

variable (hinj : Injective hashMessageID) (hne : ∀ m, hashMessageID m ≠ "")
include hinj hne

theorem Kept.deleteArticle (hk : Kept hashMessageID c s) (x : String) :
    Kept hashMessageID c (deleteArticle x s) :=
  ⟨hk.1.deleteArticle hinj hne x, hk.2.restrict_of_shrink fun m hm => by
    obtain ⟨hmx, hm⟩ := live_deleteArticle.1 hm
    simp [hm, hmx]⟩

theorem Kept.deleteThread (hk : Kept hashMessageID c s) (x : String) :
    Kept hashMessageID c (deleteThread x s) := by
  unfold Srnd.Redis.deleteThread
  exact ((foldl_induction _ hk fun _ _ _ h => h.deleteArticle hinj hne _).of_linkView_eq
    (linkView_dropThread _ _)).deleteArticle hinj hne x

theorem Kept.nukeNewsgroupIndex (hk : Kept hashMessageID c s) (group : String) :
    Kept hashMessageID c (nukeNewsgroupIndex group s) :=
  (foldl_induction _ hk fun _ _ _ h => h.deleteThread hinj hne _).of_linkView_eq
    (linkView_nukeNewsgroupIndex _ _)

end Hash

end Kept

/-! ## Runs -/

variable (hashMessageID) in
/-- The ghost update of one call: a registration that makes `msg` live adds
its content, and every other call keeps the articles that stay live. -/
def Op.contents (op : Op) (s : Index) (c : String → Option Article) : String → Option Article :=
  match op with
  | .registerArticle _ msg => if s.Live msg.messageID then c else update c msg.messageID (some msg)
  | op => restrict (op.apply hashMessageID s) c

variable (hashMessageID) in
/-- The content of the live articles along a run. -/
def contents (s : Index) (c : String → Option Article) : List Op → String → Option Article
  | [] => c
  | op :: ops => contents (op.apply hashMessageID s) (op.contents hashMessageID s c) ops

section Runs

variable (hinj : Injective hashMessageID) (hne : ∀ m, hashMessageID m ≠ "")
include hinj hne

/-- The step lemma: every call keeps the links and the index of the content. -/
theorem links_apply (op : Op) {s : Index} {c : String → Option Article}
    (hs : Links hashMessageID s) (hc : Indexes s c) :
    Links hashMessageID (op.apply hashMessageID s) ∧
      Indexes (op.apply hashMessageID s) (op.contents hashMessageID s c) := by
  have hk : Kept hashMessageID c s := ⟨hs, by rw [hc.restrict_eq]; exact hc⟩
  cases op with
  | registerArticle now msg =>
    have he := linkView_ensureNewsgroup now msg.newsgroup s
    simp only [Op.apply, Op.contents]
    by_cases hfresh : s.article msg.messageID = none
    · rw [registerArticle_of_fresh hfresh, if_neg (by simp [Live, hfresh])]
      have hfresh' : (ensureNewsgroup now msg.newsgroup s).article msg.messageID = none := by
        simpa using hfresh
      exact ⟨(hs.of_linkView_eq he).registerPipeline hinj hfresh',
        (hc.of_linkView_eq he).registerPipeline (hs.of_linkView_eq he) hfresh'⟩
    · have hl : s.Live msg.messageID := Option.isSome_iff_ne_none.2 hfresh
      have hh : hasArticle s msg.messageID = true := hl
      rw [registerArticle_eq, if_pos hh, if_pos hl]
      exact ⟨hs.of_linkView_eq he, hc.of_linkView_eq he⟩
  | deleteArticle x => exact hk.deleteArticle hinj hne x
  | deleteThread x => exact hk.deleteThread hinj hne x
  | nukeNewsgroup group => exact hk.nukeNewsgroupIndex hinj hne group

/-- The run lemma. -/
theorem links_run (ops : List Op) {s : Index} {c : String → Option Article}
    (hs : Links hashMessageID s) (hc : Indexes s c) :
    Links hashMessageID (run hashMessageID s ops) ∧
      Indexes (run hashMessageID s ops) (contents hashMessageID s c ops) := by
  induction ops generalizing s c with
  | nil => exact ⟨hs, hc⟩
  | cons op ops ih =>
    obtain ⟨hs', hc'⟩ := links_apply hinj hne op hs hc
    exact ih hs' hc'

end Runs

/-- The content of a live article is what one of the run's registrations
sent. -/
theorem contents_eq_some {s : Index} {c : String → Option Article} {ops : List Op}
    {m : String} {a : Article} (h : contents hashMessageID s c ops m = some a) :
    c m = some a ∨ ∃ now, Op.registerArticle now a ∈ ops := by
  induction ops generalizing s c with
  | nil => exact Or.inl h
  | cons op ops ih =>
    rcases ih h with h | ⟨now, hnow⟩
    · cases op with
      | registerArticle now msg =>
        simp only [Op.contents] at h
        by_cases hl : s.Live msg.messageID
        · rw [if_pos hl] at h; exact Or.inl h
        · rw [if_neg hl, update_apply] at h
          by_cases hm : m = msg.messageID
          · rw [if_pos hm] at h; cases h; exact Or.inr ⟨now, by simp⟩
          · rw [if_neg hm] at h; exact Or.inl h
      | _ =>
        simp only [Op.contents, restrict] at h
        split_ifs at h
        exact Or.inl h
    · exact Or.inr ⟨now, List.mem_cons_of_mem _ hnow⟩

/-! ## Header queries -/

/-- `GetMessageIDByHeader`: the members of `HeaderKR::Name::<name>::Value::<val>`. -/
def getMessageIDByHeader (s : Index) (name val : String) : Finset String :=
  s.headerKR (headerKey name val)

/-- The header names a registration files under have no `:`. -/
def Op.PlainHeaderNames : Op → Prop
  | .registerArticle _ msg => ∀ h ∈ msg.headers, ':' ∉ h.1.toList
  | _ => True

theorem mem_headerKeys_iff {a : Article} (ha : ∀ h ∈ a.headers, ':' ∉ h.1.toList)
    {name val : String} (hn : ':' ∉ name.toList) :
    headerKey name val ∈ a.headerKeys ↔ ∃ vs, (name, vs) ∈ a.headers ∧ val ∈ vs := by
  simp only [Article.headerKeys, List.mem_flatMap, List.mem_map]
  constructor
  · rintro ⟨⟨n, vs⟩, hmem, v, hv, heq⟩
    obtain ⟨rfl, rfl⟩ := headerKey_inj (ha _ hmem) hn heq
    exact ⟨vs, hmem, hv⟩
  · rintro ⟨vs, hmem, hv⟩
    exact ⟨(name, vs), hmem, val, hv, rfl⟩

/-- Every run from the empty index keeps the four links, when `HashMessageID`
is injective and never empty, and the index is an index of the content of
the live articles.  So, when header names have no `:`,
`GetMessageIDByHeader name val` is exactly the set of live articles whose
content carries header `name` with value `val`. -/
theorem links_of_run (hinj : Injective hashMessageID) (hne : ∀ m, hashMessageID m ≠ "")
    (ops : List Op) :
    let s := run hashMessageID Index.empty ops
    let c := contents hashMessageID Index.empty (fun _ => none) ops
    Links hashMessageID s ∧ Indexes s c ∧
      ((∀ op ∈ ops, op.PlainHeaderNames) → ∀ name val, ':' ∉ name.toList →
        ∀ m, m ∈ getMessageIDByHeader s name val ↔
          ∃ a, c m = some a ∧ ∃ vs, (name, vs) ∈ a.headers ∧ val ∈ vs) := by
  intro s c
  obtain ⟨hs, hc⟩ := links_run hinj hne ops (links_empty hashMessageID) indexes_empty
  refine ⟨hs, hc, fun hops name val hn m => ?_⟩
  have hplain : ∀ a, c m = some a → ∀ h ∈ a.headers, ':' ∉ h.1.toList := fun a ha => by
    rcases contents_eq_some ha with h | ⟨now, hnow⟩
    · cases h
    · exact hops _ hnow
  rw [getMessageIDByHeader, hs.headers]
  constructor
  · intro hm
    obtain ⟨a, ha⟩ := Option.isSome_iff_exists.1 ((hc.live m).2 (hs.headers_live m _ hm))
    rw [hc.headers m a ha, List.mem_toFinset, mem_headerKeys_iff (hplain a ha) hn] at hm
    exact ⟨a, ha, hm⟩
  · rintro ⟨a, ha, hm⟩
    rw [hc.headers m a ha, List.mem_toFinset, mem_headerKeys_iff (hplain a ha) hn]
    exact hm

/-- A prefixing hash is injective and never empty, and the links hold after
an article with a header is registered and deleted. -/
theorem links_of_run_prefixed_hash :
    let ops := [Op.registerArticle 0
      ⟨"<a@x>", "g", "", "", "", "", 0, "", "", false, [("X-Tag", ["1"])], []⟩,
      .deleteArticle "<a@x>"]
    Injective ("#" ++ ·) ∧ (∀ m, "#" ++ m ≠ "") ∧
      Links ("#" ++ ·) (run ("#" ++ ·) Index.empty ops) := by
  intro ops
  have hinj := append_left_injective "#"
  have hne := append_ne_empty_left (p := "#") (by decide)
  exact ⟨hinj, hne, (links_of_run hinj hne ops).1⟩

/-- The hash mapping needs a hash that is never empty: with an injective hash
that sends `<a@x>` to the empty string, deleting `<a@x>` leaves
`HashMessageID::` holding it. -/
theorem hashMessageID_stale_of_empty_hash :
    let hash : String → String := fun m => if m = "<a@x>" then "" else "#" ++ m
    let s := run hash Index.empty
      [.registerArticle 0 ⟨"<a@x>", "g", "", "", "", "", 0, "", "", false, [], []⟩,
        .deleteArticle "<a@x>"]
    Injective hash ∧ s.hashMessageID "" = some "<a@x>" ∧ ¬ s.Live "<a@x>" := by
  refine ⟨fun a b h => ?_, by decide, by decide⟩
  have hne := append_ne_empty_left (p := "#") (by decide)
  by_cases ha : a = "<a@x>" <;> by_cases hb : b = "<a@x>" <;> simp only [ha, hb, if_true,
    if_false] at h
  · rw [ha, hb]
  · exact absurd h.symm (hne b)
  · exact absurd h (hne a)
  · exact append_left_injective "#" h

end Srnd.Redis
