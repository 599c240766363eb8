import Srnd.Redis.Schema

/-!
# `RegisterArticle`

`RegisterArticle` first registers the newsgroup if `GroupPostTimeWKR` lacks
it, then returns when the article record already exists, and otherwise sends
one pipeline of writes.  The pipeline is cut here into the four groups the
source comments name:

* `insertArticle`: the article record and its hash mapping, the newsgroup
  time, the group's article list, the post record and `ArticleWKR`;
* `updateThread`: the thread state, which is an insert for an OP and an
  `XX` update of the root for a reply;
* `registerHeaders`: the header-value sets in both directions;
* `registerAttachments`: the attachment sets in both directions and the
  attachment record, each of whose fields is set with `HSETNX`.

The groups write disjoint fields of `Index`, so their order inside the
pipeline does not matter.  The header and attachment loops issue `SADD`s,
which commute, and are written as their total effect.  The attachment record
keeps the fields of the first attachment of its hash, as the `HSETNX`s do.

The clock is an argument: `now` is the value of `timeNow()`.  `HashMessageID`
is not in the sources and is an argument too.

The `@[simp]` lemmas at the end give every field of the result.  Every
later proof about a registration goes through them.
-/

namespace Srnd.Redis

open Function

variable (hashMessageID : String → String)

/-- `HasNewsgroup`: `ZRANK` on `GroupPostTimeWKR` succeeds exactly for a
member. -/
def hasNewsgroup (s : Index) (group : String) : Bool := decide (group ∈ s.groupPostTime)

/-- `RegisterNewsgroup`: `ZADD NX` of the group into `GroupPostTimeWKR`. -/
def registerNewsgroup (now : Int) (group : String) (s : Index) : Index :=
  { s with groupPostTime := s.groupPostTime.addNX group now }

/-- `HasArticle`: `EXISTS NNTP::Article::<msgid>`. -/
def hasArticle (s : Index) (msgid : String) : Bool := (s.article msgid).isSome

/-- The article metadata, the newsgroup time, the group's article list, the
post record and `ArticleWKR` (unless the group is `ctl`). -/
def insertArticle (now : Int) (msg : Article) (s : Index) : Index :=
  { s with
    article := update s.article msg.messageID
      (some ⟨msg.messageID, hashMessageID msg.messageID, msg.newsgroup, now, msg.reference⟩)
    hashMessageID := update s.hashMessageID (hashMessageID msg.messageID) (some msg.messageID)
    groupPostTime := s.groupPostTime.addXX msg.newsgroup now
    groupArticlePostTime := update s.groupArticlePostTime msg.newsgroup
      ((s.groupArticlePostTime msg.newsgroup).addNX msg.messageID now)
    articlePost := update s.articlePost msg.messageID
      (some ⟨msg.newsgroup, msg.messageID, msg.reference, msg.name, msg.subject, msg.path,
        msg.posted, msg.message, msg.addr⟩)
    articleWKR := if msg.newsgroup ≠ "ctl" then s.articleWKR.addNX msg.messageID now
      else s.articleWKR }

/-- The thread state.  An OP enters both thread orderings of its group and
`ThreadBumpTimeWKR` (unless the group is `ctl`).  A reply moves its root's
post time in its group's ordering, its bump times unless it is a sage reply,
and enters `ThreadPostsWKR::<reference>`.  All scores are `Posted`. -/
def updateThread (msg : Article) (s : Index) : Index :=
  if msg.OP then
    { s with
      groupThreadPostTime := update s.groupThreadPostTime msg.newsgroup
        ((s.groupThreadPostTime msg.newsgroup).addNX msg.messageID msg.posted)
      groupThreadBumpTime := update s.groupThreadBumpTime msg.newsgroup
        ((s.groupThreadBumpTime msg.newsgroup).addNX msg.messageID msg.posted)
      threadBumpTime := if msg.newsgroup ≠ "ctl" then
        s.threadBumpTime.addNX msg.messageID msg.posted else s.threadBumpTime }
  else
    { s with
      groupThreadBumpTime := if !msg.sage then update s.groupThreadBumpTime msg.newsgroup
        ((s.groupThreadBumpTime msg.newsgroup).addXX msg.reference msg.posted)
        else s.groupThreadBumpTime
      threadBumpTime := if !msg.sage then s.threadBumpTime.addXX msg.reference msg.posted
        else s.threadBumpTime
      groupThreadPostTime := update s.groupThreadPostTime msg.newsgroup
        ((s.groupThreadPostTime msg.newsgroup).addXX msg.reference msg.posted)
      threadPosts := update s.threadPosts msg.reference
        ((s.threadPosts msg.reference).addNX msg.messageID msg.posted) }

/-- The header loop: `SADD HeaderKR::<header> msgid` and
`SADD MessageIDHeaderKR::<msgid> header` for every header value. -/
def registerHeaders (msg : Article) (s : Index) : Index :=
  { s with
    headerKR := fun h => if h ∈ msg.headerKeys then insert msg.messageID (s.headerKR h)
      else s.headerKR h
    messageIDHeaderKR := update s.messageIDHeaderKR msg.messageID
      (s.messageIDHeaderKR msg.messageID ∪ msg.headerKeys.toFinset) }

/-- The attachment loop: both `SADD`s, and the four `HSETNX`s of the record,
which only create it. -/
def registerAttachments (msg : Article) (s : Index) : Index :=
  { s with
    attachmentArticles := fun a => if a ∈ msg.attachmentHashes then
      insert msg.messageID (s.attachmentArticles a) else s.attachmentArticles a
    articleAttachments := update s.articleAttachments msg.messageID
      (s.articleAttachments msg.messageID ∪ msg.attachmentHashes.toFinset)
    attachment := fun a => match s.attachment a with
      | some r => some r
      | none => (msg.attachments.find? (·.hash = a)).map
          fun att => ⟨msg.messageID, a, att.filename, att.filepath⟩ }

/-- The pipeline, sent when the article is new. -/
def registerPipeline (now : Int) (msg : Article) (s : Index) : Index :=
  registerAttachments msg (registerHeaders msg (updateThread msg
    (insertArticle hashMessageID now msg s)))

/-- The newsgroup check at the top of `RegisterArticle`. -/
def ensureNewsgroup (now : Int) (group : String) (s : Index) : Index :=
  if hasNewsgroup s group then s else registerNewsgroup now group s

/-- `RegisterArticle`, at clock value `now`. -/
def registerArticle (now : Int) (msg : Article) (s : Index) : Index :=
  let s := ensureNewsgroup now msg.newsgroup s
  if hasArticle s msg.messageID then s else registerPipeline hashMessageID now msg s

/-! ## The fields of the result -/

variable {hashMessageID}

/-- The newsgroup check only touches `GroupPostTimeWKR`. -/
theorem ensureNewsgroup_eq (now : Int) (group : String) (s : Index) :
    ensureNewsgroup now group s = { s with groupPostTime :=
      if group ∈ s.groupPostTime then s.groupPostTime else s.groupPostTime.addNX group now } := by
  unfold ensureNewsgroup hasNewsgroup registerNewsgroup
  by_cases h : group ∈ s.groupPostTime <;> simp [h]

@[simp] theorem hasArticle_ensureNewsgroup (now : Int) (group msgid : String) (s : Index) :
    hasArticle (ensureNewsgroup now group s) msgid = hasArticle s msgid := by
  rw [ensureNewsgroup_eq]; rfl

@[simp] theorem ensureNewsgroup_groupThreadPostTime (now : Int) (group : String) (s : Index) :
    (ensureNewsgroup now group s).groupThreadPostTime = s.groupThreadPostTime := by
  rw [ensureNewsgroup_eq]

@[simp] theorem ensureNewsgroup_groupThreadBumpTime (now : Int) (group : String) (s : Index) :
    (ensureNewsgroup now group s).groupThreadBumpTime = s.groupThreadBumpTime := by
  rw [ensureNewsgroup_eq]

@[simp] theorem ensureNewsgroup_threadBumpTime (now : Int) (group : String) (s : Index) :
    (ensureNewsgroup now group s).threadBumpTime = s.threadBumpTime := by
  rw [ensureNewsgroup_eq]

/-- The thread update with its case split pushed into the fields. -/
theorem updateThread_eq (msg : Article) (s : Index) :
    updateThread msg s = { s with
      groupThreadPostTime := update s.groupThreadPostTime msg.newsgroup
        (if msg.OP then (s.groupThreadPostTime msg.newsgroup).addNX msg.messageID msg.posted
          else (s.groupThreadPostTime msg.newsgroup).addXX msg.reference msg.posted)
      groupThreadBumpTime :=
        if msg.OP then update s.groupThreadBumpTime msg.newsgroup
          ((s.groupThreadBumpTime msg.newsgroup).addNX msg.messageID msg.posted)
        else if !msg.sage then update s.groupThreadBumpTime msg.newsgroup
          ((s.groupThreadBumpTime msg.newsgroup).addXX msg.reference msg.posted)
        else s.groupThreadBumpTime
      threadBumpTime :=
        if msg.OP then (if msg.newsgroup ≠ "ctl" then
          s.threadBumpTime.addNX msg.messageID msg.posted else s.threadBumpTime)
        else if !msg.sage then s.threadBumpTime.addXX msg.reference msg.posted
        else s.threadBumpTime
      threadPosts := if msg.OP then s.threadPosts else update s.threadPosts msg.reference
        ((s.threadPosts msg.reference).addNX msg.messageID msg.posted) } := by
  unfold updateThread
  by_cases h : msg.OP <;> simp [h]

section Pipeline

variable (now : Int) (msg : Article) (s : Index)

@[simp] theorem registerPipeline_article :
    (registerPipeline hashMessageID now msg s).article =
      update s.article msg.messageID
        (some ⟨msg.messageID, hashMessageID msg.messageID, msg.newsgroup, now,
          msg.reference⟩) := by
  rw [registerPipeline, updateThread_eq]; rfl

@[simp] theorem registerPipeline_articlePost :
    (registerPipeline hashMessageID now msg s).articlePost = update s.articlePost msg.messageID
      (some ⟨msg.newsgroup, msg.messageID, msg.reference, msg.name, msg.subject, msg.path,
        msg.posted, msg.message, msg.addr⟩) := by
  rw [registerPipeline, updateThread_eq]; rfl

@[simp] theorem registerPipeline_articleKey :
    (registerPipeline hashMessageID now msg s).articleKey = s.articleKey := by
  rw [registerPipeline, updateThread_eq]; rfl

@[simp] theorem registerPipeline_hashMessageID :
    (registerPipeline hashMessageID now msg s).hashMessageID =
      update s.hashMessageID (hashMessageID msg.messageID) (some msg.messageID) := by
  rw [registerPipeline, updateThread_eq]; rfl

@[simp] theorem registerPipeline_groupArticlePostTime :
    (registerPipeline hashMessageID now msg s).groupArticlePostTime =
      update s.groupArticlePostTime msg.newsgroup
        ((s.groupArticlePostTime msg.newsgroup).addNX msg.messageID now) := by
  rw [registerPipeline, updateThread_eq]; rfl

@[simp] theorem registerPipeline_articleWKR :
    (registerPipeline hashMessageID now msg s).articleWKR =
      if msg.newsgroup ≠ "ctl" then s.articleWKR.addNX msg.messageID now else s.articleWKR := by
  rw [registerPipeline, updateThread_eq]; rfl

@[simp] theorem registerPipeline_groupThreadPostTime :
    (registerPipeline hashMessageID now msg s).groupThreadPostTime =
      update s.groupThreadPostTime msg.newsgroup
        (if msg.OP then (s.groupThreadPostTime msg.newsgroup).addNX msg.messageID msg.posted
          else (s.groupThreadPostTime msg.newsgroup).addXX msg.reference msg.posted) := by
  rw [registerPipeline, updateThread_eq]; rfl

@[simp] theorem registerPipeline_groupThreadBumpTime :
    (registerPipeline hashMessageID now msg s).groupThreadBumpTime =
      if msg.OP then update s.groupThreadBumpTime msg.newsgroup
        ((s.groupThreadBumpTime msg.newsgroup).addNX msg.messageID msg.posted)
      else if !msg.sage then update s.groupThreadBumpTime msg.newsgroup
        ((s.groupThreadBumpTime msg.newsgroup).addXX msg.reference msg.posted)
      else s.groupThreadBumpTime := by
  rw [registerPipeline, updateThread_eq]; rfl

@[simp] theorem registerPipeline_threadBumpTime :
    (registerPipeline hashMessageID now msg s).threadBumpTime =
      if msg.OP then (if msg.newsgroup ≠ "ctl" then
        s.threadBumpTime.addNX msg.messageID msg.posted else s.threadBumpTime)
      else if !msg.sage then s.threadBumpTime.addXX msg.reference msg.posted
      else s.threadBumpTime := by
  rw [registerPipeline, updateThread_eq]; rfl

@[simp] theorem registerPipeline_threadPosts :
    (registerPipeline hashMessageID now msg s).threadPosts =
      if msg.OP then s.threadPosts else update s.threadPosts msg.reference
        ((s.threadPosts msg.reference).addNX msg.messageID msg.posted) := by
  rw [registerPipeline, updateThread_eq]; rfl

@[simp] theorem registerPipeline_headerKR :
    (registerPipeline hashMessageID now msg s).headerKR = fun h =>
      if h ∈ msg.headerKeys then insert msg.messageID (s.headerKR h) else s.headerKR h := by
  rw [registerPipeline, updateThread_eq]; rfl

@[simp] theorem registerPipeline_messageIDHeaderKR :
    (registerPipeline hashMessageID now msg s).messageIDHeaderKR =
      update s.messageIDHeaderKR msg.messageID
        (s.messageIDHeaderKR msg.messageID ∪ msg.headerKeys.toFinset) := by
  rw [registerPipeline, updateThread_eq]; rfl

@[simp] theorem registerPipeline_attachmentArticles :
    (registerPipeline hashMessageID now msg s).attachmentArticles = fun a =>
      if a ∈ msg.attachmentHashes then insert msg.messageID (s.attachmentArticles a)
      else s.attachmentArticles a := by
  rw [registerPipeline, updateThread_eq]; rfl

@[simp] theorem registerPipeline_articleAttachments :
    (registerPipeline hashMessageID now msg s).articleAttachments =
      update s.articleAttachments msg.messageID
        (s.articleAttachments msg.messageID ∪ msg.attachmentHashes.toFinset) := by
  rw [registerPipeline, updateThread_eq]; rfl

@[simp] theorem registerPipeline_attachment :
    (registerPipeline hashMessageID now msg s).attachment = fun a =>
      match s.attachment a with
      | some r => some r
      | none => (msg.attachments.find? (·.hash = a)).map
          fun att => ⟨msg.messageID, a, att.filename, att.filepath⟩ := by
  rw [registerPipeline, updateThread_eq]; rfl

end Pipeline

/-- `RegisterArticle` either stops after the newsgroup check or sends the
pipeline. -/
theorem registerArticle_eq (now : Int) (msg : Article) (s : Index) :
    registerArticle hashMessageID now msg s =
      if hasArticle s msg.messageID then ensureNewsgroup now msg.newsgroup s
      else registerPipeline hashMessageID now msg (ensureNewsgroup now msg.newsgroup s) := by
  simp only [registerArticle, hasArticle_ensureNewsgroup]

/-- A new message-id always goes through the pipeline. -/
theorem registerArticle_of_fresh {now : Int} {msg : Article} {s : Index}
    (h : s.article msg.messageID = none) :
    registerArticle hashMessageID now msg s =
      registerPipeline hashMessageID now msg (ensureNewsgroup now msg.newsgroup s) := by
  simp [registerArticle_eq, hasArticle, h]

end Srnd.Redis
