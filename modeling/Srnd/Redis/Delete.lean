import Srnd.Redis.Register

/-!
# `DeleteArticle`, `DeleteThread` and the index side of `NukeNewsgroup`

`DeleteArticle` reads the post model of the article, then removes the reply
from its thread's `ThreadPostsWKR`, the hash mapping, the three records, the
article from its group's list and from `ArticleWKR`, every header-value
membership and every attachment link, and the attachment record of every
attachment that no other article still links.  `HGETALL` of a missing hash
is an empty map and not an error, so `GetPostModel` never fails here: for an
absent article it yields the post of an OP of the empty group.

`DeleteThread` deletes every member of `ThreadPostsWKR::<root>` with
`DeleteArticle`, takes the root out of the thread orderings of the group its
article record names (when that name is not empty) and out of
`ThreadBumpTimeWKR`, drops `ThreadPostsWKR::<root>` and deletes the root.

`NukeNewsgroup` first removes files and then works on the index.  The file
removals only read the index, so `nukeNewsgroupIndex` here is the second
part: `DeleteThread` on every member of `GroupThreadBumpTimeWKR::<group>`, the
moderator mappings, the three per-group orderings and the group itself.  The
first part is in `Srnd.Store.Dirs`.

The `SREM` loops over a set touch one key per member, so each is written as
its total effect.
-/

namespace Srnd.Redis

open Function

/-- The fields of `GetPostModel` that `DeleteArticle` reads. -/
structure PostModel where
  board : String
  messageId : String
  /-- `parent`: the reference of a reply, the message-id of an OP. -/
  parent : String
  op : Bool
  deriving DecidableEq, Repr

/-- Modelled from the spec: `post.Reference` (not in the sources) is the
parent that `GetPostModel` fills in, the thread root for a reply. -/
def PostModel.reference (p : PostModel) : String := p.parent

/-- `GetPostModel`, on the fields `DeleteArticle` reads: an empty hash gives
empty fields, and an empty `ref_id` makes the post an OP that is its own
parent. -/
def getPostModel (s : Index) (msgid : String) : PostModel :=
  match s.articlePost msgid with
  | some r => ⟨r.newsgroup, r.messageId,
      if r.refId = "" then r.messageId else r.refId, decide (r.refId = "")⟩
  | none => ⟨"", "", "", true⟩

/-- `DeleteArticle`. -/
def deleteArticle (msgid : String) (s : Index) : Index :=
  let p := getPostModel s msgid
  let hash := ((s.article msgid).map ArticleRecord.messageIdHash).getD ""
  let headers := s.messageIDHeaderKR msgid
  let atts := s.articleAttachments msgid
  { s with
    threadPosts := if !p.op then update s.threadPosts p.reference
      ((s.threadPosts p.reference).rem msgid) else s.threadPosts
    hashMessageID := if hash ≠ "" then update s.hashMessageID hash none else s.hashMessageID
    article := update s.article msgid none
    articlePost := update s.articlePost msgid none
    articleKey := update s.articleKey msgid none
    groupArticlePostTime := update s.groupArticlePostTime p.board
      ((s.groupArticlePostTime p.board).rem msgid)
    articleWKR := s.articleWKR.rem msgid
    headerKR := fun h => if h ∈ headers then (s.headerKR h).erase msgid else s.headerKR h
    messageIDHeaderKR := update s.messageIDHeaderKR msgid ∅
    attachmentArticles := fun a => if a ∈ atts then (s.attachmentArticles a).erase msgid
      else s.attachmentArticles a
    attachment := fun a => if a ∈ atts ∧ (s.attachmentArticles a).erase msgid = ∅ then none
      else s.attachment a
    articleAttachments := update s.articleAttachments msgid ∅ }

/-- `GetThreadReplies`: `ZRANGE` from `-limit + 1` to `-1`, with the limit
raised to at least `1`. -/
def getThreadReplies (s : Index) (rootpost : String) (limit : Int) : List String :=
  (s.threadPosts rootpost).range (-(max limit 1) + 1) (-1)

/-- The part of `DeleteThread` between the reply loop and the final
`DeleteArticle`: the root leaves the thread orderings of the group its record
names, `ThreadBumpTimeWKR`, and its `ThreadPostsWKR` key goes. -/
def dropThread (msgid : String) (s : Index) : Index :=
  let group := ((s.article msgid).map ArticleRecord.messageNewsgroup).getD ""
  { s with
    groupThreadPostTime := if group ≠ "" then update s.groupThreadPostTime group
      ((s.groupThreadPostTime group).rem msgid) else s.groupThreadPostTime
    groupThreadBumpTime := if group ≠ "" then update s.groupThreadBumpTime group
      ((s.groupThreadBumpTime group).rem msgid) else s.groupThreadBumpTime
    threadBumpTime := s.threadBumpTime.rem msgid
    threadPosts := update s.threadPosts msgid ZSet.empty }

/-- `DeleteThread`. -/
def deleteThread (msgid : String) (s : Index) : Index :=
  let s := (getThreadReplies s msgid 0).foldl (fun s r => deleteArticle r s) s
  deleteArticle msgid (dropThread msgid s)

/-! ## The fields of `DeleteArticle` and `dropThread` -/

section Fields

variable (msgid : String) (s : Index)

@[simp] theorem deleteArticle_article :
    (deleteArticle msgid s).article = update s.article msgid none := rfl

@[simp] theorem deleteArticle_articlePost :
    (deleteArticle msgid s).articlePost = update s.articlePost msgid none := rfl

@[simp] theorem deleteArticle_articleKey :
    (deleteArticle msgid s).articleKey = update s.articleKey msgid none := rfl

@[simp] theorem deleteArticle_groupArticlePostTime :
    (deleteArticle msgid s).groupArticlePostTime = update s.groupArticlePostTime
      (getPostModel s msgid).board
      ((s.groupArticlePostTime (getPostModel s msgid).board).rem msgid) := rfl

@[simp] theorem deleteArticle_articleWKR :
    (deleteArticle msgid s).articleWKR = s.articleWKR.rem msgid := rfl

@[simp] theorem deleteArticle_threadPosts :
    (deleteArticle msgid s).threadPosts =
      if !(getPostModel s msgid).op then update s.threadPosts (getPostModel s msgid).reference
        ((s.threadPosts (getPostModel s msgid).reference).rem msgid) else s.threadPosts := rfl

@[simp] theorem deleteArticle_groupThreadPostTime :
    (deleteArticle msgid s).groupThreadPostTime = s.groupThreadPostTime := rfl

@[simp] theorem deleteArticle_groupThreadBumpTime :
    (deleteArticle msgid s).groupThreadBumpTime = s.groupThreadBumpTime := rfl

@[simp] theorem deleteArticle_threadBumpTime :
    (deleteArticle msgid s).threadBumpTime = s.threadBumpTime := rfl

@[simp] theorem deleteArticle_hashMessageID :
    (deleteArticle msgid s).hashMessageID =
      if ((s.article msgid).map ArticleRecord.messageIdHash).getD "" ≠ "" then
        update s.hashMessageID (((s.article msgid).map ArticleRecord.messageIdHash).getD "") none
      else s.hashMessageID := rfl

@[simp] theorem deleteArticle_headerKR :
    (deleteArticle msgid s).headerKR = fun h =>
      if h ∈ s.messageIDHeaderKR msgid then (s.headerKR h).erase msgid else s.headerKR h := rfl

@[simp] theorem deleteArticle_messageIDHeaderKR :
    (deleteArticle msgid s).messageIDHeaderKR = update s.messageIDHeaderKR msgid ∅ := rfl

@[simp] theorem deleteArticle_attachmentArticles :
    (deleteArticle msgid s).attachmentArticles = fun a =>
      if a ∈ s.articleAttachments msgid then (s.attachmentArticles a).erase msgid
      else s.attachmentArticles a := rfl

@[simp] theorem deleteArticle_articleAttachments :
    (deleteArticle msgid s).articleAttachments = update s.articleAttachments msgid ∅ := rfl

@[simp] theorem deleteArticle_attachment :
    (deleteArticle msgid s).attachment = fun a =>
      if a ∈ s.articleAttachments msgid ∧ (s.attachmentArticles a).erase msgid = ∅ then none
      else s.attachment a := rfl

@[simp] theorem dropThread_article : (dropThread msgid s).article = s.article := rfl

@[simp] theorem dropThread_articlePost : (dropThread msgid s).articlePost = s.articlePost := rfl

@[simp] theorem dropThread_articleKey : (dropThread msgid s).articleKey = s.articleKey := rfl

@[simp] theorem dropThread_headerKR : (dropThread msgid s).headerKR = s.headerKR := rfl

@[simp] theorem dropThread_messageIDHeaderKR :
    (dropThread msgid s).messageIDHeaderKR = s.messageIDHeaderKR := rfl

@[simp] theorem dropThread_attachmentArticles :
    (dropThread msgid s).attachmentArticles = s.attachmentArticles := rfl

@[simp] theorem dropThread_articleAttachments :
    (dropThread msgid s).articleAttachments = s.articleAttachments := rfl

@[simp] theorem dropThread_groupArticlePostTime :
    (dropThread msgid s).groupArticlePostTime = s.groupArticlePostTime := rfl

@[simp] theorem dropThread_articleWKR : (dropThread msgid s).articleWKR = s.articleWKR := rfl

@[simp] theorem dropThread_threadPosts :
    (dropThread msgid s).threadPosts = update s.threadPosts msgid ZSet.empty := rfl

@[simp] theorem dropThread_threadBumpTime :
    (dropThread msgid s).threadBumpTime = s.threadBumpTime.rem msgid := rfl

theorem mem_dropThread_groupThreadPostTime {g m : String} :
    m ∈ (dropThread msgid s).groupThreadPostTime g ↔ m ∈ s.groupThreadPostTime g ∧
      ¬ (m = msgid ∧ (s.article msgid).map ArticleRecord.messageNewsgroup = some g ∧
        g ≠ "") := by
  unfold dropThread
  cases h : s.article msgid with
  | none => simp
  | some a =>
    simp only [Option.map_some', Option.getD_some, Option.some.injEq]
    by_cases ha : a.messageNewsgroup = ""
    · simp only [ha, ne_eq, not_true_eq_false, if_false]
      exact (and_iff_left fun h => h.2.2 h.2.1.symm).symm
    · rw [if_pos ha, update_apply]
      by_cases hg : g = a.messageNewsgroup
      · subst hg; simp [ha, and_comm]
      · simp [hg, Ne.symm hg]

theorem mem_dropThread_groupThreadBumpTime {g m : String} :
    m ∈ (dropThread msgid s).groupThreadBumpTime g ↔ m ∈ s.groupThreadBumpTime g ∧
      ¬ (m = msgid ∧ (s.article msgid).map ArticleRecord.messageNewsgroup = some g ∧
        g ≠ "") := by
  unfold dropThread
  cases h : s.article msgid with
  | none => simp
  | some a =>
    simp only [Option.map_some', Option.getD_some, Option.some.injEq]
    by_cases ha : a.messageNewsgroup = ""
    · simp only [ha, ne_eq, not_true_eq_false, if_false]
      exact (and_iff_left fun h => h.2.2 h.2.1.symm).symm
    · rw [if_pos ha, update_apply]
      by_cases hg : g = a.messageNewsgroup
      · subst hg; simp [ha, and_comm]
      · simp [hg, Ne.symm hg]

end Fields

/-- `GetAllArticlesInGroup`: the group's article list in rank order. -/
def getAllArticlesInGroup (s : Index) (group : String) : List String :=
  (s.groupArticlePostTime group).range 0 (-1)

/-- The index part of `NukeNewsgroup`. -/
def nukeNewsgroupIndex (group : String) (s : Index) : Index :=
  let s := ((s.groupThreadBumpTime group).range 0 (-1)).foldl (fun s t => deleteThread t s) s
  let mods := s.groupModKeys group
  { s with
    modPermissions := fun k => if ∃ m ∈ mods, k = modPermissionsKey m group then ∅
      else s.modPermissions k
    groupModKeys := update s.groupModKeys group ∅
    groupArticlePostTime := update s.groupArticlePostTime group ZSet.empty
    groupThreadPostTime := update s.groupThreadPostTime group ZSet.empty
    groupThreadBumpTime := update s.groupThreadBumpTime group ZSet.empty
    groupPostTime := s.groupPostTime.rem group }

end Srnd.Redis
