import Srnd.Redis.Links
import Srnd.Redis.Pages

/-!
# Lookups of a message, the listings and the list of boards

A frontend finds a message from the short hash in a link with
`GetMessageIDByHash`, and the thread page it sits on with
`GetInfoForMessage`; it lists threads with `GetLastBumpedThreads`, the
attachments of a post with `GetPostAttachmentModels`, and the boards with
`GetAllNewsgroups`.  Each reads keys that other calls keep in step with the
article records, so over whole runs each answers for the live articles:

* `lookups_run`: `GetMessageIDByHash(h)` finds `(m, g)` exactly when `h` is
  the hash of the live article `m` of `g` (the hash being injective and never
  empty, as `Srnd.Redis.Links` needs); `GetInfoForMessage(m)` answers with the
  root of the thread, the root's newsgroup (not the reply's) and the root's
  page, and fails on a reply whose root is gone.
* `getLastBumpedThreads_run`: after a run that keeps the thread orderings
  exact, `GetLastBumpedThreads` lists distinct live OPs, each with its own
  newsgroup, and `getGroupThreads_of_exact`: `GetGroupThreads(g)` every
  live OP of `g`; `getPostAttachmentModels_of_links`: under the links every
  attachment model comes from a record that exists.
* `getAllNewsgroups_run`: `GroupPostTimeWKR` refines the set of open boards,
  which a `RegisterArticle` call opens (even for an article the index already
  has) and only `NukeNewsgroup` closes: deleting every thread of a board
  leaves it listed.
-/

namespace Srnd.Redis

open Function Index

/-- `GetMessageIDByHash(hash)`: `GET HashMessageID::hash`, then
`GetGroupForMessage` of that message-id; `none` is the error of either. -/
def getMessageIDByHash (s : Index) (hash : String) : Option (String × String) := do
  let msgid ← s.hashMessageID hash
  let group ← getGroupForMessage s msgid
  pure (msgid, group)

/-- `GetInfoForMessage(msgid)`: the root of the thread, the `ref_id` of the
post record or the message itself when that is empty, and the newsgroup and
page of the root by `GetPageForRootMessage`. -/
def getInfoForMessage (s : Index) (msgid : String) : Option (String × String × Int) := do
  let root ← (s.articlePost msgid).map ArticlePostRecord.refId
  let root := if root = "" then msgid else root
  let page ← getPageForRootMessage s root
  pure (root, page.1, page.2)

/-- `GetAllNewsgroups()`: `ZREVRANGE GroupPostTimeWKR 0 -1`. -/
def getAllNewsgroups (s : Index) : List String := s.groupPostTime.revRange 0 (-1)

/-- `GetGroupThreads(group, recv)`: an `ArticleEntry` for each member of
`ZRANGE GroupThreadBumpTimeWKR::group 0 -1`, sent down the channel in
order. -/
def getGroupThreads (s : Index) (group : String) : List (String × String) :=
  ((s.groupThreadBumpTime group).range 0 (-1)).map fun msgid => (msgid, group)

/-- `GetLastBumpedThreads(newsgroup, threads)`: `ZREVRANGE 0 threads-1` of
the group's bump-time ordering, or, for the empty newsgroup, of
`ThreadBumpTimeWKR` with the group `GetGroupForMessage` gives each root
(`""` on its error). -/
def getLastBumpedThreads (s : Index) (newsgroup : String) (threads : Int) :
    List (String × String) :=
  if 0 < newsgroup.length then
    ((s.groupThreadBumpTime newsgroup).revRange 0 (threads - 1)).map
      fun msgid => (msgid, newsgroup)
  else
    (s.threadBumpTime.revRange 0 (threads - 1)).map
      fun msgid => (msgid, (getGroupForMessage s msgid).getD "")

/-- An attachment as `GetPostAttachmentModels` fills it; the prefix is text
that nothing here reads. -/
structure AttachmentModel where
  filepath : String
  filename : String
  deriving DecidableEq, Repr

/-- `GetPostAttachmentModels(prefix, messageID)`: the `filepath` and
`filename` of the record of each hash in `ArticleAttachmentsKR::messageID`
(`""` for a missing field), in the order `SMEMBERS` lists them, which Redis
leaves open. -/
def getPostAttachmentModels (s : Index) (messageID : String) : Multiset AttachmentModel :=
  (s.articleAttachments messageID).val.map fun hash =>
    ⟨((s.attachment hash).map AttachmentRecord.filepath).getD "",
      ((s.attachment hash).map AttachmentRecord.filename).getD ""⟩

/-! ## The two records of an article -/

section Records

variable {s : Index} {g m : String}

/-- The post record of a live article carries the group and the reference
of its article record. -/
theorem articlePost_of_article (h : s.RecordsAgree) {a : ArticleRecord}
    (ha : s.article m = some a) :
    ∃ p, s.articlePost m = some p ∧ p.newsgroup = a.messageNewsgroup ∧
      p.refId = a.messageRefId := by
  have hm := h m
  rw [ha, Option.map_some'] at hm
  obtain ⟨p, hp, hpa⟩ := Option.map_eq_some'.1 hm
  exact ⟨p, hp, (Prod.mk.inj hpa).1, (Prod.mk.inj hpa).2⟩

theorem articlePost_eq_none (h : s.RecordsAgree) (hm : s.article m = none) :
    s.articlePost m = none := by
  have := h m
  rw [hm, Option.map_none'] at this
  exact Option.map_eq_none'.1 this

theorem liveIn_of_getGroupForMessage (h : s.RecordsAgree) (hm : getGroupForMessage s m = some g) :
    s.LiveIn g m := by
  obtain ⟨p, hp, rfl⟩ := Option.map_eq_some'.1 hm
  cases ha : s.article m with
  | none => rw [articlePost_eq_none h ha] at hp; cases hp
  | some a =>
    obtain ⟨p', hp', hg, -⟩ := articlePost_of_article h ha
    rw [hp, Option.some_inj] at hp'
    rw [LiveIn, ha, Option.map_some', hp', hg]

end Records

/-! ## The lookups over whole runs -/

section Lookups

variable {hashMessageID : String → String} {s : Index}

/-- `GetMessageIDByHash` inverts the hash on the live articles. -/
theorem getMessageIDByHash_eq_some (hl : Links hashMessageID s) (ha : s.RecordsAgree)
    (h m g : String) :
    getMessageIDByHash s h = some (m, g) ↔ h = hashMessageID m ∧ s.LiveIn g m := by
  constructor
  · intro hq
    simp only [getMessageIDByHash, Option.bind_eq_bind, Option.bind_eq_some, Option.pure_def,
      Option.some_inj, Prod.mk.injEq] at hq
    obtain ⟨m', hm', g', hg', rfl, rfl⟩ := hq
    obtain ⟨r, hr, rfl⟩ := Option.map_eq_some'.1 ((hl.hash h m').1 hm')
    exact ⟨hl.ownHash m' r hr, liveIn_of_getGroupForMessage ha hg'⟩
  · rintro ⟨rfl, hm⟩
    obtain ⟨r, hr, -⟩ := Option.map_eq_some'.1 hm
    have hh : s.hashMessageID (hashMessageID m) = some m := by
      rw [hl.hash, hr, Option.map_some', hl.ownHash m r hr]
    simp [getMessageIDByHash, hh, getGroupForMessage_of_liveIn ha hm]

/-- The root that `GetInfoForMessage` reads off the post record: the message
itself for an OP, its reference for a reply. -/
theorem root_of_liveOP_or_reply (ha : s.RecordsAgree) {m r g : String}
    (h : s.LiveOP g m ∧ r = m ∨ s.LiveReply r m ∧ s.LiveOP g r) :
    ∃ p, s.articlePost m = some p ∧ (if p.refId = "" then m else p.refId) = r := by
  rcases h with ⟨hop, rfl⟩ | ⟨⟨hr, hrep⟩, -⟩
  · obtain ⟨a, hma, hga⟩ := Option.map_eq_some'.1 hop
    obtain ⟨p, hp, -, hpr⟩ := articlePost_of_article ha hma
    exact ⟨p, hp, by rw [hpr, (Prod.mk.inj hga).2, if_pos rfl]⟩
  · obtain ⟨a, hma, rfl⟩ := Option.map_eq_some'.1 hrep
    obtain ⟨p, hp, -, hpr⟩ := articlePost_of_article ha hma
    exact ⟨p, hp, by rw [hpr, if_neg hr]⟩

/-- `GetInfoForMessage` of a live OP, or of a live reply to a live OP,
answers with the root, the root's group and the root's page. -/
theorem getInfoForMessage_of_root (hc : ThreadOrderingsCover s) (ha : s.RecordsAgree)
    {m r g : String} (h : s.LiveOP g m ∧ r = m ∨ s.LiveReply r m ∧ s.LiveOP g r) :
    ∃ page, getPageForRootMessage s r = some (g, page) ∧
      getInfoForMessage s m = some (r, g, page) := by
  have hroot : s.LiveOP g r := by rcases h with ⟨h, rfl⟩ | ⟨-, h⟩ <;> exact h
  obtain ⟨p, hp, hpr⟩ := root_of_liveOP_or_reply ha h
  obtain ⟨k, hk, -⟩ := ZSet.revRank_eq_some ((hc.same g r).1 (hc.group g r hroot))
  have hpage : getPageForRootMessage s r = some (g, (k : Int) / 10) := by
    simp [getPageForRootMessage, getGroupForMessage_of_liveIn ha hroot.liveIn, hk,
      getPagesPerBoard]
  refine ⟨_, hpage, ?_⟩
  simp [getInfoForMessage, hp, hpr, hpage]

/-- `GetInfoForMessage` fails on a message without records and on a reply
whose root has none. -/
theorem getInfoForMessage_eq_none (ha : s.RecordsAgree) {m r : String}
    (h : s.article m = none ∨ s.LiveReply r m ∧ s.article r = none) :
    getInfoForMessage s m = none := by
  rcases h with hm | ⟨⟨hr, hrep⟩, hra⟩
  · simp [getInfoForMessage, articlePost_eq_none ha hm]
  · obtain ⟨a, hma, rfl⟩ := Option.map_eq_some'.1 hrep
    obtain ⟨p, hp, -, hpr⟩ := articlePost_of_article ha hma
    simp [getInfoForMessage, hp, hpr, hr, getPageForRootMessage, getGroupForMessage,
      articlePost_eq_none ha hra]

theorem recordsAgree_run (ops : List Op) : (run hashMessageID Index.empty ops).RecordsAgree :=
  run_induction (P := Index.RecordsAgree) articleOrderingsExact_empty.agree
    fun op _ _ h => h.apply op

/-- For a hash that is injective and never empty, after any run of index
calls from the empty index: `GetMessageIDByHash(h)` returns `(m, g)` exactly
when `h` is the hash of `m` and `m` is a live article of `g`;
`GetInfoForMessage(m)`, for a live OP `m` or a live reply `m` to a live OP
`r`, returns the root, the root's newsgroup and the page
`GetPageForRootMessage` gives the root; and `GetInfoForMessage` fails on a
message without records and on a reply whose root has none. -/
theorem lookups_run (hinj : Injective hashMessageID) (hne : ∀ m, hashMessageID m ≠ "")
    (ops : List Op) (h m r g : String) :
    let s := run hashMessageID Index.empty ops
    (getMessageIDByHash s h = some (m, g) ↔ h = hashMessageID m ∧ s.LiveIn g m) ∧
      ((s.LiveOP g m ∧ r = m ∨ s.LiveReply r m ∧ s.LiveOP g r) →
        ∃ page, getPageForRootMessage s r = some (g, page) ∧
          getInfoForMessage s m = some (r, g, page)) ∧
      (s.article m = none ∨ s.LiveReply r m ∧ s.article r = none →
        getInfoForMessage s m = none) := by
  intro s
  have ha := @recordsAgree_run hashMessageID ops
  exact ⟨getMessageIDByHash_eq_some
      (links_run hinj hne ops (links_empty hashMessageID) indexes_empty).1 ha h m g,
    getInfoForMessage_of_root (threadOrderingsCover_run ops) ha,
    getInfoForMessage_eq_none ha⟩

/-- With the hash `"#" ++ m`: after an OP `<a@x>` of `g` and a reply
`<b@x>` to it posted to `h`, `GetMessageIDByHash("#<b@x>")` finds the reply
in `h`, and `GetInfoForMessage(<b@x>)` answers with the root and its
newsgroup `g`. -/
theorem lookups_run_cross_post :
    let a : Article := ⟨"<a@x>", "g", "", "", "", "", 1, "", "", false, [], []⟩
    let b : Article := ⟨"<b@x>", "h", "<a@x>", "", "", "", 2, "", "", false, [], []⟩
    let ops : List Op := [.registerArticle 1 a, .registerArticle 2 b]
    let s := run ("#" ++ ·) Index.empty ops
    Injective ("#" ++ ·) ∧ (∀ m, "#" ++ m ≠ "") ∧
      getMessageIDByHash s "#<b@x>" = some ("<b@x>", "h") ∧
      ∃ page, getInfoForMessage s "<b@x>" = some ("<a@x>", "g", page) := by
  intro a b ops s
  have hinj := append_left_injective "#"
  have hne := append_ne_empty_left (p := "#") (by decide)
  have hq := lookups_run hinj hne ops "#<b@x>" "<b@x>" "<a@x>" "h"
  have hi := (lookups_run hinj hne ops "#<b@x>" "<b@x>" "<a@x>" "g").2.1
    (.inr ⟨by decide, by decide⟩)
  obtain ⟨page, -, hpage⟩ := hi
  exact ⟨hinj, hne, hq.1.2 ⟨rfl, by decide⟩, page, hpage⟩

end Lookups

/-! ## Thread and attachment listings -/

section Listings

variable {hashMessageID : String → String} {s : Index}

/-- Under exact thread orderings, `GetGroupThreads(g)` sends each live OP of
`g` once, with `g`. -/
theorem getGroupThreads_of_exact (ht : ThreadOrderingsExact s) (g : String) :
    (getGroupThreads s g).Nodup ∧
      ∀ m g', (m, g') ∈ getGroupThreads s g ↔ g' = g ∧ s.LiveOP g m := by
  rw [getGroupThreads, ZSet.range_zero_neg_one]
  refine ⟨(ZSet.nodup_sorted _).map fun _ _ h => (Prod.mk.inj h).1, fun m g' => ?_⟩
  simp only [List.mem_map, ZSet.mem_sorted, ht.groupBump, Prod.mk.injEq]
  constructor
  · rintro ⟨_, h, rfl, rfl⟩
    exact ⟨rfl, h⟩
  · rintro ⟨rfl, h⟩
    exact ⟨m, h, rfl, rfl⟩

/-- One OP: the listing of its group holds it once. -/
theorem getGroupThreads_of_exact_one_op :
    let op : Article := ⟨"<a@x>", "g", "", "", "", "", 0, "", "", false, [], []⟩
    let s := run id Index.empty [.registerArticle 0 op]
    ThreadOrderingsExact s ∧ (getGroupThreads s "g").Nodup ∧
      (("<a@x>", "g") ∈ getGroupThreads s "g" ↔ "g" = "g" ∧ s.LiveOP "g" "<a@x>") := by
  intro op s
  have hops : ∀ o ∈ [Op.registerArticle 0 op], o.IsArticleCall := by simp [Op.IsArticleCall]
  have hrun : RunAll id SoundCall Index.empty [.registerArticle 0 op] :=
    ⟨fun _ => by decide, trivial⟩
  have ht := (orderingsExact_run _ hops hrun).2
  exact ⟨ht, (getGroupThreads_of_exact ht "g").1, (getGroupThreads_of_exact ht "g").2 _ _⟩

/-- After a run of article calls, each meeting `SoundCall`,
`GetLastBumpedThreads(g, n)` lists distinct live OPs, each with its own
newsgroup: of `g` when `g` is not empty, and outside `ctl` when it is. -/
theorem getLastBumpedThreads_run (ops : List Op) (hops : ∀ op ∈ ops, op.IsArticleCall)
    (hrun : RunAll hashMessageID SoundCall Index.empty ops) (g : String) (n : Int) :
    let s := run hashMessageID Index.empty ops
    (getLastBumpedThreads s g n).Nodup ∧ ∀ e ∈ getLastBumpedThreads s g n,
      s.LiveOP e.2 e.1 ∧ (0 < g.length → e.2 = g) ∧ (g.length = 0 → e.2 ≠ "ctl") := by
  intro s
  obtain ⟨ha, ht⟩ := orderingsExact_run ops hops hrun
  have hfst : ∀ f : String → String, Injective fun m => (m, f m) := fun _ _ _ h =>
    (Prod.mk.inj h).1
  have hnodup : ∀ z : ZSet, (z.revRange 0 (n - 1)).Nodup := fun z => by
    rw [ZSet.revRange_zero]
    exact (List.take_sublist _ _).nodup z.nodup_revSorted
  have hmem : ∀ {z : ZSet} {m : String}, m ∈ z.revRange 0 (n - 1) → m ∈ z := fun hm => by
    rw [ZSet.revRange_zero] at hm
    exact ZSet.mem_revSorted.1 (List.mem_of_mem_take hm)
  unfold getLastBumpedThreads
  split_ifs with hg
  · refine ⟨(hnodup _).map (hfst fun _ => g), fun e he => ?_⟩
    obtain ⟨m, hm, rfl⟩ := List.mem_map.1 he
    exact ⟨(ht.groupBump g m).1 (hmem hm), fun _ => rfl, fun h => absurd h (by omega)⟩
  · refine ⟨(hnodup _).map (hfst _), fun e he => ?_⟩
    obtain ⟨m, hm, rfl⟩ := List.mem_map.1 he
    obtain ⟨g', hg', hl⟩ := (ht.global m).1 (hmem hm)
    rw [getGroupForMessage_of_liveIn ha.agree hl.liveIn, Option.getD_some]
    exact ⟨hl, fun h => absurd h hg, fun _ => hg'⟩

/-- An OP and a reply: the last bumped threads of the group are its one
live OP. -/
theorem getLastBumpedThreads_run_one_thread :
    let op : Article := ⟨"<a@x>", "g", "", "", "", "", 0, "", "", false, [], []⟩
    let reply : Article := ⟨"<b@x>", "g", "<a@x>", "", "", "", 1, "", "", false, [], []⟩
    let ops : List Op := [.registerArticle 0 op, .registerArticle 1 reply]
    (∀ op ∈ ops, op.IsArticleCall) ∧ RunAll id SoundCall Index.empty ops ∧
      (getLastBumpedThreads (run id Index.empty ops) "g" 10).Nodup ∧
      ∀ e ∈ getLastBumpedThreads (run id Index.empty ops) "g" 10,
        (run id Index.empty ops).LiveOP e.2 e.1 ∧ e.2 = "g" := by
  intro op reply ops
  have hops : ∀ op ∈ ops, op.IsArticleCall := by simp [ops, Op.IsArticleCall]
  have hrun : RunAll id SoundCall Index.empty ops :=
    ⟨fun _ => by decide, fun _ => by decide, trivial⟩
  obtain ⟨hn, he⟩ := getLastBumpedThreads_run ops hops hrun "g" 10
  exact ⟨hops, hrun, hn, fun e h => ⟨(he e h).1, (he e h).2.1 (by decide)⟩⟩

/-- Under the links, every attachment hash of an article has its record, so
each model `GetPostAttachmentModels` lists is the `filepath` and `filename`
of a record that exists, never the empty fields of a missing one. -/
theorem getPostAttachmentModels_of_links (hl : Links hashMessageID s) (m : String) :
    ∀ a ∈ getPostAttachmentModels s m, ∃ hash ∈ s.articleAttachments m,
      ∃ r, s.attachment hash = some r ∧ a = ⟨r.filepath, r.filename⟩ := by
  intro a ha
  obtain ⟨hash, hh, rfl⟩ := Multiset.mem_map.1 ha
  have hne : s.attachmentArticles hash ≠ ∅ :=
    Finset.ne_empty_of_mem ((hl.attachments m hash).2 hh)
  obtain ⟨r, hr⟩ := Option.isSome_iff_exists.1 ((hl.record hash).2 hne)
  exact ⟨hash, hh, r, hr, by simp [hr]⟩

/-- An article with one attachment, after a run from the empty index. -/
theorem getPostAttachmentModels_of_links_one_file :
    let a : Article :=
      ⟨"<a@x>", "g", "", "", "", "", 1, "", "", false, [], [⟨"h", "f.png", "1.png"⟩]⟩
    let s := run ("#" ++ ·) Index.empty [.registerArticle 1 a]
    Links ("#" ++ ·) s ∧ ∀ m ∈ getPostAttachmentModels s "<a@x>",
      ∃ hash ∈ s.articleAttachments "<a@x>", ∃ r, s.attachment hash = some r ∧
        m = ⟨r.filepath, r.filename⟩ := by
  intro a s
  have hl := (links_run (append_left_injective "#") (append_ne_empty_left (by decide))
    [.registerArticle 1 a] (links_empty _) indexes_empty).1
  exact ⟨hl, getPostAttachmentModels_of_links hl "<a@x>"⟩

end Listings

/-! ## The open boards -/

section Boards

variable {hashMessageID : String → String} {s : Index}

/-- The boards a call leaves open, from those open before it: a
`RegisterArticle` call opens the board of its newsgroup, `NukeNewsgroup`
closes its group, and deleting articles or threads closes none. -/
def Op.openBoards (boards : Finset String) : Op → Finset String
  | .registerArticle _ msg => insert msg.newsgroup boards
  | .nukeNewsgroup group => boards.erase group
  | _ => boards

/-- The boards open after a run from the empty index. -/
def openBoards (ops : List Op) : Finset String := ops.foldl Op.openBoards ∅

theorem deleteThread_groupPostTime (x : String) (s : Index) :
    (deleteThread x s).groupPostTime = s.groupPostTime :=
  foldl_induction (P := fun s' => s'.groupPostTime = s.groupPostTime) _ rfl fun _ _ _ h => h

theorem nukeNewsgroupIndex_groupPostTime (g : String) (s : Index) :
    (nukeNewsgroupIndex g s).groupPostTime = s.groupPostTime.rem g :=
  congrArg (ZSet.rem · g) (foldl_induction (P := fun s' => s'.groupPostTime = s.groupPostTime) _
    rfl fun _ t _ h => (deleteThread_groupPostTime t _).trans h)

theorem mem_groupPostTime_registerArticle (now : Int) (msg : Article) (g : String) :
    g ∈ (registerArticle hashMessageID now msg s).groupPostTime ↔
      g = msg.newsgroup ∨ g ∈ s.groupPostTime := by
  have he : g ∈ (ensureNewsgroup now msg.newsgroup s).groupPostTime ↔
      g = msg.newsgroup ∨ g ∈ s.groupPostTime := by
    rw [ensureNewsgroup_eq]
    split_ifs with hn
    · exact ⟨.inr, fun h => h.elim (· ▸ hn) id⟩
    · exact ZSet.mem_addNX
  rw [registerArticle_eq]
  split_ifs
  · exact he
  · rw [← he, registerPipeline, updateThread_eq]
    exact ZSet.mem_addXX

/-- One call moves `GroupPostTimeWKR` as it moves the open boards. -/
theorem mem_groupPostTime_apply (op : Op) {B : Finset String}
    (hB : ∀ g, g ∈ s.groupPostTime ↔ g ∈ B) (g : String) :
    g ∈ (op.apply hashMessageID s).groupPostTime ↔ g ∈ op.openBoards B := by
  cases op with
  | registerArticle now msg =>
    rw [Op.apply, mem_groupPostTime_registerArticle, Op.openBoards, Finset.mem_insert, hB]
  | deleteArticle x => exact hB g
  | deleteThread x => rw [Op.apply, deleteThread_groupPostTime]; exact hB g
  | nukeNewsgroup x =>
    rw [Op.apply, nukeNewsgroupIndex_groupPostTime, ZSet.mem_rem, Op.openBoards,
      Finset.mem_erase, hB]

theorem mem_groupPostTime_run (ops : List Op) {B : Finset String}
    (hB : ∀ g, g ∈ s.groupPostTime ↔ g ∈ B) (g : String) :
    g ∈ (run hashMessageID s ops).groupPostTime ↔ g ∈ ops.foldl Op.openBoards B := by
  induction ops generalizing s B with
  | nil => exact hB g
  | cons op ops ih => exact ih (mem_groupPostTime_apply op hB)

theorem getAllNewsgroups_eq (s : Index) : getAllNewsgroups s = s.groupPostTime.revSorted := by
  rw [getAllNewsgroups, show (-1 : Int) = 0 - 1 from rfl, ZSet.revRange_zero]
  exact List.take_of_length_le (by simp [ZSet.length_revSorted])

/-- After any run of index calls from the empty index, `GetAllNewsgroups`
lists each newsgroup once, and lists a newsgroup, as `HasNewsgroup` holds of
it, exactly when the board is open: some `RegisterArticle` call named it
after the last `NukeNewsgroup` of it, whatever became of its articles. -/
theorem getAllNewsgroups_run (ops : List Op) :
    let s := run hashMessageID Index.empty ops
    (getAllNewsgroups s).Nodup ∧ ∀ g, (g ∈ getAllNewsgroups s ↔ g ∈ openBoards ops) ∧
      (hasNewsgroup s g = true ↔ g ∈ openBoards ops) := by
  intro s
  have hB : ∀ g, g ∈ s.groupPostTime ↔ g ∈ openBoards ops :=
    mem_groupPostTime_run ops fun g => by simp [Index.empty, ZSet.empty, ZSet.mem_iff, ZSet.members]
  refine ⟨getAllNewsgroups_eq s ▸ s.groupPostTime.nodup_revSorted, fun g => ⟨?_, ?_⟩⟩
  · rw [getAllNewsgroups_eq, ZSet.mem_revSorted, hB]
  · rw [hasNewsgroup, decide_eq_true_iff, hB]

/-- Deleting the only thread of `g` leaves the board listed. -/
example : getAllNewsgroups (run id Index.empty
    [.registerArticle 1 ⟨"<a@x>", "g", "", "", "", "", 1, "", "", false, [], []⟩,
      .deleteThread "<a@x>"]) = ["g"] := by
  decide

end Boards

end Srnd.Redis
