import Srnd.Redis.History
import Srnd.Redis.Queries

/-!
# What the statistics and the reply lists return

`RegisterArticle` scores a new article in `GroupArticlePostTimeWKR::g` and in
`ArticleWKR` with the clock value it also writes as the record's
`time_obtained`, and a reply in `ThreadPostsWKR::root` with the `Posted` it
writes as the post record's `time_posted`; only `DeleteArticle` and
`DeleteThread` take an article out of these lists.  So every score of them is
the time stored with a live article (`ArticleScores`), and, the orderings
being exact, a `ZCOUNT` over one of them counts the live articles of its
scope obtained in its window, both ends included (`count_groupArticle`,
`count_articleWKR`), and a range of one of them keeps the newest.

* `postCounts_run`: after any run of article calls, `CountPostsInGroup` and
  every entry of `GetLastDaysPostsForGroup` and `GetLastDaysPosts` count the
  live articles of their scope obtained in their window.
* `getLastPostedPostModels_run`: `GetLastPostedPostModels(n)` returns the
  newest articles outside `ctl` by time obtained: `n` of them for `n ≥ 1`,
  and for `n ≤ 0`, where `ZREVRANGE 0 n-1` counts its stop from the end,
  all of them but the `-n` oldest.
* `getThreadReplies_run`: `GetThreadReplies(root, limit)` returns the newest
  replies by time posted: all of them for `limit ≤ 1`, and otherwise
  `limit - 1` of them, since `ZRANGE -limit+1 -1` ends on the last rank.
-/

namespace Srnd.Redis

open Function Index

/-- `CountPostsInGroup(newsgroup, time_frame)` at the clock value `now`: a
positive frame counts back from `now`, a negative one from 0. -/
def countPostsInGroup (s : Index) (now : Int) (newsgroup : String) (timeFrame : Int) : Nat :=
  let timeFrame := if 0 < timeFrame then now - timeFrame else if timeFrame < 0 then 0
    else timeFrame
  (s.groupArticlePostTime newsgroup).count timeFrame now

/-- `GetThreadReplyPostModels(prefix, rootpost, limit)`: the post model of
each of `GetThreadReplies(rootpost, limit)`, in order. -/
def getThreadReplyPostModels (s : Index) (rootpost : String) (limit : Int) : List PostModel :=
  (getThreadReplies s rootpost limit).map (getPostModel s)

/-- The article `m` is live and was obtained from `lo` to `hi`. -/
def Index.ObtainedIn (s : Index) (m : String) (lo hi : Int) : Prop :=
  ∃ r, s.article m = some r ∧ lo ≤ r.timeObtained ∧ r.timeObtained ≤ hi

/-- Every score of the orderings of single articles is the time stored with
the article: the `time_obtained` of its record in its group's list and in
`ArticleWKR`, the `time_posted` of its post record in `ThreadPostsWKR`. -/
structure ArticleScores (s : Index) : Prop where
  groupArticle : ∀ g m t, (s.groupArticlePostTime g).score m = some t →
    (s.article m).map ArticleRecord.timeObtained = some t
  articleWKR : ∀ m t, s.articleWKR.score m = some t →
    (s.article m).map ArticleRecord.timeObtained = some t
  threadPosts : ∀ r m t, (s.threadPosts r).score m = some t →
    (s.articlePost m).map ArticlePostRecord.timePosted = some t

/-! ## Every call keeps the scores -/

section Steps

variable {hashMessageID : String → String} {s : Index}

theorem articleScores_empty : ArticleScores Index.empty where
  groupArticle _ _ _ h := by simp [Index.empty, ZSet.score, ZSet.empty] at h
  articleWKR _ _ h := by simp [Index.empty, ZSet.score, ZSet.empty] at h
  threadPosts _ _ _ h := by simp [Index.empty, ZSet.score, ZSet.empty] at h

/-- An article without records is in no ordering. -/
theorem ArticleScores.not_mem (ho : ArticleScores s) {m : String} (hm : s.article m = none)
    (hp : s.articlePost m = none) :
    (∀ g, m ∉ s.groupArticlePostTime g) ∧ m ∉ s.articleWKR ∧ ∀ r, m ∉ s.threadPosts r := by
  refine ⟨fun g hg => ?_, fun hw => ?_, fun r hr => ?_⟩
  · obtain ⟨t, ht⟩ := Option.isSome_iff_exists.1 (ZSet.score_isSome_iff.2 hg)
    simpa [hm] using ho.groupArticle g m t ht
  · obtain ⟨t, ht⟩ := Option.isSome_iff_exists.1 (ZSet.score_isSome_iff.2 hw)
    simpa [hm] using ho.articleWKR m t ht
  · obtain ⟨t, ht⟩ := Option.isSome_iff_exists.1 (ZSet.score_isSome_iff.2 hr)
    simpa [hp] using ho.threadPosts r m t ht

theorem ArticleScores.registerPipeline (ho : ArticleScores s) (now : Int) (msg : Article)
    (hnew : s.article msg.messageID = none) (hnewp : s.articlePost msg.messageID = none) :
    ArticleScores (registerPipeline hashMessageID now msg s) where
  groupArticle g m t h := by
    rw [registerPipeline_groupArticlePostTime, update_apply] at h
    rw [registerPipeline_article, update_apply]
    by_cases hm : m = msg.messageID
    · subst hm
      split_ifs at h with hg
      · rw [ZSet.score_addNX_of_not_mem ((ho.not_mem hnew hnewp).1 _), if_pos rfl] at h
        cases h
        simp
      · simpa [hnew] using ho.groupArticle g _ t h
    · rw [if_neg hm]
      split_ifs at h
      · rw [ZSet.score_addNX_of_ne hm] at h
        exact ho.groupArticle _ m t h
      · exact ho.groupArticle g m t h
  articleWKR m t h := by
    rw [registerPipeline_articleWKR] at h
    rw [registerPipeline_article, update_apply]
    by_cases hm : m = msg.messageID
    · subst hm
      split_ifs at h
      · rw [ZSet.score_addNX_of_not_mem (ho.not_mem hnew hnewp).2.1, if_pos rfl] at h
        cases h
        simp
      · simpa [hnew] using ho.articleWKR _ t h
    · rw [if_neg hm]
      split_ifs at h
      · rw [ZSet.score_addNX_of_ne hm] at h
        exact ho.articleWKR m t h
      · exact ho.articleWKR m t h
  threadPosts r m t h := by
    rw [registerPipeline_threadPosts] at h
    rw [registerPipeline_articlePost, update_apply]
    by_cases hm : m = msg.messageID
    · subst hm
      split_ifs at h with hop
      · simpa [hnewp] using ho.threadPosts r _ t h
      · rw [update_apply] at h
        split_ifs at h with hr
        · rw [ZSet.score_addNX_of_not_mem ((ho.not_mem hnew hnewp).2.2 _), if_pos rfl] at h
          cases h
          simp
        · simpa [hnewp] using ho.threadPosts r _ t h
    · rw [if_neg hm]
      split_ifs at h
      · exact ho.threadPosts r m t h
      · rw [update_apply] at h
        split_ifs at h
        · rw [ZSet.score_addNX_of_ne hm] at h
          exact ho.threadPosts _ m t h
        · exact ho.threadPosts r m t h

theorem ArticleScores.registerArticle (ho : ArticleScores s) (hs : s.RecordsAgree) (now : Int)
    (msg : Article) : ArticleScores (registerArticle hashMessageID now msg s) := by
  have he : ArticleScores (ensureNewsgroup now msg.newsgroup s) := by
    rw [ensureNewsgroup_eq]
    exact ⟨ho.1, ho.2, ho.3⟩
  rw [registerArticle_eq]
  split_ifs with h
  · exact he
  · have hnew : (ensureNewsgroup now msg.newsgroup s).article msg.messageID = none := by
      simpa [hasArticle] using h
    have hagree := hs.ensureNewsgroup now msg.newsgroup msg.messageID
    rw [hnew, Option.map_none'] at hagree
    exact he.registerPipeline now msg hnew (Option.map_eq_none'.1 hagree)

/-- `DeleteArticle` takes the article out of its group's list and, for a
reply, out of its root's list, which, the orderings being exact, are the only
ones that hold it. -/
theorem ArticleScores.deleteArticle (ho : ArticleScores s) (hs : ArticleOrderingsExact s)
    (x : String) : ArticleScores (deleteArticle x s) where
  groupArticle g m t h := by
    rw [deleteArticle_groupArticlePostTime, update_apply] at h
    rw [deleteArticle_article, update_apply]
    by_cases hm : m = x
    · subst hm
      split_ifs at h with hg
      · simp [ZSet.score_rem] at h
      · have hmem : m ∈ s.groupArticlePostTime g := ZSet.score_isSome_iff.1 (by simp [h])
        exact absurd (board_of_liveIn hs.agree ((hs.groupArticle g m).1 hmem)).symm hg
    · rw [if_neg hm]
      split_ifs at h
      · rw [ZSet.score_rem, if_neg hm] at h
        exact ho.groupArticle _ m t h
      · exact ho.groupArticle g m t h
  articleWKR m t h := by
    rw [deleteArticle_articleWKR, ZSet.score_rem] at h
    rw [deleteArticle_article, update_apply]
    split_ifs at h with hm
    rw [if_neg hm]
    exact ho.articleWKR m t h
  threadPosts r m t h := by
    rw [deleteArticle_threadPosts] at h
    rw [deleteArticle_articlePost, update_apply]
    by_cases hm : m = x
    · subst hm
      have hreply : ∀ r', (s.threadPosts r').score m = some t → s.LiveReply r' m := fun r' h' =>
        (hs.threadPosts r' m).1 (ZSet.score_isSome_iff.1 (by simp [h']))
      split_ifs at h with hop
      · rw [update_apply] at h
        split_ifs at h with hr
        · simp [ZSet.score_rem] at h
        · exact absurd (reference_of_liveReply hs.agree (hreply r h)).2.symm hr
      · simp [(reference_of_liveReply hs.agree (hreply r h)).1] at hop
    · rw [if_neg hm]
      split_ifs at h
      · rw [update_apply] at h
        split_ifs at h
        · rw [ZSet.score_rem, if_neg hm] at h
          exact ho.threadPosts _ m t h
        · exact ho.threadPosts r m t h
      · exact ho.threadPosts r m t h

/-- `DeleteThread` drops the root's `ThreadPostsWKR` key whole. -/
theorem ArticleScores.dropThread (ho : ArticleScores s) (x : String) :
    ArticleScores (dropThread x s) where
  groupArticle := ho.groupArticle
  articleWKR := ho.articleWKR
  threadPosts r m t h := by
    rw [dropThread_threadPosts, update_apply] at h
    split_ifs at h
    · simp [ZSet.score, ZSet.empty] at h
    · exact ho.threadPosts r m t h

theorem ArticleScores.deleteThread (ho : ArticleScores s) (hs : ArticleOrderingsExact s)
    (x : String) : ArticleScores (deleteThread x s) := by
  have h1 := foldl_induction (P := fun s => ArticleOrderingsExact s ∧ ArticleScores s)
    (getThreadReplies s x 0) ⟨hs, ho⟩ fun _ r _ ht =>
      ⟨ht.1.deleteArticle r, ht.2.deleteArticle ht.1 r⟩
  exact (h1.2.dropThread x).deleteArticle (h1.1.dropThread (hs.no_reply_after_replies x)) x

/-- After any run of article calls the orderings are exact and scored with
the times stored with each article. -/
theorem articleScores_run (ops : List Op) (hops : ∀ op ∈ ops, op.IsArticleCall) :
    ArticleOrderingsExact (run hashMessageID Index.empty ops) ∧
      ArticleScores (run hashMessageID Index.empty ops) := by
  refine run_induction (P := fun s => ArticleOrderingsExact s ∧ ArticleScores s)
    ⟨articleOrderingsExact_empty, articleScores_empty⟩ fun op hop s h => ?_
  cases op with
  | registerArticle now msg =>
    exact ⟨h.1.registerArticle now msg, h.2.registerArticle h.1.agree now msg⟩
  | deleteArticle m => exact ⟨h.1.deleteArticle m, h.2.deleteArticle h.1 m⟩
  | deleteThread m => exact ⟨h.1.deleteThread m, h.2.deleteThread h.1 m⟩
  | nukeNewsgroup g => exact (hops _ hop).elim

end Steps

/-! ## What the queries count -/

section Counts

variable {hashMessageID : String → String} {s : Index}

/-- A member of a list that a range leaves out of its tail is in the head. -/
theorem mem_take_of_not_mem_drop {l : List String} {m : String} (k : Nat) (hm : m ∈ l)
    (hout : m ∉ l.drop k) : m ∈ l.take k := by
  rw [← List.take_append_drop k l, List.mem_append] at hm
  exact hm.resolve_right hout

/-- A `ZCOUNT` over an ordering that holds exactly the live articles with
`p`, each scored with its time obtained, counts those obtained in the
window. -/
theorem count_numberOf_obtained {z : ZSet} {p : String → Prop} (hz : ∀ m, m ∈ z ↔ p m)
    (hsc : ∀ m t, z.score m = some t → (s.article m).map ArticleRecord.timeObtained = some t)
    (lo hi : Int) : NumberOf (fun m => p m ∧ s.ObtainedIn m lo hi) (z.count lo hi) := by
  refine (z.count_numberOf lo hi).congr fun m => ⟨?_, ?_⟩
  · rintro ⟨t, ht, hlo, hhi⟩
    obtain ⟨r, hr, rfl⟩ := Option.map_eq_some'.1 (hsc m t ht)
    exact ⟨(hz m).1 (ZSet.score_isSome_iff.1 (by simp [ht])), r, hr, hlo, hhi⟩
  · rintro ⟨hp, r, hr, hlo, hhi⟩
    obtain ⟨t, ht⟩ := Option.isSome_iff_exists.1 (ZSet.score_isSome_iff.2 ((hz m).2 hp))
    have hrt := hsc m t ht
    rw [hr, Option.map_some', Option.some_inj] at hrt
    exact ⟨t, ht, hrt ▸ hlo, hrt ▸ hhi⟩

theorem count_groupArticle (hs : ArticleOrderingsExact s) (ho : ArticleScores s) (g : String)
    (lo hi : Int) :
    NumberOf (fun m => s.LiveIn g m ∧ s.ObtainedIn m lo hi)
      ((s.groupArticlePostTime g).count lo hi) :=
  count_numberOf_obtained (hs.groupArticle g) (ho.groupArticle g) lo hi

theorem count_articleWKR (hs : ArticleOrderingsExact s) (ho : ArticleScores s) (lo hi : Int) :
    NumberOf (fun m => (∃ g, g ≠ "ctl" ∧ s.LiveIn g m) ∧ s.ObtainedIn m lo hi)
      (s.articleWKR.count lo hi) :=
  count_numberOf_obtained hs.articleWKR ho.articleWKR lo hi

/-- Each entry of the daily loop counts its ordering over its day. -/
theorem count_of_mem_lastDaysPosts {z : ZSet} {now : Int} {n : Nat} {e : PostEntry}
    (he : e ∈ lastDaysPosts z now n) : e.count = z.count e.time (e.time + 86400) := by
  induction n generalizing now with
  | zero => cases he
  | succ n ih =>
    rcases List.mem_cons.1 he with rfl | he
    exacts [rfl, ih he]

/-- After any run of `RegisterArticle`, `DeleteArticle` and `DeleteThread`
calls from the empty index, at every clock value `now`:
`CountPostsInGroup(g, f)` counts the live articles of `g` obtained from
`now - f` (from 0 when `f` is not positive) to `now`, and every entry of
`GetLastDaysPostsForGroup(g, n)` and of `GetLastDaysPosts(n)` counts the live
articles of `g`, or outside `ctl`, obtained from its midnight to the next
one, both included. -/
theorem postCounts_run (ops : List Op) (hops : ∀ op ∈ ops, op.IsArticleCall) (now : Int) :
    let s := run hashMessageID Index.empty ops
    (∀ g timeFrame, NumberOf (fun m => s.LiveIn g m ∧
        s.ObtainedIn m (if 0 < timeFrame then now - timeFrame else 0) now)
      (countPostsInGroup s now g timeFrame)) ∧
    (∀ g n, ∀ e ∈ getLastDaysPostsForGroup s now g n,
      NumberOf (fun m => s.LiveIn g m ∧ s.ObtainedIn m e.time (e.time + 86400)) e.count) ∧
    ∀ n, ∀ e ∈ getLastDaysPosts s now n,
      NumberOf (fun m => (∃ g, g ≠ "ctl" ∧ s.LiveIn g m) ∧ s.ObtainedIn m e.time (e.time + 86400))
        e.count := by
  intro s
  obtain ⟨hs, ho⟩ := @articleScores_run hashMessageID ops hops
  refine ⟨fun g timeFrame => ?_, fun g n e he => ?_, fun n e he => ?_⟩
  · have hlo : (if 0 < timeFrame then now - timeFrame else if timeFrame < 0 then 0 else timeFrame) =
        if 0 < timeFrame then now - timeFrame else 0 := by split_ifs <;> omega
    rw [countPostsInGroup, hlo]
    exact count_groupArticle hs ho g _ now
  · rw [count_of_mem_lastDaysPosts he]
    exact count_groupArticle hs ho g _ _
  · rw [count_of_mem_lastDaysPosts he]
    exact count_articleWKR hs ho _ _

/-- One article obtained at 100: `CountPostsInGroup` over the last 150
seconds at 200 counts it. -/
theorem postCounts_run_one_article :
    let a : Article := ⟨"<a@x>", "g", "", "", "", "", 0, "", "", false, [], []⟩
    let s := run id Index.empty [.registerArticle 100 a]
    (∀ op ∈ [Op.registerArticle 100 a], op.IsArticleCall) ∧
      countPostsInGroup s 200 "g" 150 = 1 ∧
      NumberOf (fun m => s.LiveIn "g" m ∧ s.ObtainedIn m 50 200) 1 := by
  intro a s
  have hops : ∀ op ∈ [Op.registerArticle 100 a], op.IsArticleCall := by simp [Op.IsArticleCall]
  have h1 : countPostsInGroup s 200 "g" 150 = 1 := by decide
  exact ⟨hops, h1, h1 ▸ (postCounts_run [.registerArticle 100 a] hops 200).1 "g" 150⟩

end Counts

/-! ## The replies of a thread -/

section Replies

variable {hashMessageID : String → String}

/-- `GetThreadReplies(root, limit)` reads `ThreadPostsWKR::root` from the
rank `card - (limit - 1)` on, and from the first rank when `limit ≤ 1`. -/
theorem getThreadReplies_eq_drop (s : Index) (root : String) (limit : Int) :
    getThreadReplies s root limit = (s.threadPosts root).sorted.drop
      (if limit ≤ 1 then 0 else (s.threadPosts root).card - (limit - 1).toNat) := by
  have h := (s.threadPosts root).range_last (le_max_right limit 1)
  rw [show 1 - max limit 1 = -max limit 1 + 1 by omega] at h
  rw [getThreadReplies, h]
  split_ifs with h1 h2 h2
  · rfl
  · omega
  · omega
  · rw [max_eq_left (by omega)]

/-- After any run of `RegisterArticle`, `DeleteArticle` and `DeleteThread`
calls from the empty index, `GetThreadReplies(root, limit)` lists distinct
live replies to `root`: every one of them when `limit ≤ 1`, and otherwise
the last `limit - 1` by time posted, one fewer than the limit; every live
reply it leaves out was posted no later than every one it lists. -/
theorem getThreadReplies_run (ops : List Op) (hops : ∀ op ∈ ops, op.IsArticleCall)
    (root : String) (limit : Int) :
    let s := run hashMessageID Index.empty ops
    let replies := getThreadReplies s root limit
    replies.Nodup ∧ (∀ m ∈ replies, s.LiveReply root m) ∧
      replies.length = (if limit ≤ 1 then countThreadReplies s root
        else min (limit - 1).toNat (countThreadReplies s root)) ∧
      ∀ m ∈ replies, ∀ m', s.LiveReply root m' → m' ∉ replies →
        ∀ p p', s.articlePost m = some p → s.articlePost m' = some p' →
          p'.timePosted ≤ p.timePosted := by
  intro s replies
  obtain ⟨hs, ho⟩ := @articleScores_run hashMessageID ops hops
  have hL : replies = _ := getThreadReplies_eq_drop s root limit
  refine ⟨?_, fun m hm => ?_, ?_, fun m hm m' hm' hout p p' hp hp' => ?_⟩
  · rw [hL]
    exact (List.drop_sublist _ _).nodup (ZSet.nodup_sorted _)
  · rw [hL] at hm
    exact (hs.threadPosts root m).1 (ZSet.mem_sorted.1 (List.mem_of_mem_drop hm))
  · rw [hL, List.length_drop, ZSet.length_sorted, countThreadReplies]
    split_ifs <;> omega
  · rw [hL] at hm hout
    generalize (if limit ≤ 1 then 0 else (s.threadPosts root).card - (limit - 1).toNat) = k
      at hm hout
    obtain ⟨a, b, ha, hb, hab⟩ := ZSet.score_le_of_mem_take
      (mem_take_of_not_mem_drop k (ZSet.mem_sorted.2 ((hs.threadPosts root m').2 hm')) hout) hm
    have hpa := ho.threadPosts root m' a ha
    have hpb := ho.threadPosts root m b hb
    rw [hp', Option.map_some', Option.some_inj] at hpa
    rw [hp, Option.map_some', Option.some_inj] at hpb
    omega

/-- A thread with two replies: `GetThreadReplies(root, 2)` lists one of them,
the one posted last. -/
theorem getThreadReplies_run_two_replies :
    let a : Article := ⟨"<a@x>", "g", "", "", "", "", 1, "", "", false, [], []⟩
    let b : Article := ⟨"<b@x>", "g", "<a@x>", "", "", "", 2, "", "", false, [], []⟩
    let c : Article := ⟨"<c@x>", "g", "<a@x>", "", "", "", 3, "", "", false, [], []⟩
    let ops : List Op := [.registerArticle 1 a, .registerArticle 2 b, .registerArticle 3 c]
    (∀ op ∈ ops, op.IsArticleCall) ∧ countThreadReplies (run id Index.empty ops) "<a@x>" = 2 ∧
      getThreadReplies (run id Index.empty ops) "<a@x>" 2 = ["<c@x>"] ∧
      (getThreadReplies (run id Index.empty ops) "<a@x>" 2).length = 1 := by
  intro a b c ops
  have hops : ∀ op ∈ ops, op.IsArticleCall := by simp [ops, Op.IsArticleCall]
  have hcount : countThreadReplies (run id Index.empty ops) "<a@x>" = 2 := by decide
  refine ⟨hops, hcount, by decide, ?_⟩
  rw [(getThreadReplies_run ops hops "<a@x>" 2).2.2.1, hcount]
  rfl

end Replies

end Srnd.Redis
