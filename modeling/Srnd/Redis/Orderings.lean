import Srnd.Redis.Run

/-!
# The secondary orderings against the live articles

The spec asks that every ordering of the index hold exactly the message-ids
of its scope.  This file proves what the code keeps of that, over every run
of `RegisterArticle`, `DeleteArticle` and `DeleteThread` from the empty
index.

* `ArticleOrderingsExact`: the orderings of single articles,
  `GroupArticlePostTimeWKR::g`, `ArticleWKR` and `ThreadPostsWKR::r`, are
  exact.  Every one of the three calls keeps this, for any message-id.
* `ThreadOrderingsCover`: every live OP is in the thread orderings of its
  scope, and the two per-group thread orderings have the same members.
  Every call keeps this too.
* `ThreadOrderingsSound`: the thread orderings hold nothing but live OPs of
  their scope.  `DeleteArticle` never touches a thread ordering, so it keeps
  this only when it is not called on a live OP, and `DeleteThread` finds the
  group of a root through the article record and skips the empty name, so
  an OP of the empty group would stay behind.  `SoundCall` is the side
  condition; `deleteArticle_op_leaves_stale` shows the first way to break it.
-/

namespace Srnd.Redis

open Function Index

/-- The orderings of single articles hold exactly the live articles of their
scope. -/
structure ArticleOrderingsExact (s : Index) : Prop where
  agree : s.RecordsAgree
  groupArticle : ∀ g m, m ∈ s.groupArticlePostTime g ↔ s.LiveIn g m
  articleWKR : ∀ m, m ∈ s.articleWKR ↔ ∃ g, g ≠ "ctl" ∧ s.LiveIn g m
  threadPosts : ∀ r m, m ∈ s.threadPosts r ↔ s.LiveReply r m

theorem articleOrderingsExact_empty : ArticleOrderingsExact Index.empty where
  agree _ := rfl
  groupArticle _ _ := by simp [Index.empty, LiveIn]
  articleWKR _ := by simp [Index.empty, LiveIn]
  threadPosts _ _ := by simp [Index.empty, LiveReply]

section Exact

variable {hashMessageID : String → String} {s : Index}

theorem ArticleOrderingsExact.deleteArticle (hs : ArticleOrderingsExact s) (x : String) :
    ArticleOrderingsExact (deleteArticle x s) where
  agree := recordsAgree_deleteArticle hs.agree
  groupArticle g m := by
    simp only [deleteArticle_groupArticlePostTime, liveIn_deleteArticle, update_apply]
    by_cases hm : m = x
    · subst hm
      split_ifs with hg
      · simp
      · simp only [ne_eq, not_true_eq_false, false_and, iff_false, hs.groupArticle]
        exact fun hl => hg (board_of_liveIn hs.agree hl).symm
    · split_ifs with hg
      · subst hg; simp [hm, hs.groupArticle]
      · simp [hm, hs.groupArticle]
  articleWKR m := by
    by_cases hm : m = x <;> simp [hm, hs.articleWKR]
  threadPosts r m := by
    simp only [deleteArticle_threadPosts, liveReply_deleteArticle]
    by_cases hm : m = x
    · subst hm
      split_ifs with hop
      · simp only [update_apply]
        split_ifs with hr
        · simp
        · simp only [ne_eq, not_true_eq_false, false_and, iff_false, hs.threadPosts]
          exact fun hl => hr (reference_of_liveReply hs.agree hl).2.symm
      · simp only [ne_eq, not_true_eq_false, false_and, iff_false, hs.threadPosts]
        exact fun hl => by simp [(reference_of_liveReply hs.agree hl).1] at hop
    · split_ifs
      · simp only [update_apply]
        split_ifs with hr
        · subst hr; simp [hm, hs.threadPosts]
        · simp [hm, hs.threadPosts]
      · simp [hm, hs.threadPosts]

theorem ArticleOrderingsExact.registerPipeline (hs : ArticleOrderingsExact s) (now : Int)
    (msg : Article) (hnew : s.article msg.messageID = none) :
    ArticleOrderingsExact (registerPipeline hashMessageID now msg s) where
  agree := recordsAgree_registerPipeline now msg hs.agree
  groupArticle g m := by
    have hnot := not_liveIn_of_article_eq_none (g := g) hnew
    rw [liveIn_registerPipeline, registerPipeline_groupArticlePostTime, update_apply]
    by_cases hm : m = msg.messageID
    · subst hm
      split_ifs with hg <;> simp [hg, hs.groupArticle, hnot, eq_comm]
    · split_ifs with hg
      · subst hg; simp [hm, hs.groupArticle]
      · simp [hm, hs.groupArticle]
  articleWKR m := by
    have hnot := fun g => not_liveIn_of_article_eq_none (g := g) hnew
    simp only [liveIn_registerPipeline, registerPipeline_articleWKR]
    by_cases hm : m = msg.messageID
    · subst hm
      split_ifs with hg <;> simp_all [hs.articleWKR]
    · split_ifs <;> simp [hm, hs.articleWKR]
  threadPosts r m := by
    have hnot : ∀ r, ¬ s.LiveReply r msg.messageID := fun r h => by simp [LiveReply, hnew] at h
    rw [liveReply_registerPipeline, registerPipeline_threadPosts]
    by_cases hop : msg.OP
    · have href : msg.reference = "" := by simpa [Article.OP] using hop
      rw [if_pos hop, hs.threadPosts, href]
      by_cases hm : m = msg.messageID
      · subst hm
        simp only [hnot, true_and, ne_eq, and_false, or_false]
        exact iff_of_false id fun h => h.1 h.2.symm
      · simp [hm]
    · have href : msg.reference ≠ "" := by simpa [Article.OP] using hop
      rw [if_neg hop, update_apply]
      by_cases hm : m = msg.messageID <;> by_cases hr : r = msg.reference
      · subst hm hr; simp [href]
      · subst hm; simp [hs.threadPosts, hnot, hr, Ne.symm hr]
      · subst hr; simp [hm, hs.threadPosts]
      · simp [hr, hm, hs.threadPosts, Ne.symm hr]

theorem ArticleOrderingsExact.ensureNewsgroup (hs : ArticleOrderingsExact s) (now : Int)
    (group : String) : ArticleOrderingsExact (ensureNewsgroup now group s) := by
  rw [ensureNewsgroup_eq]; exact ⟨hs.agree, hs.groupArticle, hs.articleWKR, hs.threadPosts⟩

theorem ArticleOrderingsExact.registerArticle (hs : ArticleOrderingsExact s) (now : Int)
    (msg : Article) : ArticleOrderingsExact (registerArticle hashMessageID now msg s) := by
  rw [registerArticle_eq]
  split_ifs with h
  · exact hs.ensureNewsgroup now _
  · exact (hs.ensureNewsgroup now _).registerPipeline now msg (by simpa [hasArticle] using h)

theorem ArticleOrderingsExact.dropThread (hs : ArticleOrderingsExact s) {x : String}
    (hx : ∀ m, ¬ s.LiveReply x m) : ArticleOrderingsExact (dropThread x s) where
  agree := recordsAgree_dropThread hs.agree
  groupArticle := hs.groupArticle
  articleWKR := hs.articleWKR
  threadPosts r m := by
    rw [dropThread_threadPosts, update_apply, liveReply_dropThread]
    split_ifs with hr
    · subst hr; simp [hx]
    · exact hs.threadPosts r m

/-- The replies `DeleteThread` deletes are all the live replies to the root,
so none is left when the root goes. -/
theorem ArticleOrderingsExact.no_reply_after_replies (hs : ArticleOrderingsExact s)
    (x m : String) :
    ¬ ((getThreadReplies s x 0).foldl (fun s r => Srnd.Redis.deleteArticle r s) s).LiveReply
      x m := by
  rintro ⟨hx, hm⟩
  rw [foldl_deleteArticle_article] at hm
  have hmem : m ∈ getThreadReplies s x 0 := by
    rw [getThreadReplies, show -(max (0 : Int) 1) + 1 = 0 by decide, ZSet.range_zero_neg_one,
      ZSet.mem_sorted, hs.threadPosts]
    split_ifs at hm with h
    · simp at hm
    · exact ⟨hx, hm⟩
  simp [hmem] at hm

theorem ArticleOrderingsExact.deleteThread (hs : ArticleOrderingsExact s) (x : String) :
    ArticleOrderingsExact (deleteThread x s) := by
  have h1 := foldl_induction (getThreadReplies s x 0) hs
    fun _ r _ ht => ht.deleteArticle r
  exact (h1.dropThread (hs.no_reply_after_replies x)).deleteArticle x

end Exact

/-! ## Every live OP is in the thread orderings -/

/-- Every live OP is in the thread orderings of its scope, and the two
per-group thread orderings have the same members. -/
structure ThreadOrderingsCover (s : Index) : Prop where
  same : ∀ g m, m ∈ s.groupThreadPostTime g ↔ m ∈ s.groupThreadBumpTime g
  group : ∀ g m, s.LiveOP g m → m ∈ s.groupThreadPostTime g
  global : ∀ g m, g ≠ "ctl" → s.LiveOP g m → m ∈ s.threadBumpTime

theorem threadOrderingsCover_empty : ThreadOrderingsCover Index.empty where
  same _ _ := Iff.rfl
  group _ _ h := by simp [Index.empty, LiveOP] at h
  global _ _ _ h := by simp [Index.empty, LiveOP] at h

section Cover

variable {hashMessageID : String → String} {s : Index}

theorem ThreadOrderingsCover.deleteArticle (hs : ThreadOrderingsCover s) (x : String) :
    ThreadOrderingsCover (deleteArticle x s) where
  same := by simpa using hs.same
  group g m h := by simpa using hs.group g m (liveOP_deleteArticle.1 h).2
  global g m hg h := by simpa using hs.global g m hg (liveOP_deleteArticle.1 h).2

theorem ThreadOrderingsCover.registerPipeline (hs : ThreadOrderingsCover s) (now : Int)
    (msg : Article) : ThreadOrderingsCover (registerPipeline hashMessageID now msg s) where
  same g m := by
    simp only [registerPipeline_groupThreadPostTime, registerPipeline_groupThreadBumpTime]
    by_cases hg : g = msg.newsgroup
    · subst hg
      by_cases hop : msg.OP
      · simp [hop, hs.same]
      · by_cases hsage : msg.sage <;> simp [hop, hsage, hs.same]
    · split_ifs <;> simp [update_apply, hg, hs.same]
  group g m h := by
    rw [liveOP_registerPipeline] at h
    rw [registerPipeline_groupThreadPostTime, update_apply]
    rcases h with ⟨rfl, rfl, href⟩ | ⟨-, h⟩
    · simp [Article.OP, href]
    · by_cases hg : g = msg.newsgroup
      · subst hg; split_ifs <;> simp [hs.group _ m h]
      · simpa [hg] using hs.group g m h
  global g m hg h := by
    rw [liveOP_registerPipeline] at h
    simp only [registerPipeline_threadBumpTime]
    rcases h with ⟨rfl, rfl, href⟩ | ⟨-, h⟩
    · simp [Article.OP, href, hg]
    · split_ifs <;> simp [hs.global g m hg h]

theorem ThreadOrderingsCover.registerArticle (hs : ThreadOrderingsCover s) (now : Int)
    (msg : Article) : ThreadOrderingsCover (registerArticle hashMessageID now msg s) := by
  have hn : ∀ group, ThreadOrderingsCover (ensureNewsgroup now group s) := fun group => by
    rw [ensureNewsgroup_eq]; exact ⟨hs.same, hs.group, hs.global⟩
  rw [registerArticle_eq]
  split_ifs
  · exact hn _
  · exact (hn _).registerPipeline now msg

/-- The last two steps of `DeleteThread`: the root leaves the thread
orderings and is deleted. -/
theorem ThreadOrderingsCover.dropThread_deleteArticle (hs : ThreadOrderingsCover s) (x : String) :
    ThreadOrderingsCover (Srnd.Redis.deleteArticle x (dropThread x s)) where
  same g m := by
    simp only [deleteArticle_groupThreadPostTime, deleteArticle_groupThreadBumpTime,
      mem_dropThread_groupThreadPostTime, mem_dropThread_groupThreadBumpTime, hs.same]
  group g m h := by
    obtain ⟨hm, h⟩ := liveOP_deleteArticle.1 h
    simp [mem_dropThread_groupThreadPostTime, hs.group g m h, hm]
  global g m hg h := by
    obtain ⟨hm, h⟩ := liveOP_deleteArticle.1 h
    simp [hs.global g m hg h, hm]

theorem ThreadOrderingsCover.deleteThread (hs : ThreadOrderingsCover s) (x : String) :
    ThreadOrderingsCover (deleteThread x s) :=
  (foldl_induction (getThreadReplies s x 0) hs
    fun _ r _ ht => ht.deleteArticle r).dropThread_deleteArticle x

end Cover

/-! ## The thread orderings hold only live OPs -/

/-- The thread orderings hold nothing but live OPs of their scope, and no OP
belongs to the empty group. -/
structure ThreadOrderingsSound (s : Index) : Prop where
  group : ∀ g m, m ∈ s.groupThreadPostTime g → s.LiveOP g m
  global : ∀ m, m ∈ s.threadBumpTime → ∃ g, g ≠ "ctl" ∧ s.LiveOP g m
  nonempty : ∀ m, ¬ s.LiveOP "" m

theorem threadOrderingsSound_empty : ThreadOrderingsSound Index.empty where
  group _ _ h := by simp [Index.empty] at h
  global _ h := by simp [Index.empty] at h
  nonempty _ h := by simp [Index.empty, LiveOP] at h

/-- The side condition under which a call keeps the thread orderings sound:
`DeleteArticle` is not called on a live OP, and no OP is registered with an
empty newsgroup. -/
def SoundCall (s : Index) : Op → Prop
  | .registerArticle _ msg => msg.OP → msg.newsgroup ≠ ""
  | .deleteArticle msgid => ∀ g, ¬ s.LiveOP g msgid
  | .deleteThread _ => True
  | .nukeNewsgroup _ => False

/-- The article calls, `RegisterArticle`, `DeleteArticle` and `DeleteThread`:
every call but `NukeNewsgroup`, which drops a whole group. -/
def Op.IsArticleCall : Op → Prop
  | .nukeNewsgroup _ => False
  | _ => True

section Sound

variable {hashMessageID : String → String} {s : Index}

theorem ThreadOrderingsSound.deleteArticle (hs : ThreadOrderingsSound s) {x : String}
    (hx : ∀ g, ¬ s.LiveOP g x) : ThreadOrderingsSound (deleteArticle x s) where
  group g m h := by
    have hl := hs.group g m (by simpa using h)
    exact liveOP_deleteArticle.2 ⟨fun hm => hx g (hm ▸ hl), hl⟩
  global m h := by
    obtain ⟨g, hg, hl⟩ := hs.global m (by simpa using h)
    exact ⟨g, hg, liveOP_deleteArticle.2 ⟨fun hm => hx g (hm ▸ hl), hl⟩⟩
  nonempty m h := hs.nonempty m (liveOP_deleteArticle.1 h).2

theorem ThreadOrderingsSound.registerPipeline (hs : ThreadOrderingsSound s) (now : Int)
    (msg : Article) (hnew : s.article msg.messageID = none)
    (hgroup : msg.OP → msg.newsgroup ≠ "") :
    ThreadOrderingsSound (registerPipeline hashMessageID now msg s) where
  group g m h := by
    have hne : ∀ g, s.LiveOP g m → m ≠ msg.messageID := fun g hl hm => by
      simp [LiveOP, hm ▸ hnew] at hl
    rw [liveOP_registerPipeline]
    rw [registerPipeline_groupThreadPostTime, update_apply] at h
    split_ifs at h with hg hop
    · subst hg
      rcases ZSet.mem_addNX.1 h with rfl | h
      · simpa [Article.OP] using hop
      · exact Or.inr ⟨hne _ (hs.group _ m h), hs.group _ m h⟩
    · subst hg
      have h := ZSet.mem_addXX.1 h
      exact Or.inr ⟨hne _ (hs.group _ m h), hs.group _ m h⟩
    · exact Or.inr ⟨hne _ (hs.group g m h), hs.group g m h⟩
  global m h := by
    have hne : ∀ g, s.LiveOP g m → m ≠ msg.messageID := fun g hl hm => by
      simp [LiveOP, hm ▸ hnew] at hl
    simp only [liveOP_registerPipeline]
    rw [registerPipeline_threadBumpTime] at h
    have hold : m ∈ s.threadBumpTime → ∃ g, g ≠ "ctl" ∧
        ((m = msg.messageID ∧ msg.newsgroup = g ∧ msg.reference = "") ∨
          (m ≠ msg.messageID ∧ s.LiveOP g m)) := fun h => by
      obtain ⟨g, hg, hl⟩ := hs.global m h
      exact ⟨g, hg, Or.inr ⟨hne g hl, hl⟩⟩
    split_ifs at h with hop hctl
    · rcases ZSet.mem_addNX.1 h with rfl | h
      · exact ⟨msg.newsgroup, hctl, Or.inl ⟨rfl, rfl, by simpa [Article.OP] using hop⟩⟩
      · exact hold h
    · exact hold h
    · exact hold (ZSet.mem_addXX.1 h)
    · exact hold h
  nonempty m h := by
    rcases (liveOP_registerPipeline now msg).1 h with ⟨-, hg, href⟩ | ⟨-, h⟩
    · exact hgroup (by simp [Article.OP, href]) hg
    · exact hs.nonempty m h

theorem ThreadOrderingsSound.registerArticle (hs : ThreadOrderingsSound s) (now : Int)
    (msg : Article) (hgroup : msg.OP → msg.newsgroup ≠ "") :
    ThreadOrderingsSound (registerArticle hashMessageID now msg s) := by
  have hn : ∀ group, ThreadOrderingsSound (ensureNewsgroup now group s) := fun group => by
    rw [ensureNewsgroup_eq]; exact ⟨hs.group, hs.global, hs.nonempty⟩
  rw [registerArticle_eq]
  split_ifs with h
  · exact hn _
  · exact (hn _).registerPipeline now msg (by simpa [hasArticle] using h) hgroup

/-- The last two steps of `DeleteThread` keep the orderings sound: the root
leaves the orderings of the group its record names, which is not empty. -/
theorem ThreadOrderingsSound.dropThread_deleteArticle (hs : ThreadOrderingsSound s) (x : String) :
    ThreadOrderingsSound (Srnd.Redis.deleteArticle x (dropThread x s)) where
  group g m h := by
    rw [deleteArticle_groupThreadPostTime, mem_dropThread_groupThreadPostTime] at h
    have hl := hs.group g m h.1
    refine liveOP_deleteArticle.2 ⟨fun hm => h.2 ⟨hm, ?_, ?_⟩, hl⟩
    · subst hm; exact hl.liveIn
    · rintro rfl; exact hs.nonempty m hl
  global m h := by
    obtain ⟨hm, h⟩ := by simpa using h
    obtain ⟨g, hg, hl⟩ := hs.global m h
    exact ⟨g, hg, liveOP_deleteArticle.2 ⟨hm, hl⟩⟩
  nonempty m h := hs.nonempty m (liveOP_deleteArticle.1 h).2

theorem ThreadOrderingsSound.deleteThread (hs : ThreadOrderingsSound s)
    (he : ArticleOrderingsExact s) (x : String) :
    ThreadOrderingsSound (deleteThread x s) := by
  have hrep : ∀ r ∈ getThreadReplies s x 0, ∀ g, ¬ s.LiveOP g r := fun r hr g hl => by
    rw [getThreadReplies, show -(max (0 : Int) 1) + 1 = 0 by decide, ZSet.range_zero_neg_one,
      ZSet.mem_sorted, he.threadPosts] at hr
    obtain ⟨hx, hr⟩ := hr
    unfold LiveOP at hl
    obtain ⟨a, ha, hag⟩ := Option.map_eq_some'.1 hl
    rw [ha, Option.map_some', Option.some_inj] at hr
    simp only [Prod.mk.injEq] at hag
    exact hx (hr ▸ hag.2)
  have h1 := foldl_induction (getThreadReplies s x 0)
    (P := fun t => ThreadOrderingsSound t ∧ ∀ g m, t.LiveOP g m → s.LiveOP g m)
    ⟨hs, fun _ _ h => h⟩
    fun t r hr ht => ⟨ht.1.deleteArticle fun g hl => hrep r hr g (ht.2 g r hl),
      fun g m h => ht.2 g m (liveOP_deleteArticle.1 h).2⟩
  exact h1.1.dropThread_deleteArticle x

end Sound

/-! ## Runs -/

/-- The thread orderings hold exactly the live OPs of their scope. -/
structure ThreadOrderingsExact (s : Index) : Prop where
  groupPost : ∀ g m, m ∈ s.groupThreadPostTime g ↔ s.LiveOP g m
  groupBump : ∀ g m, m ∈ s.groupThreadBumpTime g ↔ s.LiveOP g m
  global : ∀ m, m ∈ s.threadBumpTime ↔ ∃ g, g ≠ "ctl" ∧ s.LiveOP g m

theorem ThreadOrderingsCover.exact {s : Index} (hc : ThreadOrderingsCover s)
    (hs : ThreadOrderingsSound s) : ThreadOrderingsExact s where
  groupPost g m := ⟨hs.group g m, hc.group g m⟩
  groupBump g m := (hc.same g m).symm.trans ⟨hs.group g m, hc.group g m⟩
  global m := ⟨hs.global m, fun ⟨g, hg, hl⟩ => hc.global g m hg hl⟩

section Runs

variable {hashMessageID : String → String}

/-- Every call other than `NukeNewsgroup` keeps the exact article orderings
and the cover of the thread orderings. -/
theorem articleCall_keeps (op : Op) (hop : op.IsArticleCall) (s : Index)
    (h : ArticleOrderingsExact s ∧ ThreadOrderingsCover s) :
    ArticleOrderingsExact (op.apply hashMessageID s) ∧
      ThreadOrderingsCover (op.apply hashMessageID s) := by
  cases op with
  | registerArticle now msg => exact ⟨h.1.registerArticle now msg, h.2.registerArticle now msg⟩
  | deleteArticle m => exact ⟨h.1.deleteArticle m, h.2.deleteArticle m⟩
  | deleteThread m => exact ⟨h.1.deleteThread m, h.2.deleteThread m⟩
  | nukeNewsgroup g => exact hop.elim

/-- A call that meets `SoundCall` keeps the thread orderings sound. -/
theorem soundCall_keeps (op : Op) (s : Index)
    (h : ArticleOrderingsExact s ∧ ThreadOrderingsSound s) (hok : SoundCall s op) :
    ArticleOrderingsExact (op.apply hashMessageID s) ∧
      ThreadOrderingsSound (op.apply hashMessageID s) := by
  cases op with
  | registerArticle now msg =>
    exact ⟨h.1.registerArticle now msg, h.2.registerArticle now msg hok⟩
  | deleteArticle m => exact ⟨h.1.deleteArticle m, h.2.deleteArticle hok⟩
  | deleteThread m => exact ⟨h.1.deleteThread m, h.2.deleteThread h.1 m⟩
  | nukeNewsgroup g => exact hok.elim

/-- After any run of `RegisterArticle`, `DeleteArticle` and `DeleteThread`
from the empty index, the orderings of single articles are exact and every
live OP is in the thread orderings of its scope; the thread orderings are
exact too when no `DeleteArticle` hits a live OP and no OP has the empty
group. -/
theorem orderings_of_run (ops : List Op) (hops : ∀ op ∈ ops, op.IsArticleCall) :
    ArticleOrderingsExact (run hashMessageID Index.empty ops) ∧
      ThreadOrderingsCover (run hashMessageID Index.empty ops) ∧
      (RunAll hashMessageID SoundCall Index.empty ops →
        ThreadOrderingsExact (run hashMessageID Index.empty ops)) := by
  obtain ⟨he, hc⟩ := @run_induction hashMessageID
    (fun s => ArticleOrderingsExact s ∧ ThreadOrderingsCover s) _ _
    ⟨articleOrderingsExact_empty, threadOrderingsCover_empty⟩
    fun op hop s h => articleCall_keeps op (hops op hop) s h
  refine ⟨he, hc, fun hrun => hc.exact ?_⟩
  exact (run_induction_of_runAll (P := fun s => ArticleOrderingsExact s ∧ ThreadOrderingsSound s)
    ⟨articleOrderingsExact_empty, threadOrderingsSound_empty⟩
    (fun op s h hok => soundCall_keeps op s h hok) hrun).2

/-- An OP, two replies to it and the deletion of one reply: every call meets
`SoundCall`, so the thread orderings come out exact. -/
theorem orderings_of_run_thread :
    let art : String → String → Int → Article := fun m r t =>
      ⟨m, "g", r, "", "", "", t, "", "", false, [], []⟩
    let ops : List Op := [.registerArticle 0 (art "<a@x>" "" 1),
      .registerArticle 1 (art "<b@x>" "<a@x>" 2), .registerArticle 2 (art "<c@x>" "<a@x>" 3),
      .deleteArticle "<b@x>"]
    (∀ op ∈ ops, op.IsArticleCall) ∧ RunAll id SoundCall Index.empty ops ∧
      ArticleOrderingsExact (run id Index.empty ops) ∧
      ThreadOrderingsCover (run id Index.empty ops) ∧
      ThreadOrderingsExact (run id Index.empty ops) := by
  intro art ops
  have hops : ∀ op ∈ ops, op.IsArticleCall := by simp [ops, Op.IsArticleCall]
  have hreply : ∀ g, ¬ (run id Index.empty (ops.take 3)).LiveOP g "<b@x>" := fun g h => by
    have href : ((run id Index.empty (ops.take 3)).article "<b@x>").map
        ArticleRecord.messageRefId = some "<a@x>" := by decide
    unfold Index.LiveOP at h
    cases ha : (run id Index.empty (ops.take 3)).article "<b@x>" <;> simp_all
  have hrun : RunAll id SoundCall Index.empty ops :=
    ⟨fun _ => by decide, fun _ => by decide, fun _ => by decide, hreply, trivial⟩
  obtain ⟨he, hc, hx⟩ := @orderings_of_run id ops hops
  exact ⟨hops, hrun, he, hc, hx hrun⟩

/-- `DeleteArticle` on an OP leaves it in the thread orderings of its group
after its record is gone. -/
theorem deleteArticle_op_leaves_stale :
    let op : Article := ⟨"<a@x>", "g", "", "", "", "", 0, "", "", false, [], []⟩
    let s := run id Index.empty [.registerArticle 0 op, .deleteArticle "<a@x>"]
    "<a@x>" ∈ s.groupThreadPostTime "g" ∧ ¬ s.Live "<a@x>" := by
  decide

end Runs

end Srnd.Redis
