import Srnd.Redis.Orderings

/-!
# Read-only queries

The frontends ask `redis.go` about threads and groups through calls that read
one ordering or one record: `ThreadHasReplies` and `CountThreadReplies` read
`ThreadPostsWKR::root`, `GroupHasPosts` the bump-time ordering of the group,
`HasArticle` and `HasArticleLocal` the two records of an article,
`GetAllArticles` and `ArticleCount` the ordering `ArticleWKR`, and
`GetRootPostsForExpiration` the post-time ordering of the group.

Under the invariants of `Srnd.Redis.Orderings` each answer is a statement
about the live articles:

* `ThreadHasReplies(r)` holds iff `r` has a live reply, and `GroupHasPosts(g)`
  iff `g` has a live OP: a group whose live articles are all replies has no
  posts for it (`threadQueries_run`);
* the article record and the post record of a message-id are written and
  deleted together, so `IsExpired`, which asks for the first without the
  second, holds in no state the index calls reach (`isExpired_run`);
* `GetAllArticles` lists the live articles outside `ctl`, each once and with
  its own newsgroup, and `ArticleCount` counts them (`allArticles_run`);
* `GetRootPostsForExpiration(g, n)` lists the threads of `g` but the `n`
  newest in post-time order, each a live OP of `g` and each posted no later
  than any thread it keeps (`getRootPostsForExpiration_run`).
-/

namespace Srnd.Redis

open Function

/-- `CountThreadReplies(root)`: `ZCARD ThreadPostsWKR::root`. -/
def countThreadReplies (s : Index) (root : String) : Nat := (s.threadPosts root).card

/-- `ThreadHasReplies(rootpost)`. -/
def threadHasReplies (s : Index) (rootpost : String) : Bool :=
  decide (0 < (s.threadPosts rootpost).card)

/-- `GroupHasPosts(group)`: it counts the threads of the group. -/
def groupHasPosts (s : Index) (group : String) : Bool :=
  decide (0 < (s.groupThreadBumpTime group).card)

/-- `HasArticleLocal(message_id)`: the post record exists. -/
def hasArticleLocal (s : Index) (messageID : String) : Bool := (s.articlePost messageID).isSome

/-- `IsExpired(root_message_id)`: the article record without the post
record. -/
def isExpired (s : Index) (root : String) : Bool := hasArticle s root && !hasArticleLocal s root

/-- `GetGroupForMessage(message_id)`: `HGET` of the newsgroup of the post
record; `none` is the error of a missing key. -/
def getGroupForMessage (s : Index) (messageID : String) : Option String :=
  (s.articlePost messageID).map (·.newsgroup)

/-- `ArticleCount()`: `ZCARD ArticleWKR`. -/
def articleCount (s : Index) : Nat := s.articleWKR.card

/-- `GetAllArticles()`: `ZRANGE ArticleWKR 0 -1`, each member with the group
`GetGroupForMessage` gives, `""` on its error.  `ArticleEntry` is not in the
sources; it is the pair it is built from. -/
def getAllArticles (s : Index) : List (String × String) :=
  (s.articleWKR.range 0 (-1)).map fun msgid => (msgid, (getGroupForMessage s msgid).getD "")

/-- `GetPostsInGroup(newsgroup)`: the post model of each member of
`GroupArticlePostTimeWKR::newsgroup`, in order. -/
def getPostsInGroup (s : Index) (newsgroup : String) : List PostModel :=
  ((s.groupArticlePostTime newsgroup).range 0 (-1)).map (getPostModel s)

/-- `GetRootPostsForExpiration(newsgroup, threadcount)`. -/
def getRootPostsForExpiration (s : Index) (newsgroup : String) (threadcount : Int) :
    List String :=
  (s.groupThreadPostTime newsgroup).range 0 (-threadcount - 1)

variable {hashMessageID : String → String} {s : Index}

/-! ## The two records of an article -/

theorem Index.RecordsAgree.ensureNewsgroup (h : s.RecordsAgree) (now : Int) (group : String) :
    (ensureNewsgroup now group s).RecordsAgree := by
  rw [ensureNewsgroup_eq]
  exact h

theorem Index.RecordsAgree.deleteThread (h : s.RecordsAgree) (x : String) :
    (deleteThread x s).RecordsAgree :=
  recordsAgree_deleteArticle (recordsAgree_dropThread
    (foldl_induction _ h fun _ _ _ h' => recordsAgree_deleteArticle h'))

/-- Every call writes or deletes the two records of an article together. -/
theorem Index.RecordsAgree.apply (h : s.RecordsAgree) (op : Op) :
    (op.apply hashMessageID s).RecordsAgree := by
  cases op with
  | registerArticle now msg =>
    rw [Op.apply, registerArticle_eq]
    split
    · exact h.ensureNewsgroup now _
    · exact recordsAgree_registerPipeline now msg (h.ensureNewsgroup now _)
  | deleteArticle x => exact recordsAgree_deleteArticle h
  | deleteThread x => exact h.deleteThread x
  | nukeNewsgroup g =>
    exact (foldl_induction (P := Index.RecordsAgree) _ h fun _ t _ h' => h'.deleteThread t :)

theorem isExpired_of_recordsAgree (h : s.RecordsAgree) (root : String) :
    isExpired s root = false := by
  have hr : (s.articlePost root).isSome = (s.article root).isSome := by
    simpa using congrArg Option.isSome (h root)
  simp [isExpired, hasArticle, hasArticleLocal, hr]

/-- In every state the index calls reach from the empty index, `IsExpired`
is false. -/
theorem isExpired_run (ops : List Op) (root : String) :
    isExpired (run hashMessageID Index.empty ops) root = false :=
  isExpired_of_recordsAgree
    (run_induction (P := Index.RecordsAgree) articleOrderingsExact_empty.agree
      fun op _ _ h => h.apply op) root

/-! ## Threads and groups -/

theorem threadHasReplies_iff (h : ArticleOrderingsExact s) (root : String) :
    threadHasReplies s root = true ↔ ∃ m, s.LiveReply root m := by
  simp [threadHasReplies, ZSet.card_pos_iff, h.threadPosts]

theorem groupHasPosts_iff (h : ThreadOrderingsExact s) (group : String) :
    groupHasPosts s group = true ↔ ∃ m, s.LiveOP group m := by
  simp [groupHasPosts, ZSet.card_pos_iff, h.groupBump]

/-- The invariants of the orderings after a run of article calls, each
meeting `SoundCall`. -/
theorem orderingsExact_run (ops : List Op) (hops : ∀ op ∈ ops, op.IsArticleCall)
    (hrun : RunAll hashMessageID SoundCall Index.empty ops) :
    ArticleOrderingsExact (run hashMessageID Index.empty ops) ∧
      ThreadOrderingsExact (run hashMessageID Index.empty ops) := by
  have hc := (@run_induction hashMessageID
    (fun s => ArticleOrderingsExact s ∧ ThreadOrderingsCover s) _ _
    ⟨articleOrderingsExact_empty, threadOrderingsCover_empty⟩
    fun op hop s h => articleCall_keeps op (hops op hop) s h).2
  have hs := run_induction_of_runAll
    (P := fun s => ArticleOrderingsExact s ∧ ThreadOrderingsSound s)
    ⟨articleOrderingsExact_empty, threadOrderingsSound_empty⟩
    (fun op s h hok => soundCall_keeps op s h hok) hrun
  exact ⟨hs.1, hc.exact hs.2⟩

/-- After a run of article calls, each meeting `SoundCall`,
`ThreadHasReplies(r)` holds iff `r` has a live reply and `GroupHasPosts(g)`
iff `g` has a live OP. -/
theorem threadQueries_run (ops : List Op) (hops : ∀ op ∈ ops, op.IsArticleCall)
    (hrun : RunAll hashMessageID SoundCall Index.empty ops) :
    let s : Index := run hashMessageID Index.empty ops
    (∀ r, threadHasReplies s r = true ↔ ∃ m, s.LiveReply r m) ∧
      ∀ g, groupHasPosts s g = true ↔ ∃ m, s.LiveOP g m :=
  have h := orderingsExact_run ops hops hrun
  ⟨threadHasReplies_iff h.1, groupHasPosts_iff h.2⟩

/-- One OP and one reply. -/
theorem threadQueries_run_one_thread :
    let op : Article := ⟨"<a@x>", "g", "", "", "", "", 0, "", "", false, [], []⟩
    let reply : Article := ⟨"<b@x>", "g", "<a@x>", "", "", "", 1, "", "", false, [], []⟩
    let ops : List Op := [.registerArticle 0 op, .registerArticle 1 reply]
    (∀ op ∈ ops, op.IsArticleCall) ∧ RunAll id SoundCall Index.empty ops ∧
      (threadHasReplies (run id Index.empty ops) "<a@x>" = true ↔
        ∃ m, (run id Index.empty ops).LiveReply "<a@x>" m) := by
  intro op reply ops
  have hops : ∀ op ∈ ops, op.IsArticleCall := by simp [ops, Op.IsArticleCall]
  have hrun : RunAll id SoundCall Index.empty ops :=
    ⟨fun _ => by decide, fun _ => by decide, trivial⟩
  exact ⟨hops, hrun, (threadQueries_run ops hops hrun).1 "<a@x>"⟩

/-- A reply registered before its OP is a live post of the group, which
`GroupHasPosts` does not count. -/
example :
    let reply : Article := ⟨"<b@x>", "g", "<a@x>", "", "", "", 0, "", "", false, [], []⟩
    let s := run id Index.empty [.registerArticle 0 reply]
    s.LiveIn "g" "<b@x>" ∧ groupHasPosts s "g" = false := by
  decide

/-! ## Listings -/

theorem getGroupForMessage_of_liveIn {g m : String} (h : s.RecordsAgree) (hm : s.LiveIn g m) :
    getGroupForMessage s m = some g := by
  obtain ⟨a, ha, rfl⟩ := Option.map_eq_some'.1 hm
  have hp := h m
  rw [ha, Option.map_some'] at hp
  obtain ⟨p, hp, hpa⟩ := Option.map_eq_some'.1 hp
  rw [getGroupForMessage, hp, Option.map_some', (Prod.mk.inj hpa).1]

theorem articleOrderingsExact_run (ops : List Op) (hops : ∀ op ∈ ops, op.IsArticleCall) :
    ArticleOrderingsExact (run hashMessageID Index.empty ops) :=
  (@run_induction hashMessageID (fun s => ArticleOrderingsExact s ∧ ThreadOrderingsCover s) _ _
    ⟨articleOrderingsExact_empty, threadOrderingsCover_empty⟩
    fun op hop s h => articleCall_keeps op (hops op hop) s h).1

/-- After a run of article calls, `GetAllArticles` lists every live article
outside `ctl` once, with its own newsgroup, `ArticleCount` is their number,
and every post model `GetPostsInGroup(g)` returns is a post of `g`. -/
theorem allArticles_run (ops : List Op) (hops : ∀ op ∈ ops, op.IsArticleCall) :
    let s : Index := run hashMessageID Index.empty ops
    (getAllArticles s).Nodup ∧
      (∀ m g, (m, g) ∈ getAllArticles s ↔ g ≠ "ctl" ∧ s.LiveIn g m) ∧
      articleCount s = (getAllArticles s).length ∧
      ∀ g, ∀ p ∈ getPostsInGroup s g, p.board = g := by
  intro s
  have h : ArticleOrderingsExact s := articleOrderingsExact_run ops hops
  refine ⟨(ZSet.range_zero_neg_one _ ▸ ZSet.nodup_sorted _).map
      fun _ _ he => (Prod.mk.inj he).1, fun m g => ?_, ?_, fun g p hp => ?_⟩
  · simp only [getAllArticles, ZSet.range_zero_neg_one, List.mem_map, ZSet.mem_sorted,
      h.articleWKR, Prod.mk.injEq]
    constructor
    · rintro ⟨_, ⟨g', hg', hm⟩, rfl, rfl⟩
      rw [getGroupForMessage_of_liveIn h.agree hm]
      exact ⟨hg', hm⟩
    · rintro ⟨hg, hm⟩
      exact ⟨m, ⟨g, hg, hm⟩, rfl, by rw [getGroupForMessage_of_liveIn h.agree hm]; rfl⟩
  · rw [articleCount, getAllArticles, List.length_map, ZSet.range_zero_neg_one,
      ZSet.length_sorted]
  · obtain ⟨m, hm, rfl⟩ := List.mem_map.1 hp
    rw [ZSet.range_zero_neg_one, ZSet.mem_sorted, h.groupArticle] at hm
    exact board_of_liveIn h.agree hm

/-- An article of `ctl` between two of `g` is not listed. -/
theorem allArticles_run_ctl :
    let a : String → String → Article := fun m g =>
      ⟨m, g, "", "", "", "", 0, "", "", false, [], []⟩
    let ops : List Op := [.registerArticle 0 (a "<a@x>" "g"),
      .registerArticle 1 (a "<b@x>" "ctl"), .registerArticle 2 (a "<c@x>" "g")]
    (∀ op ∈ ops, op.IsArticleCall) ∧ ("<b@x>", "ctl") ∉ getAllArticles (run id Index.empty ops) := by
  intro a ops
  have hops : ∀ op ∈ ops, op.IsArticleCall := by simp [ops, Op.IsArticleCall]
  exact ⟨hops, fun hm => (((@allArticles_run id ops hops).2.1 _ _).1 hm).1 rfl⟩

example :
    let a : String → String → Article := fun m g =>
      ⟨m, g, "", "", "", "", 0, "", "", false, [], []⟩
    getAllArticles (run id Index.empty [.registerArticle 0 (a "<a@x>" "g"),
      .registerArticle 1 (a "<b@x>" "ctl"), .registerArticle 2 (a "<c@x>" "g")]) =
        [("<a@x>", "g"), ("<c@x>", "g")] := by
  decide

/-! ## Expiration -/

/-- For `n ≥ 0`, the roots to expire are the post-time ordering of the group
but its last `n` threads. -/
theorem getRootPostsForExpiration_eq (group : String) (n : Nat) :
    getRootPostsForExpiration s group n =
      (s.groupThreadPostTime group).sorted.take ((s.groupThreadPostTime group).card - n) :=
  ZSet.range_zero_neg _ n

/-- After a run of article calls, each meeting `SoundCall`,
`GetRootPostsForExpiration(g, n)` for `n ≥ 0` lists the threads of `g`'s
post-time ordering but the `n` last: each is a live OP of `g` and has a score
no higher than that of any thread kept. -/
theorem getRootPostsForExpiration_run (ops : List Op) (hops : ∀ op ∈ ops, op.IsArticleCall)
    (hrun : RunAll hashMessageID SoundCall Index.empty ops) (g : String) (n : Nat) :
    let s : Index := run hashMessageID Index.empty ops
    let z := s.groupThreadPostTime g
    let kept := z.sorted.drop (z.card - n)
    getRootPostsForExpiration s g n ++ kept = z.sorted ∧ kept.length = min n z.card ∧
      (∀ x ∈ getRootPostsForExpiration s g n, s.LiveOP g x) ∧
      ∀ x ∈ getRootPostsForExpiration s g n, ∀ y ∈ kept,
        ∃ a b, z.score x = some a ∧ z.score y = some b ∧ a ≤ b := by
  intro s z kept
  have h := orderingsExact_run ops hops hrun
  have hlen := z.length_sorted
  rw [getRootPostsForExpiration_eq]
  refine ⟨List.take_append_drop _ _, by simp only [kept, List.length_drop]; omega,
    fun x hx => (h.2.groupPost g x).1 (ZSet.mem_sorted.1 (List.mem_of_mem_take hx)),
    fun x hx y hy => ZSet.score_le_of_mem_take hx hy⟩

/-- Three threads of one group, the newest kept. -/
theorem getRootPostsForExpiration_run_three :
    let op : String → Int → Article := fun m t =>
      ⟨m, "g", "", "", "", "", t, "", "", false, [], []⟩
    let ops : List Op := [.registerArticle 0 (op "<a@x>" 1), .registerArticle 0 (op "<b@x>" 2),
      .registerArticle 0 (op "<c@x>" 3)]
    (∀ op ∈ ops, op.IsArticleCall) ∧ RunAll id SoundCall Index.empty ops ∧
      ∀ x ∈ getRootPostsForExpiration (run id Index.empty ops) "g" 1,
        (run id Index.empty ops).LiveOP "g" x := by
  intro op ops
  have hops : ∀ op ∈ ops, op.IsArticleCall := by simp [ops, Op.IsArticleCall]
  have hrun : RunAll id SoundCall Index.empty ops :=
    ⟨fun _ => by decide, fun _ => by decide, fun _ => by decide, trivial⟩
  exact ⟨hops, hrun, (getRootPostsForExpiration_run ops hops hrun "g" 1).2.2.1⟩

example :
    let op : String → Int → Article := fun m t =>
      ⟨m, "g", "", "", "", "", t, "", "", false, [], []⟩
    getRootPostsForExpiration (run id Index.empty [.registerArticle 0 (op "<a@x>" 1),
      .registerArticle 0 (op "<b@x>" 2), .registerArticle 0 (op "<c@x>" 3)]) "g" 1 =
        ["<a@x>", "<b@x>"] := by
  decide

end Srnd.Redis
