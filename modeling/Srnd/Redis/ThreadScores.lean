import Srnd.Redis.Run

/-!
# Thread scores under registration

`RegisterArticle` gives a new OP its own `Posted` as score in both thread
orderings of its group and in `ThreadBumpTimeWKR`, with `ZADD NX`.  A reply
then sets its root's score with `ZADD XX` to the reply's own `Posted`: in the
post-time ordering of the reply's group always, and in the bump-time
orderings unless it is a sage reply.  `XX` writes whether the new score is
higher or lower, and does nothing while the root is absent.

So a thread's score is the `Posted` of the last reply registered after its
root, or the root's own `Posted` when there is none: the order of the
registrations decides, not the order of the `Posted` values.
`threadScores_of_registrations` says so for every sequence of registrations
with distinct message-ids.  The proof has three parts: before the root
arrives it is in no thread ordering (`not_mem_run_registrations`), its own
registration sets all three scores (`scores_registerArticle_op`), and each
later registration moves a score exactly when `lastPosted` does
(`score_run_registrations`).
-/

namespace Srnd.Redis

open Function

/-- `a` is a reply in the thread of `r`. -/
def Article.repliesTo (a : Article) (r : String) : Bool := !a.OP && decide (a.reference = r)

/-- The `Posted` of the last article of `l` that `p` selects, or `d` when it
selects none. -/
def lastPosted (p : Article → Bool) (d : Int) (l : List Article) : Int :=
  ((l.filter p).getLast?.map Article.posted).getD d

@[simp] theorem lastPosted_nil (p : Article → Bool) (d : Int) : lastPosted p d [] = d := rfl

theorem lastPosted_cons (p : Article → Bool) (d : Int) (a : Article) (l : List Article) :
    lastPosted p d (a :: l) = lastPosted p (if p a then a.posted else d) l := by
  unfold lastPosted
  cases hp : p a
  · simp [List.filter_cons, hp]
  · cases h : (l.filter p).getLast? <;> simp [List.filter_cons, hp, List.getLast?_cons, h]

/-- Register each article at its clock value, in order. -/
def registrations (regs : List (Int × Article)) : List Op :=
  regs.map fun r => .registerArticle r.1 r.2

@[simp] theorem registrations_nil : registrations [] = [] := rfl

@[simp] theorem registrations_cons (r : Int × Article) (regs : List (Int × Article)) :
    registrations (r :: regs) = .registerArticle r.1 r.2 :: registrations regs := rfl

@[simp] theorem registrations_append (regs regs' : List (Int × Article)) :
    registrations (regs ++ regs') = registrations regs ++ registrations regs' :=
  List.map_append _ _ _

section Steps

variable {hashMessageID : String → String} {s : Index} {now : Int} {msg : Article} {r g : String}

/-- A registration leaves the article records of other message-ids alone. -/
theorem registerArticle_article_of_ne {x : String} (hx : x ≠ msg.messageID) :
    (registerArticle hashMessageID now msg s).article x = s.article x := by
  rw [registerArticle_eq]; split <;> simp [hx]

/-- A registration of another message-id adds `r` to no thread ordering. -/
theorem not_mem_registerArticle (hne : msg.messageID ≠ r) (hs : r ∉ s.groupThreadPostTime g ∧
      r ∉ s.groupThreadBumpTime g ∧ r ∉ s.threadBumpTime) :
    r ∉ (registerArticle hashMessageID now msg s).groupThreadPostTime g ∧
      r ∉ (registerArticle hashMessageID now msg s).groupThreadBumpTime g ∧
      r ∉ (registerArticle hashMessageID now msg s).threadBumpTime := by
  rw [registerArticle_eq]
  split
  · simpa using hs
  · obtain ⟨h1, h2, h3⟩ := hs
    simp only [registerPipeline_groupThreadPostTime, registerPipeline_groupThreadBumpTime,
      registerPipeline_threadBumpTime, ensureNewsgroup_groupThreadPostTime,
      ensureNewsgroup_groupThreadBumpTime, ensureNewsgroup_threadBumpTime]
    by_cases hg : g = msg.newsgroup
    · subst hg
      refine ⟨?_, ?_, ?_⟩ <;> split_ifs <;> simp [*, Ne.symm hne]
    · refine ⟨?_, ?_, ?_⟩ <;> split_ifs <;> simp [*, update_apply, hg, Ne.symm hne]

/-- The registration of a new OP `r` gives it its `Posted` in the three
thread orderings. -/
theorem scores_registerArticle_op (hop : msg.OP) (hfresh : s.article msg.messageID = none)
    (hs : msg.messageID ∉ s.groupThreadPostTime msg.newsgroup ∧
      msg.messageID ∉ s.groupThreadBumpTime msg.newsgroup ∧
      msg.messageID ∉ s.threadBumpTime) :
    let s' := registerArticle hashMessageID now msg s
    (s'.groupThreadPostTime msg.newsgroup).score msg.messageID = some msg.posted ∧
      (s'.groupThreadBumpTime msg.newsgroup).score msg.messageID = some msg.posted ∧
      (msg.newsgroup ≠ "ctl" → s'.threadBumpTime.score msg.messageID = some msg.posted) := by
  simp only [registerArticle_of_fresh hfresh, registerPipeline_groupThreadPostTime,
    registerPipeline_groupThreadBumpTime, registerPipeline_threadBumpTime, hop,
    ensureNewsgroup_groupThreadPostTime, ensureNewsgroup_groupThreadBumpTime,
    ensureNewsgroup_threadBumpTime, update_same, ite_true]
  refine ⟨?_, ?_, fun hg => ?_⟩
  · rw [ZSet.score_addNX_of_not_mem hs.1, if_pos rfl]
  · rw [ZSet.score_addNX_of_not_mem hs.2.1, if_pos rfl]
  · rw [if_pos hg, ZSet.score_addNX_of_not_mem hs.2.2, if_pos rfl]

/-- A later registration moves the root's score in its group's post-time
ordering exactly when it is a reply of that group to the root. -/
theorem score_groupThreadPostTime_registerArticle (hfresh : s.article msg.messageID = none)
    (hne : msg.messageID ≠ r) (hr : r ∈ s.groupThreadPostTime g) :
    ((registerArticle hashMessageID now msg s).groupThreadPostTime g).score r =
      if msg.repliesTo r && decide (msg.newsgroup = g) then some msg.posted
      else (s.groupThreadPostTime g).score r := by
  rw [registerArticle_of_fresh hfresh, registerPipeline_groupThreadPostTime,
    ensureNewsgroup_groupThreadPostTime, update_apply]
  by_cases hg : g = msg.newsgroup
  · subst hg
    cases hop : msg.OP
    · simp [Article.repliesTo, hop, ZSet.score_addXX, hr, eq_comm]
    · simp [Article.repliesTo, hop, ZSet.score_addNX_of_ne (Ne.symm hne)]
  · simp [hg, Ne.symm hg]

/-- The same for the bump-time ordering of the group, with sage replies left
out. -/
theorem score_groupThreadBumpTime_registerArticle (hfresh : s.article msg.messageID = none)
    (hne : msg.messageID ≠ r) (hr : r ∈ s.groupThreadBumpTime g) :
    ((registerArticle hashMessageID now msg s).groupThreadBumpTime g).score r =
      if msg.repliesTo r && !msg.sage && decide (msg.newsgroup = g) then some msg.posted
      else (s.groupThreadBumpTime g).score r := by
  rw [registerArticle_of_fresh hfresh, registerPipeline_groupThreadBumpTime,
    ensureNewsgroup_groupThreadBumpTime]
  cases hop : msg.OP
  · cases hsage : msg.sage
    · by_cases hg : g = msg.newsgroup
      · subst hg; simp [Article.repliesTo, hop, hsage, ZSet.score_addXX, hr, eq_comm]
      · simp [Article.repliesTo, hop, hsage, hg, Ne.symm hg]
    · simp [Article.repliesTo, hop, hsage]
  · by_cases hg : g = msg.newsgroup
    · subst hg; simp [Article.repliesTo, hop, ZSet.score_addNX_of_ne (Ne.symm hne)]
    · simp [Article.repliesTo, hop, update_apply, hg]

/-- The same for `ThreadBumpTimeWKR`, over the replies of every group. -/
theorem score_threadBumpTime_registerArticle (hfresh : s.article msg.messageID = none)
    (hne : msg.messageID ≠ r) (hr : r ∈ s.threadBumpTime) :
    ((registerArticle hashMessageID now msg s).threadBumpTime).score r =
      if msg.repliesTo r && !msg.sage then some msg.posted else s.threadBumpTime.score r := by
  rw [registerArticle_of_fresh hfresh, registerPipeline_threadBumpTime,
    ensureNewsgroup_threadBumpTime]
  cases hop : msg.OP
  · cases hsage : msg.sage <;> simp [Article.repliesTo, hop, hsage, ZSet.score_addXX, hr, eq_comm]
  · by_cases hg : msg.newsgroup = "ctl" <;>
      simp [Article.repliesTo, hop, hg, ZSet.score_addNX_of_ne (Ne.symm hne)]

end Steps

section Runs

variable {hashMessageID : String → String} {r : String}

/-- Registrations of other message-ids leave the article record of `x`
alone. -/
theorem article_run_registrations (L : List (Int × Article)) (s : Index) {x : String}
    (hx : ∀ a ∈ L, a.2.messageID ≠ x) :
    (run hashMessageID s (registrations L)).article x = s.article x := by
  refine run_induction (P := fun s' => s'.article x = s.article x) rfl fun op hop s' hs' => ?_
  obtain ⟨a, ha, rfl⟩ := List.mem_map.1 hop
  exact (registerArticle_article_of_ne (Ne.symm (hx a ha))).trans hs'

/-- Registrations of other message-ids add `r` to no thread ordering. -/
theorem not_mem_run_registrations (L : List (Int × Article)) {s : Index} {g : String}
    (hx : ∀ a ∈ L, a.2.messageID ≠ r) (hs : r ∉ s.groupThreadPostTime g ∧
      r ∉ s.groupThreadBumpTime g ∧ r ∉ s.threadBumpTime) :
    let s' := run hashMessageID s (registrations L)
    r ∉ s'.groupThreadPostTime g ∧ r ∉ s'.groupThreadBumpTime g ∧
      r ∉ s'.threadBumpTime := by
  refine run_induction (P := fun s' => r ∉ s'.groupThreadPostTime g ∧
    r ∉ s'.groupThreadBumpTime g ∧ r ∉ s'.threadBumpTime) hs fun op hop s' hs' => ?_
  obtain ⟨a, ha, rfl⟩ := List.mem_map.1 hop
  exact not_mem_registerArticle (hx a ha) hs'

/-- The run lemma: once `r` has a score in an ordering `sel` whose one-step
behaviour is `p`, registering fresh message-ids leaves it the `lastPosted`
of the run. -/
theorem score_run_registrations (sel : Index → ZSet) (p : Article → Bool)
    (hstep : ∀ now msg s, s.article msg.messageID = none → msg.messageID ≠ r →
      r ∈ sel s → (sel (registerArticle hashMessageID now msg s)).score r =
        if p msg then some msg.posted else (sel s).score r)
    (L : List (Int × Article)) (s : Index) (d : Int)
    (hfresh : ∀ a ∈ L, s.article a.2.messageID = none)
    (hnd : (L.map (·.2.messageID)).Nodup) (hr : ∀ a ∈ L, a.2.messageID ≠ r)
    (hs : (sel s).score r = some d) :
    (sel (run hashMessageID s (registrations L))).score r =
      some (lastPosted p d (L.map Prod.snd)) := by
  induction L generalizing s d with
  | nil => simpa using hs
  | cons a L ih =>
    obtain ⟨ha, hnd⟩ := List.nodup_cons.1 hnd
    have hmem : r ∈ sel s := ZSet.score_isSome_iff.1 (by simp [hs])
    have hstep' := hstep a.1 a.2 s (hfresh a (List.mem_cons_self _ _))
      (hr a (List.mem_cons_self _ _)) hmem
    rw [registrations_cons, run_cons, List.map_cons, lastPosted_cons]
    refine ih _ _ (fun b hb => ?_) hnd (fun b hb => hr b (List.mem_cons_of_mem _ hb)) ?_
    · have hne : b.2.messageID ≠ a.2.messageID := fun h => ha (List.mem_map.2 ⟨b, hb, h⟩)
      rw [Op.apply, registerArticle_article_of_ne hne]
      exact hfresh b (List.mem_cons_of_mem _ hb)
    · rw [Op.apply, hstep', hs]
      split <;> rfl

/-- The thread scores after any sequence of registrations with distinct
message-ids.  For the OP `op`, registered at position `pre.length`: its
score in the post-time ordering of its group is the `Posted` of the last
later reply of that group, its bump-time scores are the same over the
non-sage replies (of its group, and of every group in `ThreadBumpTimeWKR`),
and each is `op.posted` when no such reply follows.  Replies registered
before the OP leave no trace in any of the three. -/
theorem threadScores_of_registrations (pre post : List (Int × Article)) (now : Int)
    (op : Article) (hop : op.OP)
    (hids : ((pre ++ (now, op) :: post).map (·.2.messageID)).Nodup) :
    let s := run hashMessageID Index.empty (registrations (pre ++ (now, op) :: post))
    (s.groupThreadPostTime op.newsgroup).score op.messageID =
        some (lastPosted (fun a => a.repliesTo op.messageID && decide (a.newsgroup = op.newsgroup))
          op.posted (post.map Prod.snd)) ∧
      (s.groupThreadBumpTime op.newsgroup).score op.messageID =
        some (lastPosted (fun a => a.repliesTo op.messageID && !a.sage &&
          decide (a.newsgroup = op.newsgroup)) op.posted (post.map Prod.snd)) ∧
      (op.newsgroup ≠ "ctl" → s.threadBumpTime.score op.messageID =
        some (lastPosted (fun a => a.repliesTo op.messageID && !a.sage)
          op.posted (post.map Prod.snd))) := by
  simp only [List.map_append, List.map_cons, List.nodup_append, List.nodup_cons,
    List.disjoint_cons_right] at hids
  obtain ⟨-, ⟨hop_post, hnd⟩, hop_pre, hdisj⟩ := hids
  have hpre : ∀ a ∈ pre, a.2.messageID ≠ op.messageID := fun a ha h =>
    hop_pre (List.mem_map.2 ⟨a, ha, h⟩)
  have hpost : ∀ a ∈ post, a.2.messageID ≠ op.messageID := fun a ha h =>
    hop_post (List.mem_map.2 ⟨a, ha, h⟩)
  set s0 := run hashMessageID Index.empty (registrations pre)
  have hart : s0.article op.messageID = none := by
    rw [article_run_registrations pre _ hpre]; rfl
  have habs := @not_mem_run_registrations hashMessageID _ pre Index.empty op.newsgroup hpre
    (by simp [Index.empty])
  obtain ⟨h1, h2, h3⟩ := @scores_registerArticle_op hashMessageID s0 now op hop hart habs
  have hfresh : ∀ a ∈ post,
      (registerArticle hashMessageID now op s0).article a.2.messageID = none := fun a ha => by
    rw [registerArticle_article_of_ne (hpost a ha), article_run_registrations pre _
      fun b hb h => hdisj (List.mem_map_of_mem _ hb) (List.mem_map.2 ⟨a, ha, h.symm⟩)]
    rfl
  simp only [registrations_append, registrations_cons, run_append, run_cons, Op.apply]
  refine ⟨?_, ?_, fun hg => ?_⟩
  · exact score_run_registrations (·.groupThreadPostTime op.newsgroup) _
      (fun _ _ _ => score_groupThreadPostTime_registerArticle) post _ _ hfresh hnd hpost h1
  · exact score_run_registrations (·.groupThreadBumpTime op.newsgroup) _
      (fun _ _ _ => score_groupThreadBumpTime_registerArticle) post _ _ hfresh hnd hpost h2
  · exact score_run_registrations (·.threadBumpTime) _
      (fun _ _ _ => score_threadBumpTime_registerArticle) post _ _ hfresh hnd hpost (h3 hg)

/-- A reply registered before its OP counts for nothing, and a sage reply
moves the post time, down here, but no bump time. -/
theorem threadScores_early_and_sage :
    let op : Article := ⟨"<a@x>", "g", "", "", "", "", 10, "", "", false, [], []⟩
    let early : Article := ⟨"<b@x>", "g", "<a@x>", "", "", "", 20, "", "", false, [], []⟩
    let sage : Article := ⟨"<c@x>", "g", "<a@x>", "", "", "", 5, "", "", true, [], []⟩
    let s := run id Index.empty (registrations [(0, early), (1, op), (2, sage)])
    op.OP ∧ ([(0, early), (1, op), (2, sage)].map (·.2.messageID)).Nodup ∧
      (s.groupThreadPostTime "g").score "<a@x>" = some 5 ∧
      (s.groupThreadBumpTime "g").score "<a@x>" = some 10 ∧
      s.threadBumpTime.score "<a@x>" = some 10 := by
  intro op early sage s
  obtain ⟨h1, h2, h3⟩ := @threadScores_of_registrations id [(0, early)] [(2, sage)] 1 op rfl
    (by decide)
  exact ⟨rfl, by decide, h1, h2, h3 (by decide)⟩

/-- The score is not the largest `Posted`: a later reply with an earlier
`Posted` moves the thread's post time down. -/
theorem reply_lowers_thread_posttime :
    let op : Article := ⟨"<a@x>", "g", "", "", "", "", 10, "", "", false, [], []⟩
    let reply : Article := ⟨"<b@x>", "g", "<a@x>", "", "", "", 5, "", "", false, [], []⟩
    let s := run id Index.empty (registrations [(0, op), (1, reply)])
    (s.groupThreadPostTime "g").score "<a@x>" ≠ some (max op.posted reply.posted) := by
  decide

end Runs

end Srnd.Redis
