import Srnd.Redis.Run

/-!
# What the index part of `NukeNewsgroup` leaves alone

`NukeNewsgroup g` runs `DeleteThread` on every member of
`GroupThreadBumpTimeWKR::g`, and `DeleteThread t` deletes every member of
`ThreadPostsWKR::t`, whatever its group, then `t` itself.  Those are the
articles `NukedBy g`.  Every other article keeps everything the index holds
about it (`Index.factsOf`) except its place in the three orderings of `g`,
which the nuke deletes: `factsOf_nukeNewsgroupIndex`.

The proof is a frame argument.  `DeleteArticle x` and the middle step of
`DeleteThread t` keep the facts of every other article, and they only ever
shrink `ThreadPostsWKR::`, so the replies each `DeleteThread` of the loop
deletes were replies before the nuke.
-/

namespace Srnd.Redis

open Function

/-- What the index holds about one article, leaving out its membership in the
orderings of the group `g`. -/
structure ArticleFacts where
  article : Option ArticleRecord
  articlePost : Option ArticlePostRecord
  articleKey : Option String
  headers : Finset String
  attachments : Finset String
  inHeader : String → Prop
  inAttachment : String → Prop
  inArticleWKR : Prop
  inThreadBumpTime : Prop
  inThreadPosts : String → Prop
  inGroupArticlePostTime : String → Prop
  inGroupThreadPostTime : String → Prop
  inGroupThreadBumpTime : String → Prop

/-- The facts of the article `m`, outside the orderings of `g`. -/
def Index.factsOf (s : Index) (g m : String) : ArticleFacts where
  article := s.article m
  articlePost := s.articlePost m
  articleKey := s.articleKey m
  headers := s.messageIDHeaderKR m
  attachments := s.articleAttachments m
  inHeader h := m ∈ s.headerKR h
  inAttachment a := m ∈ s.attachmentArticles a
  inArticleWKR := m ∈ s.articleWKR
  inThreadBumpTime := m ∈ s.threadBumpTime
  inThreadPosts r := m ∈ s.threadPosts r
  inGroupArticlePostTime h := h ≠ g ∧ m ∈ s.groupArticlePostTime h
  inGroupThreadPostTime h := h ≠ g ∧ m ∈ s.groupThreadPostTime h
  inGroupThreadBumpTime h := h ≠ g ∧ m ∈ s.groupThreadBumpTime h

/-- The articles `NukeNewsgroup g` deletes through `DeleteThread`: the members
of `GroupThreadBumpTimeWKR::g` and their replies. -/
def Index.NukedBy (s : Index) (g m : String) : Prop :=
  m ∈ s.groupThreadBumpTime g ∨ ∃ t, t ∈ s.groupThreadBumpTime g ∧ m ∈ s.threadPosts t

instance (s : Index) (g m : String) : Decidable (s.NukedBy g m) :=
  decidable_of_iff (m ∈ s.groupThreadBumpTime g ∨
      ∃ t ∈ (s.groupThreadBumpTime g).members, m ∈ s.threadPosts t)
    (by simp [Index.NukedBy, ZSet.mem_iff])

section Frame

variable {s : Index} {g m x : String}

private theorem mem_ite_iff {β : Type} [Membership String β] {p : Prop} [Decidable p]
    {a : String} {y z : β} : (a ∈ if p then y else z) ↔ if p then a ∈ y else a ∈ z := by
  split_ifs <;> rfl

theorem factsOf_deleteArticle (hx : x ≠ m) : (deleteArticle x s).factsOf g m = s.factsOf g m := by
  have hm : m ≠ x := Ne.symm hx
  unfold Index.factsOf
  congr 1 <;> (try funext) <;> simp [hm, update_apply, mem_ite_iff, ite_apply]
  all_goals rintro - rfl; rfl

theorem factsOf_dropThread (hx : x ≠ m) (hm : m ∉ s.threadPosts x) :
    (dropThread x s).factsOf g m = s.factsOf g m := by
  have hm' : m ≠ x := Ne.symm hx
  unfold Index.factsOf
  congr 1 <;> (try funext) <;> simp [hm', update_apply, mem_ite_iff,
    mem_dropThread_groupThreadPostTime, mem_dropThread_groupThreadBumpTime]
  rintro h rfl; exact hm h

theorem mem_threadPosts_of_deleteArticle {r y : String}
    (h : y ∈ (deleteArticle x s).threadPosts r) : y ∈ s.threadPosts r := by
  simp only [deleteArticle_threadPosts] at h
  split_ifs at h
  · rw [update_apply] at h
    split_ifs at h with hr
    · subst hr; exact (ZSet.mem_rem.1 h).2
    · exact h
  · exact h

theorem mem_threadPosts_of_dropThread {r y : String} (h : y ∈ (dropThread x s).threadPosts r) :
    y ∈ s.threadPosts r := by
  rw [dropThread_threadPosts, update_apply] at h
  split_ifs at h
  · simp at h
  · exact h

/-- What every step of the nuke keeps for an article `m` it does not delete:
the facts of `m`, and no `ThreadPostsWKR::` key gains a member. -/
def NukeFrame (s₀ : Index) (g m : String) (s : Index) : Prop :=
  s.factsOf g m = s₀.factsOf g m ∧ ∀ r y, y ∈ s.threadPosts r → y ∈ s₀.threadPosts r

theorem NukeFrame.deleteArticle {s₀ : Index} (h : NukeFrame s₀ g m s) (hx : x ≠ m) :
    NukeFrame s₀ g m (deleteArticle x s) :=
  ⟨(factsOf_deleteArticle hx).trans h.1,
    fun r y hy => h.2 r y (mem_threadPosts_of_deleteArticle hy)⟩

/-- `DeleteThread t` keeps the frame of an article that is neither `t` nor one
of its replies before the nuke. -/
theorem NukeFrame.deleteThread {s₀ : Index} (h : NukeFrame s₀ g m s) (ht : x ≠ m)
    (hm : m ∉ s₀.threadPosts x) : NukeFrame s₀ g m (deleteThread x s) := by
  unfold Srnd.Redis.deleteThread
  have h1 := foldl_induction (getThreadReplies s x 0) h fun _ y hy h' =>
    h'.deleteArticle fun hym => hm (hym ▸ h.2 x y (ZSet.mem_of_mem_range hy))
  have hm1 : m ∉
      ((getThreadReplies s x 0).foldl (fun s r => Srnd.Redis.deleteArticle r s) s).threadPosts x :=
    fun h' => hm (h1.2 x m h')
  exact NukeFrame.deleteArticle ⟨(factsOf_dropThread ht hm1).trans h1.1,
    fun r y hy => h1.2 r y (mem_threadPosts_of_dropThread hy)⟩ ht

end Frame

/-- The orderings of `g` that the nuke deletes are outside the facts. -/
theorem factsOf_nukeNewsgroupIndex_eq_fold (s : Index) (g m : String) :
    (nukeNewsgroupIndex g s).factsOf g m =
      (((s.groupThreadBumpTime g).range 0 (-1)).foldl
        (fun s t => deleteThread t s) s).factsOf g m := by
  unfold nukeNewsgroupIndex Index.factsOf
  congr 1 <;> funext h <;> by_cases hg : h = g <;> simp [hg]

/-- `NukeNewsgroup g` keeps everything the index holds about every article it
does not delete through `DeleteThread`, but its place in the orderings of
`g`. -/
theorem factsOf_nukeNewsgroupIndex (s : Index) (g m : String) (hm : ¬ s.NukedBy g m) :
    (nukeNewsgroupIndex g s).factsOf g m = s.factsOf g m := by
  rw [factsOf_nukeNewsgroupIndex_eq_fold]
  refine (foldl_induction (P := NukeFrame s g m) _ ⟨rfl, fun _ _ => id⟩ fun _ t ht h' => ?_).1
  have ht' := ZSet.mem_of_mem_range ht
  exact h'.deleteThread (fun h => hm (.inl (h ▸ ht'))) (fun h => hm (.inr ⟨t, ht', h⟩))

/-! ## What the nuke deletes -/

section Deleted

variable {s : Index} {x y r : String}

theorem mem_threadPosts_deleteArticle (h : y ∈ s.threadPosts r) (hy : y ≠ x) :
    y ∈ (deleteArticle x s).threadPosts r := by
  rw [deleteArticle_threadPosts]
  split_ifs
  · rw [update_apply]
    split_ifs with hr
    · exact ZSet.mem_rem.2 ⟨hy, hr ▸ h⟩
    · exact h
  · exact h

/-- `DeleteThread x` deletes the record of `x` and of its replies. -/
theorem deleteThread_article (x : String) (s : Index) (y : String) :
    (deleteThread x s).article y = if y = x ∨ y ∈ s.threadPosts x then none else s.article y := by
  have hr : getThreadReplies s x 0 = (s.threadPosts x).sorted := ZSet.range_zero_neg_one _
  unfold Srnd.Redis.deleteThread
  rw [deleteArticle_article, update_apply, dropThread_article, foldl_deleteArticle_article, hr]
  by_cases hx : y = x <;> by_cases hp : y ∈ s.threadPosts x <;> simp [hx, hp]

/-- A member of another `ThreadPostsWKR::` key stays there, unless
`DeleteThread x` deleted it. -/
theorem mem_threadPosts_deleteThread (h : y ∈ s.threadPosts r) (hr : r ≠ x) :
    y ∈ (deleteThread x s).threadPosts r ∨ (deleteThread x s).article y = none := by
  by_cases hd : y = x ∨ y ∈ s.threadPosts x
  · exact .inr (by rw [deleteThread_article, if_pos hd])
  · rw [not_or] at hd
    refine .inl (mem_threadPosts_deleteArticle ?_ hd.1)
    rw [dropThread_threadPosts, update_noteq hr]
    exact foldl_induction (P := fun s' : Index => y ∈ s'.threadPosts r) _ h
      fun _ z hz h' => mem_threadPosts_deleteArticle h' fun hyz =>
        hd.2 (hyz ▸ ZSet.mem_of_mem_range hz)

theorem foldl_deleteThread_article_of_none (L : List String) (h : s.article y = none) :
    (L.foldl (fun s t => deleteThread t s) s).article y = none :=
  foldl_induction (P := fun s' : Index => s'.article y = none) L h fun _ _ _ h' => by
    dsimp only at h' ⊢
    rw [deleteThread_article, h', ite_self]

/-- `DeleteThread` over a list of threads deletes each of them and each of
their replies before the loop. -/
theorem foldl_deleteThread_article (L : List String) (hL : L.Nodup) (s : Index)
    (hy : y ∈ L ∨ ∃ t ∈ L, y ∈ s.threadPosts t) :
    (L.foldl (fun s t => deleteThread t s) s).article y = none := by
  induction L generalizing s with
  | nil => simp at hy
  | cons t L ih =>
    rw [List.nodup_cons] at hL
    rw [List.foldl_cons]
    simp only [List.mem_cons, exists_eq_or_imp] at hy
    have hdel : (deleteThread t s).article y = none ∨
        (y ∈ L ∨ ∃ t' ∈ L, y ∈ (deleteThread t s).threadPosts t') := by
      rcases hy with (rfl | hy) | (hyt | ⟨t', ht', hyt⟩)
      · exact .inl (by rw [deleteThread_article, if_pos (.inl rfl)])
      · exact .inr (.inl hy)
      · exact .inl (by rw [deleteThread_article, if_pos (.inr hyt)])
      · rcases mem_threadPosts_deleteThread hyt fun h : t' = t => hL.1 (h ▸ ht') with h | h
        · exact .inr (.inr ⟨t', ht', h⟩)
        · exact .inl h
    rcases hdel with h | h
    · exact foldl_deleteThread_article_of_none L h
    · exact ih hL.2 _ h

end Deleted

/-- `NukeNewsgroup g` deletes the record of every article `NukedBy g` and
keeps the record of every other one. -/
theorem nukeNewsgroupIndex_article (s : Index) (g m : String) :
    (nukeNewsgroupIndex g s).article m = if s.NukedBy g m then none else s.article m := by
  split_ifs with hm
  · refine foldl_deleteThread_article _ (ZSet.range_zero_neg_one _ ▸ ZSet.nodup_sorted _) s ?_
    simpa [Index.NukedBy, ZSet.range_zero_neg_one] using hm
  · exact congrArg ArticleFacts.article (factsOf_nukeNewsgroupIndex s g m hm)

/-- From any index, after `NukeNewsgroup g` an article is live exactly when it
was live and is not `NukedBy g`, the three orderings of `g` are empty, and
`g` has left `GroupPostTimeWKR`. -/
theorem nukeNewsgroup_live_iff (s : Index) (g : String) :
    let s' := nukeNewsgroupIndex g s
    (∀ m, s'.Live m ↔ s.Live m ∧ ¬ s.NukedBy g m) ∧ g ∉ s'.groupPostTime ∧
      s'.groupArticlePostTime g = ZSet.empty ∧ s'.groupThreadPostTime g = ZSet.empty ∧
      s'.groupThreadBumpTime g = ZSet.empty := by
  refine ⟨fun m => ?_, fun h => (ZSet.mem_rem.1 h).1 rfl, update_same _ _ _, update_same _ _ _,
    update_same _ _ _⟩
  rw [Index.Live, Index.Live, nukeNewsgroupIndex_article]
  split_ifs with hm <;> simp [hm]

end Srnd.Redis
