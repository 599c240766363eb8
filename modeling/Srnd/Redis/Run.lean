import Srnd.Redis.Delete

/-!
# Runs of the index and the scope of each ordering

`Op` is a call that changes the index, `Op.apply` runs it, and `run` folds a
list of calls over a state.  `run_induction` and `run_induction_of_runAll`
are the two induction principles every invariant of the index is proved
with: the first for a property that each call keeps, the second for one that
each call keeps under a side condition on the state it starts from.

The second half names the scope of each ordering, as the article records
define it: `LiveIn g m` (a live article of group `g`), `LiveOP g m` (a live
OP of `g`) and `LiveReply r m` (a live reply to `r`).  The lemmas below say
how each call changes them; `RecordsAgree` is the fact that lets
`DeleteArticle`, which reads the post record, act on what the article record
says.
-/

namespace Srnd.Redis

open Function

/-- A call that changes the index. -/
inductive Op where
  | registerArticle (now : Int) (msg : Article)
  | deleteArticle (msgid : String)
  | deleteThread (msgid : String)
  | nukeNewsgroup (group : String)
  deriving Repr

variable (hashMessageID : String → String)

/-- Run one call. -/
def Op.apply : Op → Index → Index
  | .registerArticle now msg => Srnd.Redis.registerArticle hashMessageID now msg
  | .deleteArticle msgid => Srnd.Redis.deleteArticle msgid
  | .deleteThread msgid => Srnd.Redis.deleteThread msgid
  | .nukeNewsgroup group => nukeNewsgroupIndex group

/-- Run a sequence of calls. -/
def run (s : Index) (ops : List Op) : Index :=
  ops.foldl (fun s op => op.apply hashMessageID s) s

/-- Every call of a run meets `ok` in the state it starts from. -/
def RunAll (ok : Index → Op → Prop) : Index → List Op → Prop
  | _, [] => True
  | s, op :: ops => ok s op ∧ RunAll ok (op.apply hashMessageID s) ops

variable {hashMessageID}

@[simp] theorem run_nil (s : Index) : run hashMessageID s [] = s := rfl

@[simp] theorem run_cons (s : Index) (op : Op) (ops : List Op) :
    run hashMessageID s (op :: ops) = run hashMessageID (op.apply hashMessageID s) ops := rfl

@[simp] theorem run_append (s : Index) (ops ops' : List Op) :
    run hashMessageID s (ops ++ ops') = run hashMessageID (run hashMessageID s ops) ops' :=
  List.foldl_append _ _ _ _

/-- A property that holds initially and that every call of the run keeps
holds at the end. -/
theorem run_induction {P : Index → Prop} {s : Index} {ops : List Op} (h0 : P s)
    (hstep : ∀ op ∈ ops, ∀ s, P s → P (op.apply hashMessageID s)) :
    P (run hashMessageID s ops) := by
  induction ops generalizing s with
  | nil => exact h0
  | cons op ops ih =>
    exact ih (hstep op (List.mem_cons_self _ _) s h0)
      (fun op' hop => hstep op' (List.mem_cons_of_mem _ hop))

/-- The same, for calls that keep the property only under `ok`. -/
theorem run_induction_of_runAll {P : Index → Prop} {ok : Index → Op → Prop}
    {s : Index} {ops : List Op} (h0 : P s)
    (hstep : ∀ op s, P s → ok s op → P (op.apply hashMessageID s))
    (hrun : RunAll hashMessageID ok s ops) : P (run hashMessageID s ops) := by
  induction ops generalizing s with
  | nil => exact h0
  | cons op ops ih => exact ih (hstep op s h0 hrun.1) hrun.2

/-- A loop over message-ids, such as the `DeleteArticle` loop of
`DeleteThread`, keeps any property that each of its steps keeps. -/
theorem foldl_induction {P : Index → Prop} {f : Index → String → Index} (L : List String)
    {s : Index} (h0 : P s) (hstep : ∀ s, ∀ r ∈ L, P s → P (f s r)) : P (L.foldl f s) := by
  induction L generalizing s with
  | nil => exact h0
  | cons r L ih =>
    exact ih (hstep s r (List.mem_cons_self _ _) h0)
      (fun s r' hr => hstep s r' (List.mem_cons_of_mem _ hr))

/-! ## Scopes -/

namespace Index

/-- `m` is live and its record names group `g`. -/
def LiveIn (s : Index) (g m : String) : Prop :=
  (s.article m).map ArticleRecord.messageNewsgroup = some g

/-- `m` is a live OP of group `g`. -/
def LiveOP (s : Index) (g m : String) : Prop :=
  (s.article m).map (fun a => (a.messageNewsgroup, a.messageRefId)) = some (g, "")

/-- `m` is a live reply to `r`. -/
def LiveReply (s : Index) (r m : String) : Prop :=
  r ≠ "" ∧ (s.article m).map ArticleRecord.messageRefId = some r

instance (s : Index) (g m : String) : Decidable (s.LiveIn g m) :=
  inferInstanceAs (Decidable (_ = _))

instance (s : Index) (g m : String) : Decidable (s.LiveOP g m) :=
  inferInstanceAs (Decidable (_ = _))

instance (s : Index) (r m : String) : Decidable (s.LiveReply r m) :=
  inferInstanceAs (Decidable (_ ∧ _))

/-- The post record and the article record of every message-id exist
together and name the same group and reference. -/
def RecordsAgree (s : Index) : Prop :=
  ∀ m, (s.articlePost m).map (fun p => (p.newsgroup, p.refId)) =
    (s.article m).map (fun a => (a.messageNewsgroup, a.messageRefId))

theorem LiveOP.liveIn {s : Index} {g m : String} (h : s.LiveOP g m) : s.LiveIn g m := by
  unfold LiveOP at h; unfold LiveIn
  cases ha : s.article m <;> simp_all

theorem not_liveIn_of_article_eq_none {s : Index} {g m : String} (h : s.article m = none) :
    ¬ s.LiveIn g m := by
  simp [LiveIn, h]

end Index

open Index

/-! ## How each call changes the scopes -/

section Scopes

variable {s : Index} {x g m r : String}

@[simp] theorem liveIn_deleteArticle :
    (deleteArticle x s).LiveIn g m ↔ m ≠ x ∧ s.LiveIn g m := by
  by_cases h : m = x <;> simp [LiveIn, h]

@[simp] theorem liveOP_deleteArticle :
    (deleteArticle x s).LiveOP g m ↔ m ≠ x ∧ s.LiveOP g m := by
  by_cases h : m = x <;> simp [LiveOP, h]

@[simp] theorem liveReply_deleteArticle :
    (deleteArticle x s).LiveReply r m ↔ m ≠ x ∧ s.LiveReply r m := by
  by_cases h : m = x <;> simp [LiveReply, h]

@[simp] theorem liveIn_dropThread : (dropThread x s).LiveIn g m ↔ s.LiveIn g m := Iff.rfl

@[simp] theorem liveOP_dropThread : (dropThread x s).LiveOP g m ↔ s.LiveOP g m := Iff.rfl

@[simp] theorem liveReply_dropThread : (dropThread x s).LiveReply r m ↔ s.LiveReply r m :=
  Iff.rfl

theorem recordsAgree_deleteArticle (h : s.RecordsAgree) : (deleteArticle x s).RecordsAgree := by
  intro m
  by_cases hm : m = x <;> simp [hm, h m]

theorem recordsAgree_dropThread (h : s.RecordsAgree) : (dropThread x s).RecordsAgree := h

/-- Under `RecordsAgree`, the post model of an absent article is the empty
OP. -/
theorem getPostModel_of_not_live (h : s.RecordsAgree) (hx : s.article x = none) :
    getPostModel s x = ⟨"", "", "", true⟩ := by
  have := h x
  rw [hx, Option.map_none', Option.map_eq_none'] at this
  simp [getPostModel, this]

/-- Under `RecordsAgree`, the post model of a live article shows the group
and the reference of its article record. -/
theorem getPostModel_of_live (h : s.RecordsAgree) {a : ArticleRecord}
    (hx : s.article x = some a) :
    (getPostModel s x).board = a.messageNewsgroup ∧
      (getPostModel s x).op = decide (a.messageRefId = "") ∧
      ((getPostModel s x).op = false → (getPostModel s x).reference = a.messageRefId) := by
  have := h x
  rw [hx, Option.map_some'] at this
  obtain ⟨p, hp, hpa⟩ := Option.map_eq_some'.1 this
  simp only [Prod.mk.injEq] at hpa
  simp only [getPostModel, hp, PostModel.reference, hpa.1, hpa.2, true_and]
  intro hop
  simp only [decide_eq_false_iff_not] at hop
  simp [hop]

theorem board_of_liveIn (h : s.RecordsAgree) (hx : s.LiveIn g x) :
    (getPostModel s x).board = g := by
  obtain ⟨a, ha, rfl⟩ := Option.map_eq_some'.1 hx
  exact (getPostModel_of_live h ha).1

theorem reference_of_liveReply (h : s.RecordsAgree) (hx : s.LiveReply r x) :
    (getPostModel s x).op = false ∧ (getPostModel s x).reference = r := by
  obtain ⟨hr, a, ha, rfl⟩ := And.imp_right Option.map_eq_some'.1 hx
  have hp := getPostModel_of_live h ha
  have hop : (getPostModel s x).op = false := by simpa [hp.2.1] using hr
  exact ⟨hop, hp.2.2 hop⟩

/-- After a fold of `DeleteArticle`, exactly the listed article records are
gone. -/
theorem foldl_deleteArticle_article (L : List String) (s : Index) (y : String) :
    (L.foldl (fun s r => deleteArticle r s) s).article y =
      if y ∈ L then none else s.article y := by
  induction L generalizing s with
  | nil => simp
  | cons r L ih =>
    rw [List.foldl_cons, ih, deleteArticle_article, update_apply]
    by_cases hy : y ∈ L <;> by_cases hr : y = r <;> simp [hy, hr]

@[simp] theorem ensureNewsgroup_article (now : Int) (group : String) :
    (ensureNewsgroup now group s).article = s.article := by
  rw [ensureNewsgroup_eq]

theorem registerPipeline_article_self (now : Int) (msg : Article) :
    (registerPipeline hashMessageID now msg s).article msg.messageID =
      some ⟨msg.messageID, hashMessageID msg.messageID, msg.newsgroup, now, msg.reference⟩ := by
  simp

theorem registerPipeline_article_ne (now : Int) (msg : Article) (hm : m ≠ msg.messageID) :
    (registerPipeline hashMessageID now msg s).article m = s.article m := by
  simp [hm]

theorem liveIn_registerPipeline (now : Int) (msg : Article) :
    (registerPipeline hashMessageID now msg s).LiveIn g m ↔
      (m = msg.messageID ∧ msg.newsgroup = g) ∨ (m ≠ msg.messageID ∧ s.LiveIn g m) := by
  by_cases hm : m = msg.messageID
  · subst hm; simp [LiveIn, registerPipeline_article_self]
  · simp [LiveIn, registerPipeline_article_ne now msg hm, hm]

theorem liveOP_registerPipeline (now : Int) (msg : Article) :
    (registerPipeline hashMessageID now msg s).LiveOP g m ↔
      (m = msg.messageID ∧ msg.newsgroup = g ∧ msg.reference = "") ∨
        (m ≠ msg.messageID ∧ s.LiveOP g m) := by
  by_cases hm : m = msg.messageID
  · subst hm; simp [LiveOP, registerPipeline_article_self]
  · simp [LiveOP, registerPipeline_article_ne now msg hm, hm]

theorem liveReply_registerPipeline (now : Int) (msg : Article) :
    (registerPipeline hashMessageID now msg s).LiveReply r m ↔
      (m = msg.messageID ∧ r ≠ "" ∧ msg.reference = r) ∨
        (m ≠ msg.messageID ∧ s.LiveReply r m) := by
  by_cases hm : m = msg.messageID
  · subst hm; simp [LiveReply, registerPipeline_article_self]
  · simp [LiveReply, registerPipeline_article_ne now msg hm, hm]

theorem recordsAgree_registerPipeline (now : Int) (msg : Article) (h : s.RecordsAgree) :
    (registerPipeline hashMessageID now msg s).RecordsAgree := by
  intro m
  by_cases hm : m = msg.messageID
  · subst hm; simp
  · simp [hm, h m]

end Scopes

end Srnd.Redis
