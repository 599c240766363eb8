import Srnd.Redis.ThreadScores

/-!
# NNTP article numbers

An article's NNTP number in a group is its rank in
`GroupArticlePostTimeWKR::g`, plus one: `GetMessageIDForNNTPID(g, n)` reads
the member of rank `n - 1` with `ZRANGE`.  `RegisterArticle` adds a new
article with `ZADD NX` at its clock value `timeNow()`, and `ZRANGE` orders by
score, then by member.

`getMessageIDForNNTPID_rank` says what it reads for every number, `0` and the
negative ones included, which `ZRANGE` counts from the end.
`GetLastAndFirstForGroup` advertises `ZCARD + 1` as the last number of a
non-empty group, one past the last article
(`getLastAndFirstForGroup_off_by_one`).

A registration at a clock value above every score of the ordering appends the
article (`sorted_prefix_registerArticle`), so a run of them at strictly
increasing clock values keeps every number (`getMessageIDForNNTPID_registrations`).
Two registrations in the same second are ordered by message-id instead, and
the later one can take the number of the earlier
(`getMessageIDForNNTPID_renumbered`).
-/

namespace Srnd.Redis

open Function

/-- `GetMessageIDForNNTPID(group, id)`: the member of rank `id - 1` of
`GroupArticlePostTimeWKR::group`, `id` 0 read as 1, or `""`. -/
def getMessageIDForNNTPID (s : Index) (group : String) (id : Int) : String :=
  let id := if id = 0 then 1 else id
  match (s.groupArticlePostTime group).range (id - 1) (id - 1) with
  | m :: _ => m
  | [] => ""

/-- `GetLastAndFirstForGroup(group)`: `(last, first)`. -/
def getLastAndFirstForGroup (s : Index) (group : String) : Int × Int :=
  let last : Int := (s.groupArticlePostTime group).card
  if last = 0 then (0, 1) else (last + 1, 1)

/-- For `n ≥ 1`, the member of rank `n - 1` in `ZRANGE` order. -/
theorem getMessageIDForNNTPID_eq (s : Index) (group : String) {n : Int} (hn : 1 ≤ n) :
    getMessageIDForNNTPID s group n =
      ((s.groupArticlePostTime group).sorted[(n - 1).toNat]?).getD "" := by
  unfold getMessageIDForNNTPID
  dsimp only
  rw [if_neg (show n ≠ 0 by omega), ZSet.range_rank _ (show (0 : Int) ≤ n - 1 by omega),
    ← List.head?_drop]
  cases (s.groupArticlePostTime group).sorted.drop (n - 1).toNat <;> rfl

/-- What `GetMessageIDForNNTPID(g, n)` reads for every `n`: the member of
rank `n - 1` for a positive `n` and of rank `0` for `0`; for a negative `n`,
rank `n - 1` counted from the end, as `ZRANGE` reads a negative index; `""`
where there is no such member. -/
theorem getMessageIDForNNTPID_rank (s : Index) (g : String) (n : Int) :
    getMessageIDForNNTPID s g n =
      let z := s.groupArticlePostTime g
      let k : Int := if n = 0 then 0 else if 0 < n then n - 1 else n - 1 + z.card
      if 0 ≤ k then (z.sorted[k.toNat]?).getD "" else "" := by
  dsimp only
  rcases lt_trichotomy n 0 with hn | rfl | hn
  · rw [if_neg hn.ne, if_neg (show ¬ 0 < n by omega)]
    unfold getMessageIDForNNTPID
    dsimp only
    rw [if_neg hn.ne, ZSet.range_rank_neg _ (by omega)]
    split_ifs
    · rw [← List.head?_drop]
      cases (s.groupArticlePostTime g).sorted.drop _ <;> rfl
    · rfl
  · exact getMessageIDForNNTPID_eq s g (n := 1) le_rfl
  · rw [if_neg hn.ne', if_pos hn, if_pos (by omega)]
    exact getMessageIDForNNTPID_eq s g hn

/-- In a group of two articles `GetLastAndFirstForGroup` advertises the
numbers 1 to 3: number 3 names no article, while 0 and -1, outside the range,
name the first article (-1 reads index -2, counted from the end). -/
theorem getLastAndFirstForGroup_off_by_one :
    let a : Article := ⟨"<a@x>", "g", "", "", "", "", 0, "", "", false, [], []⟩
    let b : Article := ⟨"<b@x>", "g", "", "", "", "", 1, "", "", false, [], []⟩
    let s := run id Index.empty [.registerArticle 0 a, .registerArticle 1 b]
    getLastAndFirstForGroup s "g" = (3, 1) ∧ (s.groupArticlePostTime "g").card = 2 ∧
      getMessageIDForNNTPID s "g" 2 = "<b@x>" ∧ getMessageIDForNNTPID s "g" 3 = "" ∧
      getMessageIDForNNTPID s "g" 0 = "<a@x>" ∧ getMessageIDForNNTPID s "g" (-1) = "<a@x>" := by
  decide

variable {hashMessageID : String → String}

theorem groupArticlePostTime_registerArticle (now : Int) (msg : Article) (s : Index) (g : String) :
    (registerArticle hashMessageID now msg s).groupArticlePostTime g =
      if g = msg.newsgroup ∧ hasArticle s msg.messageID = false then
        (s.groupArticlePostTime g).addNX msg.messageID now
      else s.groupArticlePostTime g := by
  rw [registerArticle_eq]
  by_cases hg : g = msg.newsgroup <;> cases hasArticle s msg.messageID <;>
    simp [ensureNewsgroup_eq, update_apply, hg]

/-- A registration at a clock value above every score of `g`'s ordering
keeps the ranks there: the old `ZRANGE` order is a prefix of the new. -/
theorem sorted_prefix_registerArticle {now : Int} {msg : Article} {s : Index} {g : String}
    (h : (s.groupArticlePostTime g).Below now) :
    (s.groupArticlePostTime g).sorted <+:
      ((registerArticle hashMessageID now msg s).groupArticlePostTime g).sorted := by
  rw [groupArticlePostTime_registerArticle]
  split_ifs
  · by_cases hm : msg.messageID ∈ s.groupArticlePostTime g
    · rw [ZSet.addNX_of_mem hm]
    · rw [ZSet.sorted_addNX_of_below hm h]
      exact List.prefix_append _ _
  · exact List.prefix_refl _

theorem below_registerArticle {now t : Int} {msg : Article} {s : Index} {g : String}
    (h : (s.groupArticlePostTime g).Below t) (ht : now < t) :
    ((registerArticle hashMessageID now msg s).groupArticlePostTime g).Below t := by
  rw [groupArticlePostTime_registerArticle]
  split_ifs
  exacts [ZSet.below_addNX h ht, h]

/-- Registrations at strictly increasing clock values above every score of
`g`'s ordering only append to it. -/
theorem sorted_prefix_run_registrations (g : String) (regs : List (Int × Article)) (s : Index)
    (hclock : (regs.map Prod.fst).Pairwise (· < ·))
    (habove : ∀ r ∈ regs, (s.groupArticlePostTime g).Below r.1) :
    (s.groupArticlePostTime g).sorted <+:
      ((run hashMessageID s (registrations regs)).groupArticlePostTime g).sorted := by
  induction regs generalizing s with
  | nil => exact List.prefix_refl _
  | cons r regs ih =>
    rw [List.map_cons, List.pairwise_cons] at hclock
    have hr := habove r (List.mem_cons_self _ _)
    refine (sorted_prefix_registerArticle hr).trans (ih _ hclock.2 fun r' hr' => ?_)
    exact below_registerArticle (habove r' (List.mem_cons_of_mem _ hr'))
      (hclock.1 r'.1 (List.mem_map_of_mem _ hr'))

/-- Registrations at strictly increasing clock values, all above every score
of `GroupArticlePostTimeWKR::g`, keep every NNTP number of `g` that names an
article. -/
theorem getMessageIDForNNTPID_registrations (s : Index) (g : String) (n : Int) (hn : 1 ≤ n)
    (regs : List (Int × Article)) (hclock : (regs.map Prod.fst).Pairwise (· < ·))
    (habove : ∀ r ∈ regs, (s.groupArticlePostTime g).Below r.1)
    (hm : getMessageIDForNNTPID s g n ≠ "") :
    getMessageIDForNNTPID (run hashMessageID s (registrations regs)) g n =
      getMessageIDForNNTPID s g n := by
  simp only [getMessageIDForNNTPID_eq _ _ hn] at hm ⊢
  obtain ⟨l, hl⟩ := sorted_prefix_run_registrations g regs s hclock habove
  have hk : (n - 1).toNat < (s.groupArticlePostTime g).sorted.length := by
    by_contra hk
    rw [List.getElem?_eq_none (by omega)] at hm
    exact hm rfl
  rw [← hl, List.getElem?_append_left hk]

/-- Number 1 of `g` after one article, kept by a later registration. -/
theorem getMessageIDForNNTPID_registrations_later :
    let b : Article := ⟨"<b@x>", "g", "", "", "", "", 0, "", "", false, [], []⟩
    let a : Article := ⟨"<a@x>", "g", "", "", "", "", 0, "", "", false, [], []⟩
    let s := run id Index.empty [.registerArticle 5 b]
    (1 : Int) ≤ 1 ∧ ([((6 : Int), a)].map Prod.fst).Pairwise (· < ·) ∧
      (∀ r ∈ [((6 : Int), a)], (s.groupArticlePostTime "g").Below r.1) ∧
      getMessageIDForNNTPID s "g" 1 ≠ "" ∧
      getMessageIDForNNTPID (run id s (registrations [(6, a)])) "g" 1 =
        getMessageIDForNNTPID s "g" 1 := by
  intro b a s
  have h1 : (1 : Int) ≤ 1 := le_rfl
  have h2 : ([((6 : Int), a)].map Prod.fst).Pairwise (· < ·) := by simp
  have h3 : ∀ r ∈ [((6 : Int), a)], (s.groupArticlePostTime "g").Below r.1 := by decide
  have h4 : getMessageIDForNNTPID s "g" 1 ≠ "" := by decide
  exact ⟨h1, h2, h3, h4, getMessageIDForNNTPID_registrations s "g" 1 h1 [(6, a)] h2 h3 h4⟩

/-- Two articles obtained in the same second: the second sorts first by its
message-id and takes number 1 from the first. -/
theorem getMessageIDForNNTPID_renumbered :
    let b : Article := ⟨"<b@x>", "g", "", "", "", "", 0, "", "", false, [], []⟩
    let a : Article := ⟨"<a@x>", "g", "", "", "", "", 0, "", "", false, [], []⟩
    let s := run id Index.empty [.registerArticle 5 b]
    getMessageIDForNNTPID s "g" 1 = "<b@x>" ∧
      getMessageIDForNNTPID (run id s (registrations [(5, a)])) "g" 1 = "<a@x>" := by
  decide

end Srnd.Redis
