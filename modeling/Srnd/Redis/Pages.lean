import Srnd.Redis.Nuke
import Srnd.Redis.Queries

/-!
# Board pages

A board lists its threads newest bump first, ten to a page.  Three functions
of `redis.go` compute with pages, over two orderings of the group:
`GetGroupPageCount` counts `GroupThreadPostTimeWKR::g`, while
`GetPageForRootMessage` and `GetGroupForPage` rank in
`GroupThreadBumpTimeWKR::g` with `ZREVRANK` and `ZREVRANGE`.

The three agree because the two orderings have the same members in every
index the calls reach: `ThreadOrderingsCover` holds after each of the four
calls, `NukeNewsgroup` included (`ThreadOrderingsCover.nukeNewsgroupIndex`),
so the two `ZCARD`s are equal.  A root of reverse rank `k` is then on page
`k / 10`, below the page count, and `ZREVRANGE` of that page lists it
(`getPageForRootMessage_on_page`).

`redis.go` divides with `math.Floor(float64(a) / float64(b))`.  For `b = 10`
and `0 ≤ a < 2 ^ 53 - 10` the rounded quotient has the floor of the exact one,
so the model divides in `Int`.
-/

namespace Srnd.Redis

open Function

/-- `GetPagesPerBoard(group)`: ten, whatever the group. -/
def getPagesPerBoard (_group : String) : Int := 10

/-- `GetThreadsPerPage(group)`: ten, whatever the group. -/
def getThreadsPerPage (_group : String) : Int := 10

/-- `GetPageForRootMessage(root_message_id)`: the group of the post record,
and the `ZREVRANK` of the root in that group's bump-time ordering divided by
`GetPagesPerBoard(group)`.  `none` is an error of `HGET` or of `ZREVRANK`. -/
def getPageForRootMessage (s : Index) (rootMessageID : String) : Option (String × Int) := do
  let group ← getGroupForMessage s rootMessageID
  let perpage := getPagesPerBoard group
  let index ← (s.groupThreadBumpTime group).revRank rootMessageID
  pure (group, (index : Int) / perpage)

/-- `GetGroupPageCount(newsgroup)`: the pages of `GroupThreadPostTimeWKR`,
one for an empty group. -/
def getGroupPageCount (s : Index) (newsgroup : String) : Int :=
  let count : Int := (s.groupThreadPostTime newsgroup).card
  if count > 0 then (count - 1) / getPagesPerBoard newsgroup + 1 else 1

/-- `BoardModel` as `GetGroupForPage` fills it: the group, the page, the page
count and the root post of each thread.  The prefix, the frontend and the
thread links are text that nothing here reads. -/
structure BoardModel where
  board : String
  page : Int
  pages : Int
  threads : List PostModel
  deriving DecidableEq, Repr

/-- `GetGroupForPage(prefix, frontend, newsgroup, pageno, perpage)`: the roots
of reverse rank `pageno * perpage` to `pageno * perpage + perpage - 1` in
`GroupThreadBumpTimeWKR::newsgroup`, each as its post model. -/
def getGroupForPage (s : Index) (newsgroup : String) (pageno perpage : Int) : BoardModel :=
  let pages := getGroupPageCount s newsgroup
  let threadids := (s.groupThreadBumpTime newsgroup).revRange (pageno * perpage)
    (pageno * perpage + perpage - 1)
  ⟨newsgroup, pageno, pages, threadids.map (getPostModel s)⟩

/-! ## The two thread orderings of a group over whole runs -/

section Cover

variable {s : Index}

/-- A live OP after the nuke of `g` was a live OP before it, and not
`NukedBy g`. -/
theorem liveOP_nukeNewsgroupIndex {g g' m : String} (h : (nukeNewsgroupIndex g s).LiveOP g' m) :
    ¬ s.NukedBy g m ∧ s.LiveOP g' m := by
  unfold Index.LiveOP at h ⊢
  rw [nukeNewsgroupIndex_article] at h
  split_ifs at h with hm
  · simp at h
  · exact ⟨hm, h⟩

/-- `NukeNewsgroup` keeps the cover: it empties both thread orderings of its
group, and a live OP of the group was in them, so it is nuked. -/
theorem ThreadOrderingsCover.nukeNewsgroupIndex (hs : ThreadOrderingsCover s) (g : String) :
    ThreadOrderingsCover (nukeNewsgroupIndex g s) := by
  have hf : ThreadOrderingsCover (((s.groupThreadBumpTime g).range 0 (-1)).foldl
      (fun s t => Srnd.Redis.deleteThread t s) s) :=
    foldl_induction _ hs fun _ t _ h => h.deleteThread t
  refine ⟨fun g' m => ?_, fun g' m h => ?_, fun g' m hg h => hf.global g' m hg h⟩
  · simp only [Srnd.Redis.nukeNewsgroupIndex, update_apply]
    split_ifs
    · rfl
    · exact hf.same g' m
  · obtain ⟨hn, hl⟩ := liveOP_nukeNewsgroupIndex h
    simp only [Srnd.Redis.nukeNewsgroupIndex, update_apply]
    split_ifs with hg
    · subst hg
      exact absurd (.inl ((hs.same g' m).1 (hs.group g' m hl))) hn
    · exact hf.group g' m h

variable {hashMessageID : String → String}

/-- Over every run of the four calls from the empty index, the two thread
orderings of each group have the same members. -/
theorem threadOrderingsCover_run (ops : List Op) :
    ThreadOrderingsCover (run hashMessageID Index.empty ops) :=
  run_induction threadOrderingsCover_empty fun op _ s h => by
    cases op with
    | registerArticle now msg => exact h.registerArticle now msg
    | deleteArticle m => exact h.deleteArticle m
    | deleteThread m => exact h.deleteThread m
    | nukeNewsgroup g => exact h.nukeNewsgroupIndex g

end Cover

/-! ## Pages -/

variable {hashMessageID : String → String}

/-- In every index the four calls reach, a root of
`GroupThreadBumpTimeWKR::g` whose post record names `g` is on a page that
`GetPageForRootMessage` returns, below `GetGroupPageCount(g)`, and
`GetGroupForPage` with ten threads a page lists it there. -/
theorem getPageForRootMessage_on_page (ops : List Op) (g r : String) :
    let s : Index := run hashMessageID Index.empty ops
    r ∈ s.groupThreadBumpTime g → getGroupForMessage s r = some g →
      ∃ p, getPageForRootMessage s r = some (g, p) ∧ 0 ≤ p ∧ p < getGroupPageCount s g ∧
        getPostModel s r ∈ (getGroupForPage s g p 10).threads := by
  intro s hr hg
  have hcard : (s.groupThreadPostTime g).card = (s.groupThreadBumpTime g).card :=
    ZSet.card_eq_of_mem_iff ((@threadOrderingsCover_run hashMessageID ops).same g)
  obtain ⟨k, hk, hkm⟩ := ZSet.revRank_eq_some hr
  have hkn : k < (s.groupThreadBumpTime g).card :=
    (s.groupThreadBumpTime g).length_revSorted ▸ (List.getElem?_eq_some_iff.1 hkm).1
  refine ⟨(k : Int) / 10, by simp [getPageForRootMessage, hg, hk, getPagesPerBoard], by omega,
    ?_, List.mem_map_of_mem _ (ZSet.mem_revRange hkm (by omega) (by omega) (by omega))⟩
  simp only [getGroupPageCount, getPagesPerBoard]
  rw [if_pos (by omega)]
  omega

/-- The root of a board with one thread is on page 0. -/
theorem getPageForRootMessage_on_page_one_thread :
    let s : Index := run id Index.empty
      [.registerArticle 0 ⟨"<a@x>", "g", "", "", "", "", 0, "", "", false, [], []⟩]
    "<a@x>" ∈ s.groupThreadBumpTime "g" ∧ getGroupForMessage s "<a@x>" = some "g" ∧
      ∃ p, getPageForRootMessage s "<a@x>" = some ("g", p) ∧ 0 ≤ p ∧
        p < getGroupPageCount s "g" ∧ getPostModel s "<a@x>" ∈ (getGroupForPage s "g" p 10).threads :=
  have hr : "<a@x>" ∈ (run id Index.empty
      [.registerArticle 0 ⟨"<a@x>", "g", "", "", "", "", 0, "", "", false, [], []⟩]).groupThreadBumpTime
        "g" := by decide
  have hg : getGroupForMessage (run id Index.empty
      [.registerArticle 0 ⟨"<a@x>", "g", "", "", "", "", 0, "", "", false, [], []⟩]) "<a@x>" =
        some "g" := by decide
  ⟨hr, hg, getPageForRootMessage_on_page _ "g" "<a@x>" hr hg⟩

end Srnd.Redis
