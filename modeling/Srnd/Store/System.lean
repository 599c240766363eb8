import Srnd.Store.Dirs
import Srnd.Redis.Nuke
import Srnd.Redis.Links

/-!
# `NukeNewsgroup` on the index and the directories

`System` is one node: its index and its directories.  `NukeNewsgroup` first
walks the group's article list and removes files, then runs the index part.

`nukeNewsgroup_frame` says what a nuke keeps of a reachable index: every
article that is not `NukedBy g` keeps its facts and its `HashMessageID::`
entry; the ones that are include the replies of other groups to threads of
`g`.  The file part (`nukeNewsgroupFiles`) removes the attachment files and
thumbnails of every article of the group's list with no look at the other
articles that link the same blob, unlike `DeleteArticle`, which keeps the
record while `AttachmentArticlesKR::` has members.
`nukeNewsgroup_removes_outside` shows both on articles outside `g`: a reply
of another group is deleted with its thread, and a live article of another
group loses its attachment file.
-/

namespace Srnd.Store

open Function Srnd.Redis

/-- The index and the directories of one node. -/
structure System where
  index : Index
  dirs : Dirs

variable (validMessageID : String → Bool)

/-- `NukeNewsgroup`: the file part, which reads the index, then the index
part. -/
def nukeNewsgroup (group : String) (sys : System) : System :=
  ⟨nukeNewsgroupIndex group sys.index,
    nukeNewsgroupFiles validMessageID group sys.index sys.dirs⟩

variable {hashMessageID : String → String} {validMessageID}

/-- What `NukeNewsgroup g` keeps of any reachable index, with any
directories, when `HashMessageID` is injective and never empty. -/
theorem nukeNewsgroup_frame (hinj : Injective hashMessageID) (hne : ∀ m, hashMessageID m ≠ "")
    (ops : List Op) (d : Dirs) (g : String) :
    let s := run hashMessageID Index.empty ops
    let sys := nukeNewsgroup validMessageID g ⟨s, d⟩
    ∀ m, ¬ s.NukedBy g m → sys.index.factsOf g m = s.factsOf g m ∧
      ∀ h, sys.index.hashMessageID h = some m ↔ s.hashMessageID h = some m := by
  intro s sys m hm
  have hs := (links_run hinj hne ops (links_empty hashMessageID) indexes_empty).1
  have hs' : Links hashMessageID sys.index := by
    have := (links_run hinj hne (ops ++ [.nukeNewsgroup g]) (links_empty hashMessageID)
      indexes_empty).1
    rwa [run_append, run_cons, run_nil] at this
  refine ⟨factsOf_nukeNewsgroupIndex s g m hm, fun h => ?_⟩
  have ha : sys.index.article m = s.article m :=
    congrArg ArticleFacts.article (factsOf_nukeNewsgroupIndex s g m hm)
  rw [hs'.hash, hs.hash, ha]

/-- The frame at a nuke of a group with one article. -/
theorem nukeNewsgroup_frame_one_article :
    let ops := [Op.registerArticle 0 ⟨"<x@g>", "g", "", "", "", "", 0, "", "", false, [], []⟩]
    Injective ("#" ++ ·) ∧ (∀ m, "#" ++ m ≠ "") ∧
      ¬ (run ("#" ++ ·) Index.empty ops).NukedBy "g" "<y@h>" ∧
      (nukeNewsgroup (fun _ => true) "g" ⟨run ("#" ++ ·) Index.empty ops,
        ⟨fun _ => none, fun _ => none, fun _ => none⟩⟩).index.factsOf "g" "<y@h>" =
        (run ("#" ++ ·) Index.empty ops).factsOf "g" "<y@h>" := by
  intro ops
  have hinj := append_left_injective "#"
  have hne := append_ne_empty_left (p := "#") (by decide)
  have hn : ¬ (run ("#" ++ ·) Index.empty ops).NukedBy "g" "<y@h>" := by decide
  exact ⟨hinj, hne, hn, (nukeNewsgroup_frame hinj hne ops ⟨fun _ => none, fun _ => none,
    fun _ => none⟩ "g" "<y@h>" hn).1⟩

/-- Nuking `g` deletes the reply `<y@h>` of group `h` to the thread `<x@g>`,
and the attachment file that `<x@g>` shares with `<z@h>`, which stays live
and still links it. -/
theorem nukeNewsgroup_removes_outside :
    let blob : Attachment := ⟨"a", "a.png", "a.png"⟩
    let x : Article := ⟨"<x@g>", "g", "", "", "", "", 0, "", "", false, [], [blob]⟩
    let y : Article := ⟨"<y@h>", "h", "<x@g>", "", "", "", 1, "", "", false, [], []⟩
    let z : Article := ⟨"<z@h>", "h", "", "", "", "", 2, "", "", false, [], [blob]⟩
    let s := run id Index.empty [.registerArticle 0 x, .registerArticle 1 y, .registerArticle 2 z]
    let d : Dirs :=
      ⟨fun _ => none, fun n => if n = "a.png" then some [1] else none, fun _ => none⟩
    let sys := nukeNewsgroup (fun _ => true) "g" ⟨s, d⟩
    s.LiveIn "h" "<y@h>" ∧ ¬ sys.index.Live "<y@h>" ∧
      sys.index.LiveIn "h" "<z@h>" ∧ "a" ∈ sys.index.articleAttachments "<z@h>" ∧
      d.attachments "a.png" ≠ none ∧ sys.dirs.attachments "a.png" = none := by
  decide

/-- Nuking `g` after a reply of `g` was registered before its OP leaves the
reply live in `g`, in `ArticleWKR` and in `ThreadPostsWKR::<a@x>`, with no
article file: the drain only reaches the roots of `GroupThreadBumpTimeWKR::g`
and their replies. -/
theorem nukeNewsgroup_keeps_orphan_reply :
    let reply : Article := ⟨"<b@x>", "g", "<a@x>", "", "", "", 0, "", "", false, [], []⟩
    let s := run id Index.empty [.registerArticle 0 reply]
    let d : Dirs := ⟨fun n => if n = "<b@x>" then some [1] else none, fun _ => none, fun _ => none⟩
    let sys := nukeNewsgroup (fun _ => true) "g" ⟨s, d⟩
    sys.index.LiveIn "g" "<b@x>" ∧ (sys.index.articlePost "<b@x>").isSome ∧
      "<b@x>" ∈ sys.index.articleWKR ∧ "<b@x>" ∈ sys.index.threadPosts "<a@x>" ∧
      sys.dirs.articles "<b@x>" = none := by
  decide

end Srnd.Store
