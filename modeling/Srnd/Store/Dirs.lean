import Srnd.Redis.Delete
import Mathlib.Data.Finset.Image

/-!
# The article store's directories

`articleStore` keeps three directories: the article files, named by
message-id, the attachment files, named by the attachment's `Filepath()`,
and the thumbnails.  `Dirs` gives each directory a field that maps a file
name to the file's bytes.  `filepath.Join(dir, name)` is the name `name` in
the directory's map; names with separators or dot segments are not modelled.
A missing file is `none`, so `CheckFile` is `isSome` and `os.Remove` is an
update to `none`.

`ValidMessageID` is not in the sources and is a parameter.  `GetFilename` of
an invalid message-id is `""`, on which `os.Remove` removes nothing:
`getFilename` is `none` there.

The file part of `NukeNewsgroup` reads the index and removes, for every
article of the group's article list, its file and the thumbnail and file of
each of its attachments.  The removals commute, so each loop is written as
its total effect; `nukeNewsgroupFiles_articles`, `..._attachments` and
`..._thumbs` say which files are gone.
-/

namespace Srnd.Store

open Function Srnd.Redis

/-- The directories of the article store. -/
structure Dirs where
  articles : String → Option (List UInt8)
  attachments : String → Option (List UInt8)
  thumbs : String → Option (List UInt8)

variable (validMessageID : String → Bool)

/-- `GetFilename`: the article file of a valid message-id. -/
def getFilename (messageID : String) : Option String :=
  if validMessageID messageID then some messageID else none

/-- `ThumbnailFilepath`, as a name in the thumbnail directory: a `.gif` keeps
its name, everything else gets `.jpg` appended. -/
def thumbnailFilepath (fname : String) : String :=
  if fname.endsWith ".gif" then fname else fname ++ ".jpg"

/-- `GetPostAttachments`: the `filepath` of the record of every attachment
hash the article links, `""` where the record is missing. -/
def getPostAttachments (s : Index) (messageID : String) : Finset String :=
  (s.articleAttachments messageID).image fun h =>
    ((s.attachment h).map AttachmentRecord.filepath).getD ""

/-- The removals for one article of the nuked group: `os.Remove` of its file,
then of the thumbnail and the file of each of its attachments. -/
def removeArticleFiles (s : Index) (d : Dirs) (msgid : String) : Dirs where
  articles := match getFilename validMessageID msgid with
    | some f => update d.articles f none
    | none => d.articles
  attachments n := if n ∈ getPostAttachments s msgid then none else d.attachments n
  thumbs n := if ∃ f ∈ getPostAttachments s msgid, thumbnailFilepath f = n then none
    else d.thumbs n

/-- The file part of `NukeNewsgroup`, over `GetAllArticlesInGroup`. -/
def nukeNewsgroupFiles (group : String) (s : Index) (d : Dirs) : Dirs :=
  (getAllArticlesInGroup s group).foldl (removeArticleFiles validMessageID s) d

section Files

variable {validMessageID} (group : String) (s : Index)

theorem removeArticleFiles_articles (d : Dirs) (x n : String) :
    (removeArticleFiles validMessageID s d x).articles n =
      if getFilename validMessageID x = some n then none else d.articles n := by
  unfold removeArticleFiles
  cases getFilename validMessageID x with
  | none => simp
  | some f => simp [update_apply, eq_comm]

theorem nukeNewsgroupFiles_articles (d : Dirs) (n : String) :
    (nukeNewsgroupFiles validMessageID group s d).articles n =
      if ∃ x ∈ getAllArticlesInGroup s group, getFilename validMessageID x = some n then none
      else d.articles n := by
  unfold nukeNewsgroupFiles
  induction getAllArticlesInGroup s group generalizing d with
  | nil => simp
  | cons x L ih =>
    rw [List.foldl_cons, ih, removeArticleFiles_articles]
    by_cases h : getFilename validMessageID x = some n <;> simp [h]

theorem nukeNewsgroupFiles_attachments (d : Dirs) (n : String) :
    (nukeNewsgroupFiles validMessageID group s d).attachments n =
      if ∃ x ∈ getAllArticlesInGroup s group, n ∈ getPostAttachments s x then none
      else d.attachments n := by
  unfold nukeNewsgroupFiles
  induction getAllArticlesInGroup s group generalizing d with
  | nil => simp
  | cons x L ih =>
    rw [List.foldl_cons, ih]
    by_cases h : n ∈ getPostAttachments s x <;> simp [removeArticleFiles, h]

theorem nukeNewsgroupFiles_thumbs (d : Dirs) (n : String) :
    (nukeNewsgroupFiles validMessageID group s d).thumbs n =
      if ∃ x ∈ getAllArticlesInGroup s group, ∃ f ∈ getPostAttachments s x,
        thumbnailFilepath f = n then none
      else d.thumbs n := by
  unfold nukeNewsgroupFiles
  induction getAllArticlesInGroup s group generalizing d with
  | nil => simp
  | cons x L ih =>
    rw [List.foldl_cons, ih]
    by_cases h : ∃ f ∈ getPostAttachments s x, thumbnailFilepath f = n <;>
      simp [removeArticleFiles, h]

end Files

end Srnd.Store
