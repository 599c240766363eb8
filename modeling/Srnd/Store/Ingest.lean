import Srnd.Store.CreateFile
import Srnd.Store.System
import Srnd.Redis.Links

/-!
# Attachment files across ingestion and deletion

An article is ingested by reading its body, which stores each attachment
with `saveAttachment`, and then registering it.  `saveAttachment` creates
the file `att.Filepath()` in the attachment directory unless `CheckFile`
finds one there, then makes the thumbnail unless one exists.  Only
`NukeNewsgroup` removes files.  `DeleteArticle` drops the record
`Attachment::a` when the last article linking `a` goes, and leaves the file
(the source has "TODO delete files from disk" there).

`SysOp` is one call on a node, `runSys` a sequence of them; the index part
of a run is `run` (`index_runSys`).  `Referenced s a` is the reading of "a
live article links `a`", which `referenced_iff` turns into a question about
`AttachmentArticlesKR::a`.  `deleteArticle_keeps_attachment_file` is one
article with one attachment, ingested and deleted: nothing references the
hash any more and its file is still on disk.

`att.WriteTo(f)` can fail after writing any prefix of the bytes; the error is
only logged.  `Faulty.saveAttachment` takes the number of bytes the write
puts on disk, and is `saveAttachment` when it writes them all.  Because
`CheckFile` skips every later save of a name, a file holds what the first
save of its name wrote (`attachments_runSaves`), and a truncated file is
never repaired (`saveAttachment_keeps_truncated_file`).
-/

namespace Srnd.Store

open Function Srnd.Redis

variable (convert : List UInt8 → Option (List UInt8))

/-- `thumbnailAttachment(fpath)`: unless the thumbnail exists,
`GenerateThumbnail` runs an external converter on the attachment file;
`convert` is what it writes, `none` when it fails. -/
def thumbnailAttachment (fpath : String) (d : Dirs) : Dirs :=
  let thumb := thumbnailFilepath fpath
  if checkFile d.thumbs thumb then d
  else match (d.attachments fpath).bind convert with
    | some bytes => { d with thumbs := update d.thumbs thumb (some bytes) }
    | none => d

/-- `saveAttachment(att)` for an attachment with the bytes `data`: create its
file unless `CheckFile` finds one, then its thumbnail. -/
def saveAttachment (att : Attachment) (data : List UInt8) (d : Dirs) : Dirs :=
  let d := if checkFile d.attachments att.filepath then d
    else { d with attachments := update d.attachments att.filepath (some data) }
  thumbnailAttachment convert att.filepath d

@[simp] theorem thumbnailAttachment_attachments (fpath : String) (d : Dirs) :
    (thumbnailAttachment convert fpath d).attachments = d.attachments := by
  unfold thumbnailAttachment
  dsimp only
  split_ifs
  · rfl
  · split <;> rfl

/-! ## Write failures -/

/-- The bytes a write of `data` leaves in the file: all of them, or the first
`k` when it fails after `k`. -/
def writtenBytes : Option Nat → List UInt8 → List UInt8
  | none, data => data
  | some k, data => data.take k

namespace Faulty

/-- `saveAttachment(att)` when `att.WriteTo(f)` stops after `written` bytes
(`none`: it does not fail).  The error is only logged and the file stays. -/
def saveAttachment (written : Option Nat) (att : Attachment) (data : List UInt8) (d : Dirs) :
    Dirs :=
  let d := if checkFile d.attachments att.filepath then d
    else { d with attachments := update d.attachments att.filepath (some (writtenBytes written data)) }
  thumbnailAttachment convert att.filepath d

/-- Without a failure it is `saveAttachment`. -/
theorem saveAttachment_none (att : Attachment) (data : List UInt8) (d : Dirs) :
    saveAttachment convert none att data d = Srnd.Store.saveAttachment convert att data d := rfl

/-- One `saveAttachment` call: the attachment, its bytes, and where its write
stops. -/
structure Save where
  att : Attachment
  data : List UInt8
  written : Option Nat

/-- A sequence of `saveAttachment` calls. -/
def runSaves (saves : List Save) (d : Dirs) : Dirs :=
  saves.foldl (fun d sv => saveAttachment convert sv.written sv.att sv.data d) d

/-- A save creates its file only where there is none. -/
theorem saveAttachment_attachments (written : Option Nat) (att : Attachment) (data : List UInt8)
    (d : Dirs) (f : String) :
    (saveAttachment convert written att data d).attachments f =
      (d.attachments f).or (if att.filepath = f then some (writtenBytes written data) else none) := by
  unfold saveAttachment checkFile
  dsimp only
  rw [thumbnailAttachment_attachments]
  by_cases hf : att.filepath = f
  · subst hf
    cases h : d.attachments att.filepath <;> simp [h]
  · split_ifs <;> simp [update_noteq (Ne.symm hf), hf]

/-- Under any pattern of write failures, an attachment file holds what was
there before, or else what the first save of its name wrote: `CheckFile`
skips every later save of that name. -/
theorem attachments_runSaves (saves : List Save) (d : Dirs) (f : String) :
    (runSaves convert saves d).attachments f = (d.attachments f).or
      ((saves.find? fun sv => sv.att.filepath = f).map fun sv => writtenBytes sv.written sv.data) := by
  induction saves generalizing d with
  | nil => simp [runSaves]
  | cons sv saves ih =>
    rw [runSaves, List.foldl_cons, ← runSaves, ih, saveAttachment_attachments, List.find?_cons]
    by_cases hf : sv.att.filepath = f <;> cases d.attachments f <;> simp [hf]

/-- A save whose write stops part-way leaves a truncated file, and a later
save of the same bytes that does not fail skips it, since `CheckFile` finds
the file. -/
theorem saveAttachment_keeps_truncated_file (att : Attachment) (data : List UInt8) (k : Nat)
    (hk : k < data.length) (d : Dirs) (hd : d.attachments att.filepath = none) :
    (runSaves convert [⟨att, data, some k⟩, ⟨att, data, none⟩] d).attachments att.filepath =
      some (data.take k) ∧ data.take k ≠ data := by
  refine ⟨?_, fun h => ?_⟩
  · simp [runSaves, saveAttachment_attachments, hd, writtenBytes]
  · have hlen := congrArg List.length h
    rw [List.length_take] at hlen
    omega

/-- Two bytes, the first write stopping after one. -/
theorem saveAttachment_keeps_truncated_file_two_bytes :
    1 < [1, 2].length ∧
      (runSaves (fun _ => none) [⟨⟨"h", "a.png", "h.png"⟩, [1, 2], some 1⟩,
          ⟨⟨"h", "a.png", "h.png"⟩, [1, 2], none⟩]
        ⟨fun _ => none, fun _ => none, fun _ => none⟩).attachments "h.png" = some [1] :=
  ⟨by decide, (saveAttachment_keeps_truncated_file (fun _ => none) ⟨"h", "a.png", "h.png"⟩ [1, 2] 1
    (by decide) ⟨fun _ => none, fun _ => none, fun _ => none⟩ rfl).1⟩

end Faulty

/-- A call on a node. -/
inductive SysOp where
  /-- Read an article whose attachments have the bytes `data` (by hash),
  which saves each attachment, then `RegisterArticle` at clock value `now`. -/
  | ingest (now : Int) (msg : Article) (data : String → List UInt8)
  | deleteArticle (msgid : String)
  | deleteThread (msgid : String)
  | nukeNewsgroup (group : String)

/-- The call on the index. -/
def SysOp.toOp : SysOp → Op
  | .ingest now msg _ => .registerArticle now msg
  | .deleteArticle m => .deleteArticle m
  | .deleteThread m => .deleteThread m
  | .nukeNewsgroup g => .nukeNewsgroup g

variable (hashMessageID : String → String) (validMessageID : String → Bool)

/-- Run one call on the node. -/
def SysOp.apply : SysOp → System → System
  | .ingest now msg data, sys =>
    ⟨registerArticle hashMessageID now msg sys.index,
      msg.attachments.foldl (fun d att => saveAttachment convert att (data att.hash) d) sys.dirs⟩
  | .deleteArticle m, sys => { sys with index := Srnd.Redis.deleteArticle m sys.index }
  | .deleteThread m, sys => { sys with index := Srnd.Redis.deleteThread m sys.index }
  | .nukeNewsgroup g, sys => Srnd.Store.nukeNewsgroup validMessageID g sys

/-- Run a sequence of calls on the node. -/
def runSys (sys : System) (ops : List SysOp) : System :=
  ops.foldl (fun sys op => op.apply convert hashMessageID validMessageID sys) sys

variable {convert hashMessageID validMessageID}

/-- The index of a node runs the index calls. -/
theorem index_runSys (sys : System) (ops : List SysOp) :
    (runSys convert hashMessageID validMessageID sys ops).index =
      run hashMessageID sys.index (ops.map SysOp.toOp) := by
  induction ops generalizing sys with
  | nil => rfl
  | cons op ops ih =>
    simp only [runSys, List.foldl_cons, List.map_cons, run_cons] at ih ⊢
    rw [ih]
    cases op <;> rfl

/-- Some live article links the attachment hash `a` in
`ArticleAttachmentsKR`. -/
def Referenced (s : Index) (a : String) : Prop :=
  ∃ m, s.Live m ∧ a ∈ s.articleAttachments m

theorem referenced_iff {s : Index} (h : Links hashMessageID s) (a : String) :
    Referenced s a ↔ s.attachmentArticles a ≠ ∅ := by
  constructor
  · rintro ⟨m, -, hm⟩ he
    simpa [he] using (h.attachments m a).2 hm
  · intro hne
    obtain ⟨m, hm⟩ := Finset.nonempty_iff_ne_empty.2 hne
    have ha := (h.attachments m a).1 hm
    exact ⟨m, h.attachments_live m a ha, ha⟩

/-- An article with one attachment, ingested and then deleted: no live
article references the hash, and the attachment file is still there. -/
theorem deleteArticle_keeps_attachment_file :
    let blob : Attachment := ⟨"a", "a.png", "a.png"⟩
    let x : Article := ⟨"<x@g>", "g", "", "", "", "", 0, "", "", false, [], [blob]⟩
    let sys : System := runSys (fun _ => none) ("#" ++ ·) (fun _ => true)
      ⟨Index.empty, ⟨fun _ => none, fun _ => none, fun _ => none⟩⟩
      [.ingest 0 x (fun _ => [1]), .deleteArticle "<x@g>"]
    sys.dirs.attachments "a.png" = some [1] ∧ ¬ Referenced sys.index "a" := by
  intro blob x sys
  have hl : Links ("#" ++ ·) sys.index := by
    rw [index_runSys]
    exact (links_run (append_left_injective "#") (append_ne_empty_left (by decide)) _
      (links_empty _) indexes_empty).1
  exact ⟨by decide, (referenced_iff hl "a").not.2 (not_not.2 (by decide))⟩

end Srnd.Store
