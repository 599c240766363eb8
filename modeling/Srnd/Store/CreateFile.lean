import Srnd.Store.Dirs

/-!
# Concurrent `CreateFile` calls

`CreateFile(m)` asks `CheckFile` whether the article file exists and returns
nil if it does; otherwise it calls `os.Create`, which creates the file or
truncates it, and returns the open file.  The check and the create are two
steps, and nothing orders the steps of concurrent calls.

`createFile` is one call run without interruption; a second uninterrupted
call for the same message-id gets nil (`createFile_createFile`).  For
concurrent calls, `CallPc` is where each call is, `Action.apply` runs the next
step of one call or a write through the writer a call returned, at that
writer's offset, and `runActions` runs an interleaving.

`createFile_race` is two calls whose checks both run before either create:
both get a writer, and the second create empties the file that the first
caller has already written to.
-/

namespace Srnd.Store

open Function

variable (validMessageID : String → Bool)

/-- `CheckFile` (not in the sources): the file exists. -/
def checkFile (dir : String → Option (List UInt8)) (f : String) : Bool := (dir f).isSome

/-- `CreateFile(messageID)` without interruption: a writer (`true`) and the
file created empty, or nil (`false`) for an invalid message-id or an
existing file. -/
def createFile (messageID : String) (d : Dirs) : Bool × Dirs :=
  match getFilename validMessageID messageID with
  | none => (false, d)
  | some f =>
    if checkFile d.articles f then (false, d)
    else (true, { d with articles := update d.articles f (some []) })

/-- Run one after the other, the second of two calls gets nil. -/
theorem createFile_createFile (messageID : String) (d : Dirs) :
    (createFile validMessageID messageID (createFile validMessageID messageID d).2).1 = false := by
  unfold createFile
  cases getFilename validMessageID messageID with
  | none => rfl
  | some f =>
    by_cases h : checkFile d.articles f
    · simp [h]
    · simp only [checkFile] at h ⊢
      simp [h]

/-- Where one `CreateFile` call is. -/
inductive CallPc where
  | start
  /-- `CheckFile` found no file; `os.Create` is next. -/
  | checked
  /-- Returned a writer at its current offset, or nil. -/
  | returned (writer : Option Nat)
  deriving DecidableEq, Repr

/-- The directories and the `CreateFile(messageID)` calls in flight. -/
structure Calls where
  dirs : Dirs
  pc : Nat → CallPc

/-- One step of an interleaving: the next step of call `i`, or a write through
the writer call `i` returned. -/
inductive Action where
  | step (i : Nat)
  | write (i : Nat) (bytes : List UInt8)
  deriving Repr

/-- A write of `bytes` at offset `off` of the contents `c`: it overwrites, and
first pads with zero bytes when `off` is past the end. -/
def writeAt (off : Nat) (bytes c : List UInt8) : List UInt8 :=
  c.take off ++ List.replicate (off - c.length) 0 ++ bytes ++ c.drop (off + bytes.length)

/-- Run one action of the interleaving of `CreateFile(messageID)` calls. -/
def Action.apply (messageID : String) (a : Action) (s : Calls) : Calls :=
  match a, getFilename validMessageID messageID with
  | .step i, none => { s with pc := update s.pc i (.returned none) }
  | .step i, some f =>
    match s.pc i with
    | .start =>
      let next := if checkFile s.dirs.articles f then CallPc.returned none else .checked
      { s with pc := update s.pc i next }
    | .checked =>
      { dirs := { s.dirs with articles := update s.dirs.articles f (some []) },
        pc := update s.pc i (.returned (some 0)) }
    | .returned _ => s
  | .write i bytes, some f =>
    match s.pc i, s.dirs.articles f with
    | .returned (some off), some c =>
      { dirs := { s.dirs with articles := update s.dirs.articles f (some (writeAt off bytes c)) },
        pc := update s.pc i (.returned (some (off + bytes.length))) }
    | _, _ => s
  | .write _ _, none => s

/-- Run an interleaving. -/
def runActions (messageID : String) (s : Calls) (actions : List Action) : Calls :=
  actions.foldl (fun s a => a.apply validMessageID messageID s) s

/-- Both calls check before either creates: both get a writer, and the
second `os.Create` truncates the file the first caller has written three
bytes to. -/
theorem createFile_race :
    let s : Calls := runActions (fun _ => true) "<a@x>"
      ⟨⟨fun _ => none, fun _ => none, fun _ => none⟩, fun _ => .start⟩
      [.step 0, .step 1, .step 0, .write 0 [1, 2, 3], .step 1]
    s.pc 0 = .returned (some 3) ∧ s.pc 1 = .returned (some 0) ∧
      s.dirs.articles "<a@x>" = some [] := by
  decide

end Srnd.Store
