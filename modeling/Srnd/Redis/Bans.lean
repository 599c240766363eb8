import Mathlib.Logic.Function.Basic
import Mathlib.Data.List.Basic

/-!
# Bans of newsgroups, articles and encrypted addresses

Three families of hashes hold the bans that are not address ranges:
`BannedGroup::<group>`, `BannedArticle::<msgid>` and `EncIPBan::<encaddr>`.
`NewsgroupBanned`, `ArticleBanned` and `CheckEncIPBanned` ask whether the key
exists.  The three writers differ:

* `BanNewsgroup` overwrites the hash with the clock value of the call, and
  `UnbanNewsgroup` deletes it, so the last of the two calls on a group wins;
* `BanArticle` first asks `ArticleBanned` and writes nothing when the article
  is banned already, so the first call on an article wins and a later one
  never changes its time or its reason;
* `BanEncAddr` overwrites its hash like `BanNewsgroup`, and nothing deletes
  an article's or an address's ban.

`bans_run` states the three over every sequence of calls, against a
specification that reads the calls themselves: the first `BanArticle` of the
article, the last call on the group, the last `BanEncAddr` of the address.
The proof is one step lemma per key and an induction that adds one call at
the end.
-/

namespace Srnd.Redis

open Function

/-- The hash `BannedGroup::<group>`. -/
structure BannedGroupRecord where
  newsgroup : String
  timeBanned : Int
  deriving DecidableEq, Repr

/-- The hash `BannedArticle::<msgid>`. -/
structure BannedArticleRecord where
  messageId : String
  timeBanned : Int
  banReason : String
  deriving DecidableEq, Repr

/-- The hash `EncIPBan::<encaddr>`. -/
structure EncIPBanRecord where
  encaddr : String
  made : Int
  deriving DecidableEq, Repr

/-- The ban keys, each by what follows its prefix. -/
structure BanDB where
  bannedGroup : String → Option BannedGroupRecord
  bannedArticle : String → Option BannedArticleRecord
  encIPBan : String → Option EncIPBanRecord

/-- No bans. -/
def BanDB.empty : BanDB := ⟨fun _ => none, fun _ => none, fun _ => none⟩

/-- `BanNewsgroup(group)` at clock value `now`: `HMSET` of both fields. -/
def banNewsgroup (now : Int) (group : String) (db : BanDB) : BanDB :=
  { db with bannedGroup := update db.bannedGroup group (some ⟨group, now⟩) }

/-- `UnbanNewsgroup(group)`: `DEL` of the hash. -/
def unbanNewsgroup (group : String) (db : BanDB) : BanDB :=
  { db with bannedGroup := update db.bannedGroup group none }

/-- `NewsgroupBanned(group)`: `EXISTS`. -/
def newsgroupBanned (db : BanDB) (group : String) : Bool := (db.bannedGroup group).isSome

/-- `ArticleBanned(messageID)`: `EXISTS`. -/
def articleBanned (db : BanDB) (messageID : String) : Bool := (db.bannedArticle messageID).isSome

/-- `BanArticle(messageID, reason)` at clock value `now`: nothing when the
article is banned already, else `HMSET` of the three fields. -/
def banArticle (now : Int) (messageID reason : String) (db : BanDB) : BanDB :=
  if articleBanned db messageID then db
  else { db with
    bannedArticle := update db.bannedArticle messageID (some ⟨messageID, now, reason⟩) }

/-- `BanEncAddr(encaddr)` at clock value `now`: `HMSET` of both fields. -/
def banEncAddr (now : Int) (encaddr : String) (db : BanDB) : BanDB :=
  { db with encIPBan := update db.encIPBan encaddr (some ⟨encaddr, now⟩) }

/-- `CheckEncIPBanned(encaddr)`: `EXISTS`. -/
def checkEncIPBanned (db : BanDB) (encaddr : String) : Bool := (db.encIPBan encaddr).isSome

/-- A call that writes a ban key. -/
inductive BanCall where
  | banNewsgroup (now : Int) (group : String)
  | unbanNewsgroup (group : String)
  | banArticle (now : Int) (messageID reason : String)
  | banEncAddr (now : Int) (encaddr : String)
  deriving Repr

/-- Run one call. -/
def BanCall.apply : BanCall → BanDB → BanDB
  | .banNewsgroup now group => Srnd.Redis.banNewsgroup now group
  | .unbanNewsgroup group => Srnd.Redis.unbanNewsgroup group
  | .banArticle now messageID reason => Srnd.Redis.banArticle now messageID reason
  | .banEncAddr now encaddr => Srnd.Redis.banEncAddr now encaddr

/-- Run a sequence of calls. -/
def runBanCalls (db : BanDB) (calls : List BanCall) : BanDB :=
  calls.foldl (fun db c => c.apply db) db

/-! ## What each call asks of each key -/

/-- The ban a call would put on the article `m`. -/
def BanCall.articleBan (m : String) : BanCall → Option BannedArticleRecord
  | .banArticle now m' reason => if m' = m then some ⟨m, now, reason⟩ else none
  | _ => none

/-- What a call does to the key of the group `g`: `some (some r)` writes `r`,
`some none` deletes it, `none` leaves it. -/
def BanCall.groupBan (g : String) : BanCall → Option (Option BannedGroupRecord)
  | .banNewsgroup now g' => if g' = g then some (some ⟨g, now⟩) else none
  | .unbanNewsgroup g' => if g' = g then some none else none
  | _ => none

/-- The ban a call puts on the encrypted address `e`. -/
def BanCall.encBan (e : String) : BanCall → Option EncIPBanRecord
  | .banEncAddr now e' => if e' = e then some ⟨e, now⟩ else none
  | _ => none

/-! ## One call -/

section Step

variable (c : BanCall) (db : BanDB)

/-- An article keeps its ban; an article without one gets the call's. -/
theorem bannedArticle_apply (m : String) :
    (c.apply db).bannedArticle m = (db.bannedArticle m).or (c.articleBan m) := by
  cases c with
  | banArticle now m' reason =>
    simp only [BanCall.apply, banArticle, articleBanned, BanCall.articleBan]
    by_cases hm : m' = m
    · subst hm
      rw [if_pos rfl]
      split_ifs with hb
      · obtain ⟨r, hr⟩ := Option.isSome_iff_exists.1 hb
        simp [hr]
      · simp [Option.not_isSome_iff_eq_none.1 hb]
    · split_ifs <;> simp [update_apply, Ne.symm hm]
  | _ => simp [BanCall.apply, banNewsgroup, unbanNewsgroup, banEncAddr, BanCall.articleBan]

/-- A call on the group's key decides it; any other call leaves it. -/
theorem bannedGroup_apply (g : String) :
    (c.apply db).bannedGroup g = (c.groupBan g).getD (db.bannedGroup g) := by
  cases c with
  | banNewsgroup now g' =>
    by_cases hg : g' = g
    · subst hg; simp [BanCall.apply, banNewsgroup, BanCall.groupBan]
    · simp [BanCall.apply, banNewsgroup, BanCall.groupBan, update_apply, hg, Ne.symm hg]
  | unbanNewsgroup g' =>
    by_cases hg : g' = g
    · subst hg; simp [BanCall.apply, unbanNewsgroup, BanCall.groupBan]
    · simp [BanCall.apply, unbanNewsgroup, BanCall.groupBan, update_apply, hg, Ne.symm hg]
  | banArticle now m reason =>
    simp only [BanCall.apply, banArticle, BanCall.groupBan, Option.getD_none]
    split_ifs <;> rfl
  | banEncAddr now e => rfl

/-- A `BanEncAddr` of the address overwrites its ban; any other call leaves
it. -/
theorem encIPBan_apply (e : String) :
    (c.apply db).encIPBan e = (c.encBan e).or (db.encIPBan e) := by
  cases c with
  | banEncAddr now e' =>
    by_cases he : e' = e
    · subst he; simp [BanCall.apply, banEncAddr, BanCall.encBan]
    · simp [BanCall.apply, banEncAddr, BanCall.encBan, update_apply, he, Ne.symm he]
  | banArticle now m reason =>
    simp only [BanCall.apply, banArticle, BanCall.encBan, Option.none_or]
    split_ifs <;> rfl
  | _ => rfl

end Step

/-! ## Whole runs -/

section Runs

@[simp] theorem runBanCalls_append_singleton (db : BanDB) (calls : List BanCall) (c : BanCall) :
    runBanCalls db (calls ++ [c]) = c.apply (runBanCalls db calls) := by
  simp [runBanCalls]

/-- The calls ban the article exactly when one of them is a `BanArticle` of
it. -/
theorem isSome_findSome_articleBan (calls : List BanCall) (m : String) :
    (calls.findSome? (BanCall.articleBan m)).isSome ↔
      ∃ now reason, BanCall.banArticle now m reason ∈ calls := by
  induction calls with
  | nil => simp
  | cons c calls ih =>
    cases c with
    | banArticle now m' reason =>
      by_cases hm : m' = m
      · subst hm
        simpa [BanCall.articleBan] using ⟨now, reason, .inl ⟨rfl, rfl⟩⟩
      · simp [List.findSome?_cons, BanCall.articleBan, hm, Ne.symm hm, ih]
    | _ => simp [List.findSome?_cons, BanCall.articleBan, ih]

theorem isSome_findSome_encBan (calls : List BanCall) (e : String) :
    (calls.findSome? (BanCall.encBan e)).isSome ↔ ∃ now, BanCall.banEncAddr now e ∈ calls := by
  induction calls with
  | nil => simp
  | cons c calls ih =>
    cases c with
    | banEncAddr now e' =>
      by_cases he : e' = e
      · subst he; simp [BanCall.encBan]
      · simp [List.findSome?_cons, BanCall.encBan, he, Ne.symm he, ih]
    | _ => simp [List.findSome?_cons, BanCall.encBan, ih]

theorem bannedArticle_runBanCalls (calls : List BanCall) (m : String) :
    (runBanCalls BanDB.empty calls).bannedArticle m = calls.findSome? (BanCall.articleBan m) := by
  induction calls using List.reverseRecOn with
  | nil => rfl
  | append_singleton calls c ih =>
    rw [runBanCalls_append_singleton, bannedArticle_apply, ih, List.findSome?_append]
    cases h : c.articleBan m <;> simp [List.findSome?_cons, h]

theorem bannedGroup_runBanCalls (calls : List BanCall) (g : String) :
    (runBanCalls BanDB.empty calls).bannedGroup g =
      (calls.reverse.findSome? (BanCall.groupBan g)).join := by
  induction calls using List.reverseRecOn with
  | nil => rfl
  | append_singleton calls c ih =>
    rw [runBanCalls_append_singleton, bannedGroup_apply, ih, List.reverse_append,
      List.reverse_singleton, List.singleton_append, List.findSome?_cons]
    cases c.groupBan g <;> rfl

theorem encIPBan_runBanCalls (calls : List BanCall) (e : String) :
    (runBanCalls BanDB.empty calls).encIPBan e = calls.reverse.findSome? (BanCall.encBan e) := by
  induction calls using List.reverseRecOn with
  | nil => rfl
  | append_singleton calls c ih =>
    rw [runBanCalls_append_singleton, encIPBan_apply, ih, List.reverse_append,
      List.reverse_singleton, List.singleton_append, List.findSome?_cons]
    cases c.encBan e <;> rfl

/-- After any run of ban calls from no bans: the ban of an article is the one
its first `BanArticle` call made, so a later call changes neither its time
nor its reason, and `ArticleBanned` holds once some call banned it; the ban
of a newsgroup is what the last `BanNewsgroup` or `UnbanNewsgroup` call on it
left, with that call's clock value; the ban of an encrypted address is the
one its last `BanEncAddr` call wrote, and `CheckEncIPBanned` holds once some
call banned it.  No call lifts the ban of an article or an address. -/
theorem bans_run (calls : List BanCall) (g m e : String) :
    let db := runBanCalls BanDB.empty calls
    db.bannedArticle m = calls.findSome? (BanCall.articleBan m) ∧
      (articleBanned db m = true ↔ ∃ now reason, BanCall.banArticle now m reason ∈ calls) ∧
      db.bannedGroup g = (calls.reverse.findSome? (BanCall.groupBan g)).join ∧
      db.encIPBan e = calls.reverse.findSome? (BanCall.encBan e) ∧
      (checkEncIPBanned db e = true ↔ ∃ now, BanCall.banEncAddr now e ∈ calls) :=
  ⟨bannedArticle_runBanCalls calls m,
    by rw [articleBanned, bannedArticle_runBanCalls, isSome_findSome_articleBan],
    bannedGroup_runBanCalls calls g, encIPBan_runBanCalls calls e,
    by simp only [checkEncIPBanned, encIPBan_runBanCalls, isSome_findSome_encBan,
      List.mem_reverse]⟩

/-- A second `BanArticle` keeps the first one's time and reason. -/
example : (runBanCalls BanDB.empty
    [.banArticle 1 "<a@x>" "spam", .banArticle 2 "<a@x>" "other"]).bannedArticle "<a@x>" =
      some ⟨"<a@x>", 1, "spam"⟩ := by
  decide

end Runs

end Srnd.Redis
