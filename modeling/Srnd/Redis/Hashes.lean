import Srnd.Redis.Delete

/-!
# Hash replies and the NNTP logins

`redis.go` reads a whole Redis hash in two places, `GetPostModel` and
`CheckNNTPLogin`: it sends `HGETALL`, gets back a flat list
`field, value, field, value, ...`, and turns it into a Go map with
`processHashResult`.  The rest of the model keeps each hash family as a
record; this module checks that reading a record field is what the code
does with the reply.

* `Hash` is a Redis hash, with no field twice.  `HMSET` is `Hash.hmset`,
  and `hmset_pairs` says what it leaves: the old fields it does not name,
  then the pairs it writes.
* `processHashResult` is the loop of the source, which panics on a reply of
  odd length.  `processHashResult_hashReply` says that on the reply of a
  hash it does not panic, whatever the order of the pairs (Redis promises
  none), and that the map gives each field its value and `""` elsewhere.
* `postModelOfHashResult` is `GetPostModel` after its `HGETALL`.
  `getPostModel_of_hash` says that on the hash `RegisterArticle` writes it
  computes `getPostModel`, the record reading the rest of the model uses.
* The logins `NNTP::Login::<username>` are a key space of their own,
  written by `AddNNTPLogin` and `RemoveNNTPLogin`.  Their purpose is an
  account store, `Accounts`: the last password set for a user, until the
  user is removed.  `Holds` relates the two, every call keeps it
  (`Holds.apply`), and `nntpLogin_run` reads the answers of
  `CheckNNTPLogin` and `CheckNNTPUserExists` off the accounts after every
  run.

`nntpLoginCredHash` and `genLoginCredSalt` are not in the sources: the first
is a parameter, and the salt that the second returned is an argument of the
call.  Over the accounts, `CheckNNTPLogin` accepts exactly the password set
when the credential hash is never empty and tells passwords apart under one
salt, and the salts are not empty.
-/

namespace Srnd.Redis

open Function

/-- A Redis hash: its fields with their values, no field twice. -/
structure Hash where
  pairs : List (String × String)
  nodup : (pairs.map Prod.fst).Nodup

namespace Hash

/-- The hash of a key that does not exist. -/
def empty : Hash := ⟨[], List.nodup_nil⟩

/-- `HSET key field value`.  A field written again moves to the end; the
order is not one that `HGETALL` promises. -/
def hset (h : Hash) (field value : String) : Hash :=
  ⟨h.pairs.filter (·.1 ≠ field) ++ [(field, value)], by
    rw [List.map_append, List.nodup_append]
    refine ⟨(List.filter_sublist _).map _ |>.nodup h.nodup, List.nodup_singleton _, ?_⟩
    simp [List.disjoint_singleton]⟩

/-- `HMSET key field value ...`, the pairs written in order. -/
def hmset (h : Hash) (kvs : List (String × String)) : Hash :=
  kvs.foldl (fun h p => h.hset p.1 p.2) h

end Hash

/-- The reply of `HGETALL` on the pairs of a hash. -/
def hashReply : List (String × String) → List String
  | [] => []
  | (field, value) :: rest => field :: value :: hashReply rest

/-- `HGETALL key`, the pairs in the order they are stored. -/
def Hash.hgetall (h : Hash) : List String := hashReply h.pairs

/-- The loop of `processHashResult` from the map built so far.  A reply of
odd length makes it read `hash[i+1]` past the end, a panic: `none`. -/
def processHashResultFrom (mapRes : String → String) : List String → Option (String → String)
  | [] => some mapRes
  | [_] => none
  | k :: v :: rest => processHashResultFrom (update mapRes k v) rest

/-- `processHashResult(hash)`; a Go map reads `""` at a missing key. -/
def processHashResult (hash : List String) : Option (String → String) :=
  processHashResultFrom (fun _ => "") hash

/-! ## `HMSET` -/

theorem Hash.hmset_cons (h : Hash) (kv : String × String) (kvs : List (String × String)) :
    h.hmset (kv :: kvs) = (h.hset kv.1 kv.2).hmset kvs := rfl

/-- `HMSET` with no field twice leaves the old fields it does not write,
then its own pairs. -/
theorem Hash.hmset_pairs (kvs : List (String × String)) (hkvs : (kvs.map Prod.fst).Nodup)
    (h : Hash) : (h.hmset kvs).pairs = h.pairs.filter (·.1 ∉ kvs.map Prod.fst) ++ kvs := by
  induction kvs generalizing h with
  | nil => simp [hmset]
  | cons kv kvs ih =>
    rw [List.map_cons, List.nodup_cons] at hkvs
    rw [hmset_cons, ih hkvs.2, hset, List.filter_append, List.filter_filter,
      List.filter_singleton, decide_eq_true hkvs.1]
    simp only [List.map_cons, List.mem_cons, not_or, ne_eq, Bool.decide_and, Prod.mk.eta,
      Bool.and_comm, cond_true, List.singleton_append, List.append_assoc]

/-- `HMSET` over a hash whose fields it all writes leaves its own pairs. -/
theorem Hash.hmset_pairs_of_subset (kvs : List (String × String))
    (hkvs : (kvs.map Prod.fst).Nodup) (h : Hash)
    (hsub : ∀ p ∈ h.pairs, p.1 ∈ kvs.map Prod.fst) : (h.hmset kvs).pairs = kvs := by
  rw [hmset_pairs kvs hkvs, List.filter_eq_nil_iff.2 fun p hp => by simpa using hsub p hp,
    List.nil_append]

/-! ## `processHashResult` on a hash reply -/

/-- The map built from a reply: each pair written over the last. -/
theorem processHashResultFrom_hashReply (mapRes : String → String)
    (l : List (String × String)) :
    processHashResultFrom mapRes (hashReply l) =
      some (l.foldl (fun m p => update m p.1 p.2) mapRes) := by
  induction l generalizing mapRes with
  | nil => rfl
  | cons p l ih => exact ih _

theorem foldl_update_of_not_mem {k : String} :
    ∀ {l : List (String × String)} (m : String → String), k ∉ l.map Prod.fst →
      l.foldl (fun m p => update m p.1 p.2) m k = m k
  | [], _, _ => rfl
  | p :: l, m, hk => by
    rw [List.map_cons, List.mem_cons, not_or] at hk
    rw [List.foldl_cons, foldl_update_of_not_mem _ hk.2, update_noteq hk.1]

theorem foldl_update_of_mem {k v : String} :
    ∀ {l : List (String × String)} (m : String → String), (l.map Prod.fst).Nodup →
      (k, v) ∈ l → l.foldl (fun m p => update m p.1 p.2) m k = v
  | p :: l, m, hnd, hkv => by
    rw [List.map_cons, List.nodup_cons] at hnd
    rw [List.foldl_cons]
    rcases List.mem_cons.1 hkv with rfl | hkv
    · rw [foldl_update_of_not_mem _ hnd.1, update_same]
    · exact foldl_update_of_mem _ hnd.2 hkv

/-- On the reply of `HGETALL`, in any order of the pairs, `processHashResult`
does not panic, and its map gives each field of the hash its value and
`""` to every other key. -/
theorem processHashResult_hashReply (h : Hash) {l : List (String × String)}
    (hl : l.Perm h.pairs) :
    ∃ mapRes, processHashResult (hashReply l) = some mapRes ∧
      (∀ k v, (k, v) ∈ h.pairs → mapRes k = v) ∧
        ∀ k, k ∉ h.pairs.map Prod.fst → mapRes k = "" := by
  have hnd : (l.map Prod.fst).Nodup := (hl.map _).nodup_iff.2 h.nodup
  refine ⟨_, processHashResultFrom_hashReply _ l,
    fun k v hkv => foldl_update_of_mem _ hnd (hl.mem_iff.2 hkv), fun k hk => ?_⟩
  exact foldl_update_of_not_mem _ fun hk' => hk ((hl.map _).mem_iff.1 hk')

/-- A reply of odd length panics. -/
example : processHashResult ["newsgroup", "overchan.test", "ref_id"] = none := rfl

/-! ## `GetPostModel` on the post hash -/

/-- The pairs `RegisterArticle` writes to `NNTP::ArticlePost::<msgid>`, with
`strconv.Itoa` for the time. -/
def articlePostFields (r : ArticlePostRecord) : List (String × String) :=
  [("newsgroup", r.newsgroup), ("message_id", r.messageId), ("ref_id", r.refId),
    ("name", r.name), ("subject", r.subject), ("path", r.path),
    ("time_posted", toString r.timePosted), ("message", r.message), ("addr", r.addr)]

theorem articlePostFields_nodup (r : ArticlePostRecord) :
    ((articlePostFields r).map Prod.fst).Nodup := by
  simp only [articlePostFields, List.map_cons, List.map_nil]
  decide

/-- The post hash of a message-id that the record `r` stands for: the one
`HMSET` of `RegisterArticle` writes, with no field left from before, since
that `HMSET` writes every field the key ever has.  An absent record is a
deleted key. -/
def postHash : Option ArticlePostRecord → Hash
  | some r => Hash.empty.hmset (articlePostFields r)
  | none => Hash.empty

theorem postHash_pairs (r : ArticlePostRecord) :
    (postHash (some r)).pairs = articlePostFields r :=
  Hash.hmset_pairs_of_subset _ (articlePostFields_nodup r) _ nofun

/-- `GetPostModel` after its `HGETALL`, on the fields `DeleteArticle` reads. -/
def postModelOfHashResult (hashres : List String) : Option PostModel :=
  (processHashResult hashres).map fun mapRes =>
    let parent := mapRes "ref_id"
    ⟨mapRes "newsgroup", mapRes "message_id",
      if parent = "" then mapRes "message_id" else parent, decide (parent = "")⟩

/-- Reading the post record is what `GetPostModel` computes from the post
hash, in whatever order `HGETALL` returns its pairs. -/
theorem getPostModel_of_hash (s : Index) (msgid : String) {l : List (String × String)}
    (hl : l.Perm (postHash (s.articlePost msgid)).pairs) :
    postModelOfHashResult (hashReply l) = some (getPostModel s msgid) := by
  obtain ⟨mapRes, hres, hmem, habsent⟩ := processHashResult_hashReply _ hl
  rw [postModelOfHashResult, hres, Option.map_some', getPostModel]
  cases hr : s.articlePost msgid with
  | none =>
    have hk : ∀ k, mapRes k = "" := fun k => habsent k (by simp [hr, postHash, Hash.empty])
    simp [hk]
  | some r =>
    have hget := fun k v (hkv : (k, v) ∈ articlePostFields r) =>
      hmem k v (by rwa [hr, postHash_pairs])
    rw [hget _ _ (.head _), hget _ _ (.tail _ (.head _)), hget _ _ (.tail _ (.tail _ (.head _)))]

/-- A registered reply, its post hash read back in reverse order. -/
theorem getPostModel_of_hash_reversed :
    let s : Index := registerArticle id 0
      ⟨"<b@x>", "g", "<a@x>", "", "", "", 1, "", "", false, [], []⟩ Index.empty
    let l := (postHash (s.articlePost "<b@x>")).pairs.reverse
    l.Perm (postHash (s.articlePost "<b@x>")).pairs ∧
      postModelOfHashResult (hashReply l) = some (getPostModel s "<b@x>") :=
  ⟨List.reverse_perm _, getPostModel_of_hash _ _ (List.reverse_perm _)⟩

/-! ## The NNTP logins -/

section Logins

variable (nntpLoginCredHash : String → String → String)

/-- The pairs `AddNNTPLogin` writes to `NNTP::Login::<username>`. -/
def loginFields (username passwd loginSalt : String) : List (String × String) :=
  [("username", username), ("login_hash", nntpLoginCredHash passwd loginSalt),
    ("login_salt", loginSalt)]

/-- `AddNNTPLogin(username, passwd)`, where `genLoginCredSalt` returned
`loginSalt`. -/
def addNNTPLogin (username passwd loginSalt : String) (db : String → Hash) : String → Hash :=
  update db username ((db username).hmset (loginFields nntpLoginCredHash username passwd loginSalt))

/-- `RemoveNNTPLogin(username)`: `DEL`. -/
def removeNNTPLogin (username : String) (db : String → Hash) : String → Hash :=
  update db username Hash.empty

/-- `CheckNNTPUserExists(username)`: `EXISTS`, and Redis keeps no hash
without fields. -/
def checkNNTPUserExists (db : String → Hash) (username : String) : Bool :=
  !(db username).pairs.isEmpty

/-- `CheckNNTPLogin(username, passwd)`; `none` is a panic of
`processHashResult`. -/
def checkNNTPLogin (db : String → Hash) (username passwd : String) : Option Bool :=
  (processHashResult (db username).hgetall).map fun mapRes =>
    let loginHash := mapRes "login_hash"
    let loginSalt := mapRes "login_salt"
    if loginHash ≠ "" ∧ loginSalt ≠ "" then nntpLoginCredHash passwd loginSalt == loginHash
    else false

/-- The calls that write the logins. -/
inductive LoginOp
  /-- `AddNNTPLogin(username, passwd)`, with the salt `genLoginCredSalt`
  returned. -/
  | add (username passwd loginSalt : String)
  /-- `RemoveNNTPLogin(username)`. -/
  | remove (username : String)
  deriving DecidableEq, Repr

def LoginOp.apply : LoginOp → (String → Hash) → String → Hash
  | .add username passwd loginSalt => addNNTPLogin nntpLoginCredHash username passwd loginSalt
  | .remove username => removeNNTPLogin username

/-- The logins after a run of calls. -/
def runLogins (ops : List LoginOp) (db : String → Hash) : String → Hash :=
  ops.foldl (fun db op => op.apply nntpLoginCredHash db) db

/-- No `NNTP::Login::` key. -/
def noLogins : String → Hash := fun _ => Hash.empty

/-- A call whose salt is not empty. -/
def LoginOp.SaltOk : LoginOp → Prop
  | .add _ _ loginSalt => loginSalt ≠ ""
  | .remove _ => True

instance : DecidablePred LoginOp.SaltOk := fun op =>
  match op with
  | .add _ _ loginSalt => inferInstanceAs (Decidable (loginSalt ≠ ""))
  | .remove _ => inferInstanceAs (Decidable True)

/-! ### What the logins are for -/

/-- The accounts: the password last set for each user, until the user is
removed. -/
def LoginOp.spec : LoginOp → (String → Option String) → String → Option String
  | .add username passwd _, acc => update acc username (some passwd)
  | .remove username, acc => update acc username none

/-- The accounts after a run of calls from none. -/
def accounts (ops : List LoginOp) : String → Option String :=
  ops.foldl (fun acc op => op.spec acc) fun _ => none

/-- The logins `db` hold the accounts `acc`: no key for a user without an
account, and for one with password `p` the pairs `AddNNTPLogin` writes for
`p` under a salt that is not empty. -/
def Holds (db : String → Hash) (acc : String → Option String) : Prop :=
  ∀ u, match acc u with
    | none => (db u).pairs = []
    | some p => ∃ loginSalt, loginSalt ≠ "" ∧
        (db u).pairs = loginFields nntpLoginCredHash u p loginSalt

variable {nntpLoginCredHash} {db : String → Hash} {acc : String → Option String}

theorem loginFields_fst (username passwd loginSalt : String) :
    (loginFields nntpLoginCredHash username passwd loginSalt).map Prod.fst =
      ["username", "login_hash", "login_salt"] := rfl

theorem holds_noLogins : Holds nntpLoginCredHash noLogins fun _ => none := fun _ => rfl

/-- Under `Holds`, a login hash has no field but the three `AddNNTPLogin`
writes. -/
theorem Holds.fst_mem (h : Holds nntpLoginCredHash db acc) (u : String) :
    ∀ q ∈ (db u).pairs, q.1 ∈ ["username", "login_hash", "login_salt"] := by
  intro q hq
  have hu := h u
  split at hu
  · simp [hu] at hq
  · obtain ⟨loginSalt, -, hpairs⟩ := hu
    exact @loginFields_fst nntpLoginCredHash u _ loginSalt ▸
      List.mem_map_of_mem _ (hpairs ▸ hq)

/-- Every call keeps `Holds`: the logins follow the accounts. -/
theorem Holds.apply (h : Holds nntpLoginCredHash db acc) (op : LoginOp) (hop : op.SaltOk) :
    Holds nntpLoginCredHash (op.apply nntpLoginCredHash db) (op.spec acc) := by
  intro x
  cases op with
  | add u p loginSalt =>
    by_cases hx : x = u
    · subst hx
      simp only [LoginOp.apply, LoginOp.spec, addNNTPLogin, update_same]
      refine ⟨loginSalt, hop, Hash.hmset_pairs_of_subset _ ?_ _ fun q hq => ?_⟩ <;>
        rw [loginFields_fst]
      · decide
      · exact h.fst_mem x q hq
    · simpa only [LoginOp.apply, LoginOp.spec, addNNTPLogin, update_noteq hx] using h x
  | remove u =>
    by_cases hx : x = u
    · subst hx
      simp only [LoginOp.apply, LoginOp.spec, removeNNTPLogin, update_same]
      rfl
    · simpa only [LoginOp.apply, LoginOp.spec, removeNNTPLogin, update_noteq hx] using h x

theorem Holds.runLogins (h : Holds nntpLoginCredHash db acc) (ops : List LoginOp)
    (hops : ∀ op ∈ ops, op.SaltOk) :
    Holds nntpLoginCredHash (runLogins nntpLoginCredHash ops db)
      (ops.foldl (fun acc op => op.spec acc) acc) := by
  induction ops generalizing db acc with
  | nil => exact h
  | cons op ops ih =>
    exact ih (h.apply op (hops op (List.mem_cons_self _ _)))
      fun op' hop' => hops op' (List.mem_cons_of_mem _ hop')

theorem checkNNTPUserExists_of_holds (h : Holds nntpLoginCredHash db acc) (u : String) :
    checkNNTPUserExists db u = (acc u).isSome := by
  have hu := h u
  split at hu
  · simp [checkNNTPUserExists, hu, *]
  · obtain ⟨_, -, hpairs⟩ := hu
    simp [checkNNTPUserExists, hpairs, loginFields, *]

/-- Under `Holds`, with a credential hash that is never empty and tells
passwords apart under one salt, `CheckNNTPLogin` accepts exactly the
password of the account. -/
theorem checkNNTPLogin_of_holds (h : Holds nntpLoginCredHash db acc)
    (hH : ∀ passwd loginSalt, nntpLoginCredHash passwd loginSalt ≠ "")
    (hinj : ∀ loginSalt, Injective (nntpLoginCredHash · loginSalt)) (u q : String) :
    checkNNTPLogin nntpLoginCredHash db u q = some (decide (acc u = some q)) := by
  obtain ⟨mapRes, hres, hmem, habsent⟩ := processHashResult_hashReply (db u) (List.Perm.refl _)
  rw [checkNNTPLogin, Hash.hgetall, hres, Option.map_some']
  have hu := h u
  split at hu
  · have hk : ∀ k, mapRes k = "" := fun k => habsent k (by simp [hu])
    simp [hk, *]
  · obtain ⟨loginSalt, hs, hpairs⟩ := hu
    rw [hpairs] at hmem
    rw [hmem _ _ (.tail _ (.head _)), hmem _ _ (.tail _ (.tail _ (.head _))),
      if_pos ⟨hH _ _, hs⟩, ‹acc u = some _›, Option.some_inj, Bool.eq_iff_iff, beq_iff_eq,
      decide_eq_true_iff, Option.some_inj]
    exact (hinj loginSalt).eq_iff.trans eq_comm

/-- After every run of login calls from none, each with a salt that is not
empty, and for a credential hash that is never empty and tells passwords
apart under one salt: `CheckNNTPLogin(u, q)` returns whether `q` is the
password last set for `u` and not removed since, without a panic, and
`CheckNNTPUserExists(u)` whether `u` has such a password. -/
theorem nntpLogin_run (hH : ∀ passwd loginSalt, nntpLoginCredHash passwd loginSalt ≠ "")
    (hinj : ∀ loginSalt, Injective (nntpLoginCredHash · loginSalt)) (ops : List LoginOp)
    (hops : ∀ op ∈ ops, op.SaltOk) (username passwd : String) :
    let db : String → Hash := runLogins nntpLoginCredHash ops noLogins
    checkNNTPLogin nntpLoginCredHash db username passwd =
        some (decide (accounts ops username = some passwd)) ∧
      checkNNTPUserExists db username = (accounts ops username).isSome :=
  have h := holds_noLogins.runLogins ops hops
  ⟨checkNNTPLogin_of_holds h hH hinj username passwd, checkNNTPUserExists_of_holds h username⟩

/-- A password changed: the new one logs in. -/
theorem nntpLogin_run_password_change :
    let H : String → String → String := fun passwd loginSalt => "$" ++ loginSalt ++ passwd
    let ops := [LoginOp.add "alice" "old" "s1", .add "alice" "new" "s2"]
    (∀ passwd loginSalt, H passwd loginSalt ≠ "") ∧
      (∀ loginSalt, Injective (H · loginSalt)) ∧ (∀ op ∈ ops, op.SaltOk) ∧
      checkNNTPLogin H (runLogins H ops noLogins) "alice" "new" =
        some (decide (accounts ops "alice" = some "new")) := by
  intro H ops
  have hH : ∀ passwd loginSalt, H passwd loginSalt ≠ "" := fun passwd loginSalt =>
    append_ne_empty_left (append_ne_empty_left (by decide) loginSalt) passwd
  have hinj : ∀ loginSalt, Injective (H · loginSalt) := fun loginSalt =>
    append_left_injective ("$" ++ loginSalt)
  have hops : ∀ op ∈ ops, op.SaltOk := by decide
  exact ⟨hH, hinj, hops, (nntpLogin_run hH hinj ops hops "alice" "new").1⟩

/-- The old password no longer does. -/
example :
    let H : String → String → String := fun passwd loginSalt => "$" ++ loginSalt ++ passwd
    checkNNTPLogin H (runLogins H [.add "alice" "old" "s1", .add "alice" "new" "s2"] noLogins)
      "alice" "old" = some false := by
  decide

end Logins

end Srnd.Redis
