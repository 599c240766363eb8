import Mathlib.Logic.Function.Basic

/-!
# Encrypted addresses

`GetEncAddress(addr)` gives each poster address an encrypted address, kept in
two key families: `AddrsEncryptedAddrs::<addr>` holds the encrypted address,
and the hash `EncryptedAddrs::<encaddr>` holds the key, the encrypted address
and the address, which `GetIPAddress(encaddr)` and `GetEncKey(encaddr)` read
back.  The call asks
`EXISTS` for the first key and then either reads it with `GET`, or draws a
fresh pair from `newAddrEnc` (not in the sources) and writes the hash with
`HMSET` and the key with `SET`.

`getEncAddress` is one call run without interruption.  For concurrent calls
for one address, `EncPc` is where each call is, `encStep` runs the next Redis
command of one call, and `runEnc` runs an interleaving; call `i` draws the
pair `gen i`.

* `runEnc_uninterrupted`: a call whose three steps run in a row computes
  `getEncAddress`, and a second call then returns what the first returned
  (`getEncAddress_getEncAddress`).
* `EncInv` is what holds along every interleaving from the empty database:
  every encrypted address stored or returned has its hash, naming `addr`.
  `getEncAddress_interleaved` reads from it that `GetIPAddress` maps every
  returned encrypted address, and the one a later call returns, back to
  `addr`.
* `getEncAddress_race`: two calls whose `EXISTS` both run before either
  `SET` each insert their own pair and return different encrypted
  addresses.
-/

namespace Srnd.Redis

open Function

/-- The hash `EncryptedAddrs::<encaddr>`. -/
structure EncAddrRecord where
  enckey : String
  encaddr : String
  addr : String
  deriving DecidableEq, Repr

/-- The two key families of encrypted addresses. -/
structure EncDB where
  /-- `EncryptedAddrs::<encaddr>`. -/
  encryptedAddrs : String → Option EncAddrRecord
  /-- `AddrsEncryptedAddrs::<addr>`. -/
  addrsEncryptedAddrs : String → Option String

/-- No key of either family. -/
def EncDB.empty : EncDB := ⟨fun _ => none, fun _ => none⟩

/-- `HMSET EncryptedAddrs::<encaddr> enckey key encaddr encaddr addr addr`;
every write of the key writes the three fields. -/
def EncDB.insertEnc (db : EncDB) (key encaddr addr : String) : EncDB :=
  { db with encryptedAddrs := update db.encryptedAddrs encaddr (some ⟨key, encaddr, addr⟩) }

/-- `SET AddrsEncryptedAddrs::<addr> encaddr`. -/
def EncDB.setAddr (db : EncDB) (addr encaddr : String) : EncDB :=
  { db with addrsEncryptedAddrs := update db.addrsEncryptedAddrs addr (some encaddr) }

/-- `GetIPAddress(encaddr)`: `""` when the hash does not exist. -/
def getIPAddress (db : EncDB) (encaddr : String) : String :=
  ((db.encryptedAddrs encaddr).map (·.addr)).getD ""

/-- `GetEncKey(encAddr)`: `HGET` of the key; `none` is the error of a
missing hash. -/
def getEncKey (db : EncDB) (encAddr : String) : Option String :=
  (db.encryptedAddrs encAddr).map (·.enckey)

/-- The error of `GetEncAddress` when `newAddrEnc` gives no encrypted
address. -/
def encKeyError : String := "failed to generate new encryption key"

/-- The error `GET` returns on a missing key. -/
def redisNil : String := "redis: nil"

/-- Where one `GetEncAddress(addr)` call is. -/
inductive EncPc where
  | start
  /-- `EXISTS` found the key: `GET` is next. -/
  | found
  /-- `EXISTS` found no key and `newAddrEnc` gave a pair: `HMSET` is next. -/
  | generated
  /-- The hash is written: `SET` is next. -/
  | inserted
  /-- Returned this encrypted address with no error. -/
  | returned (encaddr : String)
  /-- Returned an error. -/
  | failed (msg : String)
  deriving DecidableEq, Repr

/-- `GetEncAddress(addr)` without interruption, where `newAddrEnc(addr)`
would return `gen`: what the call returns, and the database after it. -/
def getEncAddress (gen : String × String) (addr : String) (db : EncDB) : EncPc × EncDB :=
  match db.addrsEncryptedAddrs addr with
  | some encaddr => (.returned encaddr, db)
  | none =>
    if gen.2 = "" then (.failed encKeyError, db)
    else (.returned gen.2, (db.insertEnc gen.1 gen.2 addr).setAddr addr gen.2)

/-- The database and the `GetEncAddress(addr)` calls in flight. -/
structure EncCalls where
  db : EncDB
  pc : Nat → EncPc

section Calls

variable (gen : Nat → String × String) (addr : String)

/-- The next Redis command of call `i`. -/
def encStep (s : EncCalls) (i : Nat) : EncCalls :=
  match s.pc i with
  | .start =>
    let next :=
      if (s.db.addrsEncryptedAddrs addr).isSome then EncPc.found
      else if (gen i).2 = "" then .failed encKeyError
      else .generated
    { s with pc := update s.pc i next }
  | .found =>
    let next := match s.db.addrsEncryptedAddrs addr with
      | some encaddr => EncPc.returned encaddr
      | none => .failed redisNil
    { s with pc := update s.pc i next }
  | .generated => ⟨s.db.insertEnc (gen i).1 (gen i).2 addr, update s.pc i .inserted⟩
  | .inserted => ⟨s.db.setAddr addr (gen i).2, update s.pc i (.returned (gen i).2)⟩
  | .returned _ | .failed _ => s

/-- Run an interleaving: the calls whose next command runs, in order. -/
def runEnc (s : EncCalls) (sched : List Nat) : EncCalls := sched.foldl (encStep gen addr) s

/-- Three steps of one call in a row run it to its end. -/
theorem runEnc_uninterrupted (s : EncCalls) (i : Nat) (h : s.pc i = .start) :
    (runEnc gen addr s [i, i, i]).pc i = (getEncAddress (gen i) addr s.db).1 ∧
      (runEnc gen addr s [i, i, i]).db = (getEncAddress (gen i) addr s.db).2 := by
  simp only [runEnc, List.foldl_cons, List.foldl_nil]
  unfold getEncAddress
  cases hs : s.db.addrsEncryptedAddrs addr with
  | some encaddr => simp [encStep, h, hs]
  | none =>
    by_cases hg : (gen i).2 = ""
    · simp [encStep, h, hs, hg]
    · simp [encStep, h, hs, hg, EncDB.insertEnc]

/-- The first call for an address on the empty database, run alone, returns
the encrypted address it drew. -/
theorem runEnc_uninterrupted_empty :
    (⟨EncDB.empty, fun _ => .start⟩ : EncCalls).pc 0 = .start ∧
      (runEnc (fun _ => ("k", "e")) "a" ⟨EncDB.empty, fun _ => .start⟩ [0, 0, 0]).pc 0 =
        .returned "e" :=
  ⟨rfl, (runEnc_uninterrupted (fun _ => ("k", "e")) "a" _ 0 rfl).1.trans (by decide)⟩

end Calls

/-- Run one after the other, a second call returns what the first returned. -/
theorem getEncAddress_getEncAddress (g₁ g₂ : String × String) (addr : String) (db : EncDB)
    (encaddr : String) (h : (getEncAddress g₁ addr db).1 = .returned encaddr) :
    (getEncAddress g₂ addr (getEncAddress g₁ addr db).2).1 = .returned encaddr := by
  unfold getEncAddress at h ⊢
  cases hs : db.addrsEncryptedAddrs addr with
  | some e => simp_all
  | none =>
    by_cases hg : g₁.2 = ""
    · simp [hs, hg] at h
    · simp only [hs, hg, if_false, EncPc.returned.injEq] at h
      subst h
      simp [hs, hg, EncDB.setAddr]

/-- A second call with another pair returns the first call's address. -/
theorem getEncAddress_getEncAddress_empty :
    (getEncAddress ("k", "e") "a" EncDB.empty).1 = .returned "e" ∧
      (getEncAddress ("l", "f") "a" (getEncAddress ("k", "e") "a" EncDB.empty).2).1 =
        .returned "e" :=
  have h : (getEncAddress ("k", "e") "a" EncDB.empty).1 = .returned "e" := by decide
  ⟨h, getEncAddress_getEncAddress _ _ _ _ _ h⟩

/-- A call that draws a new pair stores its key: `GetEncKey` of the
encrypted address it returns is the key it drew. -/
theorem getEncKey_getEncAddress (g : String × String) (addr : String) (db : EncDB)
    (hnew : db.addrsEncryptedAddrs addr = none) (hg : g.2 ≠ "") :
    (getEncAddress g addr db).1 = .returned g.2 ∧
      getEncKey (getEncAddress g addr db).2 g.2 = some g.1 := by
  simp [getEncAddress, hnew, hg, getEncKey, EncDB.setAddr, EncDB.insertEnc]

theorem getEncKey_getEncAddress_empty :
    EncDB.empty.addrsEncryptedAddrs "a" = none ∧ ("k", "e").2 ≠ "" ∧
      getEncKey (getEncAddress ("k", "e") "a" EncDB.empty).2 "e" = some "k" :=
  ⟨rfl, by decide, (getEncKey_getEncAddress _ _ _ rfl (by decide)).2⟩

/-! ## Every interleaving -/

/-- `encaddr` has its hash, and the hash names `addr`. -/
def EncDB.MapsTo (db : EncDB) (encaddr addr : String) : Prop :=
  ∃ r, db.encryptedAddrs encaddr = some r ∧ r.addr = addr

variable {db : EncDB} {encaddr addr : String}

theorem EncDB.MapsTo.getIPAddress (h : db.MapsTo encaddr addr) :
    getIPAddress db encaddr = addr := by
  obtain ⟨r, hr, rfl⟩ := h
  simp [Srnd.Redis.getIPAddress, hr]

theorem EncDB.MapsTo.insertEnc (h : db.MapsTo encaddr addr) (key e : String) :
    (db.insertEnc key e addr).MapsTo encaddr addr := by
  by_cases he : encaddr = e
  · exact ⟨⟨key, e, addr⟩, by simp [EncDB.insertEnc, he], rfl⟩
  · simpa only [EncDB.MapsTo, EncDB.insertEnc, update_noteq he] using h

theorem EncDB.mapsTo_insertEnc_self (key : String) :
    (db.insertEnc key encaddr addr).MapsTo encaddr addr :=
  ⟨⟨key, encaddr, addr⟩, by simp [EncDB.insertEnc], rfl⟩

/-- A call that returns an encrypted address leaves its hash naming `addr`,
when the stored one has it. -/
theorem getEncAddress_mapsTo (g : String × String)
    (hs : ∀ e, db.addrsEncryptedAddrs addr = some e → db.MapsTo e addr)
    (h : (getEncAddress g addr db).1 = .returned encaddr) :
    (getEncAddress g addr db).2.MapsTo encaddr addr := by
  unfold getEncAddress at h ⊢
  cases hd : db.addrsEncryptedAddrs addr with
  | some e =>
    simp only [hd, EncPc.returned.injEq] at h ⊢
    exact h ▸ hs e hd
  | none =>
    by_cases hg : g.2 = ""
    · simp [hd, hg] at h
    · simp only [hd, hg, if_false, EncPc.returned.injEq] at h ⊢
      exact h ▸ EncDB.mapsTo_insertEnc_self _

section Calls

variable (gen : Nat → String × String) (addr : String)

/-- What holds along every interleaving of `GetEncAddress(addr)` calls: the
stored encrypted address, the one a call is about to store and every one a
call has returned have their hash, naming `addr`. -/
structure EncInv (s : EncCalls) : Prop where
  stored : ∀ e, s.db.addrsEncryptedAddrs addr = some e → s.db.MapsTo e addr
  inserted : ∀ i, s.pc i = .inserted → s.db.MapsTo (gen i).2 addr
  returned : ∀ i e, s.pc i = .returned e → s.db.MapsTo e addr

theorem encInv_empty : EncInv gen addr ⟨EncDB.empty, fun _ => .start⟩ :=
  ⟨fun _ h => (by cases h), fun _ h => (by cases h), fun _ _ h => (by cases h)⟩

variable {gen addr}

theorem update_pc_eq {pc : Nat → EncPc} {i j : Nat} {next x : EncPc}
    (h : update pc i next j = x) : j = i ∧ next = x ∨ j ≠ i ∧ pc j = x := by
  by_cases hji : j = i
  · subst hji
    exact .inl ⟨rfl, by simpa using h⟩
  · exact .inr ⟨hji, by simpa [hji] using h⟩

/-- Every Redis command of every call keeps `EncInv`. -/
theorem EncInv.encStep {s : EncCalls} (h : EncInv gen addr s) (i : Nat) :
    EncInv gen addr (encStep gen addr s i) := by
  unfold Srnd.Redis.encStep
  split
  · -- `EXISTS`: the database is left as it is
    refine ⟨h.stored, fun j hj => ?_, fun j e hj => ?_⟩ <;>
      obtain ⟨rfl, hn⟩ | ⟨-, hj⟩ := update_pc_eq hj
    · split_ifs at hn
    · exact h.inserted j hj
    · split_ifs at hn
    · exact h.returned j e hj
  · -- `GET`: the call returns the stored address
    refine ⟨h.stored, fun j hj => ?_, fun j e hj => ?_⟩ <;>
      obtain ⟨rfl, hn⟩ | ⟨-, hj⟩ := update_pc_eq hj
    · split at hn <;> cases hn
    · exact h.inserted j hj
    · split at hn
      · cases hn
        exact h.stored _ ‹_›
      · cases hn
    · exact h.returned j e hj
  · -- `HMSET`: the hash of the drawn address
    refine ⟨fun e he => (h.stored e he).insertEnc _ _, fun j hj => ?_, fun j e hj => ?_⟩ <;>
      obtain ⟨rfl, hn⟩ | ⟨-, hj⟩ := update_pc_eq hj
    · exact EncDB.mapsTo_insertEnc_self _
    · exact (h.inserted j hj).insertEnc _ _
    · cases hn
    · exact (h.returned j e hj).insertEnc _ _
  · -- `SET`: the drawn address, whose hash is written
    have hi := h.inserted i ‹_›
    refine ⟨fun e he => ?_, fun j hj => ?_, fun j e hj => ?_⟩
    · simp only [EncDB.setAddr, update_same, Option.some.injEq] at he
      exact he ▸ hi
    all_goals obtain ⟨rfl, hn⟩ | ⟨-, hj⟩ := update_pc_eq hj
    · cases hn
    · exact h.inserted j hj
    · cases hn
      exact hi
    · exact h.returned j e hj
  all_goals exact h

theorem EncInv.runEnc {s : EncCalls} (h : EncInv gen addr s) (sched : List Nat) :
    EncInv gen addr (runEnc gen addr s sched) := by
  induction sched generalizing s with
  | nil => exact h
  | cons i sched ih => exact ih (h.encStep i)

end Calls

/-- Along every interleaving of `GetEncAddress(addr)` calls from the empty
database, `GetIPAddress` maps every encrypted address a call has returned back
to `addr`, and so the one a later call returns. -/
theorem getEncAddress_interleaved (gen : Nat → String × String) (addr : String)
    (sched : List Nat) :
    let s : EncCalls := runEnc gen addr ⟨EncDB.empty, fun _ => .start⟩ sched
    (∀ i e, s.pc i = .returned e → getIPAddress s.db e = addr) ∧
      ∀ g e, (getEncAddress g addr s.db).1 = .returned e →
        getIPAddress (getEncAddress g addr s.db).2 e = addr :=
  have h := (encInv_empty gen addr).runEnc sched
  ⟨fun i e he => (h.returned i e he).getIPAddress,
    fun g _ he => (getEncAddress_mapsTo g h.stored he).getIPAddress⟩

/-- Two calls for one address whose `EXISTS` both run before either `SET`:
each inserts the pair it drew and returns its own encrypted address, and a
later call returns the second. -/
theorem getEncAddress_race :
    let s : EncCalls := runEnc (fun i => if i = 0 then ("k0", "e0") else ("k1", "e1"))
      "10.0.0.1" ⟨EncDB.empty, fun _ => .start⟩ [0, 1, 0, 1, 0, 1]
    s.pc 0 = .returned "e0" ∧ s.pc 1 = .returned "e1" ∧
      (getEncAddress ("k2", "e2") "10.0.0.1" s.db).1 = .returned "e1" ∧
      getIPAddress s.db "e0" = "10.0.0.1" := by
  decide

end Srnd.Redis
