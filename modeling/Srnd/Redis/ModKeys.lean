import Srnd.Redis.Run

/-!
# Moderator keys

`redis.go` keeps the permissions of a moderator key in one Redis set per key
and group, `ModKey::<pubkey>::Group::<group>::Permissions`.  Three members
are used, each in its own group:

* `login` in the group `ctl`: `AddModPubkey`, `CheckModPubkey`;
* `all` in the group `overchan`: `MarkModPubkeyGlobal`,
  `UnMarkModPubkeyGlobal`, `CheckModPubkeyGlobal`;
* `default` in the group moderated: `MarkModPubkeyCanModGroup`,
  `UnMarkModPubkeyCanModGroup`, `CheckModPubkeyCanModGroup`.

`GroupModKeysKR::<group>` is the reverse index of the last: the keys marked
for the group.  `NukeNewsgroup` reads it and deletes the permission set of
each key it lists for the nuked group, and then the index itself.

The key format names one pair of key and group only when the key has no `:`
(`modPermissionsKey_inj`); hex keys have none.  `ModKeysExact` says that the
reverse index lists exactly the keys that can moderate each group.  Every
call keeps it when the keys of the group calls have no `:`
(`ModKeysExact.apply`), so it holds after every run from the empty index
(`modKeysExact_runMods`), and then `NukeNewsgroup(g)` leaves no key able to
moderate `g` and the moderators of other groups as they were
(`nukeNewsgroup_revokes_moderators`).

The nuke deletes whole permission sets, so a key marked as a moderator of
`ctl` or `overchan` loses its `login` or `all` permission with it
(`nukeNewsgroup_drops_permission_sets`).
-/

namespace Srnd.Redis

open Function

/-! ## The calls -/

/-- `SISMEMBER ModKey::<pubkey>::Group::<group>::Permissions perm`, the test
of the three `CheckModPubkey` calls, each with its own group and member. -/
def hasPermission (s : Index) (pubkey group perm : String) : Bool :=
  decide (perm ∈ s.modPermissions (modPermissionsKey pubkey group))

/-- `CheckModPubkey(pubkey)`. -/
def checkModPubkey (s : Index) (pubkey : String) : Bool :=
  hasPermission s pubkey "ctl" "login"

/-- `CheckModPubkeyGlobal(pubkey)`. -/
def checkModPubkeyGlobal (s : Index) (pubkey : String) : Bool :=
  hasPermission s pubkey "overchan" "all"

/-- `CheckModPubkeyCanModGroup(pubkey, newsgroup)`. -/
def checkModPubkeyCanModGroup (s : Index) (pubkey newsgroup : String) : Bool :=
  hasPermission s pubkey newsgroup "default"

/-- `SADD ModKey::<pubkey>::Group::<group>::Permissions perm`. -/
def addPermission (pubkey group perm : String) (s : Index) : Index :=
  { s with
    modPermissions := update s.modPermissions (modPermissionsKey pubkey group)
      (insert perm (s.modPermissions (modPermissionsKey pubkey group))) }

/-- `SREM ModKey::<pubkey>::Group::<group>::Permissions perm`. -/
def remPermission (pubkey group perm : String) (s : Index) : Index :=
  { s with
    modPermissions := update s.modPermissions (modPermissionsKey pubkey group)
      ((s.modPermissions (modPermissionsKey pubkey group)).erase perm) }

/-- `AddModPubkey(pubkey)`. -/
def addModPubkey (pubkey : String) (s : Index) : Index :=
  if checkModPubkey s pubkey then s else addPermission pubkey "ctl" "login" s

/-- `MarkModPubkeyGlobal(pubkey)`.  Go's `len` counts bytes. -/
def markModPubkeyGlobal (pubkey : String) (s : Index) : Except String Index :=
  if pubkey.utf8ByteSize ≠ 64 then .error "invalid pubkey length"
  else if checkModPubkeyGlobal s pubkey then .ok s
  else .ok (addPermission pubkey "overchan" "all" s)

/-- `UnMarkModPubkeyGlobal(pubkey)`. -/
def unMarkModPubkeyGlobal (pubkey : String) (s : Index) : Except String Index :=
  if checkModPubkeyGlobal s pubkey then .ok (remPermission pubkey "overchan" "all" s)
  else .error "public key not marked as global"

/-- `MarkModPubkeyCanModGroup(pubkey, group)`. -/
def markModPubkeyCanModGroup (pubkey group : String) (s : Index) : Index :=
  let s := addPermission pubkey group "default" s
  { s with groupModKeys := update s.groupModKeys group (insert pubkey (s.groupModKeys group)) }

/-- `UnMarkModPubkeyCanModGroup(pubkey, group)`. -/
def unMarkModPubkeyCanModGroup (pubkey group : String) (s : Index) : Index :=
  let s := remPermission pubkey group "default" s
  { s with groupModKeys := update s.groupModKeys group ((s.groupModKeys group).erase pubkey) }

/-- A call on the index: a moderator-key call, or a call of `Op`. -/
inductive ModOp where
  | addModPubkey (pubkey : String)
  | markModPubkeyGlobal (pubkey : String)
  | unMarkModPubkeyGlobal (pubkey : String)
  | markModPubkeyCanModGroup (pubkey group : String)
  | unMarkModPubkeyCanModGroup (pubkey group : String)
  | index (op : Op)
  deriving Repr

variable (hashMessageID : String → String)

/-- Run one call.  A call that returns an error has written nothing. -/
def ModOp.apply : ModOp → Index → Index
  | .addModPubkey pubkey, s => Srnd.Redis.addModPubkey pubkey s
  | .markModPubkeyGlobal pubkey, s =>
    match Srnd.Redis.markModPubkeyGlobal pubkey s with
    | .ok s' => s'
    | .error _ => s
  | .unMarkModPubkeyGlobal pubkey, s =>
    match Srnd.Redis.unMarkModPubkeyGlobal pubkey s with
    | .ok s' => s'
    | .error _ => s
  | .markModPubkeyCanModGroup pubkey group, s =>
    Srnd.Redis.markModPubkeyCanModGroup pubkey group s
  | .unMarkModPubkeyCanModGroup pubkey group, s =>
    Srnd.Redis.unMarkModPubkeyCanModGroup pubkey group s
  | .index op, s => op.apply hashMessageID s

/-- Run a sequence of calls. -/
def runMods (s : Index) (ops : List ModOp) : Index :=
  ops.foldl (fun s op => op.apply hashMessageID s) s

/-- The group calls name a key without `:`. -/
def ModOp.KeysOk : ModOp → Prop
  | .markModPubkeyCanModGroup pubkey _ => ':' ∉ pubkey.toList
  | .unMarkModPubkeyCanModGroup pubkey _ => ':' ∉ pubkey.toList
  | _ => True

instance : (op : ModOp) → Decidable op.KeysOk
  | .markModPubkeyCanModGroup pubkey _ => inferInstanceAs (Decidable (':' ∉ pubkey.toList))
  | .unMarkModPubkeyCanModGroup pubkey _ => inferInstanceAs (Decidable (':' ∉ pubkey.toList))
  | .addModPubkey _ => isTrue trivial
  | .markModPubkeyGlobal _ => isTrue trivial
  | .unMarkModPubkeyGlobal _ => isTrue trivial
  | .index _ => isTrue trivial

variable {hashMessageID}

/-! ## One permission -/

section Permissions

variable {s : Index} {pubkey group perm pubkey' group' perm' : String}

theorem hasPermission_addPermission :
    hasPermission (addPermission pubkey group perm s) pubkey' group' perm' = true ↔
      (modPermissionsKey pubkey' group' = modPermissionsKey pubkey group ∧ perm' = perm) ∨
        hasPermission s pubkey' group' perm' = true := by
  by_cases hk : modPermissionsKey pubkey' group' = modPermissionsKey pubkey group <;>
    simp [hasPermission, addPermission, update_apply, hk]

theorem hasPermission_remPermission :
    hasPermission (remPermission pubkey group perm s) pubkey' group' perm' = true ↔
      ¬ (modPermissionsKey pubkey' group' = modPermissionsKey pubkey group ∧ perm' = perm) ∧
        hasPermission s pubkey' group' perm' = true := by
  by_cases hk : modPermissionsKey pubkey' group' = modPermissionsKey pubkey group <;>
    simp [hasPermission, remPermission, update_apply, hk, and_comm]

@[simp] theorem addPermission_groupModKeys :
    (addPermission pubkey group perm s).groupModKeys = s.groupModKeys := rfl

@[simp] theorem remPermission_groupModKeys :
    (remPermission pubkey group perm s).groupModKeys = s.groupModKeys := rfl

@[simp] theorem markModPubkeyCanModGroup_groupModKeys :
    (markModPubkeyCanModGroup pubkey group s).groupModKeys =
      update s.groupModKeys group (insert pubkey (s.groupModKeys group)) := rfl

@[simp] theorem unMarkModPubkeyCanModGroup_groupModKeys :
    (unMarkModPubkeyCanModGroup pubkey group s).groupModKeys =
      update s.groupModKeys group ((s.groupModKeys group).erase pubkey) := rfl

theorem checkModPubkeyCanModGroup_markModPubkeyCanModGroup :
    checkModPubkeyCanModGroup (markModPubkeyCanModGroup pubkey group s) pubkey' group' = true ↔
      modPermissionsKey pubkey' group' = modPermissionsKey pubkey group ∨
        checkModPubkeyCanModGroup s pubkey' group' = true := by
  by_cases hk : modPermissionsKey pubkey' group' = modPermissionsKey pubkey group <;>
    simp [checkModPubkeyCanModGroup, hasPermission, markModPubkeyCanModGroup, addPermission,
      update_apply, hk]

theorem checkModPubkeyCanModGroup_unMarkModPubkeyCanModGroup :
    checkModPubkeyCanModGroup (unMarkModPubkeyCanModGroup pubkey group s) pubkey' group' = true ↔
      modPermissionsKey pubkey' group' ≠ modPermissionsKey pubkey group ∧
        checkModPubkeyCanModGroup s pubkey' group' = true := by
  by_cases hk : modPermissionsKey pubkey' group' = modPermissionsKey pubkey group <;>
    simp [checkModPubkeyCanModGroup, hasPermission, unMarkModPubkeyCanModGroup, remPermission,
      update_apply, hk]

end Permissions

/-! ## The index calls -/

section Frame

variable {s : Index}

/-- The permission test reads only the permission sets. -/
theorem hasPermission_congr {s' : Index} (h : s'.modPermissions = s.modPermissions)
    (pubkey group perm : String) :
    hasPermission s' pubkey group perm = hasPermission s pubkey group perm := by
  simp only [hasPermission, h]

theorem deleteThread_groupModKeys (x : String) :
    (deleteThread x s).groupModKeys = s.groupModKeys :=
  foldl_induction (P := fun t => t.groupModKeys = s.groupModKeys) _ rfl fun _ _ _ h => h

theorem deleteThread_modPermissions (x : String) :
    (deleteThread x s).modPermissions = s.modPermissions :=
  foldl_induction (P := fun t => t.modPermissions = s.modPermissions) _ rfl fun _ _ _ h => h

theorem registerArticle_modKeys (now : Int) (msg : Article) :
    (registerArticle hashMessageID now msg s).groupModKeys = s.groupModKeys ∧
      (registerArticle hashMessageID now msg s).modPermissions = s.modPermissions := by
  rw [registerArticle_eq, ensureNewsgroup_eq]
  split
  · exact ⟨rfl, rfl⟩
  · rw [registerPipeline, updateThread_eq]
    split <;> exact ⟨rfl, rfl⟩

/-- The nuke's `DeleteThread` loop leaves the moderator keys alone. -/
theorem foldl_deleteThread_modKeys (L : List String) :
    (L.foldl (fun s t => deleteThread t s) s).groupModKeys = s.groupModKeys ∧
      (L.foldl (fun s t => deleteThread t s) s).modPermissions = s.modPermissions :=
  foldl_induction (P := fun t => t.groupModKeys = s.groupModKeys ∧
    t.modPermissions = s.modPermissions) _ ⟨rfl, rfl⟩ fun _ _ _ h =>
      ⟨(deleteThread_groupModKeys _).trans h.1, (deleteThread_modPermissions _).trans h.2⟩

theorem nukeNewsgroupIndex_groupModKeys (g : String) :
    (nukeNewsgroupIndex g s).groupModKeys = update s.groupModKeys g ∅ := by
  simp only [nukeNewsgroupIndex, (foldl_deleteThread_modKeys _).1]

/-- After `NukeNewsgroup(g)` a permission set is gone when it belongs to a
key the reverse index lists for `g`, and as before otherwise. -/
theorem hasPermission_nukeNewsgroupIndex (g pubkey group perm : String) :
    hasPermission (nukeNewsgroupIndex g s) pubkey group perm = true ↔
      (¬ ∃ m ∈ s.groupModKeys g, modPermissionsKey pubkey group = modPermissionsKey m g) ∧
        hasPermission s pubkey group perm = true := by
  obtain ⟨h1, h2⟩ :=
    foldl_deleteThread_modKeys (s := s) ((s.groupThreadBumpTime g).range 0 (-1))
  simp only [hasPermission, nukeNewsgroupIndex, h1, h2]
  split_ifs with h <;> simp [h]

end Frame

/-! ## The reverse index -/

/-- `GroupModKeysKR::<group>` lists exactly the keys without `:` that can
moderate the group, and no other key. -/
structure ModKeysExact (s : Index) : Prop where
  colonFree : ∀ g, ∀ pubkey ∈ s.groupModKeys g, ':' ∉ pubkey.toList
  cover : ∀ pubkey g, ':' ∉ pubkey.toList → checkModPubkeyCanModGroup s pubkey g = true →
    pubkey ∈ s.groupModKeys g
  sound : ∀ g, ∀ pubkey ∈ s.groupModKeys g, checkModPubkeyCanModGroup s pubkey g = true

namespace ModKeysExact

variable {s : Index}

theorem empty : ModKeysExact Index.empty :=
  ⟨fun _ _ h => absurd h (Finset.not_mem_empty _), fun _ _ _ h => by
    simp [checkModPubkeyCanModGroup, hasPermission, Index.empty] at h,
    fun _ _ h => absurd h (Finset.not_mem_empty _)⟩

theorem of_eq {s' : Index} (h : ModKeysExact s) (hg : s'.groupModKeys = s.groupModKeys)
    (hp : s'.modPermissions = s.modPermissions) : ModKeysExact s' := by
  have hc : ∀ pubkey g, checkModPubkeyCanModGroup s' pubkey g =
      checkModPubkeyCanModGroup s pubkey g := fun _ _ => hasPermission_congr hp _ _ _
  exact ⟨fun g => hg ▸ h.colonFree g, fun pubkey g hk => by rw [hc, hg]; exact h.cover _ _ hk,
    fun g pubkey hm => by rw [hc]; exact h.sound g pubkey (hg ▸ hm)⟩

/-- Adding a member other than `default` changes no moderation. -/
theorem addPermission (h : ModKeysExact s) {perm : String} (hp : perm ≠ "default")
    (pubkey group : String) : ModKeysExact (addPermission pubkey group perm s) := by
  have hc : ∀ pubkey' g, checkModPubkeyCanModGroup (Srnd.Redis.addPermission pubkey group perm s)
      pubkey' g = checkModPubkeyCanModGroup s pubkey' g := fun pubkey' g => by
    rw [Bool.eq_iff_iff, checkModPubkeyCanModGroup, checkModPubkeyCanModGroup,
      hasPermission_addPermission]
    exact or_iff_right fun h => hp h.2.symm
  exact ⟨h.colonFree, fun pubkey' g hk => by rw [hc]; exact h.cover _ _ hk,
    fun g pubkey' hm => by rw [hc]; exact h.sound g pubkey' hm⟩

/-- Removing a member other than `default` changes no moderation. -/
theorem remPermission (h : ModKeysExact s) {perm : String} (hp : perm ≠ "default")
    (pubkey group : String) : ModKeysExact (remPermission pubkey group perm s) := by
  have hc : ∀ pubkey' g, checkModPubkeyCanModGroup (Srnd.Redis.remPermission pubkey group perm s)
      pubkey' g = checkModPubkeyCanModGroup s pubkey' g := fun pubkey' g => by
    rw [Bool.eq_iff_iff, checkModPubkeyCanModGroup, checkModPubkeyCanModGroup,
      hasPermission_remPermission]
    exact and_iff_right fun h => hp h.2.symm
  exact ⟨h.colonFree, fun pubkey' g hk => by rw [hc]; exact h.cover _ _ hk,
    fun g pubkey' hm => by rw [hc]; exact h.sound g pubkey' hm⟩

theorem markModPubkeyCanModGroup (h : ModKeysExact s) {pubkey : String}
    (hk : ':' ∉ pubkey.toList) (group : String) :
    ModKeysExact (Srnd.Redis.markModPubkeyCanModGroup pubkey group s) := by
  refine ⟨fun g m hm => ?_, fun m g hm hc => ?_, fun g m hm => ?_⟩
  · rw [markModPubkeyCanModGroup_groupModKeys, update_apply] at hm
    split_ifs at hm
    · rcases Finset.mem_insert.1 hm with rfl | hm
      exacts [hk, h.colonFree _ m hm]
    · exact h.colonFree g m hm
  · rw [markModPubkeyCanModGroup_groupModKeys, update_apply]
    rcases checkModPubkeyCanModGroup_markModPubkeyCanModGroup.1 hc with he | hc
    · obtain ⟨rfl, rfl⟩ := modPermissionsKey_inj hm hk he
      simp
    · split_ifs with hg
      · exact Finset.mem_insert_of_mem (hg ▸ h.cover m g hm hc)
      · exact h.cover m g hm hc
  · rw [checkModPubkeyCanModGroup_markModPubkeyCanModGroup]
    rw [markModPubkeyCanModGroup_groupModKeys, update_apply] at hm
    split_ifs at hm with hg
    · subst hg
      rcases Finset.mem_insert.1 hm with rfl | hm
      exacts [.inl rfl, .inr (h.sound _ m hm)]
    · exact .inr (h.sound g m hm)

theorem unMarkModPubkeyCanModGroup (h : ModKeysExact s) {pubkey : String}
    (hk : ':' ∉ pubkey.toList) (group : String) :
    ModKeysExact (Srnd.Redis.unMarkModPubkeyCanModGroup pubkey group s) := by
  refine ⟨fun g m hm => ?_, fun m g hm hc => ?_, fun g m hm => ?_⟩
  · rw [unMarkModPubkeyCanModGroup_groupModKeys, update_apply] at hm
    split_ifs at hm
    exacts [h.colonFree _ m (Finset.mem_of_mem_erase hm), h.colonFree g m hm]
  · obtain ⟨hne, hc'⟩ := checkModPubkeyCanModGroup_unMarkModPubkeyCanModGroup.1 hc
    rw [unMarkModPubkeyCanModGroup_groupModKeys, update_apply]
    split_ifs with hg
    · subst hg
      exact Finset.mem_erase.2 ⟨fun he => hne (he ▸ rfl), h.cover m _ hm hc'⟩
    · exact h.cover m g hm hc'
  · rw [checkModPubkeyCanModGroup_unMarkModPubkeyCanModGroup]
    rw [unMarkModPubkeyCanModGroup_groupModKeys, update_apply] at hm
    split_ifs at hm with hg
    · subst hg
      obtain ⟨hne, hm⟩ := Finset.mem_erase.1 hm
      exact ⟨fun he => hne (modPermissionsKey_inj (h.colonFree _ m hm) hk he).1, h.sound _ m hm⟩
    · exact ⟨fun he => hg (modPermissionsKey_inj (h.colonFree g m hm) hk he).2, h.sound g m hm⟩

theorem nukeNewsgroupIndex (h : ModKeysExact s) (group : String) :
    ModKeysExact (Srnd.Redis.nukeNewsgroupIndex group s) := by
  have hc : ∀ m g,
      checkModPubkeyCanModGroup (Srnd.Redis.nukeNewsgroupIndex group s) m g = true ↔
      (¬ ∃ m' ∈ s.groupModKeys group, modPermissionsKey m g = modPermissionsKey m' group) ∧
        checkModPubkeyCanModGroup s m g = true := fun m g =>
    hasPermission_nukeNewsgroupIndex group m g "default"
  refine ⟨fun g m hm => ?_, fun m g hm hcm => ?_, fun g m hm => ?_⟩
  · rw [nukeNewsgroupIndex_groupModKeys, update_apply] at hm
    split_ifs at hm
    exacts [absurd hm (Finset.not_mem_empty _), h.colonFree g m hm]
  · obtain ⟨hne, hcm⟩ := (hc m g).1 hcm
    rw [nukeNewsgroupIndex_groupModKeys, update_apply]
    split_ifs with hg
    · exact absurd ⟨m, hg ▸ h.cover m g hm hcm, hg ▸ rfl⟩ hne
    · exact h.cover m g hm hcm
  · rw [nukeNewsgroupIndex_groupModKeys, update_apply] at hm
    split_ifs at hm with hg
    · exact absurd hm (Finset.not_mem_empty _)
    · refine (hc m g).2 ⟨fun ⟨m', hm', he⟩ => hg ?_, h.sound g m hm⟩
      exact (modPermissionsKey_inj (h.colonFree g m hm) (h.colonFree group m' hm') he).2

/-- One call keeps the reverse index exact. -/
theorem apply (h : ModKeysExact s) (op : ModOp) (hop : op.KeysOk) :
    ModKeysExact (op.apply hashMessageID s) := by
  cases op with
  | addModPubkey pubkey =>
    simp only [ModOp.apply, addModPubkey]
    split_ifs
    exacts [h, h.addPermission (by decide) _ _]
  | markModPubkeyGlobal pubkey =>
    simp only [ModOp.apply, markModPubkeyGlobal]
    split_ifs
    exacts [h, h, h.addPermission (by decide) _ _]
  | unMarkModPubkeyGlobal pubkey =>
    simp only [ModOp.apply, unMarkModPubkeyGlobal]
    split_ifs
    exacts [h.remPermission (by decide) _ _, h]
  | markModPubkeyCanModGroup pubkey group => exact h.markModPubkeyCanModGroup hop group
  | unMarkModPubkeyCanModGroup pubkey group => exact h.unMarkModPubkeyCanModGroup hop group
  | index op =>
    cases op with
    | registerArticle now msg =>
      exact h.of_eq (registerArticle_modKeys now msg).1 (registerArticle_modKeys now msg).2
    | deleteArticle x => exact h.of_eq rfl rfl
    | deleteThread x => exact h.of_eq (deleteThread_groupModKeys x) (deleteThread_modPermissions x)
    | nukeNewsgroup g => exact h.nukeNewsgroupIndex g

end ModKeysExact

/-- After any run whose group calls name keys without `:`, the reverse
index is exact. -/
theorem modKeysExact_runMods (ops : List ModOp) (hops : ∀ op ∈ ops, op.KeysOk) :
    ModKeysExact (runMods hashMessageID Index.empty ops) := by
  suffices ∀ s, ModKeysExact s → ModKeysExact (runMods hashMessageID s ops) from
    this _ ModKeysExact.empty
  induction ops with
  | nil => exact fun _ h => h
  | cons op ops ih =>
    exact fun s h => ih (fun op' h' => hops op' (List.mem_cons_of_mem _ h'))
      _ (h.apply op (hops op (List.mem_cons_self _ _)))

/-! ## `NukeNewsgroup` and the moderators -/

/-- After any run whose group calls name keys without `:`, `NukeNewsgroup(g)`
leaves no key without `:` able to moderate `g`, and every such key's
moderation of the other groups as it was. -/
theorem nukeNewsgroup_revokes_moderators (ops : List ModOp) (hops : ∀ op ∈ ops, op.KeysOk)
    (g : String) :
    let s := runMods hashMessageID Index.empty ops
    ∀ pubkey, ':' ∉ pubkey.toList →
      checkModPubkeyCanModGroup (nukeNewsgroupIndex g s) pubkey g = false ∧
      ∀ g', g' ≠ g → checkModPubkeyCanModGroup (nukeNewsgroupIndex g s) pubkey g' =
        checkModPubkeyCanModGroup s pubkey g' := by
  intro s pubkey hk
  have h := @modKeysExact_runMods hashMessageID ops hops
  refine ⟨Bool.eq_false_iff.2 fun hc => ?_, fun g' hg' => ?_⟩
  · obtain ⟨hne, hc⟩ := (hasPermission_nukeNewsgroupIndex g pubkey g "default").1 hc
    exact hne ⟨pubkey, h.cover pubkey g hk hc, rfl⟩
  · rw [Bool.eq_iff_iff, checkModPubkeyCanModGroup, checkModPubkeyCanModGroup,
      hasPermission_nukeNewsgroupIndex]
    refine and_iff_right fun ⟨m, hm, he⟩ => hg' ?_
    exact (modPermissionsKey_inj hk (h.colonFree g m hm) he).2

/-- Two groups moderated by one key: nuking one leaves the other. -/
theorem nukeNewsgroup_revokes_moderators_two_groups :
    let ops : List ModOp := [.markModPubkeyCanModGroup "k" "g", .markModPubkeyCanModGroup "k" "h"]
    (∀ op ∈ ops, op.KeysOk) ∧
      let s := runMods id Index.empty ops
      ∀ pubkey, ':' ∉ pubkey.toList →
        checkModPubkeyCanModGroup (nukeNewsgroupIndex "g" s) pubkey "g" = false ∧
        ∀ g', g' ≠ "g" → checkModPubkeyCanModGroup (nukeNewsgroupIndex "g" s) pubkey g' =
          checkModPubkeyCanModGroup s pubkey g' := by
  intro ops
  have h : ∀ op ∈ ops, op.KeysOk := by decide
  exact ⟨h, nukeNewsgroup_revokes_moderators ops h "g"⟩

/-- A key with `:` can name another pair: marking `a::Group::b` for `c`
makes `a` a moderator of `b::Group::c`, which the nuke of that group keeps. -/
example :
    let s := markModPubkeyCanModGroup "a::Group::b" "c" Index.empty
    checkModPubkeyCanModGroup s "a" "b::Group::c" = true ∧
      checkModPubkeyCanModGroup (nukeNewsgroupIndex "b::Group::c" s) "a" "b::Group::c" = true := by
  decide

/-- `NukeNewsgroup(g)` deletes the whole permission set that each key listed
for `g` has under `g`, whatever it holds. -/
theorem nukeNewsgroup_drops_permission_sets (s : Index) (g pubkey : String)
    (hm : pubkey ∈ s.groupModKeys g) (perm : String) :
    hasPermission (nukeNewsgroupIndex g s) pubkey g perm = false :=
  Bool.eq_false_iff.2 fun hc => ((hasPermission_nukeNewsgroupIndex g pubkey g perm).1 hc).1
    ⟨pubkey, hm, rfl⟩

/-- A key added as a moderator and marked for the group `ctl` loses its
`login` permission when `ctl` is nuked. -/
theorem nukeNewsgroup_ctl_drops_login :
    let s := runMods id Index.empty
      [.addModPubkey "k", .markModPubkeyCanModGroup "k" "ctl"]
    checkModPubkey s "k" = true ∧ "k" ∈ s.groupModKeys "ctl" ∧
      checkModPubkey (nukeNewsgroupIndex "ctl" s) "k" = false := by
  intro s
  have hm : "k" ∈ s.groupModKeys "ctl" := by decide
  exact ⟨by decide, hm, nukeNewsgroup_drops_permission_sets s "ctl" "k" hm "login"⟩

end Srnd.Redis
