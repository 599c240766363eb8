import Mathlib.Data.List.Sort
import Mathlib.Data.String.Basic

/-!
# Redis sorted sets

Every ordering of the index (`GroupArticlePostTimeWKR::g`, `ArticleWKR`,
`ThreadPostsWKR::r` and the rest) is a Redis sorted set, and `redis.go` uses
nine commands on them: `ZADD` with `NX`, with `XX` and plain, `ZREM`,
`ZCARD`, `ZCOUNT`, `ZRANGE` by rank, and `ZREVRANGE` and `ZREVRANK`, which
rank in the reverse order.  `ZSet` is the observable content of one such key: a
list of member/score pairs in which no member repeats.  The list order is not
observable; `ZRANGE` sorts by score and then by member, which is Redis's
order, and `sorted` is that step.

A key whose set is empty does not exist in Redis, so the model does not tell
an empty set from an absent key: `DEL` of a sorted set is `empty`.

Scores are `Int`.  The code passes Unix seconds through `float64`, which is
exact for every time the model needs.

The file has three groups.

* Membership.  `mem_addNX`, `mem_addXX` and `mem_rem` say what each write does
  to the members; the later invariant proofs use nothing else.
* Scores.  `score_addNX_of_not_mem`, `score_addXX` and `score_rem` do the
  same for the score of one member.
* Ranks.  `sorted` is the `ZRANGE` order and `range` is `ZRANGE start stop`
  with Redis's reading of negative indices.  `sorted_addNX_of_below` is the
  append case: a member scored above all others lands at the end and leaves
  every other rank alone.  `mem_revRange` finds a member of a given reverse
  rank in a `ZREVRANGE` window.
-/

namespace Srnd.Redis

/-- The order in which `ZRANGE` lists members: by score, then by member. -/
def ZEntry.le (a b : String × Int) : Prop :=
  a.2 < b.2 ∨ a.2 = b.2 ∧ a.1 ≤ b.1

/-- Decided on the character lists, which the kernel can evaluate. -/
instance : DecidableRel ZEntry.le := fun a b =>
  decidable_of_iff (a.2 < b.2 ∨ a.2 = b.2 ∧ a.1.toList ≤ b.1.toList) (by simp [ZEntry.le])

instance : IsTotal (String × Int) ZEntry.le :=
  ⟨fun a b => by
    unfold ZEntry.le
    rcases lt_trichotomy a.2 b.2 with h | h | h
    · exact .inl (.inl h)
    · rcases le_total a.1 b.1 with h' | h'
      exacts [.inl (.inr ⟨h, h'⟩), .inr (.inr ⟨h.symm, h'⟩)]
    · exact .inr (.inl h)⟩

instance : IsTrans (String × Int) ZEntry.le :=
  ⟨fun a b c hab hbc => by
    unfold ZEntry.le at *
    rcases hab with h₁ | ⟨h₁, h₁'⟩ <;> rcases hbc with h₂ | ⟨h₂, h₂'⟩
    · exact .inl (Int.lt_trans h₁ h₂)
    · exact .inl (h₂ ▸ h₁)
    · exact .inl (h₁ ▸ h₂)
    · exact .inr ⟨h₁.trans h₂, h₁'.trans h₂'⟩⟩

/-- `k` is the number of message-ids with `p`: a list of exactly them, each
once, has length `k`. -/
def NumberOf (p : String → Prop) (k : Nat) : Prop :=
  ∃ L : List String, L.Nodup ∧ (∀ m, m ∈ L ↔ p m) ∧ L.length = k

theorem NumberOf.congr {p q : String → Prop} {k : Nat} (h : NumberOf p k)
    (hpq : ∀ m, p m ↔ q m) : NumberOf q k :=
  let ⟨L, hnd, hmem, hlen⟩ := h
  ⟨L, hnd, fun m => (hmem m).trans (hpq m), hlen⟩

/-- The content of one sorted-set key: members with their scores, each member
once. -/
structure ZSet where
  entries : List (String × Int)
  nodup : (entries.map Prod.fst).Nodup

namespace ZSet

/-- An absent key. -/
def empty : ZSet := ⟨[], List.nodup_nil⟩

/-- The members, in no particular order. -/
def members (z : ZSet) : List String := z.entries.map Prod.fst

instance : Membership String ZSet := ⟨fun z m => m ∈ z.members⟩

instance (m : String) (z : ZSet) : Decidable (m ∈ z) :=
  inferInstanceAs (Decidable (m ∈ z.members))

/-- `ZSCORE`. -/
def score (z : ZSet) (m : String) : Option Int := z.entries.lookup m

/-- `ZADD key NX score member`: add the member only when it is absent. -/
def addNX (z : ZSet) (m : String) (s : Int) : ZSet :=
  if h : m ∈ z then z else ⟨(m, s) :: z.entries, List.nodup_cons.2 ⟨h, z.nodup⟩⟩

private theorem map_fst_setScore (l : List (String × Int)) (m : String) (s : Int) :
    (l.map fun e => if e.1 = m then (m, s) else e).map Prod.fst = l.map Prod.fst := by
  induction l with
  | nil => rfl
  | cons e l ih => by_cases h : e.1 = m <;> simp_all

/-- `ZADD key XX score member`: update the score only when the member is
present. -/
def addXX (z : ZSet) (m : String) (s : Int) : ZSet :=
  ⟨z.entries.map fun e => if e.1 = m then (m, s) else e,
    (map_fst_setScore z.entries m s).symm ▸ z.nodup⟩

/-- `ZADD key score member`: update a present member, add an absent one. -/
def add (z : ZSet) (m : String) (s : Int) : ZSet :=
  if m ∈ z then z.addXX m s else z.addNX m s

/-- `ZREM key member`. -/
def rem (z : ZSet) (m : String) : ZSet :=
  ⟨z.entries.filter fun e => e.1 ≠ m,
    z.nodup.sublist ((List.filter_sublist _).map Prod.fst)⟩

/-- `ZCARD`. -/
def card (z : ZSet) : Nat := z.entries.length

/-- `ZCOUNT key min max`: the members scored from `min` to `max`, both ends
included. -/
def count (z : ZSet) (min max : Int) : Nat :=
  (z.entries.filter fun e => decide (min ≤ e.2 ∧ e.2 ≤ max)).length

/-- The members in `ZRANGE` order. -/
def sorted (z : ZSet) : List String :=
  (z.entries.insertionSort ZEntry.le).map Prod.fst

/-- `ZRANGE key start stop`: negative indices count from the end, the start
is clamped at `0` and the stop at the last rank. -/
def range (z : ZSet) (start stop : Int) : List String :=
  let n : Int := z.card
  let start := max (if start < 0 then start + n else start) 0
  let stop := if stop < 0 then stop + n else stop
  if stop < start ∨ n ≤ start then []
  else (z.sorted.drop start.toNat).take ((min stop (n - 1) - start + 1).toNat)

/-- The members in `ZREVRANGE` order: the reverse of `ZRANGE` order. -/
def revSorted (z : ZSet) : List String := z.sorted.reverse

/-- `ZREVRANGE key start stop`: `ZRANGE start stop` over `revSorted`. -/
def revRange (z : ZSet) (start stop : Int) : List String :=
  let n : Int := z.card
  let start := max (if start < 0 then start + n else start) 0
  let stop := if stop < 0 then stop + n else stop
  if stop < start ∨ n ≤ start then []
  else (z.revSorted.drop start.toNat).take ((min stop (n - 1) - start + 1).toNat)

/-- `ZREVRANK key member`; `none` is the `redis.Nil` error of a missing
member. -/
def revRank (z : ZSet) (m : String) : Option Nat :=
  if m ∈ z then some (z.revSorted.indexOf m) else none

/-! ## Membership -/

theorem mem_iff {m : String} {z : ZSet} : m ∈ z ↔ m ∈ z.members := Iff.rfl

@[simp] theorem not_mem_empty (m : String) : m ∉ empty := by
  simp [mem_iff, members, empty]

theorem mem_iff_exists {m : String} {z : ZSet} : m ∈ z ↔ ∃ s, (m, s) ∈ z.entries := by
  simp [mem_iff, members]

@[simp] theorem mem_addNX {x m : String} {s : Int} {z : ZSet} :
    x ∈ z.addNX m s ↔ x = m ∨ x ∈ z := by
  unfold addNX
  split
  · constructor
    · exact Or.inr
    · rintro (rfl | h) <;> assumption
  · simp [mem_iff, members]

@[simp] theorem members_addXX (z : ZSet) (m : String) (s : Int) :
    (z.addXX m s).members = z.members :=
  map_fst_setScore z.entries m s

@[simp] theorem mem_addXX {x m : String} {s : Int} {z : ZSet} :
    x ∈ z.addXX m s ↔ x ∈ z := by
  rw [mem_iff, members_addXX]; rfl

@[simp] theorem mem_add {x m : String} {s : Int} {z : ZSet} :
    x ∈ z.add m s ↔ x = m ∨ x ∈ z := by
  unfold add
  split
  · rw [mem_addXX]
    constructor
    · exact Or.inr
    · rintro (rfl | h) <;> assumption
  · exact mem_addNX

@[simp] theorem mem_rem {x m : String} {z : ZSet} :
    x ∈ z.rem m ↔ x ≠ m ∧ x ∈ z := by
  simp [mem_iff, members, rem, and_comm]

theorem addNX_of_mem {m : String} {s : Int} {z : ZSet} (h : m ∈ z) : z.addNX m s = z := by
  simp [addNX, h]

/-! ## Scores -/

theorem score_isSome_iff {x : String} {z : ZSet} : (z.score x).isSome ↔ x ∈ z := by
  simp [score, mem_iff, members]

theorem score_eq_none_iff {x : String} {z : ZSet} : z.score x = none ↔ x ∉ z := by
  rw [← score_isSome_iff, Option.not_isSome_iff_eq_none]

private theorem lookup_cons_ite (k x : String) (b : Int) (l : List (String × Int)) :
    ((k, b) :: l).lookup x = if x = k then some b else l.lookup x := by
  by_cases h : x = k
  · simp [List.lookup_cons, h]
  · have hb : (x == k) = false := by simpa using h
    simp [List.lookup_cons, h, hb]

private theorem lookup_of_mem {x : String} {t : Int} :
    ∀ {l : List (String × Int)}, (l.map Prod.fst).Nodup → (x, t) ∈ l → l.lookup x = some t
  | [], _, h => absurd h (List.not_mem_nil _)
  | (k, b) :: l, hnd, h => by
    rw [lookup_cons_ite]
    obtain ⟨hk, hnd⟩ := List.nodup_cons.1 hnd
    rcases List.mem_cons.1 h with he | h
    · simp only [Prod.mk.injEq] at he
      simp [he]
    · have hx : x ∈ l.map Prod.fst := List.mem_map_of_mem Prod.fst h
      rw [if_neg fun (he : x = k) => hk (he ▸ hx)]
      exact lookup_of_mem hnd h

/-- The score of a member is the one its entry holds. -/
theorem score_of_mem_entries {x : String} {t : Int} {z : ZSet} (h : (x, t) ∈ z.entries) :
    z.score x = some t :=
  lookup_of_mem z.nodup h

theorem score_addNX_of_not_mem {x m : String} {s : Int} {z : ZSet} (h : m ∉ z) :
    (z.addNX m s).score x = if x = m then some s else z.score x := by
  simp only [addNX, h, dite_false, score, lookup_cons_ite]

theorem score_addNX_of_ne {x m : String} {s : Int} {z : ZSet} (h : x ≠ m) :
    (z.addNX m s).score x = z.score x := by
  by_cases hm : m ∈ z
  · rw [addNX_of_mem hm]
  · rw [score_addNX_of_not_mem hm, if_neg h]

private theorem lookup_setScore (l : List (String × Int)) (x m : String) (s : Int) :
    (l.map fun e => if e.1 = m then (m, s) else e).lookup x =
      if x = m ∧ x ∈ l.map Prod.fst then some s else l.lookup x := by
  induction l with
  | nil => simp
  | cons e l ih =>
    obtain ⟨k, b⟩ := e
    simp only [List.map_cons, List.mem_cons]
    by_cases hk : k = m
    · subst hk
      rw [if_pos rfl, lookup_cons_ite, lookup_cons_ite, ih]
      by_cases hx : x = k <;> simp [hx]
    · rw [if_neg hk, lookup_cons_ite, lookup_cons_ite, ih]
      by_cases hx : x = k
      · subst hx; simp [hk]
      · simp only [if_neg hx]
        exact if_congr (by simp [hx]) rfl rfl

theorem score_addXX {x m : String} {s : Int} {z : ZSet} :
    (z.addXX m s).score x = if x = m ∧ x ∈ z then some s else z.score x :=
  lookup_setScore z.entries x m s

private theorem lookup_filter_ne (l : List (String × Int)) (x m : String) :
    (l.filter fun e => e.1 ≠ m).lookup x = if x = m then none else l.lookup x := by
  induction l with
  | nil => simp
  | cons e l ih =>
    obtain ⟨k, b⟩ := e
    rw [List.filter_cons, lookup_cons_ite]
    by_cases hk : k = m
    · subst hk
      rw [if_neg (by simp), ih]
      by_cases hx : x = k <;> simp [hx]
    · rw [if_pos (by simpa using hk), lookup_cons_ite, ih]
      by_cases hx : x = k
      · subst hx; simp [hk]
      · simp [hx]

theorem score_rem {x m : String} {z : ZSet} :
    (z.rem m).score x = if x = m then none else z.score x :=
  lookup_filter_ne z.entries x m

private theorem mem_of_lookup_eq_some {x : String} {t : Int} :
    ∀ {l : List (String × Int)}, l.lookup x = some t → (x, t) ∈ l
  | [], h => by simp at h
  | (k, b) :: l, h => by
    rw [lookup_cons_ite] at h
    split_ifs at h with hx
    · cases h; subst hx; exact List.mem_cons_self _ _
    · exact List.mem_cons_of_mem _ (mem_of_lookup_eq_some h)

theorem score_eq_some_iff {x : String} {t : Int} {z : ZSet} :
    z.score x = some t ↔ (x, t) ∈ z.entries :=
  ⟨mem_of_lookup_eq_some, score_of_mem_entries⟩

/-! ## Counts -/

/-- `ZCOUNT key lo hi` is the number of members scored from `lo` to `hi`. -/
theorem count_numberOf (z : ZSet) (lo hi : Int) :
    NumberOf (fun m => ∃ t, z.score m = some t ∧ lo ≤ t ∧ t ≤ hi) (z.count lo hi) := by
  refine ⟨(z.entries.filter fun e => decide (lo ≤ e.2 ∧ e.2 ≤ hi)).map Prod.fst,
    z.nodup.sublist ((List.filter_sublist _).map Prod.fst), fun m => ?_, by simp [count]⟩
  simp only [List.mem_map, List.mem_filter, decide_eq_true_eq, score_eq_some_iff]
  exact ⟨fun ⟨e, ⟨he, hlo, hhi⟩, hm⟩ => ⟨e.2, hm ▸ he, hlo, hhi⟩,
    fun ⟨t, he, hlo, hhi⟩ => ⟨(m, t), ⟨he, hlo, hhi⟩, rfl⟩⟩

/-! ## Ranks -/

theorem sorted_perm (z : ZSet) : z.sorted.Perm z.members :=
  (List.perm_insertionSort ZEntry.le z.entries).map Prod.fst

theorem length_sorted (z : ZSet) : z.sorted.length = z.card := by
  simp [sorted, card]

@[simp] theorem mem_sorted {x : String} {z : ZSet} : x ∈ z.sorted ↔ x ∈ z :=
  z.sorted_perm.mem_iff

theorem nodup_sorted (z : ZSet) : z.sorted.Nodup :=
  z.sorted_perm.nodup_iff.2 z.nodup

/-- `ZRANGE` lists a window of the sorted members. -/
theorem range_sublist (z : ZSet) (start stop : Int) : (z.range start stop).Sublist z.sorted := by
  unfold range
  dsimp only
  split_ifs <;> first
    | exact List.nil_sublist _
    | exact (List.take_sublist _ _).trans (List.drop_sublist _ _)

theorem mem_of_mem_range {x : String} {z : ZSet} {start stop : Int}
    (h : x ∈ z.range start stop) : x ∈ z :=
  mem_sorted.1 ((z.range_sublist start stop).subset h)

/-- Every score of the set is below `t`. -/
def Below (z : ZSet) (t : Int) : Prop := ∀ e ∈ z.entries, e.2 < t

instance (z : ZSet) (t : Int) : Decidable (z.Below t) :=
  inferInstanceAs (Decidable (∀ e ∈ z.entries, e.2 < t))

private theorem orderedInsert_of_not_le {a : String × Int} {l : List (String × Int)}
    (h : ∀ b ∈ l, ¬ ZEntry.le a b) : l.orderedInsert ZEntry.le a = l ++ [a] := by
  induction l with
  | nil => rfl
  | cons b l ih =>
    simp [List.orderedInsert, h b (List.mem_cons_self _ _),
      ih fun c hc => h c (List.mem_cons_of_mem _ hc)]

/-- A new member scored above every score goes last in the `ZRANGE` order, so
every other member keeps its rank. -/
theorem sorted_addNX_of_below {m : String} {t : Int} {z : ZSet} (hm : m ∉ z) (ht : z.Below t) :
    (z.addNX m t).sorted = z.sorted ++ [m] := by
  unfold addNX sorted
  rw [dif_neg hm, List.insertionSort, orderedInsert_of_not_le, List.map_append]
  · rfl
  intro b hb
  have := ht b ((List.perm_insertionSort _ _).mem_iff.1 hb)
  simp only [ZEntry.le]
  omega

theorem below_addNX {m : String} {t t' : Int} {z : ZSet} (hz : z.Below t') (ht : t < t') :
    (z.addNX m t).Below t' := by
  unfold addNX
  split_ifs
  · exact hz
  · intro e he
    rcases List.mem_cons.1 he with rfl | he
    exacts [ht, hz e he]

/-- `ZRANGE key k k` of a rank `k ≥ 0`: the member of rank `k`, if any. -/
theorem range_rank (z : ZSet) {k : Int} (hk : 0 ≤ k) :
    z.range k k = (z.sorted.drop k.toNat).take 1 := by
  have hlen := z.length_sorted
  simp only [range, show ¬ k < 0 by omega, ite_false, max_eq_left hk, lt_irrefl, false_or]
  split_ifs with h
  · rw [List.drop_of_length_le (by omega), List.take_nil]
  · congr 1
    omega

/-- `ZRANGE key k k` at a negative `k`: the member of rank `k` counted from
the end, if there is one. -/
theorem range_rank_neg (z : ZSet) {k : Int} (hk : k < 0) :
    z.range k k = if 0 ≤ k + z.card then (z.sorted.drop (k + z.card).toNat).take 1 else [] := by
  simp only [range, if_pos hk]
  by_cases h : 0 ≤ k + z.card
  · rw [max_eq_left h, if_pos h, if_neg (by omega)]
    congr 1
    omega
  · rw [if_neg h, if_pos (.inl (by omega))]

/-- `ZRANGE key 0 -1` lists every member. -/
theorem range_zero_neg_one (z : ZSet) : z.range 0 (-1) = z.sorted := by
  have hlen := z.length_sorted
  simp only [range, lt_irrefl, ite_false, max_self, show (-1 : Int) < 0 by decide, ite_true]
  split_ifs with h
  · rw [eq_comm, ← List.length_eq_zero, hlen]
    omega
  · rw [show Int.toNat 0 = 0 from rfl, List.drop_zero, List.take_of_length_le]
    omega

/-- `ZRANGE key 0 (-n-1)`: every member but the last `n`. -/
theorem range_zero_neg (z : ZSet) (n : Nat) : z.range 0 (-n - 1) = z.sorted.take (z.card - n) := by
  have hlen := z.length_sorted
  simp only [range, lt_irrefl, ite_false, max_self, show (-(n : Int) - 1) < 0 by omega, ite_true]
  split_ifs with h
  · exact (List.take_eq_nil_iff.2 (.inl (by omega))).symm
  · rw [show Int.toNat 0 = 0 from rfl, List.drop_zero]
    congr 1
    omega

/-- `ZRANGE key (1-a) -1` for `a ≥ 1`: every member when `a = 1`, whose start
is `0`, and otherwise the last `a - 1`. -/
theorem range_last (z : ZSet) {a : Int} (ha : 1 ≤ a) :
    z.range (1 - a) (-1) =
      if a = 1 then z.sorted else z.sorted.drop (z.card - (a - 1).toNat) := by
  split_ifs with h
  · subst h
    exact z.range_zero_neg_one
  · have hlen := z.length_sorted
    simp only [range, show 1 - a < 0 by omega, show (-1 : Int) < 0 by decide, ite_true]
    split_ifs with h'
    · rw [eq_comm, List.drop_eq_nil_iff, hlen]
      omega
    · rw [List.take_of_length_le (by rw [List.length_drop]; omega)]
      congr 1
      omega

/-- A member listed before another in `ZRANGE` order has a score no higher. -/
theorem score_le_of_mem_take {k : Nat} {x y : String} {z : ZSet} (hx : x ∈ z.sorted.take k)
    (hy : y ∈ z.sorted.drop k) :
    ∃ a b, z.score x = some a ∧ z.score y = some b ∧ a ≤ b := by
  have hs := List.sorted_insertionSort ZEntry.le z.entries
  rw [← List.take_append_drop k (z.entries.insertionSort ZEntry.le)] at hs
  have hmem : ∀ e ∈ z.entries.insertionSort ZEntry.le, e ∈ z.entries := fun e he =>
    (List.perm_insertionSort _ _).mem_iff.1 he
  simp only [sorted, ← List.map_take, ← List.map_drop, List.mem_map] at hx hy
  obtain ⟨a, ha, rfl⟩ := hx
  obtain ⟨b, hb, rfl⟩ := hy
  refine ⟨a.2, b.2, score_of_mem_entries (hmem a (List.mem_of_mem_take ha)),
    score_of_mem_entries (hmem b (List.mem_of_mem_drop hb)), ?_⟩
  rcases (List.pairwise_append.1 hs).2.2 a ha b hb with h | ⟨h, -⟩
  exacts [h.le, h.le]

theorem card_pos_iff {z : ZSet} : 0 < z.card ↔ ∃ m, m ∈ z := by
  simp only [card, List.length_pos_iff_exists_mem, mem_iff, members, List.mem_map]
  exact ⟨fun ⟨e, he⟩ => ⟨e.1, e, he, rfl⟩, fun ⟨_, e, he, _⟩ => ⟨e, he⟩⟩

/-- Two sorted sets with the same members have the same `ZCARD`. -/
theorem card_eq_of_mem_iff {z z' : ZSet} (h : ∀ m, m ∈ z ↔ m ∈ z') : z.card = z'.card := by
  have hp := (List.perm_ext_iff_of_nodup z.nodup_sorted z'.nodup_sorted).2 fun m => by
    simp only [mem_sorted, h]
  rw [← length_sorted, ← length_sorted, hp.length_eq]

theorem length_revSorted (z : ZSet) : z.revSorted.length = z.card := by
  rw [revSorted, List.length_reverse, length_sorted]

@[simp] theorem mem_revSorted {x : String} {z : ZSet} : x ∈ z.revSorted ↔ x ∈ z := by
  rw [revSorted, List.mem_reverse, mem_sorted]

theorem nodup_revSorted (z : ZSet) : z.revSorted.Nodup := List.nodup_reverse.2 z.nodup_sorted

/-- `ZREVRANK` of a member: its index in `revSorted`, below `ZCARD`. -/
theorem revRank_eq_some {z : ZSet} {m : String} (hm : m ∈ z) :
    ∃ k, z.revRank m = some k ∧ z.revSorted[k]? = some m := by
  have hm' : m ∈ z.revSorted := List.mem_reverse.2 (mem_sorted.2 hm)
  exact ⟨_, if_pos hm, List.getElem?_indexOf hm'⟩

/-- `ZREVRANGE a b` lists the member of reverse rank `k` when `0 ≤ a ≤ k ≤ b`. -/
theorem mem_revRange {z : ZSet} {m : String} {k : Nat} (hk : z.revSorted[k]? = some m)
    {a b : Int} (ha : 0 ≤ a) (hak : a ≤ k) (hkb : k ≤ b) : m ∈ z.revRange a b := by
  have hkn : k < z.card := z.length_revSorted ▸ (List.getElem?_eq_some_iff.1 hk).1
  simp only [revRange, if_neg (show ¬ a < 0 by omega), if_neg (show ¬ b < 0 by omega),
    max_eq_left ha, if_neg (show ¬ (b < a ∨ (z.card : Int) ≤ a) by omega)]
  refine List.getElem?_mem (n := k - a.toNat) ?_
  rw [List.getElem?_take_of_lt (by omega), List.getElem?_drop,
    show a.toNat + (k - a.toNat) = k by omega, hk]

/-- `ZREVRANGE key 0 (n-1)`: the first `n` members in reverse order when
`n ≥ 1`, and every member but the last `-n` when `n ≤ 0`. -/
theorem revRange_zero (z : ZSet) (n : Int) :
    z.revRange 0 (n - 1) = z.revSorted.take (if 0 < n then n.toNat else (z.card + n).toNat) := by
  have hlen := z.length_revSorted
  simp only [revRange, lt_irrefl, ite_false, max_self, Int.toNat_zero, List.drop_zero]
  have hnil : z.card = 0 → z.revSorted = [] := fun h => List.eq_nil_of_length_eq_zero (hlen ▸ h)
  split_ifs <;> first
    | (symm; rw [List.take_eq_nil_iff]; omega)
    | (symm; exact List.take_eq_nil_of_eq_nil (hnil (by omega)))
    | (rw [List.take_eq_take]; omega)

end ZSet

end Srnd.Redis
