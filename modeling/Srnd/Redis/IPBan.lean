import Mathlib.Data.Finset.Max
import Mathlib.Tactic.Ring
import Mathlib.Logic.Function.Basic

/-!
# Range bans

`BanAddr` of a single address sets the key `IPBan::<addr>`.  `BanAddr` of a
subnet stores it as a range: its last address, zero-padded, becomes a member
of `IPRangeBanKR`, whose scores are all 0, so that `ZRANGEBYLEX` lists the
members in lexicographic order, the order of the addresses; the hash
`IPRangeBan::<end>` holds the first address.  Before storing a subnet,
`BanAddr` asks `CheckIPBanned` whether it is banned already and, if not,
`clearIPRange` deletes the stored ranges whose last address lies inside the
subnet, its first address excluded.

`CheckIPBanned(q)` makes one probe: the smallest stored end at or above the
last address of `q`, and whether that range starts at or before the first
address of `q`.  `UnbanAddr` of a subnet deletes the range that probe finds,
when it covers the subnet.

`IsSubnet`, `IPNet2MinMax` and `ZeroIPString` are not in the sources.  An
address of one family is a number, a subnet is a CIDR block (`Block`), and
zero-padded strings compare as the numbers do.

`RangesWF` is the invariant of the stored ranges: each is a CIDR block, and
two of them are apart, except a single-address range at the first address of
a larger one, which `clearIPRange` keeps.  Two CIDR blocks that meet are
nested (`Block.nested`), which is why `BanAddr` keeps the invariant
(`RangesWF.banAddr`); under it the one probe answers exactly
(`checkIPBanned_of_wf`).  `checkIPBanned_run` puts the two together over
every sequence of bans and unbans.

`UnbanAddr` of a subnet deletes at most the one range its probe finds.  Under
the invariant that is the only range that can cover a subnet of two or more
addresses, so the subnet as a whole is no longer banned
(`checkIPBanned_unbanAddr_run`); the smaller ranges inside it stay, and so do
the bans of their addresses (`unbanAddr_leaves_inner_ranges`).
-/

namespace Srnd.Redis

open Function

/-- A CIDR block: the `2 ^ size` addresses from `index * 2 ^ size`. -/
structure Block where
  index : Nat
  size : Nat
  deriving DecidableEq, Repr

namespace Block

/-- The first address, `min` of `IPNet2MinMax`. -/
def min (b : Block) : Nat := b.index * 2 ^ b.size

/-- The last address, `max` of `IPNet2MinMax`. -/
def max (b : Block) : Nat := b.min + 2 ^ b.size - 1

theorem min_le_max (b : Block) : b.min ≤ b.max := by
  have := Nat.one_le_two_pow (n := b.size)
  unfold max
  omega

/-- The index of a block is any of its addresses divided by its size. -/
theorem index_eq {b : Block} {x : Nat} (hb : b.min ≤ x ∧ x ≤ b.max) :
    x / 2 ^ b.size = b.index := by
  have hP := Nat.one_le_two_pow (n := b.size)
  unfold max min at hb
  refine Nat.div_eq_of_lt_le hb.1 ?_
  rw [Nat.succ_mul]
  omega

/-- A block lies inside every block at least as large that shares an
address with it. -/
theorem subset_of_size_le {b c : Block} (h : b.size ≤ c.size) {x : Nat}
    (hb : b.min ≤ x ∧ x ≤ b.max) (hc : c.min ≤ x ∧ x ≤ c.max) :
    c.min ≤ b.min ∧ b.max ≤ c.max := by
  obtain ⟨d, hd⟩ := Nat.exists_eq_add_of_le h
  have hq : 2 ^ c.size = 2 ^ b.size * 2 ^ d := by rw [hd, pow_add]
  have hci : c.index = b.index / 2 ^ d := by
    rw [← index_eq hc, ← index_eq hb, Nat.div_div_eq_div_mul, hq]
  have h1 : c.index * 2 ^ d ≤ b.index := hci ▸ Nat.div_mul_le_self _ _
  have h2 : b.index + 1 ≤ c.index * 2 ^ d + 2 ^ d :=
    hci ▸ Nat.lt_div_mul_add (Nat.two_pow_pos d)
  have hP := Nat.one_le_two_pow (n := b.size)
  simp only [max, min, hq]
  constructor
  · calc c.index * (2 ^ b.size * 2 ^ d) = c.index * 2 ^ d * 2 ^ b.size := by ring
      _ ≤ b.index * 2 ^ b.size := Nat.mul_le_mul_right _ h1
  · have := Nat.mul_le_mul_right (2 ^ b.size) h2
    have e1 : (b.index + 1) * 2 ^ b.size = b.index * 2 ^ b.size + 2 ^ b.size := by ring
    have e2 : (c.index * 2 ^ d + 2 ^ d) * 2 ^ b.size =
        c.index * (2 ^ b.size * 2 ^ d) + 2 ^ b.size * 2 ^ d := by ring
    omega

/-- Two CIDR blocks that share an address are nested. -/
theorem nested (b c : Block) {x : Nat} (hb : b.min ≤ x ∧ x ≤ b.max)
    (hc : c.min ≤ x ∧ x ≤ c.max) :
    (c.min ≤ b.min ∧ b.max ≤ c.max) ∨ (b.min ≤ c.min ∧ c.max ≤ b.max) := by
  rcases le_total b.size c.size with h | h
  exacts [.inl (subset_of_size_le h hb hc), .inr (subset_of_size_le h hc hb)]

end Block

/-- The argument of `BanAddr`, `UnbanAddr` and `CheckIPBanned`: a single
address, or a subnet (`IsSubnet`). -/
inductive Addr where
  | ip (a : Nat)
  | net (b : Block)
  deriving DecidableEq, Repr

/-- The first address: `range_start` of `CheckIPBanned`. -/
def Addr.lo : Addr → Nat
  | .ip a => a
  | .net b => b.min

/-- The last address: `start` of `CheckIPBanned`. -/
def Addr.hi : Addr → Nat
  | .ip a => a
  | .net b => b.max

theorem Addr.lo_le_hi : ∀ q : Addr, q.lo ≤ q.hi
  | .ip _ => le_rfl
  | .net b => b.min_le_max

/-- The ban keys of the index. -/
structure BanIndex where
  /-- The keys `IPBan::<addr>`. -/
  ipBan : Finset Addr
  /-- The members of `IPRangeBanKR`: the last addresses of the stored ranges. -/
  rangeKR : Finset Nat
  /-- The field `start` of the hash `IPRangeBan::<end>`. -/
  rangeStart : Nat → Option Nat

/-- No ban. -/
def BanIndex.empty : BanIndex := ⟨∅, ∅, fun _ => none⟩

/-- `ZRANGEBYLEX IPRangeBanKR [hi + LIMIT 0 1`: the smallest member at or
above `hi`. -/
def firstEndFrom (kr : Finset Nat) (hi : Nat) : Option Nat :=
  if h : (kr.filter (hi ≤ ·)).Nonempty then some ((kr.filter (hi ≤ ·)).min' h) else none

/-- `CheckIPBanned(addr)`: whether the address or subnet is banned, or the
error of `HGET` when the hash of the range the probe finds is missing. -/
def checkIPBanned (s : BanIndex) (addr : Addr) : Except String Bool :=
  if addr ∈ s.ipBan then .ok true
  else match firstEndFrom s.rangeKR addr.hi with
    | none => .ok false
    | some rangeMax =>
      match s.rangeStart rangeMax with
      | none => .error "redis: nil"
      | some rangeMin => .ok (decide (rangeMin ≤ addr.lo))

/-- `clearIPRange(start, end)`: delete every stored range whose end `e` has
`start < e ≤ end`. -/
def clearIPRange (start stop : Nat) (s : BanIndex) : BanIndex :=
  let cleared := s.rangeKR.filter fun e => start < e ∧ e ≤ stop
  { s with
    rangeKR := s.rangeKR \ cleared
    rangeStart := fun e => if e ∈ cleared then none else s.rangeStart e }

/-- `BanAddr(addr)`. -/
def banAddr (addr : Addr) (s : BanIndex) : BanIndex :=
  match addr with
  | .ip _ => { s with ipBan := insert addr s.ipBan }
  | .net b =>
    match checkIPBanned s addr with
    | .ok false =>
      let s := clearIPRange b.min b.max s
      { s with
        rangeKR := insert b.max s.rangeKR
        rangeStart := update s.rangeStart b.max (some b.min) }
    | _ => s

/-- `UnbanAddr(addr)`. -/
def unbanAddr (addr : Addr) (s : BanIndex) : BanIndex :=
  let s := { s with ipBan := s.ipBan.erase addr }
  match addr with
  | .ip _ => s
  | .net b =>
    match firstEndFrom s.rangeKR b.max with
    | none => s
    | some rangeMax =>
      match s.rangeStart rangeMax with
      | none => s
      | some rangeMin =>
        if rangeMin ≤ b.min then
          { s with
            rangeKR := s.rangeKR.erase rangeMax
            rangeStart := update s.rangeStart rangeMax none }
        else s

/-- A call of the ban family. -/
inductive BanOp where
  | ban (addr : Addr)
  | unban (addr : Addr)

/-- Run one call. -/
def BanOp.apply : BanOp → BanIndex → BanIndex
  | .ban addr => banAddr addr
  | .unban addr => unbanAddr addr

/-- Run a sequence of calls. -/
def runBans (s : BanIndex) (ops : List BanOp) : BanIndex :=
  ops.foldl (fun s op => op.apply s) s

namespace BanIndex

/-- Some stored range holds every address from `lo` to `hi`. -/
def Covers (s : BanIndex) (lo hi : Nat) : Prop :=
  ∃ e ∈ s.rangeKR, ∃ st, s.rangeStart e = some st ∧ st ≤ lo ∧ hi ≤ e

/-- The invariant of the stored ranges: each is a CIDR block, and of two with
ends `e₁ < e₂`, the first ends before the second starts, or is the single
address the second starts at. -/
structure RangesWF (s : BanIndex) : Prop where
  block : ∀ e ∈ s.rangeKR, ∃ b : Block, s.rangeStart e = some b.min ∧ b.max = e
  apart : ∀ e₁ ∈ s.rangeKR, ∀ e₂ ∈ s.rangeKR, ∀ st₁ st₂,
    s.rangeStart e₁ = some st₁ → s.rangeStart e₂ = some st₂ → e₁ < e₂ →
      e₁ < st₂ ∨ (st₁ = e₁ ∧ e₁ = st₂)

end BanIndex

/-! ## The probe -/

theorem firstEndFrom_eq_none {kr : Finset Nat} {hi : Nat} :
    firstEndFrom kr hi = none ↔ ∀ e ∈ kr, e < hi := by
  unfold firstEndFrom
  split_ifs with h
  · obtain ⟨e, he⟩ := h
    rw [Finset.mem_filter] at he
    simp only [reduceCtorEq, false_iff, not_forall, not_lt]
    exact ⟨e, he.1, he.2⟩
  · simp only [true_iff]
    intro e he
    by_contra hle
    exact h ⟨e, Finset.mem_filter.2 ⟨he, by omega⟩⟩

theorem firstEndFrom_eq_some {kr : Finset Nat} {hi e : Nat} (h : firstEndFrom kr hi = some e) :
    e ∈ kr ∧ hi ≤ e ∧ ∀ e' ∈ kr, hi ≤ e' → e ≤ e' := by
  unfold firstEndFrom at h
  split_ifs at h with hne
  cases h
  have hm := Finset.mem_filter.1 (Finset.min'_mem _ hne)
  exact ⟨hm.1, hm.2, fun e' he' hle => Finset.min'_le _ _ (Finset.mem_filter.2 ⟨he', hle⟩)⟩

namespace BanIndex

variable {s : BanIndex}

/-- Under the invariant the one probe of `CheckIPBanned` never fails and
finds a covering range whenever there is one. -/
theorem checkIPBanned_of_wf (h : s.RangesWF) (q : Addr) :
    ∃ banned, checkIPBanned s q = .ok banned ∧
      (banned = true ↔ q ∈ s.ipBan ∨ s.Covers q.lo q.hi) := by
  unfold checkIPBanned
  by_cases hq : q ∈ s.ipBan
  · exact ⟨true, if_pos hq, by simp [hq]⟩
  rw [if_neg hq]
  have hlohi := q.lo_le_hi
  cases hf : firstEndFrom s.rangeKR q.hi with
  | none =>
    refine ⟨false, rfl, ?_⟩
    simp only [Bool.false_eq_true, false_iff, hq, false_or, Covers, not_exists, not_and]
    intro e he _ _ _ hle
    exact absurd (firstEndFrom_eq_none.1 hf e he) (by omega)
  | some e =>
    obtain ⟨he, hhi, hmin⟩ := firstEndFrom_eq_some hf
    obtain ⟨b, hb, -⟩ := h.block e he
    refine ⟨decide (b.min ≤ q.lo), by simp only [hb], ?_⟩
    simp only [decide_eq_true_eq, hq, false_or]
    refine ⟨fun hlo => ⟨e, he, b.min, hb, hlo, hhi⟩, ?_⟩
    rintro ⟨e', he', st', hst', hlo', hhi'⟩
    rcases (hmin e' he' hhi').lt_or_eq with hlt | rfl
    · rcases h.apart e he e' he' _ _ hb hst' hlt with h1 | ⟨h1, h2⟩ <;> omega
    · rw [hb, Option.some.injEq] at hst'
      omega

/-- The invariant holds of every state whose stored ranges are some of the
ranges of a state where it holds, with the same starts. -/
theorem RangesWF.of_subset {s' : BanIndex} (h : s.RangesWF) (hsub : s'.rangeKR ⊆ s.rangeKR)
    (hst : ∀ e ∈ s'.rangeKR, s'.rangeStart e = s.rangeStart e) : s'.RangesWF where
  block e he := by rw [hst e he]; exact h.block e (hsub he)
  apart e₁ h₁ e₂ h₂ st₁ st₂ hs₁ hs₂ := by
    rw [hst e₁ h₁] at hs₁
    rw [hst e₂ h₂] at hs₂
    exact h.apart e₁ (hsub h₁) e₂ (hsub h₂) st₁ st₂ hs₁ hs₂

theorem mem_clearIPRange {lo hi e : Nat} :
    e ∈ (clearIPRange lo hi s).rangeKR ↔ e ∈ s.rangeKR ∧ ¬ (lo < e ∧ e ≤ hi) := by
  simp only [clearIPRange, Finset.mem_sdiff, Finset.mem_filter]
  tauto

theorem rangeStart_clearIPRange {lo hi e : Nat} (he : e ∈ (clearIPRange lo hi s).rangeKR) :
    (clearIPRange lo hi s).rangeStart e = s.rangeStart e := by
  rw [mem_clearIPRange] at he
  simp [clearIPRange, he.2]

theorem RangesWF.clearIPRange (h : s.RangesWF) (lo hi : Nat) :
    (Srnd.Redis.clearIPRange lo hi s).RangesWF :=
  h.of_subset (fun _ he => (mem_clearIPRange.1 he).1) fun _ he => rangeStart_clearIPRange he

theorem RangesWF.unbanAddr (h : s.RangesWF) (addr : Addr) :
    (Srnd.Redis.unbanAddr addr s).RangesWF := by
  have h' : ({ s with ipBan := s.ipBan.erase addr } : BanIndex).RangesWF :=
    h.of_subset (fun _ => id) fun _ _ => rfl
  unfold Srnd.Redis.unbanAddr
  dsimp only
  split
  · exact h'
  · split
    · exact h'
    · rename_i rangeMax _
      split
      · exact h'
      · split_ifs
        · refine h'.of_subset (Finset.erase_subset _ _) fun e he => ?_
          exact update_noteq (Finset.ne_of_mem_erase he) _ _
        · exact h'

section Store

variable (h : s.RangesWF) {b : Block} (hcov : ¬ s.Covers b.min b.max)
include h hcov

/-- A stored range that `clearIPRange` keeps for the block `b` ends below `b`,
before it or at its first address as a single address, or ends above `b`,
after it. -/
theorem apart_of_kept {e st : Nat} (he : e ∈ s.rangeKR) (hst : s.rangeStart e = some st)
    (hkeep : ¬ (b.min < e ∧ e ≤ b.max)) :
    (e < b.max ∧ (e < b.min ∨ (st = e ∧ e = b.min))) ∨
      (b.max < e ∧ (b.max < st ∨ (b.min = b.max ∧ b.max = st))) := by
  obtain ⟨b', hb', rfl⟩ := h.block e he
  rw [hb', Option.some.injEq] at hst
  subst hst
  have h1 := b.min_le_max
  have h2 := b'.min_le_max
  rcases lt_trichotomy b'.max b.max with hlt | heq | hgt
  · refine .inl ⟨hlt, ?_⟩
    rcases Nat.lt_or_ge b'.max b.min with h3 | h3
    · exact .inl h3
    · rcases Block.nested b' b ⟨h2, le_rfl⟩ ⟨h3, hlt.le⟩ with ⟨h4, h5⟩ | ⟨h4, h5⟩
      all_goals omega
  · exact absurd ⟨b'.max, he, b'.min, hb', by omega, heq.ge⟩ hcov
  · refine .inr ⟨hgt, ?_⟩
    rcases Nat.lt_or_ge b.max b'.min with h3 | h3
    · exact .inl h3
    · rcases Block.nested b b' ⟨h1, le_rfl⟩ ⟨h3, hgt.le⟩ with ⟨h4, h5⟩ | ⟨h4, h5⟩
      · exact absurd ⟨b'.max, he, b'.min, hb', h4, h5⟩ hcov
      · omega

/-- Storing the block `b` after `clearIPRange` keeps the invariant when no
stored range covers `b`. -/
theorem RangesWF.store :
    let c := Srnd.Redis.clearIPRange b.min b.max s
    ({ c with
      rangeKR := insert b.max c.rangeKR
      rangeStart := update c.rangeStart b.max (some b.min) } : BanIndex).RangesWF := by
  intro c
  have kept : ∀ e ∈ c.rangeKR, ∃ st, s.rangeStart e = some st ∧ c.rangeStart e = some st ∧
      e ≠ b.max ∧ ((e < b.max ∧ (e < b.min ∨ (st = e ∧ e = b.min))) ∨
        (b.max < e ∧ (b.max < st ∨ (b.min = b.max ∧ b.max = st)))) := by
    intro e he
    obtain ⟨he', hkeep⟩ := mem_clearIPRange.1 he
    obtain ⟨b', hb', -⟩ := h.block e he'
    have ha := apart_of_kept h hcov he' hb' hkeep
    exact ⟨b'.min, hb', (rangeStart_clearIPRange he).trans hb', by omega, ha⟩
  have hc := h.clearIPRange b.min b.max
  constructor <;> dsimp only
  · intro e he
    rcases Finset.mem_insert.1 he with rfl | he
    · exact ⟨b, update_same _ _ _, rfl⟩
    · obtain ⟨-, -, -, hne, -⟩ := kept e he
      rw [update_noteq hne]
      exact hc.block e he
  · intro e₁ h₁ e₂ h₂ st₁ st₂ hs₁ hs₂ hlt
    rcases Finset.mem_insert.1 h₁ with rfl | h₁ <;>
      rcases Finset.mem_insert.1 h₂ with rfl | h₂
    · omega
    · obtain ⟨st, -, hst, hne, ha⟩ := kept e₂ h₂
      rw [update_same, Option.some.injEq] at hs₁
      rw [update_noteq hne, hst, Option.some.injEq] at hs₂
      subst hs₁ hs₂
      omega
    · obtain ⟨st, -, hst, hne, ha⟩ := kept e₁ h₁
      rw [update_same, Option.some.injEq] at hs₂
      rw [update_noteq hne, hst, Option.some.injEq] at hs₁
      subst hs₁ hs₂
      omega
    · rw [update_noteq (kept e₁ h₁).choose_spec.2.2.1] at hs₁
      rw [update_noteq (kept e₂ h₂).choose_spec.2.2.1] at hs₂
      exact hc.apart e₁ h₁ e₂ h₂ st₁ st₂ hs₁ hs₂ hlt

end Store

theorem RangesWF.banAddr (h : s.RangesWF) (addr : Addr) : (Srnd.Redis.banAddr addr s).RangesWF := by
  cases addr with
  | ip a => exact h.of_subset (fun _ => id) fun _ _ => rfl
  | net b =>
    obtain ⟨banned, hc, hiff⟩ := checkIPBanned_of_wf h (.net b)
    unfold Srnd.Redis.banAddr
    rw [hc]
    cases banned with
    | true => exact h
    | false =>
      have hcov : ¬ s.Covers b.min b.max := fun hcov => by simpa using hiff.2 (.inr hcov)
      exact h.store hcov

theorem rangesWF_empty : BanIndex.empty.RangesWF :=
  ⟨by simp [BanIndex.empty], by simp [BanIndex.empty]⟩

theorem RangesWF.runBans (h : s.RangesWF) (ops : List BanOp) :
    (Srnd.Redis.runBans s ops).RangesWF := by
  induction ops generalizing s with
  | nil => exact h
  | cons op ops ih =>
    refine ih ?_
    cases op with
    | ban addr => exact h.banAddr addr
    | unban addr => exact h.unbanAddr addr

end BanIndex

/-- After any sequence of `BanAddr` and `UnbanAddr` calls, the stored ranges
keep the invariant, and `CheckIPBanned(q)` answers, without error, whether
`q` is banned on its own or lies inside a stored range. -/
theorem checkIPBanned_run (ops : List BanOp) :
    let s := runBans BanIndex.empty ops
    s.RangesWF ∧ ∀ q, ∃ banned, checkIPBanned s q = .ok banned ∧
      (banned = true ↔ q ∈ s.ipBan ∨ s.Covers q.lo q.hi) :=
  let h := BanIndex.rangesWF_empty.runBans ops
  ⟨h, BanIndex.checkIPBanned_of_wf h⟩

namespace BanIndex

variable {s : BanIndex}

@[simp] theorem ipBan_unbanAddr (addr : Addr) : (unbanAddr addr s).ipBan = s.ipBan.erase addr := by
  unfold unbanAddr
  dsimp only
  repeat' split
  all_goals rfl

/-- A range left after `UnbanAddr` of the block `b` was there before with the
same start, and is not a range that the probe at `b`'s last address found
covering `b`. -/
theorem mem_unbanAddr {b : Block} {e st : Nat} (he : e ∈ (unbanAddr (.net b) s).rangeKR)
    (hst : (unbanAddr (.net b) s).rangeStart e = some st) :
    e ∈ s.rangeKR ∧ s.rangeStart e = some st ∧
      ∀ st₀, firstEndFrom s.rangeKR b.max = some e → s.rangeStart e = some st₀ → b.min < st₀ := by
  unfold unbanAddr at he hst
  cases hf : firstEndFrom s.rangeKR b.max with
  | none => simp only [hf] at he hst; exact ⟨he, hst, fun _ h => by cases h⟩
  | some e₀ =>
    cases hs₀ : s.rangeStart e₀ with
    | none =>
      simp only [hf, hs₀] at he hst
      refine ⟨he, hst, fun _ h h₁ => ?_⟩
      cases Option.some.inj h
      cases hs₀.symm.trans h₁
    | some st₀ =>
      simp only [hf, hs₀] at he hst
      split_ifs at he hst with hcov
      · obtain ⟨hne, he⟩ := Finset.mem_erase.1 he
        simp only [update_noteq hne] at hst
        exact ⟨he, hst, fun _ h => absurd (Option.some.inj h).symm hne⟩
      · refine ⟨he, hst, fun st₁ h h₁ => ?_⟩
        cases Option.some.inj h
        cases Option.some.inj (hs₀.symm.trans h₁)
        omega

/-- Under the invariant, after `UnbanAddr` of a subnet of two or more
addresses no stored range covers it: the probe finds the only range that
can. -/
theorem not_covers_unbanAddr (h : s.RangesWF) {b : Block} (hb : b.min < b.max) :
    ¬ (unbanAddr (.net b) s).Covers b.min b.max := by
  rintro ⟨e', he', st', hst', hlo, hhi⟩
  obtain ⟨he'', hst'', hprobe⟩ := mem_unbanAddr he' hst'
  cases hf : firstEndFrom s.rangeKR b.max with
  | none => exact absurd (firstEndFrom_eq_none.1 hf e' he'') (by omega)
  | some e =>
    obtain ⟨he, hhi_e, hmin⟩ := firstEndFrom_eq_some hf
    obtain ⟨c, hc, rfl⟩ := h.block e he
    rcases (hmin e' he'' hhi).lt_or_eq with hlt | rfl
    · rcases h.apart _ he _ he'' _ _ hc hst'' hlt with h1 | ⟨h1, h2⟩ <;> omega
    · have := hprobe st' hf hst''
      omega

end BanIndex

/-- After any sequence of `BanAddr` and `UnbanAddr` calls, `UnbanAddr` of a
subnet of two or more addresses lifts the ban of the subnet as a whole:
`CheckIPBanned` of the subnet is false. -/
theorem checkIPBanned_unbanAddr_run (ops : List BanOp) (b : Block) (hb : 0 < b.size) :
    checkIPBanned (unbanAddr (.net b) (runBans BanIndex.empty ops)) (.net b) = .ok false := by
  have hrun := BanIndex.rangesWF_empty.runBans ops
  have hlt : b.min < b.max := by
    have := Nat.one_lt_two_pow (Nat.pos_iff_ne_zero.1 hb)
    unfold Block.max
    omega
  obtain ⟨banned, hc, hiff⟩ := BanIndex.checkIPBanned_of_wf (hrun.unbanAddr (.net b)) (.net b)
  have hnot : ¬ (banned = true) := by
    rw [hiff]
    rintro (hban | hcov)
    · simp at hban
    · exact BanIndex.not_covers_unbanAddr hrun hlt hcov
  rw [hc, Bool.eq_false_iff.2 hnot]

theorem checkIPBanned_unbanAddr_run_eight :
    0 < (⟨1, 3⟩ : Block).size ∧
      checkIPBanned (unbanAddr (.net ⟨1, 3⟩) (runBans BanIndex.empty [.ban (.net ⟨1, 3⟩)]))
        (.net ⟨1, 3⟩) = .ok false :=
  ⟨by decide, checkIPBanned_unbanAddr_run [.ban (.net ⟨1, 3⟩)] ⟨1, 3⟩ (by decide)⟩

/-- `UnbanAddr` of the subnet 8-15 leaves an address of it banned when the
stored range inside it is smaller (10-11), or is the single address 8 at its
start, stored beside the range of the subnet. -/
theorem unbanAddr_leaves_inner_ranges :
    let s₁ : BanIndex := runBans BanIndex.empty [.ban (.net ⟨5, 1⟩), .unban (.net ⟨1, 3⟩)]
    let s₂ : BanIndex :=
      runBans BanIndex.empty [.ban (.net ⟨8, 0⟩), .ban (.net ⟨1, 3⟩), .unban (.net ⟨1, 3⟩)]
    (⟨1, 3⟩ : Block).min = 8 ∧ (⟨1, 3⟩ : Block).max = 15 ∧
      Addr.ip 10 ∉ s₁.ipBan ∧ (checkIPBanned s₁ (.ip 10)).toOption = some true ∧
      Addr.ip 8 ∉ s₂.ipBan ∧ (checkIPBanned s₂ (.ip 8)).toOption = some true := by
  decide

/-- A single-address range at the first address of a larger one is kept, and
an unban of a subnet lifts its range. -/
example :
    (checkIPBanned (runBans BanIndex.empty [.ban (.net ⟨8, 0⟩), .ban (.net ⟨1, 3⟩)])
      (.ip 10)).toOption = some true ∧
    (checkIPBanned (runBans BanIndex.empty [.ban (.net ⟨1, 3⟩), .unban (.net ⟨1, 3⟩)])
      (.ip 10)).toOption = some false := by
  decide

end Srnd.Redis
