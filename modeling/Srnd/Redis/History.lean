import Srnd.Time
import Srnd.Redis.Run

/-!
# Post statistics

`GetLastDaysPosts(n)` and `GetLastDaysPostsForGroup(g, n)` count the posts of
the last `n` days, in `ArticleWKR` and in `GroupArticlePostTimeWKR::g`, with
one loop, `lastDaysPosts`: from midnight UTC of the current day, each step
counts with `ZCOUNT` from its midnight to the next and goes back a day
(`getLastDaysPosts_eq`).

`GetMonthlyPostHistory` counts `ArticleWKR` from the month of the oldest score
through the current month, both in the local zone (`monthlyLoop`).  A step
goes to the first of the next month unless the current month is December: the
step tests `now.Month()` where `old.Month()` decides whether the year ends,
and in December every step goes to January of the next year.  Outside
December the history has one entry a month (`getMonthlyPostHistory_months`);
in December it has the oldest month and then one January a year, each
counting a whole year (`getMonthlyPostHistory_december`).

`ZCOUNT` includes both ends of its range and each window ends where the next
one starts, so an article scored on a midnight is counted on two days
(`postHistory_skips_months_and_counts_twice`), and one scored on the first of
a month in two months.
-/

namespace Srnd.Redis

open Srnd.Time

/-- `PostEntry{time, count}`. -/
structure PostEntry where
  time : Int
  count : Nat
  deriving DecidableEq, Repr

/-! ## The last days -/

/-- The loop of `GetLastDaysPosts` and `GetLastDaysPostsForGroup` over the
ordering `z`: from the midnight `now`, `n` windows of a day, each a day
before the one above. -/
def lastDaysPosts (z : ZSet) : Int → Nat → List PostEntry
  | _, 0 => []
  | now, n + 1 => ⟨now, z.count now (now + 86400)⟩ :: lastDaysPosts z (now - 86400) n

/-- `time.Date(now.Year(), now.Month(), now.Day(), 0, 0, 0, 0, time.UTC)` of
`now := time.Now().UTC()`, the clock reading `clock`. -/
def utcMidnight (clock : Int) : Int :=
  date (fields 0 clock).1 (fields 0 clock).2.1 (fields 0 clock).2.2

/-- `GetLastDaysPostsForGroup(newsgroup, n)` at the time `clock`. -/
def getLastDaysPostsForGroup (s : Index) (clock : Int) (newsgroup : String) (n : Int) :
    List PostEntry :=
  lastDaysPosts (s.groupArticlePostTime newsgroup) (utcMidnight clock) n.toNat

/-- `GetLastDaysPosts(n)` at the time `clock`. -/
def getLastDaysPosts (s : Index) (clock n : Int) : List PostEntry :=
  lastDaysPosts s.articleWKR (utcMidnight clock) n.toNat

theorem lastDaysPosts_eq (z : ZSet) (now : Int) (n : Nat) :
    lastDaysPosts z now n = (List.range n).map fun i =>
      ⟨now - i * 86400, z.count (now - i * 86400) (now - i * 86400 + 86400)⟩ := by
  induction n generalizing now with
  | zero => rfl
  | succ n ih =>
    have hback : ∀ i : Nat,
        now - 86400 - (i : Int) * 86400 = now - ((i + 1 : Nat) : Int) * 86400 := fun i => by omega
    have hzero : now - ((0 : Nat) : Int) * 86400 = now := by omega
    rw [lastDaysPosts, ih, List.range_succ_eq_map, List.map_cons, List.map_map]
    simp only [Function.comp_def, hback, hzero, Nat.succ_eq_add_one]

/-- For every index, clock and `n`, both queries return one entry for each of
the last `n` days, newest first: the entry of a day counts its ordering from
that day's midnight UTC to the next, both included. -/
theorem getLastDaysPosts_eq (s : Index) (clock n : Int) :
    let days : ZSet → List PostEntry := fun z => (List.range n.toNat).map fun i : Nat =>
      ⟨clock / 86400 * 86400 - i * 86400,
        z.count (clock / 86400 * 86400 - i * 86400) (clock / 86400 * 86400 - i * 86400 + 86400)⟩
    getLastDaysPosts s clock n = days s.articleWKR ∧
      ∀ newsgroup, getLastDaysPostsForGroup s clock newsgroup n =
        days (s.groupArticlePostTime newsgroup) := by
  have hmid : utcMidnight clock = clock / 86400 * 86400 := date_fields clock
  exact ⟨by rw [getLastDaysPosts, hmid, lastDaysPosts_eq],
    fun _ => by rw [getLastDaysPostsForGroup, hmid, lastDaysPosts_eq]⟩

/-! ## The monthly history -/

/-- The month loop of `GetMonthlyPostHistory` over the ordering `z`.  `old`
and `now` are firsts of months made by
`time.Date(y, m, 1, 0, 0, 0, 0, time.UTC)`, kept as their month numbers:
`monthStart` gives their `Unix()`, and `k / 12` and `k % 12 + 1` their
`Year()` and `Month()` (`fields_monthStart`).  `nowMonth` is `now.Month()`. -/
def monthlyLoop (z : ZSet) (nowMonth now old : Int) : List PostEntry :=
  if h : monthStart old ≤ monthStart now then
    let nextMonth := if nowMonth < 12 then monthNumber (old / 12) (old % 12 + 1 + 1)
      else monthNumber (old / 12 + 1) 1
    ⟨monthStart old, z.count (monthStart old) (monthStart nextMonth)⟩ ::
      monthlyLoop z nowMonth now nextMonth
  else []
termination_by (now + 1 - old).toNat
decreasing_by
  have := monthStart_le_monthStart.1 h
  simp only [monthNumber]
  split_ifs <;> omega

/-- `ZRangeWithScores(key, 0, 0)`: the score of the first member. -/
def firstScore (z : ZSet) : Option Int := (z.range 0 0).head?.bind z.score

/-- `GetMonthlyPostHistory()` at the time `clock`, in the local zone whose
offset from UTC at each instant is `zone`. -/
def getMonthlyPostHistory (s : Index) (zone : Int → Int) (clock : Int) : List PostEntry :=
  let now := fields (zone clock) clock
  match firstScore s.articleWKR with
  | none => []
  | some oldest =>
    let old := fields (zone oldest) oldest
    monthlyLoop s.articleWKR now.2.1 (monthNumber now.1 now.2.1) (monthNumber old.1 old.2.1)

section Loop

variable (z : ZSet) (nowMonth : Int) {now old : Int}

theorem monthlyLoop_of_lt (h : now < old) : monthlyLoop z nowMonth now old = [] := by
  rw [monthlyLoop, dif_neg (by rw [monthStart_le_monthStart]; omega)]

/-- One step of the loop: outside December to the next month, in December to
January of the next year. -/
theorem monthlyLoop_of_le (h : old ≤ now) :
    let nextMonth := if nowMonth < 12 then old + 1 else 12 * (old / 12 + 1)
    monthlyLoop z nowMonth now old =
      ⟨monthStart old, z.count (monthStart old) (monthStart nextMonth)⟩ ::
        monthlyLoop z nowMonth now nextMonth := by
  intro nextMonth
  have hnext : (if nowMonth < 12 then monthNumber (old / 12) (old % 12 + 1 + 1)
      else monthNumber (old / 12 + 1) 1) = nextMonth := by
    simp only [nextMonth, monthNumber]
    split_ifs <;> omega
  rw [monthlyLoop, dif_pos (monthStart_le_monthStart.2 h)]
  simp only [hnext]

/-- Outside December the loop has one entry a month from `old` through
`now`, each counting its month. -/
theorem monthlyLoop_of_lt_twelve (h : nowMonth < 12) (now old : Int) :
    monthlyLoop z nowMonth now old = (List.range (now + 1 - old).toNat).map fun i =>
      ⟨monthStart (old + i), z.count (monthStart (old + i)) (monthStart (old + i + 1))⟩ := by
  induction' hm : (now + 1 - old).toNat with m ih generalizing old
  · exact monthlyLoop_of_lt z nowMonth (by omega)
  · have hstep : ∀ i : Nat, old + 1 + (i : Int) = old + ((i + 1 : Nat) : Int) := fun i => by
      omega
    have hzero : old + ((0 : Nat) : Int) = old := by omega
    rw [monthlyLoop_of_le z nowMonth (by omega), if_pos h, ih (old + 1) (by omega),
      List.range_succ_eq_map, List.map_cons, List.map_map]
    simp only [Function.comp_def, hstep, hzero, Nat.succ_eq_add_one]

/-- In December the loop from a January has one entry a year, each counting
from its January to the next. -/
theorem monthlyLoop_twelve_january (now a : Int) :
    monthlyLoop z 12 now (12 * a) = (List.range (now / 12 + 1 - a).toNat).map fun j =>
      ⟨monthStart (12 * (a + j)), z.count (monthStart (12 * (a + j)))
        (monthStart (12 * (a + j + 1)))⟩ := by
  induction' hm : (now / 12 + 1 - a).toNat with m ih generalizing a
  · exact monthlyLoop_of_lt z 12 (by omega)
  · have hstep : ∀ j : Nat, a + 1 + (j : Int) = a + ((j + 1 : Nat) : Int) := fun j => by omega
    have hzero : a + ((0 : Nat) : Int) = a := by omega
    have hnext : 12 * (12 * a / 12 + 1) = 12 * (a + 1) := by omega
    rw [monthlyLoop_of_le z 12 (by omega), if_neg (by decide), hnext, ih (a + 1) (by omega),
      List.range_succ_eq_map, List.map_cons, List.map_map]
    simp only [Function.comp_def, hstep, hzero, Nat.succ_eq_add_one]

/-- In December the loop has the month of `old` and then one entry a year,
from the January after `old` to the last one up to `now`. -/
theorem monthlyLoop_of_twelve (h : nowMonth = 12) (now old : Int) :
    monthlyLoop z nowMonth now old =
      if old ≤ now then
        ⟨monthStart old, z.count (monthStart old) (monthStart (12 * (old / 12 + 1)))⟩ ::
          (List.range (now / 12 - old / 12).toNat).map fun j : Nat =>
            ⟨monthStart (12 * (old / 12 + 1 + j)), z.count (monthStart (12 * (old / 12 + 1 + j)))
              (monthStart (12 * (old / 12 + 1 + j + 1)))⟩
      else [] := by
  subst h
  split_ifs with hle
  · rw [monthlyLoop_of_le z 12 hle, if_neg (by decide), monthlyLoop_twelve_january,
      show now / 12 + 1 - (old / 12 + 1) = now / 12 - old / 12 by omega]
  · exact monthlyLoop_of_lt z 12 (by omega)

end Loop

/-- Outside December, for every index with a post and every zone, the history
has one entry for each month from that of the oldest score through the
current month, in order, each counting its month. -/
theorem getMonthlyPostHistory_months (s : Index) (zone : Int → Int) (clock oldest : Int)
    (hold : firstScore s.articleWKR = some oldest) (hmonth : (fields (zone clock) clock).2.1 < 12) :
    let k₀ := monthNumber (fields (zone oldest) oldest).1 (fields (zone oldest) oldest).2.1
    let kₙ := monthNumber (fields (zone clock) clock).1 (fields (zone clock) clock).2.1
    getMonthlyPostHistory s zone clock = (List.range (kₙ + 1 - k₀).toNat).map fun i : Nat =>
      ⟨monthStart (k₀ + i),
        s.articleWKR.count (monthStart (k₀ + i)) (monthStart (k₀ + i + 1))⟩ := by
  simp only [getMonthlyPostHistory, hold]
  exact monthlyLoop_of_lt_twelve _ _ hmonth _ _

/-- An article of 15 October 2026 seen on 20 November 2026: October and
November. -/
theorem getMonthlyPostHistory_months_november :
    let s : Index := run id Index.empty
      [.registerArticle 1792022400 ⟨"<a@x>", "g", "", "", "", "", 0, "", "", false, [], []⟩]
    firstScore s.articleWKR = some 1792022400 ∧ (fields 0 1795132800).2.1 < 12 ∧
      getMonthlyPostHistory s (fun _ => 0) 1795132800 =
        [⟨1790812800, 1⟩, ⟨1793491200, 0⟩] :=
  have hold : firstScore (run id Index.empty [.registerArticle 1792022400
      ⟨"<a@x>", "g", "", "", "", "", 0, "", "", false, [], []⟩]).articleWKR =
        some 1792022400 := by decide
  have hmonth : (fields 0 1795132800).2.1 < 12 := by decide
  ⟨hold, hmonth,
    (getMonthlyPostHistory_months _ (fun _ => 0) _ _ hold hmonth).trans (by decide)⟩

/-- In December, for every index with a post and every zone, the history has
the month of the oldest score and then one entry a year, for each January up
to the current one, each counting the whole year: every other month is
missing. -/
theorem getMonthlyPostHistory_december (s : Index) (zone : Int → Int) (clock oldest : Int)
    (hold : firstScore s.articleWKR = some oldest) (hmonth : (fields (zone clock) clock).2.1 = 12) :
    let k₀ := monthNumber (fields (zone oldest) oldest).1 (fields (zone oldest) oldest).2.1
    let kₙ := monthNumber (fields (zone clock) clock).1 (fields (zone clock) clock).2.1
    getMonthlyPostHistory s zone clock =
      if k₀ ≤ kₙ then
        ⟨monthStart k₀,
          s.articleWKR.count (monthStart k₀) (monthStart (12 * (k₀ / 12 + 1)))⟩ ::
          (List.range (kₙ / 12 - k₀ / 12).toNat).map fun j : Nat =>
            ⟨monthStart (12 * (k₀ / 12 + 1 + j)),
              s.articleWKR.count (monthStart (12 * (k₀ / 12 + 1 + j)))
                (monthStart (12 * (k₀ / 12 + 1 + j + 1)))⟩
      else [] := by
  simp only [getMonthlyPostHistory, hold]
  exact monthlyLoop_of_twelve _ _ hmonth _ _

/-- An article of 15 March 2025 seen on 10 December 2026: March 2025, then
January 2026 counting the whole of 2026. -/
theorem getMonthlyPostHistory_december_two_years :
    let s : Index := run id Index.empty
      [.registerArticle 1741996800 ⟨"<a@x>", "g", "", "", "", "", 0, "", "", false, [], []⟩]
    firstScore s.articleWKR = some 1741996800 ∧ (fields 0 1796860800).2.1 = 12 ∧
      getMonthlyPostHistory s (fun _ => 0) 1796860800 =
        [⟨1740787200, 1⟩, ⟨1767225600, 0⟩] :=
  have hold : firstScore (run id Index.empty [.registerArticle 1741996800
      ⟨"<a@x>", "g", "", "", "", "", 0, "", "", false, [], []⟩]).articleWKR =
        some 1741996800 := by decide
  have hmonth : (fields 0 1796860800).2.1 = 12 := by decide
  ⟨hold, hmonth,
    (getMonthlyPostHistory_december _ (fun _ => 0) _ _ hold hmonth).trans (by decide)⟩

unseal monthlyLoop in
/-- On 10 December 2026 at noon, with articles of 15 October and of midnight
10 December: the history has October alone, November and December missing,
and the last two days both count the article of midnight. -/
theorem postHistory_skips_months_and_counts_twice :
    let s : Index := run id Index.empty
      [.registerArticle 1792022400 ⟨"<a@x>", "g", "", "", "", "", 0, "", "", false, [], []⟩,
        .registerArticle 1796860800 ⟨"<b@x>", "g", "", "", "", "", 0, "", "", false, [], []⟩]
    (fields 0 1796904000).2.1 = 12 ∧
      getMonthlyPostHistory s (fun _ => 0) 1796904000 = [⟨1790812800, 2⟩] ∧
      getLastDaysPosts s 1796904000 2 = [⟨1796860800, 1⟩, ⟨1796774400, 1⟩] := by
  decide

end Srnd.Redis
