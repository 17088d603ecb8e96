import Mathlib

/-!
Feeds that are read page by page. A feed ends at its first page that is not full
and starts over after it; feeds that are read together have all ended when a
number of pages was read that every one of their page counts divides.
-/

namespace Authguard

structure Feed (α : Type) where
  items : List α
  limit : Nat
  limit_pos : 0 < limit

namespace Feed

variable {α : Type} (feed : Feed α)

/-- What is read from an offset on. -/
def slice (offset : Nat) : List α := (feed.items.drop offset).take feed.limit

def page (n : Nat) : List α := feed.slice (n * feed.limit)

/-- The pages up to the first that is not full. -/
def pageCount : Nat := feed.items.length / feed.limit + 1

theorem pageCount_pos : 0 < feed.pageCount := Nat.succ_pos _

theorem length_page_eq_limit {n : Nat} :
    (feed.page n).length = feed.limit ↔ n + 1 < feed.pageCount := by
  have hdiv : n + 1 ≤ feed.items.length / feed.limit ↔
      (n + 1) * feed.limit ≤ feed.items.length := Nat.le_div_iff_mul_le feed.limit_pos
  have hpos := feed.limit_pos
  rw [pageCount, Nat.add_lt_add_iff_right, ← Nat.succ_le_iff, Nat.succ_eq_add_one, hdiv, page, slice,
    List.length_take, List.length_drop, Nat.add_mul, Nat.one_mul]
  omega

theorem take_pages (count : Nat) :
    (List.range count).flatMap feed.page = feed.items.take (count * feed.limit) := by
  induction count with
  | zero => simp
  | succ count ih =>
      rw [List.range_succ, List.flatMap_append, ih, List.flatMap_singleton, Nat.succ_mul,
        List.take_add, page, slice]

theorem flatMap_page : (List.range feed.pageCount).flatMap feed.page = feed.items := by
  rw [take_pages, List.take_of_length_le]
  rw [pageCount, Nat.mul_comm]
  exact (Nat.lt_mul_div_succ _ feed.limit_pos).le

/-- The page that is read after a number of pages. -/
def turn (n : Nat) : List α := feed.page (n % feed.pageCount)

theorem turn_sublist (n : Nat) : (feed.turn n).Sublist feed.items :=
  (List.take_sublist _ _).trans (List.drop_sublist _ _)

/-- A full page is followed by the next, any other by the first. -/
theorem next_turn (n : Nat) :
    (n + 1) % feed.pageCount =
      if (feed.turn n).length = feed.limit then n % feed.pageCount + 1 else 0 := by
  have hlt := Nat.mod_lt n feed.pageCount_pos
  have hsplit : (n + 1) % feed.pageCount = (n % feed.pageCount + 1) % feed.pageCount := by
    rw [Nat.add_mod n 1, Nat.add_mod (n % feed.pageCount) 1, Nat.mod_mod]
  rw [hsplit, turn]
  by_cases hfull : n % feed.pageCount + 1 < feed.pageCount
  · rw [if_pos (feed.length_page_eq_limit.mpr hfull), Nat.mod_eq_of_lt hfull]
  · have hend : n % feed.pageCount + 1 = feed.pageCount := by omega
    rw [if_neg (mt feed.length_page_eq_limit.mp hfull), hend, Nat.mod_self]

/-- Every round returns the whole feed. -/
theorem flatMap_turn (rounds : Nat) :
    (List.range (rounds * feed.pageCount)).flatMap feed.turn =
      (List.replicate rounds feed.items).flatten := by
  induction rounds with
  | zero => simp
  | succ rounds ih =>
      have hround : (List.range feed.pageCount).flatMap
          (fun n => feed.turn (rounds * feed.pageCount + n)) = feed.items := by
        rw [← feed.flatMap_page]
        apply List.flatMap_congr
        intro n hn
        rw [turn, Nat.mul_add_mod_self_right, Nat.mod_eq_of_lt (List.mem_range.mp hn)]
      rw [Nat.succ_mul, List.range_add, List.flatMap_append, ih, List.flatMap_map, hround,
        List.replicate_succ', List.flatten_append, List.flatten_singleton]

/-! Feeds that are read together. -/

variable (feeds : List (Feed α))

/-- The pages after which all feeds have ended. -/
def round : Nat := Multiset.lcm (feeds.map pageCount : List Nat)

variable {feeds}

theorem pageCount_dvd_round {feed : Feed α} (h : feed ∈ feeds) : feed.pageCount ∣ round feeds :=
  Multiset.dvd_lcm (Multiset.mem_coe.mpr (List.mem_map_of_mem h))

theorem round_dvd {n : Nat} (h : ∀ feed ∈ feeds, feed.pageCount ∣ n) : round feeds ∣ n := by
  refine Multiset.lcm_dvd.mpr ?_
  intro count hcount
  obtain ⟨feed, hfeed, rfl⟩ := List.mem_map.mp (Multiset.mem_coe.mp hcount)
  exact h feed hfeed

theorem round_pos : 0 < round feeds := by
  rw [Nat.pos_iff_ne_zero, round, Ne, Multiset.lcm_eq_zero_iff]
  intro hzero
  obtain ⟨feed, -, hcount⟩ := List.mem_map.mp (Multiset.mem_coe.mp hzero)
  exact feed.pageCount_pos.ne' hcount

theorem flatMap_turn_round {feed : Feed α} (h : feed ∈ feeds) :
    (List.range (round feeds)).flatMap feed.turn =
      (List.replicate (round feeds / feed.pageCount) feed.items).flatten := by
  rw [← feed.flatMap_turn, Nat.div_mul_cancel (pageCount_dvd_round h)]

variable (keep : α → Bool)

variable (feeds) in
/-- What is kept of the pages the feeds return together. -/
def turns (n : Nat) : List α := feeds.flatMap fun feed => (feed.turn n).filter keep

variable (feeds) in
theorem turns_sublist (n : Nat) : (turns feeds keep n).Sublist (feeds.flatMap items) :=
  List.Sublist.flatMap_right _ fun feed _ => List.filter_sublist.trans (feed.turn_sublist n)

variable (feeds) in
theorem flatMap_turns_perm :
    ((List.range (round feeds)).flatMap (turns feeds keep)).Perm (feeds.flatMap fun feed =>
      (List.replicate (round feeds / feed.pageCount) feed.items).flatten.filter keep) := by
  have hswap : ((List.range (round feeds)).flatMap (turns feeds keep)).Perm
      (feeds.flatMap fun feed =>
        (List.range (round feeds)).flatMap fun n => (feed.turn n).filter keep) := by
    rw [← Multiset.coe_eq_coe]
    simp only [turns, ← Multiset.coe_bind]
    exact Multiset.bind_bind _ _
  refine hswap.trans (List.Perm.of_eq ?_)
  apply List.flatMap_congr
  intro feed hfeed
  rw [← flatMap_turn_round hfeed, List.filter_flatMap]

/-- A feed that returns something returns it once when it lasts for the whole round. -/
theorem flatMap_turns_perm_iff (hnodup : (feeds.flatMap items).Nodup) :
    ((List.range (round feeds)).flatMap (turns feeds keep)).Perm
        (feeds.flatMap fun feed => feed.items.filter keep) ↔
      ∀ feed ∈ feeds, feed.items.filter keep ≠ [] →
        ∀ other ∈ feeds, other.pageCount ∣ feed.pageCount := by
  rw [(flatMap_turns_perm feeds keep).congr_left]
  constructor
  · intro hperm feed hfeed hkept
    obtain ⟨item, hitem⟩ := List.exists_mem_of_ne_nil _ hkept
    have hkeep : (feeds.flatMap fun feed => feed.items.filter keep).Nodup := by
      rw [← List.filter_flatMap]
      exact hnodup.filter _
    have honce : ((List.replicate (round feeds / feed.pageCount) feed.items).flatten.filter
        keep).Nodup := (List.nodup_flatMap.mp (hperm.nodup_iff.mpr hkeep)).1 feed hfeed
    have hround := Nat.div_mul_cancel (pageCount_dvd_round hfeed)
    have hsingle : round feeds = feed.pageCount := by
      rcases hcount : round feeds / feed.pageCount with _ | _ | count
      · rw [hcount, Nat.zero_mul] at hround
        exact absurd hround.symm round_pos.ne'
      · rw [← hround, hcount, Nat.zero_add, Nat.one_mul]
      · rw [hcount, List.replicate_succ, List.replicate_succ, List.flatten_cons,
          List.flatten_cons, List.filter_append, List.filter_append] at honce
        exact absurd (List.mem_append_left _ hitem) (List.disjoint_of_nodup_append honce hitem)
    intro other hother
    rw [← hsingle]
    exact pageCount_dvd_round hother
  · intro haligned
    refine List.Perm.of_eq (List.flatMap_congr ?_)
    intro feed hfeed
    by_cases hkept : feed.items.filter keep = []
    · rw [hkept, List.filter_flatten, List.map_replicate, hkept, List.flatten_replicate_nil]
    · have hround : round feeds = feed.pageCount :=
        Nat.dvd_antisymm (round_dvd (haligned feed hfeed hkept)) (pageCount_dvd_round hfeed)
      rw [hround, Nat.div_self feed.pageCount_pos, List.replicate_one, List.flatten_singleton]

end Feed

end Authguard
