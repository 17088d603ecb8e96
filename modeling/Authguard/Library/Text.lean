import Authguard.Library.Pieces

/-!
Splitting and joining of text, with the laws the parsers below rely on.
The operations follow the documented behaviour of the Rust standard library;
their proofs run on character lists, where equality is decided by evaluation.
-/

namespace Authguard.Text

/-- Unicode `White_Space`, as `char::is_whitespace` reads it. -/
def isWhitespace (c : Char) : Bool :=
  let n := c.toNat
  (9 ≤ n && n ≤ 13) || n == 0x20 || n == 0x85 || n == 0xA0 || n == 0x1680 ||
    (0x2000 ≤ n && n ≤ 0x200A) || n == 0x2028 || n == 0x2029 || n == 0x202F ||
    n == 0x205F || n == 0x3000

/-- `value.trim().is_empty()`. -/
def isBlank (s : String) : Bool := s.toList.all isWhitespace

def trim (s : String) : String :=
  String.ofList ((s.toList.dropWhile isWhitespace).reverse.dropWhile isWhitespace).reverse

/-- Unicode `Cc`, as `char::is_control` reads it. -/
def isControl (c : Char) : Bool :=
  let n := c.toNat
  n ≤ 0x1F || (0x7F ≤ n && n ≤ 0x9F)

def eqIgnoreAsciiCase (s t : String) : Bool :=
  s.toList.map Char.toLower == t.toList.map Char.toLower

def toAsciiLowercase (s : String) : String := String.ofList (s.toList.map Char.toLower)

def contains (c : Char) (s : String) : Bool := s.toList.contains c

/-- `str::split` at a character. -/
def splitChar (c : Char) (s : String) : List String :=
  (s.toList.splitOn c).map String.ofList

def splitNList (c : Char) : Nat → List Char → List (List Char)
  | 0, _ => []
  | 1, cs => [cs]
  | n + 2, cs =>
      match cs.dropWhile (· != c) with
      | [] => [cs]
      | _ :: rest => cs.takeWhile (· != c) :: splitNList c (n + 1) rest

/-- `str::splitn`: at most `n` pieces, the last one keeping any further separators. -/
def splitN (n : Nat) (c : Char) (s : String) : List String :=
  (splitNList c n s.toList).map String.ofList

/-- `str::split_once` at a character. -/
def splitOnce (c : Char) (s : String) : Option (String × String) :=
  match splitN 2 c s with
  | [first, rest] => some (first, rest)
  | _ => none

/-- `Vec::dedup` drops consecutive repetitions. -/
def dedup : List String → List String
  | [] => []
  | [value] => [value]
  | value :: next :: rest =>
      if value = next then dedup (next :: rest) else value :: dedup (next :: rest)

def sortDedup (values : List String) : List String := dedup (values.insertionSort (· ≤ ·))

theorem intercalate_splitNList (c : Char) (n : Nat) (cs : List Char) :
    [c].intercalate (splitNList c (n + 1) cs) = cs := by
  induction n generalizing cs with
  | zero => simp [splitNList]
  | succ n ih =>
      have hsplit := List.takeWhile_append_dropWhile (p := (· != c)) (l := cs)
      simp only [splitNList]
      cases hd : cs.dropWhile (· != c) with
      | nil => simp
      | cons d rest =>
          have hne : splitNList c (n + 1) rest ≠ [] := by
            intro h
            cases n with
            | zero => simp [splitNList] at h
            | succ n =>
                simp only [splitNList] at h
                split at h <;> simp at h
          have hdc : d = c := by
            have hhead := List.head_dropWhile_not (· != c) (l := cs) (by simp [hd])
            simpa [hd] using hhead
          rw [List.intercalate_cons_of_ne_nil hne, ih rest]
          rw [hd, hdc] at hsplit
          simpa using hsplit

theorem intercalate_splitN (c : Char) (n : Nat) (s : String) :
    (String.singleton c).intercalate (splitN (n + 1) c s) = s := by
  rw [← String.toList_inj, String.toList_intercalate]
  have hmap : (splitN (n + 1) c s).map String.toList = splitNList c (n + 1) s.toList := by
    simp [splitN, List.map_map, Function.comp_def]
  rw [hmap]
  simpa using intercalate_splitNList c n s.toList

theorem intercalate_splitChar (c : Char) (s : String) :
    (String.singleton c).intercalate (splitChar c s) = s := by
  rw [← String.toList_inj, String.toList_intercalate]
  have hmap : (splitChar c s).map String.toList = s.toList.splitOn c := by
    simp [splitChar, List.map_map, Function.comp_def]
  rw [hmap, String.toList_singleton]
  exact List.intercalate_splitOn c

theorem splitChar_intercalate (c : Char) (pieces : List String) (hne : pieces ≠ [])
    (free : ∀ s ∈ pieces, c ∉ s.toList) :
    splitChar c ((String.singleton c).intercalate pieces) = pieces := by
  have hsplit : ([c].intercalate (pieces.map String.toList)).splitOn c =
      pieces.map String.toList :=
    List.splitOn_intercalate c (by simpa using free) (by simpa using hne)
  simp only [splitChar, String.toList_intercalate, String.toList_singleton, hsplit,
    List.map_map, Function.comp_def, String.ofList_toList, List.map_id']

theorem splitChar_piece_free (c : Char) (s piece : String) (h : piece ∈ splitChar c s) :
    c ∉ piece.toList := by
  obtain ⟨cs, hcs, rfl⟩ := List.mem_map.mp h
  rw [String.toList_ofList]
  exact Pieces.piece_free c hcs

theorem splitChar_ne_nil (c : Char) (s : String) : splitChar c s ≠ [] := by
  simp [splitChar, List.splitOn_ne_nil]

theorem splitNList_intercalate (c : Char) (init : List (List Char)) (last : List Char)
    (h : ∀ piece ∈ init, c ∉ piece) :
    splitNList c (init.length + 1) ([c].intercalate (init ++ [last])) = init ++ [last] := by
  induction init with
  | nil => simp [splitNList]
  | cons piece init ih =>
      have hkeep : ∀ d ∈ piece, (d != c) = true := by
        intro d hd
        rw [bne_iff_ne]
        exact fun heq => h piece List.mem_cons_self (heq ▸ hd)
      have hrest := ih fun piece hpiece => h piece (List.mem_cons_of_mem _ hpiece)
      rw [List.cons_append, List.intercalate_cons_of_ne_nil (by simp), List.append_assoc,
        List.singleton_append, List.length_cons]
      simp only [splitNList, List.dropWhile_append_of_pos hkeep, List.takeWhile_append_of_pos hkeep]
      simp [hrest]

theorem splitNList_init_free (c : Char) {n : Nat} {cs last : List Char} {init : List (List Char)}
    (h : splitNList c (n + 1) cs = init ++ [last]) : ∀ piece ∈ init, c ∉ piece := by
  induction n generalizing cs init with
  | zero =>
      have hinit : init = [] := by
        have hlength := congrArg List.length h
        simpa [splitNList] using hlength
      simp [hinit]
  | succ n ih =>
      simp only [splitNList] at h
      cases hdrop : cs.dropWhile (· != c) with
      | nil =>
          rw [hdrop] at h
          have hinit : init = [] := by
            have hlength := congrArg List.length h
            simpa using hlength
          simp [hinit]
      | cons d rest =>
          rw [hdrop] at h
          cases init with
          | nil => simp
          | cons first init =>
              rw [List.cons_append, List.cons.injEq] at h
              intro piece hpiece
              cases List.mem_cons.mp hpiece with
              | inl heq =>
                  rw [heq, ← h.1]
                  intro hmem
                  have hkept := List.mem_takeWhile_imp hmem
                  simp at hkept
              | inr hmem => exact ih h.2 piece hmem

theorem splitN_intercalate (c : Char) (init : List String) (last : String)
    (h : ∀ piece ∈ init, c ∉ piece.toList) :
    splitN (init.length + 1) c ((String.singleton c).intercalate (init ++ [last])) =
      init ++ [last] := by
  have hsplit := splitNList_intercalate c (init.map String.toList) last.toList
    (by simpa using h)
  rw [List.length_map] at hsplit
  simp only [splitN, String.toList_intercalate, String.toList_singleton, List.map_append,
    List.map_cons, List.map_nil, hsplit]
  simp [List.map_map, Function.comp_def]

theorem splitN_init_free (c : Char) {n : Nat} {s last : String} {init : List String}
    (h : splitN (n + 1) c s = init ++ [last]) : ∀ piece ∈ init, c ∉ piece.toList := by
  have hlists := congrArg (List.map String.toList) h
  simp only [splitN, List.map_map, Function.comp_def, String.toList_ofList, List.map_id',
    List.map_append, List.map_cons, List.map_nil] at hlists
  intro piece hpiece
  exact splitNList_init_free c hlists piece.toList (List.mem_map_of_mem hpiece)

theorem mem_intercalate {c : Char} {sep : String} (hsep : c ∉ sep.toList) {pieces : List String} :
    c ∈ (sep.intercalate pieces).toList ↔ ∃ piece ∈ pieces, c ∈ piece.toList := by
  rw [String.toList_intercalate]
  induction pieces with
  | nil => simp
  | cons piece rest ih =>
      cases rest with
      | nil => simp
      | cons next rest =>
          rw [List.map_cons, List.intercalate_cons_of_ne_nil (by simp), List.mem_append,
            List.mem_append, ih]
          simp [hsep]

theorem splitOnce_append {c : Char} {first : String} (rest : String) (h : c ∉ first.toList) :
    splitOnce c (first ++ String.singleton c ++ rest) = some (first, rest) := by
  have hkeep : ∀ d ∈ first.toList, (d != c) = true := by
    intro d hd
    rw [bne_iff_ne]
    exact fun heq => h (heq ▸ hd)
  have hlist : (first ++ String.singleton c ++ rest).toList =
      first.toList ++ (c :: rest.toList) := by
    simp
  simp only [splitOnce, splitN, hlist, splitNList, List.dropWhile_append_of_pos hkeep,
    List.takeWhile_append_of_pos hkeep]
  simp

theorem splitOnce_eq_some {c : Char} {s first rest : String} :
    splitOnce c s = some (first, rest) ↔
      s = first ++ String.singleton c ++ rest ∧ c ∉ first.toList := by
  constructor
  · intro h
    simp only [splitOnce, splitN] at h
    cases hdrop : s.toList.dropWhile (· != c) with
    | nil => simp [splitNList, hdrop] at h
    | cons sep tail =>
        have hsep : sep = c := by
          have hhead := List.head?_dropWhile_not (· != c) s.toList
          rw [hdrop] at hhead
          simpa using hhead
        simp only [splitNList, hdrop, List.map_cons, List.map_nil, Option.some.injEq,
          Prod.mk.injEq] at h
        obtain ⟨rfl, rfl⟩ := h
        constructor
        · rw [← String.toList_inj]
          simp only [String.toList_append, String.toList_ofList, String.toList_singleton,
            List.append_assoc, List.singleton_append]
          rw [← hsep, ← hdrop, hsep, List.takeWhile_append_dropWhile]
        · rw [String.toList_ofList]
          intro hmem
          simpa using List.mem_takeWhile_imp hmem
  · rintro ⟨rfl, hfree⟩
    exact splitOnce_append rest hfree

/-- Lower case touches letters only, and writes letters. -/
theorem toLower_eq_iff {c d : Char} (hd : d.isAlpha = false) : c.toLower = d ↔ c = d := by
  have hcode : (d.toNat < 65 ∨ 90 < d.toNat) ∧ (d.toNat < 97 ∨ 122 < d.toNat) := by
    simp only [Char.isAlpha, Char.isUpper, Char.isLower, Bool.or_eq_false_iff, Bool.and_eq_false_iff,
      decide_eq_false_iff_not, ge_iff_le, UInt32.le_iff_toNat_le, not_le] at hd
    obtain ⟨hupper, hlower⟩ := hd
    change ¬(65 ≤ d.toNat ∧ d.toNat ≤ 90) at hupper
    change d.toNat < 97 ∨ 122 < d.toNat at hlower
    exact ⟨by omega, hlower⟩
  unfold Char.toLower
  split
  · rename_i hupper
    have hc : 65 ≤ c.toNat ∧ c.toNat ≤ 90 := by
      obtain ⟨hlow, hhigh⟩ := hupper
      rw [ge_iff_le, UInt32.le_iff_toNat_le] at hlow
      rw [UInt32.le_iff_toNat_le] at hhigh
      exact ⟨hlow, hhigh⟩
    constructor
    · intro h
      have hsum : (c.val + ('a'.val - 'A'.val)).toNat = c.toNat + 32 := by
        rw [UInt32.toNat_add]
        change (c.toNat + 32) % 2 ^ 32 = _
        omega
      have hval := congrArg Char.toNat h
      change (c.val + ('a'.val - 'A'.val)).toNat = d.toNat at hval
      omega
    · rintro rfl
      omega
  · rfl

theorem trim_eq_self {s : String} (h : ∀ c ∈ s.toList, isWhitespace c = false) : trim s = s := by
  have hkeep : ∀ cs : List Char, (∀ c ∈ cs, isWhitespace c = false) →
      cs.dropWhile isWhitespace = cs := by
    intro cs hcs
    cases cs with
    | nil => rfl
    | cons c cs => exact List.dropWhile_cons_of_neg (by simp [hcs c List.mem_cons_self])
  rw [trim, hkeep _ h, hkeep _ (by simpa using h), List.reverse_reverse, String.ofList_toList]

/-! Sorted texts without repetitions. -/

theorem mem_dedup {value : String} {values : List String} :
    value ∈ dedup values ↔ value ∈ values := by
  fun_induction dedup values with
  | case1 | case2 => rfl
  | case3 first rest ih => simp [ih]
  | case4 first next rest hne ih => rw [List.mem_cons, ih, ← List.mem_cons]

theorem mem_sortDedup {value : String} {values : List String} :
    value ∈ sortDedup values ↔ value ∈ values := by
  rw [sortDedup, mem_dedup, List.mem_insertionSort]

theorem sortDedup_perm {values values' : List String} (h : values.Perm values') :
    sortDedup values = sortDedup values' := by
  have hsorted : values.insertionSort (· ≤ ·) = values'.insertionSort (· ≤ ·) := by
    have hperm := (List.perm_insertionSort (· ≤ ·) values).trans
      (h.trans (List.perm_insertionSort (· ≤ ·) values').symm)
    apply hperm.eq_of_pairwise
    · intro a b _ _ hab hba
      exact le_antisymm hab hba
    · exact List.pairwise_insertionSort _ _
    · exact List.pairwise_insertionSort _ _
  rw [sortDedup, sortDedup, hsorted]

theorem dedup_sublist (values : List String) : (dedup values).Sublist values := by
  fun_induction dedup values with
  | case1 => exact .slnil
  | case2 value => exact .refl _
  | case3 value rest ih => exact ih.cons value
  | case4 value next rest hne ih => exact ih.cons_cons value

theorem dedup_strictly {values : List String} (h : values.Pairwise (· ≤ ·)) :
    (dedup values).Pairwise (· < ·) := by
  fun_induction dedup values with
  | case1 => exact .nil
  | case2 value => exact List.pairwise_singleton _ _
  | case3 value rest ih => exact ih h.tail
  | case4 value next rest hne ih =>
      refine List.pairwise_cons.mpr ⟨?_, ih h.tail⟩
      intro other hother
      have hnext : value ≤ next := (List.pairwise_cons.mp h).1 next List.mem_cons_self
      have hafter : next ≤ other := by
        cases List.mem_cons.mp ((dedup_sublist _).subset hother) with
        | inl heq => exact heq ▸ le_rfl
        | inr hmem => exact (List.pairwise_cons.mp h.tail).1 other hmem
      exact lt_of_lt_of_le (lt_of_le_of_ne hnext hne) hafter

theorem dedup_eq_self {values : List String} (h : values.Pairwise (· < ·)) :
    dedup values = values := by
  fun_induction dedup values with
  | case1 => rfl
  | case2 value => rfl
  | case3 value rest ih =>
      exact absurd ((List.pairwise_cons.mp h).1 value List.mem_cons_self) (lt_irrefl value)
  | case4 value next rest hne ih => rw [ih h.tail]

theorem sortDedup_strictly (values : List String) : (sortDedup values).Pairwise (· < ·) :=
  dedup_strictly (List.pairwise_insertionSort (· ≤ ·) values)

theorem sortDedup_eq_self {values : List String} (h : values.Pairwise (· < ·)) :
    sortDedup values = values := by
  rw [sortDedup, (h.imp le_of_lt).insertionSort_eq]
  exact dedup_eq_self h

theorem sortDedup_length_le (values : List String) :
    (sortDedup values).length ≤ values.length :=
  (dedup_sublist _).length_le.trans_eq (List.length_insertionSort _ _)

theorem sortDedup_sum_le (size : String → Nat) (values : List String) :
    ((sortDedup values).map size).sum ≤ (values.map size).sum := by
  have hperm : ((values.insertionSort (· ≤ ·)).map size).Perm (values.map size) :=
    (List.perm_insertionSort _ values).map size
  exact (((dedup_sublist _).map size).sum_le_sum fun _ _ => Nat.zero_le _).trans_eq hperm.sum_eq

end Authguard.Text
