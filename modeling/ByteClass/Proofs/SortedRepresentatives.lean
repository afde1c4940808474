import ByteClass.Proofs.CaseInsensitivePreorder
import Mathlib.Data.List.Forall2
import Mathlib.Data.List.Perm.Basic

/-!
# Sorting without regard to case and dropping repeats

Sorting is stable, so equal strings stand side by side and in the order that
they came in.  Dropping repeats then keeps the first string of every class of
equal ones, in increasing order.  Which classes there are does not depend on the
order of the list, so any rearrangement has equal representatives.
-/

namespace ByteClass

variable {first second third item kept : List UInt8}
  {items : List (List UInt8)}

/-- The first string does not come behind the second. -/
def NotBehind (first second : List UInt8) : Prop :=
  (compareIgnoringCase first second).isLE = true

/-- The first string comes in front of the second and does not equal it. -/
def Before (first second : List UInt8) : Prop :=
  compareIgnoringCase first second = .lt

theorem NotBehind.trans (front : NotBehind first second)
    (back : NotBehind second third) : NotBehind first third :=
  Std.TransCmp.isLE_trans front back

theorem isLE_or_isLE (first second : List UInt8) :
    ((compareIgnoringCase first second).isLE ||
      (compareIgnoringCase second first).isLE) = true := by
  have swapped : compareIgnoringCase second first =
      (compareIgnoringCase first second).swap := Std.OrientedCmp.eq_swap
  rw [swapped]
  cases compareIgnoringCase first second <;> rfl

theorem Before.notBehind (before : Before first second) :
    NotBehind first second := by
  rw [NotBehind, before]
  rfl

theorem Before.trans (front : Before first second)
    (back : Before second third) : Before first third :=
  Std.TransCmp.lt_trans front back

theorem equalIgnoringCase_self (item : List UInt8) :
    equalIgnoringCase item item = true :=
  equalIgnoringCase_iff.mpr rfl

theorem equalIgnoringCase_comm (first second : List UInt8) :
    equalIgnoringCase first second = equalIgnoringCase second first := by
  rw [Bool.eq_iff_iff, equalIgnoringCase_iff, equalIgnoringCase_iff, eq_comm]

/-- Equal strings are equal to the same strings. -/
theorem equalIgnoringCase_congr (alike : equalIgnoringCase first second = true)
    (third : List UInt8) :
    equalIgnoringCase first third = equalIgnoringCase second third := by
  rw [equalIgnoringCase_iff] at alike
  rw [Bool.eq_iff_iff, equalIgnoringCase_iff, equalIgnoringCase_iff, alike]

theorem Before.equalIgnoringCase_eq_false (before : Before first second) :
    equalIgnoringCase first second = false := by
  rw [← Bool.not_eq_true, ← compareIgnoringCase_eq_eq_iff, before]
  decide

theorem NotBehind.before (ordered : NotBehind first second)
    (different : ¬ equalIgnoringCase second first = true) :
    Before first second := by
  rw [equalIgnoringCase_comm, ← compareIgnoringCase_eq_eq_iff] at different
  unfold NotBehind at ordered
  unfold Before
  cases order : compareIgnoringCase first second with
  | lt => rfl
  | eq => exact absurd order different
  | gt => simp [order] at ordered

theorem sortIgnoringCase_perm (items : List (List UInt8)) :
    (sortIgnoringCase items).Perm items :=
  List.mergeSort_perm items _

theorem pairwise_sortIgnoringCase (items : List (List UInt8)) :
    (sortIgnoringCase items).Pairwise NotBehind :=
  @List.pairwise_mergeSort _
    (fun first second => (compareIgnoringCase first second).isLE)
    (fun _ _ _ => NotBehind.trans) isLE_or_isLE items

theorem sortIgnoringCase_of_pairwise (sorted : items.Pairwise NotBehind) :
    sortIgnoringCase items = items :=
  List.mergeSort_of_pairwise sorted

/-- A class of equal strings keeps its order: it is a sorted sublist already,
stays a sublist of the sorted list, and grows by no string there. -/
theorem filter_sortIgnoringCase (item : List UInt8)
    (items : List (List UInt8)) :
    (sortIgnoringCase items).filter (equalIgnoringCase item) =
      items.filter (equalIgnoringCase item) := by
  have alike : (items.filter (equalIgnoringCase item)).Pairwise NotBehind := by
    apply List.pairwise_of_forall_mem_list
    intro first firstAmong second secondAmong
    have firstEqual := (List.mem_filter.mp firstAmong).2
    have secondEqual := (List.mem_filter.mp secondAmong).2
    rw [equalIgnoringCase_iff] at firstEqual secondEqual
    have tie : compareIgnoringCase first second = .eq := by
      rw [compareIgnoringCase_eq_eq_iff, equalIgnoringCase_iff, ← firstEqual,
        secondEqual]
    rw [NotBehind, tie]
    rfl
  have kept : (items.filter (equalIgnoringCase item)).Sublist
      (sortIgnoringCase items) :=
    @List.sublist_mergeSort _
      (fun first second => (compareIgnoringCase first second).isLE) _
      (fun _ _ _ => NotBehind.trans) isLE_or_isLE _ alike List.filter_sublist
  have within := kept.filter (equalIgnoringCase item)
  simp only [List.filter_filter, Bool.and_self] at within
  have sizes := ((sortIgnoringCase_perm items).filter
    (equalIgnoringCase item)).length_eq
  exact (within.eq_of_length sizes.symm).symm

/-- What is kept increases: an item is skipped exactly if it equals the last one
kept, and otherwise comes behind it. -/
theorem pairwise_dropRepeatsOf (sorted : (kept :: items).Pairwise NotBehind) :
    (kept :: dropRepeatsOf kept items).Pairwise Before := by
  induction items generalizing kept with
  | nil => simp [dropRepeatsOf]
  | cons item items ih =>
      obtain ⟨keptFirst, rest⟩ := List.pairwise_cons.mp sorted
      by_cases repeated : equalIgnoringCase item kept = true
      · rw [dropRepeatsOf, if_pos repeated]
        apply ih
        exact sorted.sublist ((List.sublist_cons_self item items).cons_cons kept)
      · have increasing := ih rest
        have ahead : Before kept item :=
          (keptFirst item List.mem_cons_self).before repeated
        rw [dropRepeatsOf, if_neg repeated, List.pairwise_cons]
        refine ⟨fun other among => ?_, increasing⟩
        rcases List.mem_cons.mp among with rfl | later
        · exact ahead
        · exact ahead.trans ((List.pairwise_cons.mp increasing).1 other later)

theorem dropRepeatsOf_of_pairwise (increasing : (kept :: items).Pairwise Before) :
    dropRepeatsOf kept items = items := by
  induction items generalizing kept with
  | nil => rfl
  | cons item items ih =>
      obtain ⟨keptFirst, rest⟩ := List.pairwise_cons.mp increasing
      have ahead := keptFirst item List.mem_cons_self
      have different : ¬ equalIgnoringCase item kept = true := by
        rw [equalIgnoringCase_comm, ahead.equalIgnoringCase_eq_false]
        decide
      rw [dropRepeatsOf, if_neg different, ih rest]

/-- Of every class the first item is kept and no other. -/
theorem filter_dropRepeatsOf (item : List UInt8)
    (sorted : (kept :: items).Pairwise NotBehind) :
    (kept :: dropRepeatsOf kept items).filter (equalIgnoringCase item) =
      ((kept :: items).filter (equalIgnoringCase item)).take 1 := by
  induction items generalizing kept with
  | nil =>
      rw [dropRepeatsOf, List.take_of_length_le]
      exact List.length_filter_le _ [kept]
  | cons other items ih =>
      obtain ⟨keptFirst, rest⟩ := List.pairwise_cons.mp sorted
      by_cases alike : equalIgnoringCase item kept = true
      · have increasing := List.pairwise_cons.mp (pairwise_dropRepeatsOf sorted)
        have unlike : (dropRepeatsOf kept (other :: items)).filter
            (equalIgnoringCase item) = [] := by
          rw [List.filter_eq_nil_iff]
          intro later among
          have apart :=
            (increasing.1 later among).equalIgnoringCase_eq_false
          rw [equalIgnoringCase_congr alike later, apart]
          decide
        rw [List.filter_cons_of_pos alike, List.filter_cons_of_pos alike,
          unlike]
        rfl
      · rw [List.filter_cons_of_neg alike, List.filter_cons_of_neg alike]
        by_cases repeated : equalIgnoringCase other kept = true
        · have shorter := ih (sorted.sublist
            ((List.sublist_cons_self other items).cons_cons kept))
          rw [List.filter_cons_of_neg alike, List.filter_cons_of_neg alike]
            at shorter
          have skipped : ¬ equalIgnoringCase item other = true := by
            rwa [equalIgnoringCase_comm, equalIgnoringCase_congr repeated,
              equalIgnoringCase_comm]
          rw [dropRepeatsOf, if_pos repeated, shorter,
            List.filter_cons_of_neg skipped]
        · rw [dropRepeatsOf, if_neg repeated]
          exact ih rest

/-- Sort and drop repeats: one item of each class. -/
def representatives (items : List (List UInt8)) : List (List UInt8) :=
  dropRepeats (sortIgnoringCase items)

theorem pairwise_representatives (items : List (List UInt8)) :
    (representatives items).Pairwise Before := by
  have sorted := pairwise_sortIgnoringCase items
  unfold representatives
  cases order : sortIgnoringCase items with
  | nil => exact .nil
  | cons kept rest => exact pairwise_dropRepeatsOf (order ▸ sorted)

/-- Of every class the item that comes first in the list is kept, and no
other. -/
theorem filter_representatives (item : List UInt8)
    (items : List (List UInt8)) :
    (representatives items).filter (equalIgnoringCase item) =
      (items.find? (equalIgnoringCase item)).toList := by
  have sorted := pairwise_sortIgnoringCase items
  rw [← List.head?_filter, ← filter_sortIgnoringCase item items,
    ← List.take_one, representatives]
  cases order : sortIgnoringCase items with
  | nil => rfl
  | cons kept rest => exact filter_dropRepeatsOf item (order ▸ sorted)

theorem exists_representative (among : item ∈ items) :
    ∃ first, items.find? (equalIgnoringCase item) = some first ∧
      (representatives items).filter (equalIgnoringCase item) = [first] := by
  have found : (items.find? (equalIgnoringCase item)).isSome = true :=
    List.find?_isSome.mpr ⟨item, among, equalIgnoringCase_self item⟩
  obtain ⟨first, equal⟩ := Option.isSome_iff_exists.mp found
  exact ⟨first, equal, by rw [filter_representatives, equal]; rfl⟩

theorem mem_of_mem_representatives (member : item ∈ representatives items) :
    item ∈ items := by
  have kept : item ∈ (representatives items).filter (equalIgnoringCase item) :=
    List.mem_filter.mpr ⟨member, equalIgnoringCase_self item⟩
  rw [filter_representatives, Option.mem_toList] at kept
  exact List.mem_of_find?_eq_some kept

theorem sortIgnoringCase_representatives (items : List (List UInt8)) :
    sortIgnoringCase (representatives items) = representatives items :=
  sortIgnoringCase_of_pairwise
    ((pairwise_representatives items).imp Before.notBehind)

theorem dropRepeats_representatives (items : List (List UInt8)) :
    dropRepeats (representatives items) = representatives items := by
  have increasing := pairwise_representatives items
  cases kept : representatives items with
  | nil => rfl
  | cons first rest =>
      rw [kept] at increasing
      rw [dropRepeats, dropRepeatsOf_of_pairwise increasing]

/-- The lower-case copies of the representatives are those of the items. -/
theorem mem_map_representatives (word : List UInt8)
    (items : List (List UInt8)) :
    word ∈ (representatives items).map (List.map toLower) ↔
      word ∈ items.map (List.map toLower) := by
  rw [List.mem_map, List.mem_map]
  constructor
  · rintro ⟨item, member, rfl⟩
    exact ⟨item, mem_of_mem_representatives member, rfl⟩
  · rintro ⟨item, among, rfl⟩
    obtain ⟨first, _, only⟩ := exists_representative among
    have kept : first ∈ (representatives items).filter
        (equalIgnoringCase item) := by
      rw [only]
      exact List.mem_singleton_self first
    obtain ⟨member, alike⟩ := List.mem_filter.mp kept
    exact ⟨first, member, (equalIgnoringCase_iff.mp alike).symm⟩

theorem pairwise_map_representatives (items : List (List UInt8)) :
    ((representatives items).map (List.map toLower)).Pairwise
      fun first second => compare first second = .lt := by
  rw [List.pairwise_map]
  refine (pairwise_representatives items).imp fun before => ?_
  rwa [← compareIgnoringCase_eq]

/-- The lower-case copies increase and are the same set for a rearranged list, so
they are the same list. -/
theorem map_representatives_of_perm {others : List (List UInt8)}
    (rearranged : others.Perm items) :
    (representatives others).map (List.map toLower) =
      (representatives items).map (List.map toLower) := by
  have nodup : ∀ list, ((representatives list).map (List.map toLower)).Nodup :=
    fun list => (pairwise_map_representatives list).imp fun less same => by
      rw [same, Std.ReflOrd.compare_self] at less
      cases less
  apply List.Perm.eq_of_pairwise _ (pairwise_map_representatives others)
    (pairwise_map_representatives items)
  · rw [List.perm_ext_iff_of_nodup (nodup others) (nodup items)]
    intro word
    rw [mem_map_representatives, mem_map_representatives]
    exact (rearranged.map (List.map toLower)).mem_iff
  · intro first second _ _ less greater
    exact absurd greater (Std.OrientedCmp.not_lt_of_lt less)

/-- Sorting loses nothing, leaves no item in front of one that belongs before it
and keeps the order of equal items.  Dropping repeats keeps an increasing list:
of each class the item that came first, and nothing else.  Doing both again
changes nothing, and a rearranged list has equal representatives. -/
theorem sort_and_dropRepeats (items : List (List UInt8)) :
    (sortIgnoringCase items).Perm items ∧
      (sortIgnoringCase items).Pairwise
        (fun first second => compareIgnoringCase first second ≠ .gt) ∧
      (∀ item, (sortIgnoringCase items).filter (equalIgnoringCase item) =
        items.filter (equalIgnoringCase item)) ∧
      (representatives items).Pairwise
        (fun first second => compareIgnoringCase first second = .lt) ∧
      (∀ item ∈ items, ∃ first,
        items.find? (equalIgnoringCase item) = some first ∧
          (representatives items).filter (equalIgnoringCase item) = [first]) ∧
      representatives items ⊆ items ∧
      sortIgnoringCase (representatives items) = representatives items ∧
      representatives (representatives items) = representatives items ∧
      ∀ others : List (List UInt8), others.Perm items →
        (representatives others).length = (representatives items).length ∧
          List.Forall₂
            (fun first second => equalIgnoringCase first second = true)
            (representatives others) (representatives items) := by
  have sortedAgain := sortIgnoringCase_representatives items
  have droppedAgain : representatives (representatives items) =
      representatives items := by
    rw [representatives, sortedAgain, dropRepeats_representatives]
  refine ⟨sortIgnoringCase_perm items, ?_,
    fun item => filter_sortIgnoringCase item items,
    pairwise_representatives items, fun item => exists_representative,
    fun item => mem_of_mem_representatives, sortedAgain, droppedAgain,
    fun others rearranged => ?_⟩
  · refine (pairwise_sortIgnoringCase items).imp fun ordered => ?_
    rwa [ne_eq, Ordering.ne_gt_iff_isLE]
  · have same := map_representatives_of_perm rearranged
    have sizes := congrArg List.length same
    rw [List.length_map, List.length_map] at sizes
    refine ⟨sizes, ?_⟩
    rw [← List.forall₂_eq_eq_eq, List.forall₂_map_left_iff,
      List.forall₂_map_right_iff] at same
    exact same.imp fun first second => equalIgnoringCase_iff.mpr

theorem sort_and_dropRepeats_mixed_case :
    ([0x41] ∈ ([[0x62], [0x61], [0x41]] : List (List UInt8)) ∧
      [[0x62], [0x61], [0x41]].find? (equalIgnoringCase [0x41]) =
          some [0x61] ∧
        (representatives [[0x62], [0x61], [0x41]]).filter
          (equalIgnoringCase [0x41]) = [[0x61]]) ∧
      ([[0x41], [0x62], [0x61]] : List (List UInt8)).Perm
        [[0x62], [0x61], [0x41]] ∧
      List.Forall₂ (fun first second => equalIgnoringCase first second = true)
        (representatives [[0x41], [0x62], [0x61]])
        (representatives [[0x62], [0x61], [0x41]]) := by
  obtain ⟨_, _, _, _, representative, _, _, _, rearrange⟩ :=
    sort_and_dropRepeats [[0x62], [0x61], [0x41]]
  have among : [0x41] ∈ ([[0x62], [0x61], [0x41]] : List (List UInt8)) := by
    decide
  have rearranged : ([[0x41], [0x62], [0x61]] : List (List UInt8)).Perm
      [[0x62], [0x61], [0x41]] := by
    decide
  have earliest : [[0x62], [0x61], [0x41]].find? (equalIgnoringCase [0x41]) =
      some [0x61] := by
    decide +kernel
  obtain ⟨first, found, kept⟩ := representative [0x41] among
  rw [earliest] at found
  cases found
  exact ⟨⟨among, earliest, kept⟩, rearranged, (rearrange _ rearranged).2⟩

end ByteClass
